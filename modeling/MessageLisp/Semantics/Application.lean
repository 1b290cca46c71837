import MessageLisp.Semantics.Machine

/-! Application of functions: builtin functions and forms, functions of the host, and closures. -/
namespace MessageLisp

open Native (NativeType)
open Source (Expr)
open Eval

/-- An argument of a form as an expression. -/
def rawArgument (form : String) (arguments : List Value) (index : Nat) : Eval Expr :=
  match arguments[index]?.bind Value.expr? with
  | some expr => pure expr
  | none => fail (.invalidForm form (.missingArgument (index + 1)))

/-- The name of a variable. Keywords and the name of the receiver cannot be variables. -/
def variableName (form : String) (expr : Expr) : Eval String :=
  match expr.symbol? with
  | some name =>
    if expr.isKeyword || name = selfName then
      fail (.invalidForm form (.notVariable expr.text))
    else pure name
  | none => fail (.invalidForm form (.notVariable expr.text))

/-- The expressions of a function body. -/
def bodyOf (form : String) (body : List Value) : Eval (List Expr) :=
  body.mapM fun part =>
    match part.expr? with
    | some expr => pure expr
    | none => fail (.invalidForm form .evaluatedBody)

/-- Makes a closure that captures `scope` and belongs to the current program. -/
def makeClosure (form : String) (prototype : Expr) (body : List Value) (scope : ScopeId) :
    Eval ClosureId := do
  let prototype ← ofExcept (Prototype.ofExpr prototype)
  let body ← bodyOf form body
  let closure : Closure :=
    { name? := none
      owner? := none
      prototype
      body
      scope
      source? := (← get).source?
      signature? := prototype.signature? }
  modifyGet (·.addClosure closure)

/-- The name that a function is defined under: a variable, or the text of a string. -/
def definedName (head : Expr) : Eval String :=
  match head with
  | .string _ selector =>
    if selector.isEmpty then variableName "function" head else pure selector
  | _ => variableName "function" head

/-- Evaluates operands one after the other until one of them has the truth value `stop`. -/
def Evaluator.untilTruth (ev : Evaluator) (form : String) (stop : Bool) (scope : ScopeId) :
    (arguments : List Value) → (index : Nat) → (last : Value) → Eval Value
  | [], _, last => pure last
  | argument :: rest, index, _ => do
    let expr ←
      match argument.expr? with
      | some expr => pure expr
      | none => fail (.invalidForm form (.missingArgument (index + 1)))
    let value ← ev.evaluate expr scope
    if value.isTrue = stop then pure value
    else ev.untilTruth form stop scope rest (index + 1) value

/-- Applies a builtin function or form. -/
def Evaluator.applyBuiltin (ev : Evaluator) (builtin : Builtin) (arguments : List Value)
    (scope : ScopeId) : Eval Value := do
  match builtin with
  | .lambda =>
    let prototype ← rawArgument "lambda" arguments 0
    let id ← makeClosure "lambda" prototype (← argumentsFrom arguments 1) scope
    pure (.function (.closure id))
  | .function =>
    let head ← rawArgument "function" arguments 0
    let name ← definedName head
    let prototype ← rawArgument "function" arguments 1
    let id ← makeClosure "function" prototype (← argumentsFrom arguments 2) scope
    modify (·.modifyClosure id fun closure => { closure with name? := some name })
    define scope name (.function (.closure id))
    pure (.function (.closure id))
  | .set =>
    if arguments.length ≠ 2 then fail (.invalidForm "set" .assignmentShape)
    else
      let name ← variableName "set" (← rawArgument "set" arguments 0)
      let value ← ev.evaluate (← rawArgument "set" arguments 1) scope
      assign scope name value
      pure value
  | .quote =>
    match arguments with
    | [argument] => pure argument
    | _ => fail (.invalidForm "quote" .quotationShape)
  | .and => ev.untilTruth "and" false scope arguments 0 (.bool true)
  | .or => ev.untilTruth "or" true scope arguments 0 (.bool false)
  | .list => pure (.list arguments)
  | .print =>
    printLine ((← get).displayAll arguments)
    pure (arguments.getLast?.getD .null)
  | .raise => fail (.raised ((← get).displayAll arguments))

/-- The expressions among the arguments that a builtin evaluates or makes part of a function. -/
def Builtin.taken (builtin : Builtin) (arguments : List Value) : List Expr :=
  match builtin with
  | .lambda => (arguments.drop 1).filterMap Value.expr?
  | .function => (arguments.drop 2).filterMap Value.expr?
  | .set => (arguments.drop 1).filterMap Value.expr?
  | .and => arguments.filterMap Value.expr?
  | .or => arguments.filterMap Value.expr?
  | _ => []

/-- Fails if a function of the host does not take that many arguments. -/
def HostFunction.requireArity (host : HostFunction) (count : Nat) : Eval Unit :=
  match host.arity? with
  | some expected =>
    if count ≠ expected then fail (.arityMismatch host.name expected count) else pure ()
  | none => pure ()

/-- Does what a function of the host does. -/
def HostAction.perform (action : HostAction) (arguments : List Value) (scope : ScopeId) :
    Eval Value := do
  match action with
  | .echo => pure (.list arguments)
  | .fail message => Eval.fail (.raised message)
  | .panic breakdown => throw (.panic breakdown)
  | .depth => pure (.int (Int64.ofNat (← get).depth))
  | .scopeNames =>
    let environment := (← get).environment
    if environment.isOutermost scope then pure (.list [.string "<root>"])
    else pure (.list ((environment.names scope).map .string))

/-- Applies a function of the host. -/
def applyHost (host : HostFunction) (arguments : List Value) (scope : ScopeId) : Eval Value := do
  host.requireArity arguments.length
  requireOpen
  host.action.perform arguments scope

/-- Converts a value to a native type. -/
def coerceTo (type : NativeType) (value : Value) : Eval Value := do
  match type.coerce? value with
  | some coerced => pure coerced
  | none => cannotConvert type.name ((← get).pretty value)

/-- Converts an argument to the type of its parameter, if that has one. -/
def coerceArgument (type? : Option NativeType) (value : Value) : Eval Value :=
  match type? with
  | some type => coerceTo type value
  | none => pure value

/-- The type that the argument at an index is converted to: that of its parameter, else that of a
signature of the right length. -/
def parameterType (closure : Closure) (index : Nat) : Eval (Option NativeType) :=
  match closure.prototype.parameters[index]? with
  | none => abort "parameter index out of range"
  | some parameter =>
    match parameter.type?, closure.signature? with
    | some type, _ => pure (some type)
    | none, none => pure none
    | none, some signature =>
      if signature.arguments.length ≠ closure.prototype.arity then pure none
      else
        match signature.arguments[index]? with
        | some type => pure (some type)
        | none => abort "signature index out of range"

/-- The arguments of a closure, converted one after the other. -/
def coerceArguments (closure : Closure) (arguments : List Value) : Eval (List Value) :=
  arguments.zipIdx.mapM fun (argument, index) => do
    coerceArgument (← parameterType closure index) argument

/-- A fresh scope inside the captured one in which the parameters of a closure are bound, and
`super` if the closure is a method of a class with a superclass. -/
def bindArguments (closure : Closure) (arguments : List Value) : Eval ScopeId := do
  let arity := closure.prototype.arity
  if arguments.length ≠ arity then
    fail (.arityMismatch closure.displayName arity arguments.length)
  else
    let values ← coerceArguments closure arguments
    let scope ← newScope (some closure.scope)
    let names := closure.prototype.parameters.map Parameter.name
    modify (·.mapEnvironment (·.defineAll scope (names.zip values)))
    match closure.owner?.bind (← get).hierarchy.superclass? with
    | some superclass => define scope superName (.classRef superclass)
    | none => pure ()
    pure scope

/-- Runs the body of a closure in a scope that has its parameters. -/
def Evaluator.runBody (ev : Evaluator) (closure : Closure) (scope : ScopeId) : Eval Value :=
  ev.enter closure.source? do
    let result ← ev.sequence closure.body scope
    match closure.returnType? with
    | none => pure result
    | some .object => pure result
    | some type => coerceTo type result

/-- Applies a closure. With a receiver it runs as a method, with `self` bound. -/
def Evaluator.applyClosure (ev : Evaluator) (id : ClosureId) (receiver? : Option Value)
    (arguments : List Value) : Eval Value := do
  requireOpen
  let closure ← closureOf id
  let scope ← bindArguments closure arguments
  match receiver? with
  | some receiver => define scope selfName receiver
  | none => pure ()
  ev.runBody closure scope

/-- Applies a function to values. Closures run in their own scope and do not see `scope`. -/
def Evaluator.apply (ev : Evaluator) (target : FunctionRef) (arguments : List Value)
    (scope : ScopeId) : Eval Value := do
  match target with
  | .builtin builtin =>
    requireOpen
    let guest ← ev.adopting (builtin.taken arguments)
    guest.applyBuiltin builtin arguments scope
  | .host id => applyHost (← hostOf id) arguments scope
  | .closure id => ev.applyClosure id none arguments

/-- Applies a function to the parts of the expression at hand, as they are. -/
def Evaluator.applyInPlace (ev : Evaluator) (target : FunctionRef) (parts : List Expr)
    (scope : ScopeId) : Eval Value := do
  match target with
  | .builtin builtin =>
    requireOpen
    ev.applyBuiltin builtin (parts.map .expr) scope
  | target => ev.apply target (parts.map .expr) scope

end MessageLisp
