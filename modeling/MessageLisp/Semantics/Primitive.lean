import MessageLisp.Semantics.Application

/-! The primitive methods of the builtin classes. Blocks handed to them run in the root scope,
except for loops and handlers, which use the scope that the receiving closure captured. -/
namespace MessageLisp

open Eval

/-- Exact arithmetic on 64-bit integers: no result where the exact one does not fit. -/
def addExact (a b : Int64) : Option Int64 :=
  Number.checked (a.toInt + b.toInt)

def subtractExact (a b : Int64) : Option Int64 :=
  Number.checked (a.toInt - b.toInt)

def multiplyExact (a b : Int64) : Option Int64 :=
  Number.checked (a.toInt * b.toInt)

/-- The remainder of a truncated division. There is none where the quotient does not exist or does
not fit. -/
def remainderExact (a b : Int64) : Option Int64 :=
  if b = 0 then none
  else (Number.checked (a.toInt.tdiv b.toInt)).bind fun _ => Number.checked (a.toInt.tmod b.toInt)

/-- The quotient of a division without remainder. -/
def divideExact (a b : Int64) : Option Int64 :=
  match remainderExact a b with
  | some 0 => Number.checked (a.toInt.tdiv b.toInt)
  | _ => none

/-- A value as a float, for arithmetic. -/
def numberOf (value : Value) : Eval Float := do
  match value.float? with
  | some x => pure x
  | none => cannotConvert "Number" ((← get).pretty value)

/-- Two integers, which have operations of their own. -/
def integers? : Value → Value → Option (Int64 × Int64)
  | .int a, .int b => some (a, b)
  | _, _ => none

/-- Integer arithmetic where it is exact, float arithmetic otherwise. -/
def arithmetic (exact : Int64 → Int64 → Option Int64) (approximate : Float → Float → Float)
    (receiver argument : Value) : Eval Value := do
  match (integers? receiver argument).bind fun (a, b) => exact a b with
  | some n => pure (.int n)
  | none =>
    let a ← numberOf receiver
    let b ← numberOf argument
    pure (.float (approximate a b))

def requireNonzero (divisor : Value) : Eval Unit := do
  if (← numberOf divisor) == 0.0 then fail .divisionByZero

/-- Compares two integers exactly and other numbers as floats. -/
def comparison (exact : Int64 → Int64 → Bool) (approximate : Float → Float → Bool)
    (receiver argument : Value) : Eval Value := do
  match integers? receiver argument with
  | some (a, b) => pure (.bool (exact a b))
  | none =>
    let a ← numberOf receiver
    let b ← numberOf argument
    pure (.bool (approximate a b))

/-- A string, or the error that names what was expected. -/
def stringOf (expected : String) (value : Value) : Eval String := do
  match value.string? with
  | some text => pure text
  | none => cannotConvert expected ((← get).pretty value)

def listOf (value : Value) : Eval (List Value) := do
  match value with
  | .list items => pure items
  | _ => cannotConvert "List" ((← get).pretty value)

def functionOf (value : Value) : Eval FunctionRef := do
  match value.function? with
  | some target => pure target
  | none => cannotConvert "Function" ((← get).className value)

def closureIdOf (value : Value) : Eval ClosureId := do
  match ← functionOf value with
  | .closure id => pure id
  | _ => cannotConvert "Closure" ((← get).className value)

def classIdOf (value : Value) : Eval ClassId := do
  match value with
  | .classRef id => pure id
  | _ => cannotConvert "Class" ((← get).pretty value)

/-- The item of a list at an index that counts from zero. -/
def itemAt (items : List Value) (index : Value) : Eval Value := do
  match index with
  | .int i =>
    match if 0 ≤ i.toInt then items[i.toInt.toNat]? else none with
    | some item => pure item
    | none => fail (.indexOutOfBounds i items.length)
  | _ => cannotConvert "integer index" ((← get).pretty index)

/-- The instance behind a value and the slot of a field in it. -/
def slotOf (receiver : Value) (field : String) : Eval (InstanceId × Instance × Nat) := do
  match receiver with
  | .object id =>
    let object ← instanceOf id
    let cls ← Eval.classOf object.cls
    match cls.slot? field with
    | some slot => pure (id, object, slot)
    | none => fail (.noSuchField cls.name field)
  | _ => fail (.noSuchField ((← get).className receiver) field)

def getField (receiver : Value) (field : String) : Eval Value := do
  let (_, object, slot) ← slotOf receiver field
  match object.slots[slot]? with
  | some value => pure value
  | none => abort "slot out of range"

def setField (receiver : Value) (field : String) (value : Value) : Eval Unit := do
  let (id, object, slot) ← slotOf receiver field
  if h : slot < object.slots.size then
    let slots := object.slots.set slot value h
    modify fun session =>
      { session with instances := session.instances.modify id.index ({ · with slots }) }
  else abort "slot out of range"

/-- A new instance of a class, with null in every slot. -/
def newInstance (id : ClassId) : Eval Value := do
  let cls ← Eval.classOf id
  let object : Instance := ⟨id, Array.replicate cls.fields.length .null⟩
  let id ← modifyGet (·.addInstance object)
  pure (.object id)

/-- Defines a class below another one. -/
def defineClass (superclass : ClassId) (name : String) (fields : List String) : Eval Value := do
  let (id, hierarchy) ← ofExcept ((← get).hierarchy.define name (some superclass) fields)
  modify fun session => { session with hierarchy }
  pure (.classRef id)

/-- Makes the functions bound in a scope methods of a class, in order of their names, and takes them
out of the scope. Closures take on the class and the name. Returns the methods. -/
def collectMethods (cls : ClassId) (scope : ScopeId) (names : List String) :
    Eval (List (String × Method)) :=
  names.filterMapM fun name => do
    match (← get).environment.getLocal? scope name with
    | some (.function target) =>
      modify (·.mapEnvironment (·.remove scope name))
      match target with
      | .closure id =>
        modify (·.modifyClosure id fun closure =>
          { closure with owner? := some cls, name? := some name })
      | _ => pure ()
      pure (some (name, .function target))
    | _ => pure none

/-- What a handler is applied to: the message of the failure if it is a closure of one parameter. -/
def handlerArguments (handler : FunctionRef) (error : Error) : Eval (List Value) := do
  match handler with
  | .closure id =>
    if (← closureOf id).prototype.arity = 1 then pure [.string error.message] else pure []
  | _ => pure []

namespace Evaluator

/-- Adds to a class the functions that the body of a closure binds, and returns their number. The
body runs in a fresh scope inside the one that the closure captured. -/
def extendClass (ev : Evaluator) (cls : ClassId) (definitions : ClosureId) : Eval Nat := do
  let closure ← closureOf definitions
  let scope ← newScope (some closure.scope)
  let guest ← ev.adopting closure.body
  let _ ← guest.sequence closure.body scope
  let methods ← collectMethods cls scope ((← get).environment.names scope)
  modify (·.mapHierarchy (·.installAll cls methods))
  pure methods.length

/-- Applies a block such as the argument of `ifTrue:`. -/
def runBlock (ev : Evaluator) (block : Value) : Eval Value := do
  ev.apply (← functionOf block) [] Environment.root

/-- Whether a closure without parameters returns a value of the expected truth. -/
def test (ev : Evaluator) (condition : ClosureId) (expected : Bool) (scope : ScopeId) :
    Eval Bool := do
  let value ← ev.apply (.closure condition) [] scope
  pure (value.isTrue = expected)

/-- Applies the body while the receiver keeps the expected truth value. Returns the last value of
the body, null if it never ran. -/
def repeatWhile (ev : Evaluator) (expected : Bool) (receiver body : Value) : Eval Value := do
  let condition ← closureIdOf receiver
  let body ← functionOf body
  let closure ← closureOf condition
  let scope := closure.scope
  loop (ev.test condition expected scope) (ev.apply body [] scope) ev.rounds .null

/-- Applies a closure and hands a failure to a handler. Returns whether the handler ran. -/
def handleFailure (ev : Evaluator) (guarded : ClosureId) (handler : FunctionRef) : Eval Bool := do
  requireOpen
  let closure ← closureOf guarded
  handling (ev.guarding.apply (.closure guarded) [] closure.scope) fun error => do
    let arguments ← handlerArguments handler error
    let _ ← ev.apply handler arguments closure.scope
    pure ()

/-- Runs a primitive method. -/
def runPrimitive (ev : Evaluator) (primitive : Primitive) (receiver : Value)
    (arguments : List Value) : Eval Value := do
  match primitive with
  | .add => arithmetic addExact (· + ·) receiver (← argument arguments 0)
  | .subtract => arithmetic subtractExact (· - ·) receiver (← argument arguments 0)
  | .multiply => arithmetic multiplyExact (· * ·) receiver (← argument arguments 0)
  | .divide =>
    let divisor ← argument arguments 0
    requireNonzero divisor
    arithmetic divideExact (· / ·) receiver divisor
  | .modulo =>
    let divisor ← argument arguments 0
    requireNonzero divisor
    arithmetic remainderExact Number.remainder receiver divisor
  | .less => comparison (· < ·) (· < ·) receiver (← argument arguments 0)
  | .greater => comparison (· > ·) (· > ·) receiver (← argument arguments 0)
  | .lessOrEqual => comparison (· ≤ ·) (· ≤ ·) receiver (← argument arguments 0)
  | .greaterOrEqual => comparison (· ≥ ·) (· ≥ ·) receiver (← argument arguments 0)
  | .length =>
    let text ← stringOf "String" receiver
    pure (.int (Int64.ofNat text.length))
  | .concatenate =>
    let text ← stringOf "String" receiver
    let argument ← argument arguments 0
    pure (.string (text ++ (← get).display argument))
  | .count =>
    let items ← listOf receiver
    pure (.int (Int64.ofNat items.length))
  | .at =>
    let items ← listOf receiver
    itemAt items (← argument arguments 0)
  | .first =>
    let items ← listOf receiver
    pure (items.head?.getD .null)
  | .append =>
    let items ← listOf receiver
    pure (.list (items ++ [← argument arguments 0]))
  | .forEach =>
    let body ← functionOf (← argument arguments 0)
    for item in ← listOf receiver do
      let _ ← ev.apply body [item] Environment.root
    pure receiver
  | .map =>
    let body ← functionOf (← argument arguments 0)
    let mapped ← (← listOf receiver).mapM fun item => ev.apply body [item] Environment.root
    pure (.list mapped)
  | .filter =>
    let test ← functionOf (← argument arguments 0)
    let kept ← (← listOf receiver).filterM fun item => do
      pure (← ev.apply test [item] Environment.root).isTrue
    pure (.list kept)
  | .injectInto =>
    let step ← functionOf (← argument arguments 1)
    let items ← listOf receiver
    items.foldlM (fun total item => ev.apply step [total, item] Environment.root)
      (← argument arguments 0)
  | .isTrue => pure (.bool receiver.isTrue)
  | .ifTrue =>
    if receiver.isTrue then ev.runBlock (← argument arguments 0) else pure .null
  | .ifFalse =>
    if receiver.isTrue then pure .null else ev.runBlock (← argument arguments 0)
  | .ifTrueIfFalse => ev.runBlock (← argument arguments (if receiver.isTrue then 0 else 1))
  | .ifFalseIfTrue => ev.runBlock (← argument arguments (if receiver.isTrue then 1 else 0))
  | .description => pure (.string ((← get).display receiver))
  | .prettyDescription => pure (.string ((← get).pretty receiver))
  | .print =>
    printLine ((← get).display receiver)
    pure receiver
  | .prettyPrint =>
    printLine ((← get).pretty receiver)
    pure receiver
  | .classOf => pure (.classRef ((← get).classOf receiver))
  | .respondsTo =>
    let selector ← stringOf "selector" (← argument arguments 0)
    let session ← get
    pure (.bool (session.hierarchy.resolve? (session.classOf receiver) selector).isSome)
  | .equal => pure (.bool (receiver.same (← argument arguments 0)))
  | .getField =>
    let field ← stringOf "field name" (← argument arguments 0)
    getField receiver field
  | .setField =>
    let field ← stringOf "field name" (← argument arguments 1)
    let value ← argument arguments 0
    setField receiver field value
    pure value
  | .new => newInstance (← classIdOf receiver)
  | .className =>
    let id ← classIdOf receiver
    pure (.string ((← get).hierarchy.nameOf id))
  | .superclass =>
    let id ← classIdOf receiver
    match (← get).hierarchy.superclass? id with
    | some superclass => pure (.classRef superclass)
    | none => pure .null
  | .subclass =>
    let name ← stringOf "class name" (← argument arguments 0)
    defineClass (← classIdOf receiver) name []
  | .subclassWithFields =>
    let name ← stringOf "class name" (← argument arguments 0)
    let fields ← (← listOf (← argument arguments 1)).mapM (stringOf "field name")
    defineClass (← classIdOf receiver) name fields
  | .extend =>
    let cls ← classIdOf receiver
    let definitions ← closureIdOf (← argument arguments 0)
    let _ ← ev.extendClass cls definitions
    pure receiver
  | .functionName =>
    let target ← functionOf receiver
    match (← get).functionName? target with
    | some name => pure (.string name)
    | none => pure .null
  | .whileTrue => ev.repeatWhile true receiver (← argument arguments 0)
  | .whileFalse => ev.repeatWhile false receiver (← argument arguments 0)
  | .onException =>
    let guarded ← closureIdOf receiver
    let handler ← functionOf (← argument arguments 0)
    pure (.bool (← ev.handleFailure guarded handler))

end Evaluator

end MessageLisp
