import MessageLisp.Session

/-! Evaluation as a computation over a session. A computation ends in a value or an interruption,
and in both cases leaves a session behind: effects made before a failure stay. -/
namespace MessageLisp

open Source (Expr)

/-- Computations of the language. -/
abbrev Eval := ExceptT Interruption (StateM Session)

namespace Eval

variable {α : Type}

/-- Ends with an error of the language. -/
def fail (error : Error) : Eval α :=
  throw (.error error)

/-- Ends because of a slip of the machine itself, such as a missing argument. -/
def abort (text : String) : Eval α :=
  throw (.panic ⟨some text⟩)

def ofExcept : Except Error α → Eval α
  | .ok a => pure a
  | .error error => fail error

/-- The outcome of a computation as a value. -/
def outcome (x : Eval α) : Eval (Except Interruption α) :=
  ExceptT.lift x.run

/-- Runs `x` and catches its failure. A panic is caught as the error that it turns into. -/
def attempt (x : Eval α) : Eval (Except Error α) := do
  match ← outcome x with
  | .ok a => pure (.ok a)
  | .error (.error error) => pure (.error error)
  | .error (.panic panic) => pure (.error panic.toError)
  | .error (.outOfFuel fuel) => throw (.outOfFuel fuel)

/-- Runs `x` and hands its failure to a handler; the failure is no longer the fault on record then.
Gives whether the handler ran. -/
def handling (x : Eval α) (handler : Error → Eval Unit) : Eval Bool := do
  match ← attempt x with
  | .ok _ => pure false
  | .error error =>
    modify Session.clearFaultSite
    handler error
    pure true

/-- Runs `x` and then changes the session, whatever the outcome. -/
def andFinally (x : Eval α) (f : Session → Session) : Eval α := do
  let result ← outcome x
  modify f
  MonadExcept.ofExcept result

/-- The error for a value that does not convert. -/
def cannotConvert (expected : String) (found : String) : Eval α :=
  fail (.typeCoercion expected found)

/-- The item at an index, which callers know to exist. -/
def argument (arguments : List Value) (index : Nat) : Eval Value :=
  match arguments[index]? with
  | some value => pure value
  | none => abort "argument index out of range"

/-- The items from an index on, which callers know not to be beyond the end. -/
def argumentsFrom (arguments : List Value) (start : Nat) : Eval (List Value) :=
  if start ≤ arguments.length then pure (arguments.drop start)
  else abort "argument slice out of range"

def closureOf (id : ClosureId) : Eval Closure := do
  match (← get).closures[id.index]? with
  | some closure => pure closure
  | none => abort "no such closure"

def hostOf (id : HostId) : Eval HostFunction := do
  match (← get).hosts[id.index]? with
  | some host => pure host
  | none => abort "no such host function"

def instanceOf (id : InstanceId) : Eval Instance := do
  match (← get).instances[id.index]? with
  | some object => pure object
  | none => abort "no such instance"

def classOf (id : ClassId) : Eval Class := do
  match (← get).hierarchy.get? id with
  | some cls => pure cls
  | none => abort "no such class"

/-- Fails once the session has ended. -/
def requireOpen : Eval Unit := do
  unless (← get).isOpen do fail .sessionClosed

/-- Adds an empty scope. -/
def newScope (parent : Option ScopeId) : Eval ScopeId :=
  modifyGet (·.newScope parent)

/-- Binds a name in a scope. -/
def define (scope : ScopeId) (name : String) (value : Value) : Eval Unit :=
  modify (·.mapEnvironment (·.define scope name value))

/-- Changes the innermost binding of a name. -/
def assign (scope : ScopeId) (name : String) (value : Value) : Eval Unit :=
  modify (·.mapEnvironment (·.assign scope name value))

/-- Writes a line. -/
def printLine (line : String) : Eval Unit :=
  modify (·.print line)

/-- Runs `x` one application deeper, unless the limit is reached. -/
def deeper (x : Eval α) : Eval α := do
  let session ← get
  if session.maxDepth ≤ session.depth then fail (.stackExhausted session.maxDepth)
  else
    set { session with depth := session.depth + 1 }
    andFinally x fun session => { session with depth := session.depth - 1 }

/-- Runs `x` with another program as the current one. -/
def within (source? : Option SourceText) (x : Eval α) : Eval α := do
  let session ← get
  let previous := session.source?
  set { session with source? }
  andFinally x fun session => { session with source? := previous }

/-- Runs the body of a function that belongs to the given program. -/
def enter (source? : Option SourceText) (body : Eval α) : Eval α :=
  deeper (within source? body)

/-- Runs `x`, recording `expr` as the origin of an error that has no origin yet. -/
def locating (expr : Expr) (x : Eval α) : Eval α := do
  let result ← outcome x
  match result with
  | .ok a => pure a
  | .error (.error error) =>
    modify (·.noteFaultSite expr)
    fail error
  | .error interruption => throw interruption

/-- Runs the body as long as the test holds. Gives the last value of the body, and `last` if it
never ran. -/
def loop (test : Eval Bool) (body : Eval Value) : (rounds : Nat) → (last : Value) → Eval Value
  | 0, _ => throw (.outOfFuel .rounds)
  | rounds + 1, last => do
    if ← test then
      let value ← body
      loop test body rounds value
    else pure last

end Eval

/-- Ways to evaluate expressions. -/
structure Access where
  /-- Evaluates a part of the expression at hand or of the body of a function. -/
  evaluate : Expr → ScopeId → Eval Value
  /-- Takes in expressions from elsewhere and gives the way to evaluate them. Such expressions reach
  a form as values, or are definitions that extend a class. -/
  adopt : List Expr → Eval (Expr → ScopeId → Eval Value)

/-- Treats expressions from elsewhere like all others. -/
def Access.uniform (evaluate : Expr → ScopeId → Eval Value) : Access where
  evaluate
  adopt := fun _ => pure evaluate

/-- What the rules of the language need to evaluate expressions. -/
structure Evaluator extends Access where
  /-- The ways to evaluate where a failure is going to be caught. -/
  guarded : Access
  /-- Runs the body of a function that belongs to the given program. -/
  enter : Option SourceText → Eval Value → Eval Value
  /-- How often a loop may go round. -/
  rounds : Nat

/-- The evaluator that runs the bodies of functions as they are meant to, and takes no notice of
where a failure is going to be caught. -/
def Evaluator.ofAccess (access : Access) (rounds : Nat) : Evaluator :=
  { access with
    guarded := access
    enter := Eval.enter
    rounds }

/-- The evaluator that treats expressions from elsewhere like all others. -/
def Evaluator.uniform (evaluate : Expr → ScopeId → Eval Value) (rounds : Nat) : Evaluator :=
  .ofAccess (.uniform evaluate) rounds

/-- The evaluator to use where a failure is going to be caught. -/
def Evaluator.guarding (ev : Evaluator) : Evaluator :=
  { ev with toAccess := ev.guarded }

/-- The evaluator to use for expressions from elsewhere, if there are any. -/
def Evaluator.adopting (ev : Evaluator) (exprs : List Expr) : Eval Evaluator := do
  if exprs.isEmpty then pure ev else pure { ev with evaluate := ← ev.adopt exprs }

/-- Evaluates expressions in order and gives the last value, null if there are none. -/
def Evaluator.sequence (ev : Evaluator) (exprs : List Expr) (scope : ScopeId) : Eval Value :=
  exprs.foldlM (fun _ expr => ev.evaluate expr scope) .null

end MessageLisp
