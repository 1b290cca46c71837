import MessageLisp.Environment
import MessageLisp.Hierarchy
import MessageLisp.Native.Coercion
import MessageLisp.Native.Representation
import MessageLisp.Prototype
import MessageLisp.Selector

/-! Sessions: all the state that an evaluation can see or change. -/
namespace MessageLisp

open Native (Signature NativeType)
open Source (Expr)

/-- A program text under the label that it was handed in with. -/
structure SourceText where
  label : String
  text : String
deriving DecidableEq, Repr

/-- A function written in the language. The name and the owning class can change later; all else is
fixed when the closure is made. -/
structure Closure where
  name? : Option String
  /-- The class whose superclass `super` stands for in the body. -/
  owner? : Option ClassId
  prototype : Prototype
  body : List Expr
  /-- The scope that the closure was made in. -/
  scope : ScopeId
  /-- The program that the body was read from. -/
  source? : Option SourceText
  signature? : Option Signature

namespace Closure

/-- What errors call the closure. -/
def displayName (closure : Closure) : String :=
  closure.name?.getD "<lambda>"

/-- Whether the closure can be called by native code, and what keeps it from that. A closure without
a signature makes no attempt. -/
def entry? (closure : Closure) : Option (Except Error Signature) :=
  closure.signature?.map fun signature =>
    if signature.arguments.length ≠ closure.prototype.arity then
      .error (.arityMismatch s!"signature {signature.text}" closure.prototype.arity
        signature.arguments.length)
    else signature.build

/-- The type that the result is coerced to. -/
def returnType? (closure : Closure) : Option NativeType :=
  closure.prototype.returns? <|> closure.signature?.map Signature.returns

end Closure

/-- What a function of the host does. -/
inductive HostAction where
  /-- Returns the list of its arguments. -/
  | echo
  | fail (message : String)
  | panic (panic : Panic)
  /-- Returns the depth of applications. -/
  | depth
  /-- Returns the names of the scope that it is applied in. -/
  | scopeNames
deriving DecidableEq, Repr

/-- A function that the host has added. -/
structure HostFunction where
  name : String
  /-- The number of arguments, unless any number will do. -/
  arity? : Option Nat
  /-- Whether it takes its arguments unevaluated. -/
  isForm : Bool
  action : HostAction
deriving DecidableEq, Repr

structure Instance where
  cls : ClassId
  slots : Array Value
deriving Inhabited

/-- The expression that a failure came from and the program it was read from. -/
structure FaultSite where
  expr : Expr
  source? : Option SourceText

structure Session where
  environment : Environment Value
  hierarchy : Hierarchy
  instances : Array Instance
  closures : Array Closure
  hosts : Array HostFunction
  /-- Most nested applications of closures. -/
  maxDepth : Nat
  /-- Applications of closures that are running. -/
  depth : Nat
  /-- The program whose expressions are being evaluated. -/
  source? : Option SourceText
  /-- Where the failure that is on its way up came from. -/
  faultSite? : Option FaultSite
  /-- Everything printed and not yet collected. -/
  output : String
  /-- The last failure inside a call from native code. -/
  lastError? : Option Error
  isOpen : Bool

namespace Session

/-- The bindings of the root scope of a new session. -/
def globals : Table Value :=
  [("true", .bool true), ("false", .bool false), ("null", .null)] ++
    Builtin.all.map fun builtin => (builtin.name, .function (.builtin builtin))

/-- A new session with a limit on nested applications. -/
def new (maxDepth : Nat) : Session where
  environment := Environment.initial.modifyBindings Environment.root fun _ => globals
  hierarchy := Hierarchy.initial
  instances := #[]
  closures := #[]
  hosts := #[]
  maxDepth
  depth := 0
  source? := none
  faultSite? := none
  output := ""
  lastError? := none
  isOpen := true

/-- Ends the session. Its functions stay around but can no longer be applied. -/
def close (session : Session) : Session :=
  { session with
    environment := session.environment.clear Environment.root
    hierarchy := session.hierarchy.clearMethods
    isOpen := false }

/-- The output so far, and the session without it. -/
def takeOutput (session : Session) : String × Session :=
  (session.output, { session with output := "" })

/-- The last failure of a call from native code, and the session without it. -/
def takeLastError (session : Session) : Option Error × Session :=
  (session.lastError?, { session with lastError? := none })

def functionName? (session : Session) : FunctionRef → Option String
  | .builtin builtin => some builtin.name
  | .host id => session.hosts[id.index]?.map HostFunction.name
  | .closure id => session.closures[id.index]?.bind Closure.name?

/-- Whether a function takes its arguments unevaluated. -/
def isForm (session : Session) : FunctionRef → Bool
  | .builtin builtin => builtin.isForm
  | .host id => (session.hosts[id.index]?.map HostFunction.isForm).getD false
  | .closure _ => false

/-- The class of a function. -/
def functionClass : FunctionRef → BuiltinClass
  | .closure _ => .closure
  | _ => .function

/-- The class that answers the messages sent to a value. -/
def classOf (session : Session) : Value → ClassId
  | .null => BuiltinClass.null.id
  | .bool _ => BuiltinClass.boolean.id
  | .int _ => BuiltinClass.number.id
  | .float _ => BuiltinClass.number.id
  | .string _ => BuiltinClass.string.id
  | .list _ => BuiltinClass.list.id
  | .expr _ => BuiltinClass.expression.id
  | .function target => (functionClass target).id
  | .classRef _ => BuiltinClass.cls.id
  | .object id => (session.instances[id.index]?.map Instance.cls).getD BuiltinClass.object.id
  | .pointer _ => BuiltinClass.pointer.id

/-- The name of the class of a value. -/
def className (session : Session) (value : Value) : String :=
  session.hierarchy.nameOf (session.classOf value)

def functionText (session : Session) (target : FunctionRef) : String :=
  let cls := (functionClass target).name
  match session.functionName? target with
  | some name => s!"<{cls} {name}>"
  | none => s!"<{cls}>"

mutual

/-- The text of a value, with the given way of writing strings. -/
def describe (session : Session) (quote : String → String) : Value → String
  | .null => "null"
  | .bool value => if value then "true" else "false"
  | .int value => toString value.toInt
  | .float value => Number.floatText value
  | .string text => quote text
  | .list items => "(" ++ " ".intercalate (describeAll session quote items) ++ ")"
  | .expr tree => tree.text
  | .function target => session.functionText target
  | .classRef id => session.hierarchy.nameOf id
  | .object id => s!"<{session.className (.object id)} instance>"
  | .pointer address => "0x" ++ String.ofList (Nat.toDigits 16 address.toNat)

/-- The texts of several values. -/
def describeAll (session : Session) (quote : String → String) : List Value → List String
  | [] => []
  | item :: rest => describe session quote item :: describeAll session quote rest

end

/-- The text of a value as it is printed. -/
def display (session : Session) (value : Value) : String :=
  session.describe (fun text => text) value

/-- Like `display`, but strings are quoted. -/
def pretty (session : Session) (value : Value) : String :=
  session.describe Text.quoteDescription value

/-- Several values as printed on one line. -/
def displayAll (session : Session) (values : List Value) : String :=
  " ".intercalate (session.describeAll (fun text => text) values)

/-- Changes the scopes. -/
def mapEnvironment (session : Session) (f : Environment Value → Environment Value) : Session :=
  { session with environment := f session.environment }

/-- Changes the classes. -/
def mapHierarchy (session : Session) (f : Hierarchy → Hierarchy) : Session :=
  { session with hierarchy := f session.hierarchy }

/-- Adds an empty scope. -/
def newScope (session : Session) (parent : Option ScopeId) : ScopeId × Session :=
  let (scope, environment) := session.environment.push parent
  (scope, { session with environment })

def addClosure (session : Session) (closure : Closure) : ClosureId × Session :=
  (⟨session.closures.size⟩, { session with closures := session.closures.push closure })

def addHost (session : Session) (host : HostFunction) : HostId × Session :=
  (⟨session.hosts.size⟩, { session with hosts := session.hosts.push host })

def addInstance (session : Session) (object : Instance) : InstanceId × Session :=
  (⟨session.instances.size⟩, { session with instances := session.instances.push object })

/-- Changes a closure. -/
def modifyClosure (session : Session) (id : ClosureId) (f : Closure → Closure) : Session :=
  { session with closures := session.closures.modify id.index f }

/-- Adds to the output. -/
def print (session : Session) (line : String) : Session :=
  { session with output := session.output ++ line ++ "\n" }

/-- Records where a failure came from, unless a deeper expression has been recorded. -/
def noteFaultSite (session : Session) (expr : Expr) : Session :=
  match session.faultSite? with
  | some _ => session
  | none => { session with faultSite? := some ⟨expr, session.source?⟩ }

def clearFaultSite (session : Session) : Session :=
  { session with faultSite? := none }

end Session

end MessageLisp
