import MessageLisp.Session

/-! Inspection texts: one-line pictures of the parts of a session, for people who debug it. Names
are quoted, records show their fields, and an absent part is `None`. -/
namespace MessageLisp.Inspection

open Native (NativeType Signature)
open Text (quoteDescription)

def list (items : List String) : String :=
  "[" ++ ", ".intercalate items ++ "]"

def quoted (names : List String) : String :=
  list (names.map quoteDescription)

def option (part? : Option String) : String :=
  match part? with
  | some part => s!"Some({part})"
  | none => "None"

def bool (value : Bool) : String :=
  if value then "true" else "false"

/-- A record; without fields it is just its name. -/
def record (name : String) (fields : List (String × String)) : String :=
  if fields.isEmpty then name
  else
    let shown := fields.map fun (field, text) => field ++ ": " ++ text
    name ++ " \x7b " ++ ", ".intercalate shown ++ " \x7d"

def type : NativeType → String
  | .void => "Void"
  | .bool => "Bool"
  | .int8 => "I8"
  | .uint8 => "U8"
  | .int16 => "I16"
  | .uint16 => "U16"
  | .int32 => "I32"
  | .uint32 => "U32"
  | .int64 => "I64"
  | .uint64 => "U64"
  | .size => "Usize"
  | .float32 => "F32"
  | .float64 => "F64"
  | .pointer => "Pointer"
  | .object => "Object"
  | .cString => "CString"
  | .unsupported name => s!"Unsupported({quoteDescription name})"

def signature (signature : Signature) : String :=
  record "Signature"
    [("arguments", list (signature.arguments.map type)), ("returns", type signature.returns)]

def parameter (parameter : Parameter) : String :=
  record "Parameter"
    [("name", quoteDescription parameter.name), ("ty", option (parameter.type?.map type))]

def prototype (prototype : Prototype) : String :=
  record "Prototype"
    [("parameters", list (prototype.parameters.map parameter)),
      ("returns", option (prototype.returns?.map type))]

def scope (environment : Environment Value) (id : ScopeId) : String :=
  record "Scope"
    [("names", quoted (environment.names id)), ("root", bool (environment.isOutermost id))]

def cls (hierarchy : Hierarchy) (cls : Class) : String :=
  record "Class"
    [("name", quoteDescription cls.name),
      ("superclass", option (cls.superclass?.map fun id => quoteDescription (hierarchy.nameOf id))),
      ("fields", quoted cls.fields)]

/-- A function that is not written in the language. -/
def native (name : String) (arity? : Option Nat) (isForm : Bool) : String :=
  record "NativeFunction"
    [("name", quoteDescription name), ("arity", option (arity?.map fun n => toString n)),
      ("evaluates_own_arguments", bool isForm)]

/-- A closure that native code cannot call. -/
def closure (closure : Closure) : String :=
  record "Closure"
    [("name", option (closure.name?.map quoteDescription)),
      ("prototype", prototype closure.prototype),
      ("signature", option (closure.signature?.map signature)), ("native", "None")]

def object (session : Session) (object : Instance) : String :=
  let fields := ((session.hierarchy.get? object.cls).map Class.fields).getD []
  record (session.hierarchy.nameOf object.cls)
    (fields.zip (object.slots.toList.map session.pretty))

def function (session : Session) : FunctionRef → String
  | .builtin builtin => native builtin.name none builtin.isForm
  | .host id =>
    match session.hosts[id.index]? with
    | some host => native host.name host.arity? host.isForm
    | none => "None"
  | .closure id =>
    match session.closures[id.index]? with
    | some found => closure found
    | none => "None"

/-- A value. Functions and instances show what is behind them; all else is as in descriptions. -/
def value (session : Session) : Value → String
  | .function target => function session target
  | .object id =>
    match session.instances[id.index]? with
    | some found => object session found
    | none => "None"
  | value => session.pretty value

def session (session : Session) : String :=
  record "Evaluator"
    [("config", record "Config" [("max_depth", toString session.maxDepth)]),
      ("depth", toString session.depth),
      ("globals", quoted (session.environment.names Environment.root))]

end MessageLisp.Inspection
