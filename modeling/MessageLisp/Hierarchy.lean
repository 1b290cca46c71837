import MessageLisp.Failure
import MessageLisp.Table
import MessageLisp.Value

/-! The class hierarchy of a session. Classes are kept in the order of their definition, a class is
defined after its superclass, and names are unique. Every class but the first has a superclass, so
that all chains of superclasses end at the first class, `Object`. -/
namespace MessageLisp

/-- Methods that are part of the language. -/
inductive Primitive where
  -- numbers
  | add
  | subtract
  | multiply
  | divide
  | modulo
  | less
  | greater
  | lessOrEqual
  | greaterOrEqual
  -- strings
  | length
  | concatenate
  -- lists
  | count
  | at
  | first
  | append
  | forEach
  | map
  | filter
  | injectInto
  -- all objects
  | isTrue
  | ifTrue
  | ifFalse
  | ifTrueIfFalse
  | ifFalseIfTrue
  | description
  | prettyDescription
  | print
  | prettyPrint
  | classOf
  | respondsTo
  | equal
  | getField
  | setField
  -- classes
  | new
  | className
  | superclass
  | subclass
  | subclassWithFields
  | extend
  -- functions
  | functionName
  -- closures
  | whileTrue
  | whileFalse
  | onException
deriving DecidableEq, Repr

/-- The message that a primitive method answers. -/
def Primitive.selector : Primitive → String
  | add => "+"
  | subtract => "-"
  | multiply => "*"
  | divide => "/"
  | modulo => "%"
  | less => "<"
  | greater => ">"
  | lessOrEqual => "<="
  | greaterOrEqual => ">="
  | length => "length"
  | concatenate => "+"
  | count => "count"
  | .at => "at:"
  | first => "first"
  | append => "append:"
  | forEach => "foreach:"
  | map => "map:"
  | filter => "filter:"
  | injectInto => "inject:into:"
  | isTrue => "isTrue"
  | ifTrue => "ifTrue:"
  | ifFalse => "ifFalse:"
  | ifTrueIfFalse => "ifTrue:ifFalse:"
  | ifFalseIfTrue => "ifFalse:ifTrue:"
  | description => "description"
  | prettyDescription => "prettyDescription"
  | print => "print"
  | prettyPrint => "prettyPrint"
  | classOf => "class"
  | respondsTo => "respondsTo:"
  | equal => "="
  | getField => "valueForIvarNamed:"
  | setField => "setValue:forIvarNamed:"
  | new => "new"
  | className => "name"
  | superclass => "superclass"
  | subclass => "subclass:"
  | subclassWithFields => "subclass:fields:"
  | extend => "extend:"
  | functionName => "name"
  | whileTrue => "whileTrue:"
  | whileFalse => "whileFalse:"
  | onException => "onException:"

/-- A method of a class. Closures run with the receiver as `self`; other functions get it as their
first argument. -/
inductive Method where
  | primitive (primitive : Primitive)
  | function (target : FunctionRef)
deriving DecidableEq, Repr

structure Class where
  name : String
  superclass? : Option ClassId
  /-- In order of first installation. -/
  methods : Table Method
  /-- Names of the slots of an instance, inherited ones first. -/
  fields : List String
deriving Inhabited

/-- The slot of a field. -/
def Class.slot? (cls : Class) (field : String) : Option Nat :=
  cls.fields.findIdx? (· = field)

/-- Adds fields behind the inherited ones. A name that is there already is not added again. -/
def addFields (inherited fields : List String) : List String :=
  fields.foldl (fun table field => if field ∈ table then table else table ++ [field]) inherited

/-- The classes that every session starts with, in order. -/
inductive BuiltinClass where
  | object
  | null
  | boolean
  | number
  | string
  | list
  | function
  | closure
  | cls
  | expression
  | pointer
deriving DecidableEq, Repr

namespace BuiltinClass

/-- All of them, in order of definition. -/
def all : List BuiltinClass :=
  [object, null, boolean, number, string, list, function, closure, cls, expression, pointer]

def name : BuiltinClass → String
  | object => "Object"
  | null => "Null"
  | boolean => "Boolean"
  | number => "Number"
  | string => "String"
  | list => "List"
  | function => "Function"
  | closure => "Closure"
  | cls => "Class"
  | expression => "Expression"
  | pointer => "Pointer"

/-- The place in `all`. -/
def id : BuiltinClass → ClassId
  | object => ⟨0⟩
  | null => ⟨1⟩
  | boolean => ⟨2⟩
  | number => ⟨3⟩
  | string => ⟨4⟩
  | list => ⟨5⟩
  | function => ⟨6⟩
  | closure => ⟨7⟩
  | cls => ⟨8⟩
  | expression => ⟨9⟩
  | pointer => ⟨10⟩

def superclass? : BuiltinClass → Option BuiltinClass
  | object => none
  | closure => some function
  | _ => some object

/-- The primitive methods of a class, in the order of its method table. -/
def primitives : BuiltinClass → List Primitive
  | number =>
    [.add, .subtract, .multiply, .divide, .modulo, .less, .greater, .lessOrEqual, .greaterOrEqual]
  | string => [.length, .concatenate]
  | list => [.count, .at, .first, .append, .forEach, .map, .filter, .injectInto]
  | object =>
    [.isTrue, .ifTrue, .ifFalse, .ifTrueIfFalse, .ifFalseIfTrue, .description, .prettyDescription,
      .print, .prettyPrint, .classOf, .respondsTo, .equal, .getField, .setField]
  | cls => [.new, .className, .superclass, .subclass, .subclassWithFields, .extend]
  | function => [.functionName]
  | closure => [.whileTrue, .whileFalse, .onException]
  | _ => []

end BuiltinClass

structure Hierarchy where
  classes : Array Class
deriving Inhabited

namespace Hierarchy

/-- The builtin classes with the given methods each. -/
def ofMethods (methods : BuiltinClass → Table Method) : Hierarchy where
  classes := (BuiltinClass.all.map fun builtin =>
    { name := builtin.name
      superclass? := builtin.superclass?.map BuiltinClass.id
      methods := methods builtin
      fields := [] : Class }).toArray

/-- The builtin classes without any methods. -/
def bare : Hierarchy :=
  ofMethods fun _ => []

/-- The builtin classes with their primitive methods. -/
def initial : Hierarchy :=
  ofMethods fun builtin => builtin.primitives.map fun p => (p.selector, .primitive p)

def get? (h : Hierarchy) (id : ClassId) : Option Class :=
  h.classes[id.index]?

/-- The class of a name. -/
def find? (h : Hierarchy) (name : String) : Option ClassId :=
  (h.classes.findIdx? (·.name = name)).map ClassId.mk

/-- The names of all classes, in order of definition. -/
def names (h : Hierarchy) : List String :=
  h.classes.toList.map Class.name

/-- The name of a class. -/
def nameOf (h : Hierarchy) (id : ClassId) : String :=
  ((h.get? id).map Class.name).getD ""

def superclass? (h : Hierarchy) (id : ClassId) : Option ClassId :=
  (h.get? id).bind Class.superclass?

/-- A class and the classes above it, nearest first. -/
def chain (h : Hierarchy) (id : ClassId) : List ClassId :=
  id ::
    match h.superclass? id with
    | some parent => if parent.index < id.index then h.chain parent else []
    | none => []
termination_by id.index

/-- The method in the table of the class itself. -/
def localMethod? (h : Hierarchy) (id : ClassId) (selector : String) : Option Method :=
  (h.get? id).bind (·.methods.get? selector)

/-- The method that a class or the nearest class above it has for a selector. -/
def resolve? (h : Hierarchy) (id : ClassId) (selector : String) : Option Method :=
  (h.chain id).findSome? (h.localMethod? · selector)

/-- Whether the first class is the second one or below it. -/
def isSubclassOf (h : Hierarchy) (id other : ClassId) : Bool :=
  (h.chain id).contains other

/-- Defines a class; the superclass is `Object` unless given. -/
def define (h : Hierarchy) (name : String) (superclass? : Option ClassId) (fields : List String) :
    Except Error (ClassId × Hierarchy) :=
  if (h.find? name).isSome then
    .error (.invalidForm "class definition" (.duplicateClass name))
  else
    let superclass := superclass?.getD BuiltinClass.object.id
    let inherited := ((h.get? superclass).map Class.fields).getD []
    let cls : Class := ⟨name, some superclass, [], addFields inherited fields⟩
    .ok (⟨h.classes.size⟩, ⟨h.classes.push cls⟩)

/-- Changes the method table of a class. -/
def modifyMethods (h : Hierarchy) (id : ClassId) (f : Table Method → Table Method) : Hierarchy :=
  ⟨h.classes.modify id.index fun cls => { cls with methods := f cls.methods }⟩

/-- Adds or replaces one method. -/
def install (h : Hierarchy) (id : ClassId) (selector : String) (method : Method) : Hierarchy :=
  h.modifyMethods id (·.set selector method)

/-- Adds or replaces methods one after the other. -/
def installAll (h : Hierarchy) (id : ClassId) (methods : List (String × Method)) : Hierarchy :=
  h.modifyMethods id (·.setAll methods)

/-- Takes all methods away from all classes. -/
def clearMethods (h : Hierarchy) : Hierarchy :=
  ⟨h.classes.map fun cls => { cls with methods := [] }⟩

end Hierarchy

end MessageLisp
