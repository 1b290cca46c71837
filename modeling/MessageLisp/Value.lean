import MessageLisp.Number.Conversion
import MessageLisp.Source.Expr

/-! Values. Numbers, texts and lists are plain data. Functions, classes and instances are references
into a session, and two of them are equal only if they refer to the same thing. -/
namespace MessageLisp

open Source (Expr)

/-- The number of a class. -/
structure ClassId where
  index : Nat
deriving DecidableEq, Repr, Inhabited

/-- The number of an instance. -/
structure InstanceId where
  index : Nat
deriving DecidableEq, Repr, Inhabited

/-- The number of a closure. -/
structure ClosureId where
  index : Nat
deriving DecidableEq, Repr, Inhabited

/-- The number of a function that the host has added. -/
structure HostId where
  index : Nat
deriving DecidableEq, Repr, Inhabited

/-- The functions that every session starts with. -/
inductive Builtin where
  | lambda
  | function
  | set
  | quote
  | and
  | or
  | list
  | print
  | raise
deriving DecidableEq, Repr

namespace Builtin

/-- All of them. -/
def all : List Builtin :=
  [lambda, function, set, quote, and, or, list, print, raise]

def name : Builtin → String
  | lambda => "lambda"
  | function => "function"
  | set => "set"
  | quote => "quote"
  | and => "and"
  | or => "or"
  | list => "list"
  | print => "print"
  | raise => "raise"

/-- Whether it takes its arguments unevaluated. -/
def isForm : Builtin → Bool
  | list => false
  | print => false
  | raise => false
  | _ => true

end Builtin

/-- What can be applied. -/
inductive FunctionRef where
  | builtin (builtin : Builtin)
  | host (id : HostId)
  | closure (id : ClosureId)
deriving DecidableEq, Repr

inductive Value where
  | null
  | bool (value : Bool)
  | int (value : Int64)
  | float (value : Float)
  | string (text : String)
  | list (items : List Value)
  /-- An expression that was not evaluated. -/
  | expr (tree : Expr)
  | function (target : FunctionRef)
  | classRef (id : ClassId)
  | object (id : InstanceId)
  | pointer (address : UInt64)
deriving Inhabited

namespace Value

/-- Null, false and numeric zero are false; everything else is true, not-a-number included. -/
def isTrue : Value → Bool
  | null => false
  | bool value => value
  | int value => value != 0
  | float value => !(value == 0.0)
  | _ => true

def isNull : Value → Bool
  | null => true
  | _ => false

/-- A number as an integer; floats are truncated and saturate. -/
def int? : Value → Option Int64
  | int value => some value
  | float value => some (Number.truncate value)
  | _ => none

/-- A number as a float. -/
def float? : Value → Option Float
  | int value => some (Number.floatOfInt value.toInt)
  | float value => some value
  | _ => none

def string? : Value → Option String
  | string text => some text
  | _ => none

def expr? : Value → Option Expr
  | expr tree => some tree
  | _ => none

def function? : Value → Option FunctionRef
  | function target => some target
  | _ => none

mutual

/-- Equality of the language. Integers and floats are compared as floats, lists item by item and
expressions without their spans; not-a-number differs from itself. -/
def same : Value → Value → Bool
  | null, null => true
  | bool a, bool b => a == b
  | int a, int b => a == b
  | float a, float b => a == b
  | int a, float b => Number.floatOfInt a.toInt == b
  | float a, int b => Number.floatOfInt b.toInt == a
  | string a, string b => a == b
  | list a, list b => sameAll a b
  | expr a, expr b => a.same b
  | function a, function b => a == b
  | classRef a, classRef b => a == b
  | object a, object b => a == b
  | pointer a, pointer b => a == b
  | _, _ => false

@[inherit_doc same]
def sameAll : List Value → List Value → Bool
  | [], [] => true
  | a :: as, b :: bs => same a b && sameAll as bs
  | _, _ => false

end

end Value

end MessageLisp
