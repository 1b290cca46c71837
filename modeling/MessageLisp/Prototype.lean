import MessageLisp.Failure

/-! Prototypes: the parameter list of a closure, as in `(a (b int) -> double)`. -/
namespace MessageLisp

open Native (NativeType Signature)
open Source (Expr)

/-- The name under which a method sees its receiver. -/
def selfName : String := "self"

/-- The name under which a method sees the class above the one that owns it. -/
def superName : String := "super"

structure Parameter where
  name : String
  type? : Option NativeType
deriving DecidableEq, Repr

structure Prototype where
  parameters : List Parameter
  returns? : Option NativeType
deriving DecidableEq, Repr

namespace Prototype

/-- Without parameters and without types. -/
def empty : Prototype := ⟨[], none⟩

def arity (prototype : Prototype) : Nat :=
  prototype.parameters.length

/-- A fault of a parameter list. -/
def malformed (fault : FormFault) : Error :=
  .invalidForm "prototype" fault

/-- Adds a parameter behind the others. Keywords and the name of the receiver are refused, as are
repeated names. -/
def addParameter (parameters : List Parameter) (parameter : Parameter) :
    Except Error (List Parameter) :=
  if Source.isKeyword parameter.name ∨ parameter.name = selfName then
    .error (malformed (.reservedParameter parameter.name))
  else if parameters.any (·.name = parameter.name) then
    .error (malformed (.duplicateParameter parameter.name))
  else .ok (parameters ++ [parameter])

/-- Reads what follows the arrow: one type name and nothing else. -/
def readReturn : List Expr → Except Error NativeType
  | .symbol _ type :: [] => .ok (.ofName type)
  | .symbol _ _ :: extra :: _ => .error (malformed (.afterReturnType extra.text))
  | _ => .error (malformed .arrowWithoutType)

/-- Reads one parameter: a name, or a name and a type in parentheses. -/
def readParameter (item : Expr) : Except Error Parameter :=
  match item with
  | .symbol _ name => .ok ⟨name, none⟩
  | .list _ [.symbol _ name, .symbol _ type] => .ok ⟨name, some (.ofName type)⟩
  | .list _ _ => .error (malformed (.notTypedParameter item.text))
  | _ => .error (malformed (.notParameter item.text))

/-- Reads the items of a parameter list, given the parameters before them. -/
def readItems (parameters : List Parameter) : List Expr → Except Error Prototype
  | [] => .ok ⟨parameters, none⟩
  | item :: rest =>
    if item.symbol? = some "->" then
      (readReturn rest).map fun type => ⟨parameters, some type⟩
    else do
      let parameter ← readParameter item
      let parameters ← addParameter parameters parameter
      readItems parameters rest

/-- Reads a prototype; `nil` is the empty one. -/
def ofExpr : Expr → Except Error Prototype
  | .nil _ => .ok empty
  | .list _ items => readItems [] items
  | expr => .error (malformed (.notParameterList expr.text))

/-- The signature that the types imply, if there are any. Parameters and results without a type are
handles. -/
def signature? (prototype : Prototype) : Option Signature :=
  if prototype.returns?.isSome || prototype.parameters.any (·.type?.isSome) then
    some
      { arguments := prototype.parameters.map fun p => p.type?.getD .object
        returns := prototype.returns?.getD .object }
  else none

end Prototype

end MessageLisp
