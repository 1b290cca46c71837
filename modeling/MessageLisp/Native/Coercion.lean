import MessageLisp.Native.Signature
import MessageLisp.Value

/-! Coercion of values to native types: what is left of a value after a trip through a machine word
of the type. -/
namespace MessageLisp.Native

/-- The integer that a value is read as. -/
def integerOf? : Value → Option Int64
  | .int value => some value
  | .float value => some (Number.truncate value)
  | .bool value => some (if value then 1 else 0)
  | _ => none

/-- Keeps the lowest `bits` bits and reads them back as a signed or unsigned number. A 64-bit word
is read back as signed in either case. -/
def wrapTo (bits : Nat) (signed : Bool) (value : Int64) : Int64 :=
  if 64 ≤ bits then value
  else if signed then Int64.ofInt (Int.bmod value.toInt (Nat.pow 2 bits))
  else Int64.ofInt (Int.emod value.toInt (Nat.pow 2 bits))

/-- The value after conversion, if it can be converted. Types without a known representation leave
every value as it is. -/
def NativeType.coerce? (type : NativeType) (value : Value) : Option Value :=
  match type with
  | .void => some .null
  | .bool => some (.bool value.isTrue)
  | .float32 => value.float?.map fun x => .float (Number.single x)
  | .float64 => value.float?.map .float
  | .pointer =>
    match value with
    | .pointer address => some (.pointer address)
    | .null => some (.pointer 0)
    | _ => none
  | .cString =>
    match value with
    | .string text => some (.string text)
    | .null => some .null
    | _ => none
  | .object => some value
  | .unsupported _ => some value
  | type =>
    match type.integer? with
    | some (bits, signed) => (integerOf? value).map fun n => .int (wrapTo bits signed n)
    | none => some value

end MessageLisp.Native
