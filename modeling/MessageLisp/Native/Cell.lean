import MessageLisp.Failure
import MessageLisp.Value

/-! Cells: what native code holds in the place of a value. A cell has no type of its own; it is read
back as whatever the signature says. -/
namespace MessageLisp.Native

/-- A machine value. Handles and texts are pointers, and what they point at is part of the cell; a
null pointer points at nothing. -/
inductive Cell where
  | void
  | word (bits : Nat) (content : BitVec bits)
  | single (content : Float)
  | double (content : Float)
  | address (location : UInt64)
  | handle (value? : Option Value)
  | text (content? : Option String)

namespace Cell

/-- A word spread out over a machine register. -/
def widened (signed : Bool) : Cell → Cell
  | word _ content => word 64 (if signed then content.signExtend 64 else content.setWidth 64)
  | cell => cell

/-- The lowest `bits` bits of a word as a signed or unsigned number. A 64-bit number is read as
signed in either case. -/
def integer (bits : Nat) (signed : Bool) {width : Nat} (content : BitVec width) : Int64 :=
  let low := content.setWidth bits
  Int64.ofInt (if signed then low.toInt else low.toNat)

/-- The value that a cell stands for under a type that it can hold. -/
def read? (type : NativeType) (cell : Cell) : Option Value :=
  match type, cell with
  | .bool, word _ content => some (.bool (content.setWidth 8 != 0))
  | .float32, single content => some (.float content)
  | .float64, double content => some (.float content)
  | .pointer, address location => some (.pointer location)
  | .object, handle value? => some (value?.getD .null)
  | .cString, text content? => some ((content?.map Value.string).getD .null)
  | type, word _ content =>
    type.integer?.map fun (bits, signed) => .int (integer bits signed content)
  | _, _ => none

/-- What a native caller gets when the call fails. -/
def zero : NativeType → Cell
  | .void => void
  | .unsupported _ => void
  | .float32 => single 0.0
  | .float64 => double 0.0
  | .pointer => address 0
  | .object => handle none
  | .cString => text none
  | _ => word 64 0

/-- Reads an argument behind an entry point. -/
def readArgument (type : NativeType) (cell : Cell) : Except Error Value :=
  match cell.read? type with
  | some value => .ok value
  | none => .error (.unsupportedType type.name .unreadable)

/-- Reads the result of a native function. -/
def readResult (type : NativeType) (cell : Cell) : Except Error Value :=
  match type with
  | .void => .ok .null
  | .cString => .error (.unsupportedType type.name .unreturnable)
  | type =>
    match cell.read? type with
    | some value => .ok value
    | none => .error (.unsupportedType type.name .unreturnable)

end Cell

end MessageLisp.Native
