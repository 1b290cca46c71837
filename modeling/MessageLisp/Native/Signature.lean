/-! Native types and signatures: what a function looks like to callers that know machine types
only. -/
namespace MessageLisp.Native

inductive NativeType where
  | void
  | bool
  | int8
  | uint8
  | int16
  | uint16
  | int32
  | uint32
  | int64
  | uint64
  | size
  | float32
  | float64
  | pointer
  /-- A handle to a value of the language. -/
  | object
  /-- Text that ends at a zero byte. -/
  | cString
  /-- A name that stands for no type known here. -/
  | unsupported (name : String)
deriving DecidableEq, Repr, Inhabited

namespace NativeType

/-- The type that a name in a prototype stands for. -/
def ofName : String → NativeType
  | "void" => void
  | "bool" => bool
  | "BOOL" => bool
  | "char" => int8
  | "uchar" => uint8
  | "short" => int16
  | "ushort" => uint16
  | "int" => int32
  | "uint" => uint32
  | "long" => int64
  | "ulong" => uint64
  | "size_t" => size
  | "float" => float32
  | "double" => float64
  | "pointer" => pointer
  | "id" => object
  | "object" => object
  | "string" => cString
  | name => unsupported name

/-- The preferred name of a type. -/
def name : NativeType → String
  | void => "void"
  | bool => "bool"
  | int8 => "char"
  | uint8 => "uchar"
  | int16 => "short"
  | uint16 => "ushort"
  | int32 => "int"
  | uint32 => "uint"
  | int64 => "long"
  | uint64 => "ulong"
  | size => "size_t"
  | float32 => "float"
  | float64 => "double"
  | pointer => "pointer"
  | object => "id"
  | cString => "string"
  | unsupported name => name

/-- Width in bits and signedness of an integer type. -/
def integer? : NativeType → Option (Nat × Bool)
  | int8 => some (8, true)
  | uint8 => some (8, false)
  | int16 => some (16, true)
  | uint16 => some (16, false)
  | int32 => some (32, true)
  | uint32 => some (32, false)
  | int64 => some (64, true)
  | uint64 => some (64, false)
  | size => some (64, false)
  | _ => none

def isInteger (type : NativeType) : Bool :=
  type.integer?.isSome

end NativeType

/-- Why a type has no place in a native signature. -/
inductive Unrepresentable where
  | voidArgument
  | stringResult
  | unknownType
  | unreadable
  | unreturnable
deriving DecidableEq, Repr

def Unrepresentable.message : Unrepresentable → String
  | voidArgument => "void is only valid as a return type"
  | stringResult => "strings cannot be returned to native code"
  | unknownType => "no native representation"
  | unreadable => "cannot be read as an argument"
  | unreturnable => "cannot be returned"

/-- What keeps a type from being an argument type. -/
def NativeType.argumentFault? : NativeType → Option Unrepresentable
  | void => some .voidArgument
  | unsupported _ => some .unknownType
  | _ => none

/-- What keeps a type from being a result type. -/
def NativeType.resultFault? : NativeType → Option Unrepresentable
  | cString => some .stringResult
  | unsupported _ => some .unknownType
  | _ => none

/-- Argument types and result type of a native function. -/
structure Signature where
  arguments : List NativeType
  returns : NativeType
deriving DecidableEq, Repr, Inhabited

/-- As in `(int double) -> void`. -/
def Signature.text (signature : Signature) : String :=
  let arguments := " ".intercalate (signature.arguments.map NativeType.name)
  s!"({arguments}) -> {signature.returns.name}"

/-- The first type that has no representation in its place, the result before the arguments. -/
def Signature.fault? (signature : Signature) : Option (NativeType × Unrepresentable) :=
  match signature.returns.resultFault? with
  | some fault => some (signature.returns, fault)
  | none =>
    signature.arguments.findSome? fun type => type.argumentFault?.map fun fault => (type, fault)

end MessageLisp.Native
