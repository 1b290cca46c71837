import MessageLisp.Failure

/-! Which signatures native code can call. -/
namespace MessageLisp.Native

/-- The signature itself, or the error that names a type without a representation. -/
def Signature.build (signature : Signature) : Except Error Signature :=
  match signature.fault? with
  | some (type, fault) => .error (.unsupportedType type.name fault)
  | none => .ok signature

end MessageLisp.Native
