import MessageLisp.Native.Cell
import MessageLisp.Semantics.Running

/-! Calls from native code. The caller turns the arguments into cells of the signature. Behind the
entry point the cells are read back, the function is applied, and its result becomes a cell again. A
failure behind the entry point does not reach the caller: it gets a zero, and the failure is kept in
the session. -/
namespace MessageLisp.Native

open Eval

/-- The cell of a value under a type. Text with a zero byte inside has none. -/
def cellOf (type : NativeType) (value : Value) : Eval Cell := do
  let coerced ← coerceTo type value
  match type with
  | .void => pure .void
  | .bool => pure (.word 8 (if coerced.isTrue then 1 else 0))
  | .float32 => pure (.single (Number.single (coerced.float?.getD 0.0)))
  | .float64 => pure (.double (coerced.float?.getD 0.0))
  | .pointer =>
    match coerced with
    | .pointer address => pure (.address address)
    | _ => pure (.address 0)
  | .object => pure (.handle (some value))
  | .cString =>
    match coerced.string? with
    | some text =>
      if text.toList.contains '\x00' then
        cannotConvert type.name "a string with an interior NUL byte"
      else pure (.text (some text))
    | none => pure (.text none)
  | .unsupported name => fail (.unsupportedType name .unknownType)
  | type =>
    let bits := (type.integer?.map Prod.fst).getD 0
    pure (.word bits (BitVec.ofInt bits (coerced.int?.getD 0).toInt))

/-- Applies a function in the scope that the entry point was made with, or else in a fresh outermost
one. Closures have a scope of their own and need neither. -/
def applyDetached (ev : Evaluator) (target : FunctionRef) (scope? : Option ScopeId)
    (values : List Value) : Eval Value := do
  match target, scope? with
  | .closure id, _ => ev.applyClosure id none values
  | target, some scope => ev.apply target values scope
  | target, none =>
    let scope ← newScope none
    ev.apply target values scope

/-- Applies a function to the values of cells and gives the cell of its result. -/
def invoke (ev : Evaluator) (signature : Signature) (target : FunctionRef)
    (scope? : Option ScopeId) (cells : List Cell) : Eval Cell := do
  let values ← (signature.arguments.zip cells).mapM fun (type, cell) =>
    ofExcept (cell.readArgument type)
  let result ← applyDetached ev target scope? values
  cellOf signature.returns result

/-- The code behind an entry point. -/
def enter (ev : Evaluator) (signature : Signature) (target : FunctionRef)
    (scope? : Option ScopeId) (cells : List Cell) : Eval Cell := do
  match ← attempt (invoke ev signature target scope? cells) with
  | .ok cell => pure (cell.widened ((signature.returns.integer?.map Prod.snd).getD false))
  | .error error =>
    modify ({ · with lastError? := some error })
    pure (Cell.zero signature.returns)

/-- Calls a function through an entry point of the given signature. -/
def call (ev : Evaluator) (signature : Signature) (target : FunctionRef) (scope? : Option ScopeId)
    (arguments : List Value) : Eval Value := do
  let expected := signature.arguments.length
  if arguments.length ≠ expected then
    fail (.arityMismatch "<address>" expected arguments.length)
  else
    let cells ← (signature.arguments.zip arguments).mapM fun (type, value) => cellOf type value
    let cell ← enter ev signature target scope? cells
    ofExcept (cell.readResult signature.returns)

end MessageLisp.Native
