import MessageLisp.Proofs.Native.Marshalling

/-! Calls from native code agree with direct applications. The caller converts each argument, the
entry point reads it back and the closure converts it again; the result goes the same way. None of
this can be seen, other than that a failure becomes a zero and is kept as the last error. -/
namespace MessageLisp

open Native (NativeType Signature Marshals Cell cellOf)
open Eval

/-! ### Closures with an entry point -/

namespace Closure

/-- As the forms make it: the signature is the one that the closure's own types imply. -/
def IsDeclared (closure : Closure) : Prop :=
  closure.signature? = closure.prototype.signature?

variable {closure : Closure} {signature : Signature}

theorem signature?_of_entry? (h : closure.entry? = some (.ok signature)) :
    closure.signature? = some signature ∧ signature.fault? = none := by
  obtain ⟨declared, hSignature, hEntry⟩ := Option.map_eq_some_iff.mp h
  split at hEntry
  · cases hEntry
  · rw [Signature.build] at hEntry
    cases hFault : declared.fault? with
    | some fault =>
        rw [hFault] at hEntry
        cases hEntry
    | none =>
        rw [hFault] at hEntry
        cases hEntry
        exact ⟨hSignature, hFault⟩

theorem IsDeclared.signature_eq (h : closure.IsDeclared) (hSignature : closure.signature? = some signature) :
    signature = ⟨closure.prototype.parameters.map fun p => p.type?.getD .object,
      closure.prototype.returns?.getD .object⟩ := by
  have hOwn : closure.prototype.signature? = some signature := h.symm.trans hSignature
  rw [Prototype.signature?] at hOwn
  split at hOwn
  · cases hOwn
    rfl
  · cases hOwn

theorem IsDeclared.parameterTypes_eq (h : closure.IsDeclared)
    (hSignature : closure.signature? = some signature) :
    closure.parameterTypes = signature.arguments.map some := by
  obtain rfl := h.signature_eq hSignature
  rw [parameterTypes, hSignature]
  simp only [List.length_map, if_true]
  generalize closure.prototype.parameters = parameters
  induction parameters with
  | nil => rfl
  | cons p parameters ih =>
      simp only [List.map_cons, List.zipWith_cons_cons, List.cons.injEq]
      refine ⟨?_, ih⟩
      cases p.type? <;> rfl

theorem IsDeclared.returnType?_eq (h : closure.IsDeclared)
    (hSignature : closure.signature? = some signature) :
    closure.returnType? = some signature.returns := by
  rw [returnType?, hSignature, h.signature_eq hSignature]
  cases closure.prototype.returns? <;> rfl

theorem IsDeclared.arity_eq (h : closure.IsDeclared)
    (hSignature : closure.signature? = some signature) :
    signature.arguments.length = closure.prototype.arity := by
  rw [h.signature_eq hSignature, List.length_map, Prototype.arity]

end Closure

/-- The forms make closures with the signature that their types imply. -/
theorem makeClosure_isDeclared {form : String} {prototype : Source.Expr} {body : List Value}
    {scope : ScopeId} {session later : Session} {id : ClosureId}
    (h : (makeClosure form prototype body scope).runIn session = (.ok id, later)) :
    ∃ closure, later.closures[id.index]? = some closure ∧ closure.IsDeclared := by
  obtain ⟨read, _, _, h⟩ := exists_of_runIn_bind h
  obtain ⟨exprs, middle, _, h⟩ := exists_of_runIn_bind h
  rw [runIn_get_bind, runIn_modifyGet] at h
  cases h
  exact ⟨_, Array.getElem?_push_size, rfl⟩

namespace Native

/-- All types of a signature without a fault can be passed in their place. -/
theorem argumentFault?_eq_none {signature : Signature} (h : signature.fault? = none) {type : NativeType}
    (hType : type ∈ signature.arguments) : type.argumentFault? = none := by
  rw [Signature.fault?] at h
  split at h
  · cases h
  · have hNone := List.findSome?_eq_none_iff.mp h type hType
    exact Option.map_eq_none_iff.mp hNone

theorem resultFault?_eq_none {signature : Signature} (h : signature.fault? = none) :
    signature.returns.resultFault? = none := by
  rw [Signature.fault?] at h
  split at h
  · cases h
  · assumption

/-! ### The way in -/

theorem coerceArguments_cons {type : NativeType} {types : List (Option NativeType)}
    {value coerced : Value} {arguments values : List Value} (hFirst : type.coerce? value = some coerced)
    (hRest : (types.zip arguments).mapM (fun (type?, value) => coerceArgument type? value) =
      pure values) :
    ((some type :: types).zip (value :: arguments)).mapM
      (fun (type?, value) => coerceArgument type? value) = pure (coerced :: values) := by
  have hArgument : coerceArgument (some type) value = pure coerced := coerceTo_eq_pure hFirst
  simp only [List.zip_cons_cons, List.mapM_cons, hArgument, hRest, pure_bind]

/-- Arguments that can be marshalled become cells. Read back, they are what the closure would have
made of the arguments itself, and it makes nothing else of them. -/
theorem exists_cells {types : List NativeType} {arguments : List Value}
    (hLength : arguments.length = types.length)
    (hTypes : ∀ type ∈ types, type.argumentFault? = none)
    (hMarshals : ∀ pair ∈ types.zip arguments, Marshals pair.1 pair.2) :
    ∃ cells values, values.length = types.length ∧
      (types.zip arguments).mapM (fun (type, value) => cellOf type value) = pure cells ∧
      (types.zip cells).mapM (fun (type, cell) => ofExcept (cell.readArgument type)) =
        pure values ∧
      ∀ given, given = arguments ∨ given = values →
        ((types.map some).zip given).mapM (fun (type?, value) => coerceArgument type? value) =
          pure values := by
  induction types generalizing arguments with
  | nil => exact ⟨[], [], rfl, rfl, rfl, fun _ _ => rfl⟩
  | cons type types ih =>
      cases arguments with
      | nil => cases hLength
      | cons value arguments =>
          obtain ⟨cells, values, hValues, hCells, hRead, hGiven⟩ := ih (Nat.succ.inj hLength)
            (fun other hOther => hTypes other (List.mem_cons_of_mem _ hOther))
            (fun pair hPair => hMarshals pair (List.mem_cons_of_mem _ hPair))
          obtain ⟨hSome, hText⟩ := hMarshals (type, value) List.mem_cons_self
          obtain ⟨coerced, hCoerced⟩ := Option.isSome_iff_exists.mp hSome
          have hFault := hTypes type List.mem_cons_self
          obtain ⟨cell, hCell, hBack, _⟩ := exists_cell hCoerced
            (by rintro rfl; cases hFault) (by rintro name rfl; cases hFault) hText
          refine ⟨cell :: cells, coerced :: values, congrArg Nat.succ hValues, ?_, ?_, ?_⟩
          · simp only [List.zip_cons_cons, List.mapM_cons, hCell, hCells, pure_bind]
          · have hFirst : ofExcept (cell.readArgument type) = pure coerced := by
              rw [Cell.readArgument, hBack]
              rfl
            simp only [List.zip_cons_cons, List.mapM_cons, hFirst, hRead, pure_bind]
          · rintro _ (rfl | rfl)
            · exact coerceArguments_cons hCoerced (hGiven _ (.inl rfl))
            · exact coerceArguments_cons (coerce?_coerced hCoerced) (hGiven _ (.inr rfl))

theorem bindArguments_congr {closure : Closure} {arguments arguments' values : List Value}
    (hLength : arguments.length = closure.prototype.arity)
    (hLength' : arguments'.length = closure.prototype.arity)
    (hCoerce : (closure.parameterTypes.zip arguments).mapM
      (fun (type?, value) => coerceArgument type? value) = pure values)
    (hCoerce' : (closure.parameterTypes.zip arguments').mapM
      (fun (type?, value) => coerceArgument type? value) = pure values) :
    bindArguments closure arguments = bindArguments closure arguments' := by
  rw [bindArguments, bindArguments, if_neg (not_not_intro hLength), if_neg (not_not_intro hLength'),
    coerceArguments_eq hLength, coerceArguments_eq hLength', hCoerce, hCoerce']

/-! ### The way back -/

/-- What a native caller finds in place of a result when the call fails. -/
def zeroValue : NativeType → Value
  | .bool => .bool false
  | .float32 => .float 0.0
  | .float64 => .float 0.0
  | .pointer => .pointer 0
  | .void => .null
  | .object => .null
  | .cString => .null
  | .unsupported _ => .null
  | _ => .int 0

theorem readResult_zero {type : NativeType} (h : type.resultFault? = none) :
    (Cell.zero type).readResult type = .ok (zeroValue type) := by
  cases type with
  | cString => cases h
  | unsupported name => cases h
  | _ => rfl

/-- A result of the right type survives the way back. -/
theorem exists_result {type : NativeType} {value : Value} (h : type.resultFault? = none)
    (hValue : type.coerce? value = some value) :
    ∃ cell, cellOf type value = pure cell ∧
      (cell.widened type.isSigned).readResult type = .ok value := by
  by_cases hVoid : type = .void
  · subst hVoid
    cases hValue
    exact ⟨.void, rfl, rfl⟩
  · obtain ⟨cell, hCell, _, hBack⟩ := exists_cell hValue hVoid
      (by rintro name rfl; cases h) (by rintro rfl; cases h)
    refine ⟨cell, hCell, ?_⟩
    cases type with
    | void => exact absurd rfl hVoid
    | cString => cases h
    | _ =>
        simp only [Cell.readResult, hBack]

theorem runIn_applyClosure {ev : Evaluator} {id : ClosureId} {closure : Closure} {session : Session}
    (hClosure : session.closures[id.index]? = some closure) (values : List Value) :
    (ev.applyClosure id none values).runIn session =
      (requireOpen >>= fun _ => bindArguments closure values >>= ev.runBody closure).runIn session := by
  rw [Evaluator.applyClosure, runIn_bind, runIn_bind]
  cases hOpen : session.isOpen with
  | false =>
      have hRequire : requireOpen.runIn session = (.error (.error .sessionClosed), session) := by
        rw [requireOpen, runIn_get_bind, hOpen]
        rfl
      rw [hRequire, continued, continued]
  | true =>
      simp only [runIn_requireOpen hOpen, continued, runIn_bind (closureOf id),
        runIn_closureOf hClosure]

/-- A closure returns values of its return type. -/
theorem coerce?_of_runBody {fuel : Nat} {closure : Closure} {scope : ScopeId} {type : NativeType}
    (hType : closure.returnType? = some type) {session later : Session} {value : Value}
    (h : ((Evaluator.ofFuel fuel).runBody closure scope).runIn session = (.ok value, later)) :
    type.coerce? value = some value := by
  rw [Evaluator.runBody, Evaluator.ofFuel_enter] at h
  obtain ⟨after, hInner⟩ := exists_of_runIn_enter h
  obtain ⟨result, middle, _, hLast⟩ := exists_of_runIn_bind hInner
  by_cases hObject : type = .object
  · subst hObject
    rfl
  · rw [hType] at hLast
    have hCoerce : (coerceTo type result).runIn middle = (.ok value, after) := by
      cases type with
      | object => exact absurd rfl hObject
      | _ => exact hLast
    cases hCoerced : type.coerce? result with
    | none =>
        rw [coerceTo, hCoerced] at hCoerce
        cases hCoerce
    | some coerced =>
        rw [coerceTo_eq_pure hCoerced] at hCoerce
        cases hCoerce
        exact coerce?_coerced hCoerced

theorem coerce?_of_applyClosure {fuel : Nat} {id : ClosureId} {closure : Closure}
    {type : NativeType} (hType : closure.returnType? = some type) {session later : Session}
    (hClosure : session.closures[id.index]? = some closure) {receiver? : Option Value}
    {values : List Value} {value : Value}
    (h : ((Evaluator.ofFuel fuel).applyClosure id receiver? values).runIn session =
      (.ok value, later)) : type.coerce? value = some value := by
  rw [Evaluator.applyClosure] at h
  obtain ⟨_, middle, hOpen, h⟩ := exists_of_runIn_bind h
  obtain rfl : session = middle := by
    rw [requireOpen, runIn_get_bind] at hOpen
    split at hOpen <;> cases hOpen
    rfl
  rw [runIn_bind_ok (runIn_closureOf hClosure)] at h
  obtain ⟨scope, _, _, h⟩ := exists_of_runIn_bind h
  cases receiver? with
  | none => exact coerce?_of_runBody hType h
  | some receiver =>
      obtain ⟨_, _, _, h⟩ := exists_of_runIn_bind h
      exact coerce?_of_runBody hType h

/-- What a native caller sees of an application: a failure is a zero, and is kept as the last
error. -/
def seen (type : NativeType) :
    Except Interruption Value × Session → Except Interruption Value × Session
  | (.ok value, session) => (.ok value, session)
  | (.error (.error error), session) =>
    (.ok (zeroValue type), { session with lastError? := some error })
  | (.error (.panic panic), session) =>
    (.ok (zeroValue type), { session with lastError? := some panic.toError })
  | (.error (.outOfFuel fuel), session) => (.error (.outOfFuel fuel), session)

/-- A closure of a narrow integer, a text and a handle that returns a single float. -/
def narrow : Closure where
  name? := some "narrow"
  owner? := none
  prototype := ⟨[⟨"n", some .int8⟩, ⟨"s", some .cString⟩, ⟨"v", none⟩], some .float32⟩
  body := [.list ⟨0, 7⟩ [.symbol ⟨1, 2⟩ "n", .symbol ⟨3, 4⟩ "/", .symbol ⟨5, 6⟩ "v"]]
  scope := Environment.root
  source? := none
  signature? := some ⟨[.int8, .cString, .object], .float32⟩

end Native

end MessageLisp
