import Mathlib
import MessageLisp.Proofs.Prototype
import MessageLisp.Proofs.Semantics.Parameters

/-! Which closures native code can call. A closure with a signature has an entry point unless the
signature does not fit: in length, or because a type has no representation in its place. What is reported
then is the first of these, the length before the result and the result before the arguments. -/
namespace MessageLisp

open Native (NativeType Signature Unrepresentable)

/-! ### Representable types -/

namespace Native

/-- Types that an argument can have. -/
def NativeType.IsArgument (type : NativeType) : Prop :=
  type ≠ .void ∧ ∀ name, type ≠ .unsupported name

/-- Types that a result can have. -/
def NativeType.IsResult (type : NativeType) : Prop :=
  type ≠ .cString ∧ ∀ name, type ≠ .unsupported name

theorem NativeType.argumentFault?_eq_none_iff {type : NativeType} :
    type.argumentFault? = none ↔ type.IsArgument := by
  cases type <;> simp [argumentFault?, IsArgument]

theorem NativeType.resultFault?_eq_none_iff {type : NativeType} :
    type.resultFault? = none ↔ type.IsResult := by
  cases type <;> simp [resultFault?, IsResult]

/-- What has no type of its own is a handle, and handles can be passed both ways. -/
theorem NativeType.isArgument_getD_iff {type? : Option NativeType} :
    (type?.getD .object).IsArgument ↔ ∀ type ∈ type?, type.IsArgument := by
  cases type? <;> simp [IsArgument]

theorem NativeType.isResult_getD_iff {type? : Option NativeType} :
    (type?.getD .object).IsResult ↔ ∀ type ∈ type?, type.IsResult := by
  cases type? <;> simp [IsResult]

/-- Where native code is at a loss with a signature: at the result, or else at the first argument that it
cannot represent. -/
inductive Signature.Fails (signature : Signature) : NativeType → Unrepresentable → Prop where
  | result {reason : Unrepresentable} (hResult : signature.returns.resultFault? = some reason) :
      Fails signature signature.returns reason
  | argument {before after : List NativeType} {type : NativeType} {reason : Unrepresentable}
      (hResult : signature.returns.IsResult)
      (hArguments : signature.arguments = before ++ type :: after)
      (hBefore : ∀ earlier ∈ before, earlier.IsArgument)
      (hType : type.argumentFault? = some reason) : Fails signature type reason

theorem Signature.fault?_eq_none_iff {signature : Signature} :
    signature.fault? = none ↔
      signature.returns.IsResult ∧ ∀ type ∈ signature.arguments, type.IsArgument := by
  rw [Signature.fault?, ← NativeType.resultFault?_eq_none_iff]
  cases hResult : signature.returns.resultFault? with
  | some reason => simp
  | none => simp [List.findSome?_eq_none_iff, NativeType.argumentFault?_eq_none_iff]

theorem Signature.fault?_eq_some_iff {signature : Signature} {type : NativeType}
    {reason : Unrepresentable} :
    signature.fault? = some (type, reason) ↔ signature.Fails type reason := by
  rw [Signature.fault?]
  constructor
  · intro h
    cases hResult : signature.returns.resultFault? with
    | some found =>
        rw [hResult] at h
        cases h
        exact .result hResult
    | none =>
        rw [hResult] at h
        obtain ⟨before, found, after, hArguments, hFault, hBefore⟩ := List.findSome?_eq_some_iff.mp h
        obtain ⟨fault, hType, hPair⟩ := Option.map_eq_some_iff.mp hFault
        cases hPair
        refine .argument (NativeType.resultFault?_eq_none_iff.mp hResult) hArguments ?_ hType
        intro earlier hEarlier
        exact NativeType.argumentFault?_eq_none_iff.mp
          (Option.map_eq_none_iff.mp (hBefore earlier hEarlier))
  · intro h
    cases h with
    | result hResult => rw [hResult]
    | @argument before after _ _ hResult hArguments hBefore hType =>
        rw [NativeType.resultFault?_eq_none_iff.mpr hResult]
        refine List.findSome?_eq_some_iff.mpr ⟨before, type, after, hArguments, ?_, ?_⟩
        · rw [hType, Option.map_some]
        · intro earlier hEarlier
          rw [NativeType.argumentFault?_eq_none_iff.mpr (hBefore earlier hEarlier), Option.map_none]

end Native

/-! ### Entry points -/

namespace Closure

/-- The signature under which native code can call the closure. -/
def entryPoint? (closure : Closure) : Option Signature :=
  match closure.entry? with
  | some (.ok signature) => some signature
  | _ => none

/-- What keeps a closure with a signature from being called. -/
def entryError? (closure : Closure) : Option Error :=
  match closure.entry? with
  | some (.error error) => some error
  | _ => none

/-- The error for a signature that does not fit the closure. -/
inductive Blames (closure : Closure) (signature : Signature) : Error → Prop where
  | length (hLength : signature.arguments.length ≠ closure.prototype.arity) :
      Blames closure signature (.arityMismatch s!"signature {signature.text}"
        closure.prototype.arity signature.arguments.length)
  | type {type : NativeType} {reason : Unrepresentable}
      (hLength : signature.arguments.length = closure.prototype.arity)
      (hFails : signature.Fails type reason) :
      Blames closure signature (.unsupportedType type.name reason)

/-- A signature that fits the closure: one representable type for each parameter, and one for the
result. -/
structure Fits (closure : Closure) (signature : Signature) : Prop where
  length : signature.arguments.length = closure.prototype.arity
  arguments : ∀ type ∈ signature.arguments, type.IsArgument
  result : signature.returns.IsResult

variable {closure : Closure} {signature : Signature}

theorem entry?_of_none (hSignature : closure.signature? = none) : closure.entry? = none := by
  unfold entry?
  rw [hSignature, Option.map_none]

theorem entry?_of_build (hSignature : closure.signature? = some signature)
    (hLength : signature.arguments.length = closure.prototype.arity) :
    closure.entry? = some signature.build := by
  unfold entry?
  rw [hSignature, Option.map_some, if_neg (not_not_intro hLength)]

theorem entry?_of_fits (hSignature : closure.signature? = some signature)
    (hFits : closure.Fits signature) : closure.entry? = some (.ok signature) := by
  have hFault := Signature.fault?_eq_none_iff.mpr ⟨hFits.result, hFits.arguments⟩
  rw [entry?_of_build hSignature hFits.length, Signature.build, hFault]

theorem entry?_of_blames (hSignature : closure.signature? = some signature) {error : Error}
    (h : closure.Blames signature error) : closure.entry? = some (.error error) := by
  cases h with
  | length hLength =>
      unfold entry?
      rw [hSignature, Option.map_some, if_pos hLength]
  | type hLength hFails =>
      rw [entry?_of_build hSignature hLength, Signature.build,
        Signature.fault?_eq_some_iff.mpr hFails]

/-- A signature fits, or there is something to blame. -/
theorem fits_or_blames (closure : Closure) (signature : Signature) :
    closure.Fits signature ∨ ∃ error, closure.Blames signature error := by
  by_cases hLength : signature.arguments.length = closure.prototype.arity
  · cases hFault : signature.fault? with
    | none =>
        obtain ⟨hResult, hArguments⟩ := Signature.fault?_eq_none_iff.mp hFault
        exact .inl ⟨hLength, hArguments, hResult⟩
    | some fault => exact .inr ⟨_, .type hLength (Signature.fault?_eq_some_iff.mp hFault)⟩
  · exact .inr ⟨_, .length hLength⟩

theorem entry?_cases (closure : Closure) :
    (closure.signature? = none ∧ closure.entry? = none) ∨
      (∃ signature, closure.signature? = some signature ∧ closure.Fits signature ∧
        closure.entry? = some (.ok signature)) ∨
      ∃ signature error, closure.signature? = some signature ∧ closure.Blames signature error ∧
        closure.entry? = some (.error error) := by
  cases hSignature : closure.signature? with
  | none => exact .inl ⟨rfl, entry?_of_none hSignature⟩
  | some signature =>
      rcases closure.fits_or_blames signature with hFits | ⟨error, hBlames⟩
      · exact .inr (.inl ⟨signature, rfl, hFits, entry?_of_fits hSignature hFits⟩)
      · exact .inr (.inr ⟨signature, error, rfl, hBlames, entry?_of_blames hSignature hBlames⟩)

theorem entryPoint?_eq_some_iff :
    closure.entryPoint? = some signature ↔
      closure.signature? = some signature ∧ closure.Fits signature := by
  constructor
  · intro h
    rw [entryPoint?] at h
    rcases closure.entry?_cases with ⟨-, hEntry⟩ | ⟨given, hSignature, hFits, hEntry⟩ |
      ⟨_, _, -, -, hEntry⟩
    · rw [hEntry] at h
      cases h
    · rw [hEntry] at h
      cases h
      exact ⟨hSignature, hFits⟩
    · rw [hEntry] at h
      cases h
  · rintro ⟨hSignature, hFits⟩
    rw [entryPoint?, entry?_of_fits hSignature hFits]

theorem entryError?_of_blames (hSignature : closure.signature? = some signature) {error : Error}
    (h : closure.Blames signature error) : closure.entryError? = some error := by
  rw [entryError?, entry?_of_blames hSignature h]

/-! ### Closures from forms -/

/-- The signature of a closure from a form has a type for each parameter. -/
theorem FromForm.length_arguments (h : closure.FromForm)
    (hSignature : closure.signature? = some signature) :
    signature.arguments.length = closure.prototype.arity := by
  rw [h.read.2] at hSignature
  obtain ⟨-, rfl⟩ := Prototype.signature?_eq_some_iff.mp hSignature
  exact List.length_map _

/-- Such a closure can be called exactly if it has types and all that it has are representable. -/
theorem FromForm.isSome_entryPoint?_iff (h : closure.FromForm) :
    closure.entryPoint?.isSome ↔
      closure.prototype.HasType ∧
        (∀ parameter ∈ closure.prototype.parameters, ∀ type ∈ parameter.type?, type.IsArgument) ∧
        ∀ type ∈ closure.prototype.returns?, type.IsResult := by
  rw [Option.isSome_iff_exists]
  simp only [entryPoint?_eq_some_iff, h.read.2, Prototype.signature?_eq_some_iff]
  constructor
  · rintro ⟨signature, ⟨hTyped, rfl⟩, hFits⟩
    refine ⟨hTyped, ?_, NativeType.isResult_getD_iff.mp hFits.result⟩
    intro parameter hMem
    exact NativeType.isArgument_getD_iff.mp (hFits.arguments _ (List.mem_map_of_mem hMem))
  · rintro ⟨hTyped, hArguments, hResult⟩
    refine ⟨_, ⟨hTyped, rfl⟩, List.length_map _, ?_, NativeType.isResult_getD_iff.mpr hResult⟩
    rw [List.forall_mem_map]
    intro parameter hMem
    exact NativeType.isArgument_getD_iff.mpr (hArguments parameter hMem)

end Closure

/-- Entry points exist where they can. A closure has one exactly if it has a signature that fits: one type
for each parameter that an argument can have, and one for the result. With a signature that does not fit
there is one error, which names the mismatch in length, or else the type of the result, or else the first
argument that is not representable; without a signature there is neither. For closures from forms there is
no mismatch in length, so these have an entry point exactly if they have some type and each type that they
have is representable in its place. -/
theorem entry_points_where_representable (closure : Closure) :
    (closure.entryPoint?.isSome ↔
        ∃ signature, closure.signature? = some signature ∧ closure.Fits signature) ∧
      (∀ signature, closure.signature? = some signature → closure.entryPoint? = none →
        ∃ error, closure.entryError? = some error ∧ closure.Blames signature error ∧
          ∀ other, closure.Blames signature other → other = error) ∧
      (closure.entryPoint?.isSome → closure.entryError? = none) ∧
      (closure.signature? = none → closure.entryPoint? = none ∧ closure.entryError? = none) ∧
      (closure.FromForm →
        (∀ signature, closure.signature? = some signature →
          signature.arguments.length = closure.prototype.arity) ∧
        (closure.entryPoint?.isSome ↔
          closure.prototype.HasType ∧
            (∀ parameter ∈ closure.prototype.parameters, ∀ type ∈ parameter.type?,
              type.IsArgument) ∧
            ∀ type ∈ closure.prototype.returns?, type.IsResult)) := by
  refine ⟨?_, ?_, ?_, ?_, ?_⟩
  · rw [Option.isSome_iff_exists]
    simp only [Closure.entryPoint?_eq_some_iff]
  · intro signature hSignature hNone
    rcases closure.fits_or_blames signature with hFits | ⟨error, hBlames⟩
    · cases hNone.symm.trans (Closure.entryPoint?_eq_some_iff.mpr ⟨hSignature, hFits⟩)
    · have hError := Closure.entryError?_of_blames hSignature hBlames
      refine ⟨error, hError, hBlames, ?_⟩
      intro other hOther
      exact Option.some.inj ((Closure.entryError?_of_blames hSignature hOther).symm.trans hError)
  · intro hSome
    obtain ⟨signature, hEntry⟩ := Option.isSome_iff_exists.mp hSome
    obtain ⟨hSignature, hFits⟩ := Closure.entryPoint?_eq_some_iff.mp hEntry
    rw [Closure.entryError?, Closure.entry?_of_fits hSignature hFits]
  · intro hNone
    constructor
    · rw [Closure.entryPoint?, Closure.entry?_of_none hNone]
    · rw [Closure.entryError?, Closure.entry?_of_none hNone]
  · intro hForm
    exact ⟨fun signature => hForm.length_arguments, hForm.isSome_entryPoint?_iff⟩

/-- The closure with a signature for a string, which native code cannot be given as a result. -/
def misfitting (arguments : List NativeType) : Closure :=
  { byteAndMore with signature? := some ⟨arguments, .cString⟩ }

/-- A closure from a form that takes a byte can be called; with other signatures the same closure cannot,
and the first reason is reported. -/
theorem entry_points_where_representable_byte :
    byteAndMore.FromForm ∧ byteAndMore.entryPoint?.isSome ∧
      (misfitting [.void]).entryError? = some (.arityMismatch "signature (void) -> string" 2 1) ∧
      (misfitting [.void, .unsupported "rect"]).entryError? =
        some (.unsupportedType "string" .stringResult) := by
  refine ⟨byteAndMore_fromForm, ?_, ?_, ?_⟩
  · obtain ⟨-, -, -, -, hForm⟩ := entry_points_where_representable byteAndMore
    obtain ⟨-, hExists⟩ := hForm byteAndMore_fromForm
    refine hExists.mpr ⟨?_, ?_, ?_⟩
    · simp [Prototype.HasType, byteAndMore]
    · simp [byteAndMore, NativeType.IsArgument]
    · simp [byteAndMore]
  · obtain ⟨-, hNone, -⟩ := entry_points_where_representable (misfitting [.void])
    obtain ⟨error, hError, -, hOnly⟩ := hNone _ rfl rfl
    rw [hError, ← hOnly _ (.length (by decide))]
    rfl
  · obtain ⟨-, hNone, -⟩ :=
      entry_points_where_representable (misfitting [.void, .unsupported "rect"])
    obtain ⟨error, hError, -, hOnly⟩ := hNone _ rfl rfl
    rw [hError, ← hOnly _ (.type rfl (.result rfl))]
    rfl

end MessageLisp
