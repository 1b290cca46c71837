import MessageLisp.Native.EntryPoint
import MessageLisp.Proofs.Number.Single
import MessageLisp.Proofs.Semantics.Simulation

/-! Marshalling. Coercion to a native type is idempotent, and a value that goes through a cell of the
type comes back coerced, whether or not the cell is widened to a register on the way. -/
namespace MessageLisp.Native

open Eval

/-! ### Integers -/

theorem bmod_emod_of_dvd (a : Int) {n m : Nat} (h : n ∣ m) : a.bmod m % n = a % n := by
  rw [← Int.emod_emod_of_dvd (a.bmod m) (Int.natCast_dvd_natCast.mpr h), Int.bmod_emod,
    Int.emod_emod_of_dvd a (Int.natCast_dvd_natCast.mpr h)]

theorem wrapTo_wrapTo (bits : Nat) (signed : Bool) (value : Int64) :
    wrapTo bits signed (wrapTo bits signed value) = wrapTo bits signed value := by
  by_cases hWide : 64 ≤ bits
  · simp [wrapTo, hWide]
  · have hDivides : 2 ^ bits ∣ 2 ^ 64 := Nat.pow_dvd_pow 2 (by omega)
    have hSize : Int64.size = 2 ^ 64 := rfl
    cases signed with
    | true =>
        simp only [wrapTo, hWide, if_false, if_true, Int64.toInt_ofInt, hSize, Nat.pow_eq]
        rw [Int.bmod_bmod_of_dvd hDivides, Int.bmod_bmod]
    | false =>
        simp only [wrapTo, hWide, if_false, Bool.false_eq_true, Int64.toInt_ofInt, hSize, Nat.pow_eq]
        have hMod : (value.toInt % (2 ^ bits : Nat)).bmod (2 ^ 64) % (2 ^ bits : Nat) =
            value.toInt % (2 ^ bits : Nat) := by
          rw [bmod_emod_of_dvd _ hDivides, Int.emod_emod]
        rw [Nat.cast_pow, Nat.cast_ofNat] at hMod
        exact congrArg Int64.ofInt hMod

theorem integer_ofInt {bits : Nat} (hBits : bits ≤ 64) (signed : Bool) (value : Int64) :
    Cell.integer bits signed (BitVec.ofInt bits value.toInt) = wrapTo bits signed value := by
  by_cases hWide : 64 ≤ bits
  · obtain rfl : bits = 64 := by omega
    simp only [Cell.integer, BitVec.setWidth_eq, wrapTo, le_refl, if_true]
    cases signed with
    | true => simp
    | false =>
        rw [if_neg Bool.false_ne_true, Int64.ofInt_eq_iff_bmod_eq_toInt,
          ← BitVec.toInt_eq_toNat_bmod, BitVec.toInt_ofInt]
        exact value.toInt_bmod
  · simp only [Cell.integer, BitVec.setWidth_eq, wrapTo, hWide, if_false]
    cases signed with
    | true => simp [BitVec.toInt_ofInt]
    | false =>
        have hPositive : (0 : Int) ≤ value.toInt % 2 ^ bits := Int.emod_nonneg _ (by positivity)
        rw [if_neg Bool.false_ne_true, if_neg Bool.false_ne_true, BitVec.toNat_ofInt]
        congr 1
        rw [Nat.cast_pow, Nat.cast_ofNat, Int.toNat_of_nonneg hPositive]
        rfl

/-- Widening keeps the low bits. -/
theorem setWidth_widened {bits : Nat} (hBits : bits ≤ 64) (signed : Bool) (content : BitVec bits) :
    (if signed then content.signExtend 64 else content.setWidth 64).setWidth bits = content := by
  cases signed with
  | false => exact BitVec.setWidth_setWidth_of_le content hBits |>.trans (BitVec.setWidth_eq content)
  | true =>
      apply BitVec.eq_of_getLsbD_eq
      intro index hIndex
      simp [BitVec.getLsbD_signExtend, hIndex]
      omega

theorem integer_widened {bits : Nat} (hBits : bits ≤ 64) (signed : Bool) (content : BitVec bits) :
    Cell.integer bits signed (if signed then content.signExtend 64 else content.setWidth 64) =
      Cell.integer bits signed content := by
  rw [Cell.integer, Cell.integer, setWidth_widened hBits, BitVec.setWidth_eq]

/-! ### Values -/

theorem coerce?_coerced {type : NativeType} {value coerced : Value}
    (h : type.coerce? value = some coerced) : type.coerce? coerced = some coerced := by
  cases type with
  | void =>
      cases h
      rfl
  | bool =>
      cases h
      rfl
  | float32 =>
      obtain ⟨x, _, rfl⟩ := Option.map_eq_some_iff.mp h
      exact congrArg (fun x => some (Value.float x)) (Number.single_single x)
  | float64 =>
      obtain ⟨x, _, rfl⟩ := Option.map_eq_some_iff.mp h
      rfl
  | pointer => cases value <;> cases h <;> rfl
  | cString => cases value <;> cases h <;> rfl
  | object => exact rfl
  | unsupported name => exact rfl
  | _ =>
      obtain ⟨n, _, rfl⟩ := Option.map_eq_some_iff.mp h
      exact congrArg (fun n => some (Value.int n)) (wrapTo_wrapTo _ _ n)

/-- Whether native code can be handed the value as an argument of the type. -/
def Marshals (type : NativeType) (value : Value) : Prop :=
  (type.coerce? value).isSome ∧ (type = .cString → ∀ text, value = .string text → '\x00' ∉ text.toList)

/-- How a value of the type is widened. -/
def NativeType.isSigned (type : NativeType) : Bool :=
  (type.integer?.map Prod.snd).getD false

theorem coerceTo_eq_pure {type : NativeType} {value coerced : Value}
    (h : type.coerce? value = some coerced) : coerceTo type value = pure coerced := by
  rw [coerceTo, h]

/-- A value that is handed over comes back coerced. -/
theorem exists_cell {type : NativeType} {value coerced : Value}
    (hCoerced : type.coerce? value = some coerced) (hVoid : type ≠ .void)
    (hKnown : ∀ name, type ≠ .unsupported name)
    (hText : type = .cString → ∀ text, value = .string text → '\x00' ∉ text.toList) :
    ∃ cell, cellOf type value = pure cell ∧ cell.read? type = some coerced ∧
      (cell.widened type.isSigned).read? type = some coerced := by
  have hRun : ∀ f : Value → Eval Cell, coerceTo type value >>= f = f coerced := by
    intro f
    rw [coerceTo_eq_pure hCoerced, pure_bind]
  cases type with
  | void => exact absurd rfl hVoid
  | unsupported name => exact absurd rfl (hKnown name)
  | bool =>
      obtain rfl : Value.bool value.isTrue = coerced := Option.some.inj hCoerced
      refine ⟨_, hRun _, ?_, ?_⟩
      all_goals
        change some (Value.bool (BitVec.setWidth 8 _ != 0)) = _
        cases value.isTrue <;> rfl
  | float32 =>
      obtain ⟨x, _, rfl⟩ := Option.map_eq_some_iff.mp hCoerced
      refine ⟨_, hRun _, ?_, ?_⟩
      all_goals exact congrArg (fun x => some (Value.float x)) (Number.single_single x)
  | float64 =>
      obtain ⟨x, _, rfl⟩ := Option.map_eq_some_iff.mp hCoerced
      exact ⟨_, hRun _, rfl, rfl⟩
  | pointer =>
      cases value with
      | null =>
          cases hCoerced
          exact ⟨_, hRun _, rfl, rfl⟩
      | pointer address =>
          cases hCoerced
          exact ⟨_, hRun _, rfl, rfl⟩
      | _ => cases hCoerced
  | object =>
      cases hCoerced
      exact ⟨_, hRun _, rfl, rfl⟩
  | cString =>
      cases value with
      | null =>
          cases hCoerced
          exact ⟨_, hRun _, rfl, rfl⟩
      | string text =>
          cases hCoerced
          have hNone : text.toList.contains '\x00' = false := by
            simpa using hText rfl text rfl
          refine ⟨.text (some text), (hRun _).trans ?_, rfl, rfl⟩
          simp only [Value.string?, hNone]
          rfl
      | _ => cases hCoerced
  | int8 | uint8 | int16 | uint16 | int32 | uint32 | int64 | uint64 | size =>
      obtain ⟨n, _, rfl⟩ := Option.map_eq_some_iff.mp hCoerced
      refine ⟨_, hRun _, ?_, ?_⟩
      · exact congrArg (fun n => some (Value.int n))
          ((integer_ofInt (by decide) _ _).trans (wrapTo_wrapTo _ _ n))
      · exact congrArg (fun n => some (Value.int n))
          ((integer_widened (by decide) _ _).trans
            ((integer_ofInt (by decide) _ _).trans (wrapTo_wrapTo _ _ n)))

end MessageLisp.Native
