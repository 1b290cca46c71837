import Mathlib
import MessageLisp.Number.Conversion
import MessageLisp.Proofs.Number.Pattern

/-! Integers and doubles. Of all integers only zero becomes a double that is equal to zero. A double is
read as the integer part of its value, or as the end of the range that is nearest to it. -/
namespace MessageLisp.Number

open Float.Model (UnpackedFloat)

/-! ### Zero -/

theorem unpack_zero : (0.0 : Float).toModel.unpack = .zero .positive := rfl

theorem unpack_eq_zero_iff (x : Float) :
    (∃ sign, x.toModel.unpack = .zero sign) ↔ x.toBits.toNat % signBit = 0 := by
  have hBits : x.toBits.toNat < 2 ^ 64 := x.toBits.toNat_lt
  change (∃ sign, UnpackedFloat.unpack .binary64 x.toBits.toBitVec = .zero sign) ↔ _
  simp only [UnpackedFloat.unpack, UnpackedFloat.unpackExponent_def,
    UnpackedFloat.unpackMantissa_def, ← BitVec.toNat_inj, signBit_eq]
  simp [BitVec.extractLsb'_toNat, Nat.shiftRight_eq_div_pow]
  split
  · split <;> simp <;> omega
  · split
    · split <;> simp <;> omega
    · simp
      omega

/-- The doubles that are equal to zero have no bit but the sign. -/
theorem beq_zero_iff (x : Float) : (x == 0.0) = true ↔ x.toBits.toNat % signBit = 0 := by
  rw [← unpack_eq_zero_iff]
  change (x.toModel.unpack.compare (0.0 : Float).toModel.unpack == some .eq) = true ↔ _
  rw [unpack_zero]
  cases x.toModel.unpack with
  | infinity sign => cases sign <;> simp [UnpackedFloat.compare]
  | notANumber => simp [UnpackedFloat.compare]
  | zero sign => simp [UnpackedFloat.compare]
  | finite sign mantissa exponent _ => cases sign <;> simp [UnpackedFloat.compare]

theorem nearestPattern_le (num den : Nat) : nearestPattern num den ≤ infinityBits := by
  rw [nearestPattern]
  split
  · exact Nat.zero_le _
  · exact min_le_right _ _

/-- From one on, the exponent field is not empty. -/
theorem nearestPattern_pos {num den : Nat} (hDen : 0 < den) (hOne : den ≤ num) :
    0 < nearestPattern num den := by
  have hNum : 0 < num := hDen.trans_le hOne
  have hQuotient : (1 : ℚ) ≤ num / den := by
    rw [one_le_div (by exact_mod_cast hDen)]
    exact_mod_cast hOne
  have hLog : 0 ≤ Int.log 2 ((num : ℚ) / den) :=
    (Int.zpow_le_iff_le_log one_lt_two (by linarith)).mp (by simpa using hQuotient)
  have hExponent : -52 ≤ roundedExponent 53 (-1074) ((num : ℚ) / den) := by
    rw [roundedExponent]
    omega
  rw [nearestPattern, if_neg hNum.ne', roundToPrecision_eq _ _ hNum hDen]
  simp only [patternOf, hiddenBit, infinityBits]
  omega

theorem toBits_ofPattern (negative : Bool) {pattern : Nat} (h : pattern ≤ infinityBits) :
    (ofPattern negative pattern).toBits.toNat = if negative then signBit + pattern else pattern := by
  rw [infinityBits] at h
  rw [ofPattern, signBit_eq]
  generalize hBits : (if negative then 2 ^ 63 + pattern else pattern) = bits
  have hLt : bits < 2 ^ 64 := by split at hBits <;> omega
  have hToNat : (UInt64.ofNat bits).toNat = bits := UInt64.toNat_ofNat_of_lt' hLt
  rw [toBits_ofBits, hToNat]
  rw [hToNat]
  split at hBits <;> omega

/-- No integer but zero becomes a double that is equal to zero. -/
theorem floatOfInt_beq_zero_iff (n : Int) : (floatOfInt n == 0.0) = true ↔ n = 0 := by
  rw [beq_zero_iff, floatOfInt, ofRatio, toBits_ofPattern _ (nearestPattern_le ..)]
  constructor
  · intro hZero
    by_contra hNonzero
    have hPositive : 0 < nearestPattern n.natAbs 1 :=
      nearestPattern_pos Nat.one_pos (Int.natAbs_pos.mpr hNonzero)
    have hLess := nearestPattern_le n.natAbs 1
    rw [infinityBits] at hLess
    rw [signBit_eq] at hZero
    split at hZero <;> omega
  · rintro rfl
    rfl

/-! ### Truncation -/

/-- The nearest integer in range. -/
def clamp (n : Int) : Int :=
  max minInt (min n maxInt)

/-- The integer part of the value of a double, as far as it is in range. Not-a-number is read as
zero. -/
def integerPart (x : Float) : Int :=
  match Exact.ofFloat x with
  | .nan => 0
  | .infinite negative => if negative then minInt else maxInt
  | .finite negative mantissa exponent =>
    clamp (if negative then -⌊(mantissa : ℚ) * 2 ^ exponent⌋ else ⌊(mantissa : ℚ) * 2 ^ exponent⌋)

theorem toInt_saturate (n : Int) : (saturate n).toInt = clamp n := by
  rw [saturate]
  apply Int64.toInt_ofInt_of_le
  · exact le_max_left _ _
  · exact (max_le (by decide) (min_le_right _ _)).trans_lt (by decide)

theorem toInt_truncate (x : Float) : (truncate x).toInt = integerPart x := by
  rw [truncate, integerPart]
  cases Exact.ofFloat x with
  | nan => rfl
  | infinite negative => cases negative <;> rfl
  | finite negative mantissa exponent =>
      have hFloor : ⌊(mantissa : ℚ) * 2 ^ exponent⌋ =
          ((ratioOf 2 mantissa exponent).1 / (ratioOf 2 mantissa exponent).2 : Nat) := by
        rw [← ratioOf_two_quotient, Rat.floor_natCast_div_natCast]
        norm_cast
      simp only [toInt_saturate, hFloor]

end MessageLisp.Number
