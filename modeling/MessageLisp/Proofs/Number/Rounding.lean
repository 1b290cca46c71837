import Mathlib
import MessageLisp.Number.Binary

/-! Rounding as a function of the rational number. The computed exponent is the binary logarithm of
the quotient, the computed mantissa is the nearest integer at that exponent, and so nothing depends
on how the quotient is written as a fraction. Numbers with few enough bits are their own rounding. -/
namespace MessageLisp.Number

/-- The natural number nearest to a rational; a half goes to the even neighbour. -/
def nearestNat (q : ℚ) : Nat :=
  if 1 < 2 * (q - ⌊q⌋₊) ∨ (1 = 2 * (q - ⌊q⌋₊) ∧ ⌊q⌋₊ % 2 = 1) then ⌊q⌋₊ + 1 else ⌊q⌋₊

theorem nearestNat_natCast (n : Nat) : nearestNat n = n := by
  simp [nearestNat]

theorem roundDiv_eq_nearestNat (num : Nat) {den : Nat} (hDen : 0 < den) :
    roundDiv num den = nearestNat ((num : ℚ) / den) := by
  have hPos : (0 : ℚ) < den := by exact_mod_cast hDen
  have hFloor : ⌊(num : ℚ) / den⌋₊ = num / den := Nat.floor_div_eq_div num den
  have hRest : 2 * ((num : ℚ) / den - (num / den : Nat)) = (2 * (num % den) : Nat) / den := by
    have hDivMod : (num : ℚ) = den * (num / den : Nat) + (num % den : Nat) := by
      exact_mod_cast (Nat.div_add_mod num den).symm
    rw [eq_div_iff hPos.ne']
    push_cast
    field_simp
    linarith
  simp only [roundDiv, nearestNat, hFloor, hRest, lt_div_iff₀ hPos, eq_div_iff hPos.ne', one_mul]
  norm_cast

theorem scaleBy_den_pos {base : Nat} (hBase : 0 < base) (exponent : Int) (num : Nat) {den : Nat}
    (hDen : 0 < den) : 0 < (scaleBy base exponent num den).2 := by
  unfold scaleBy
  split
  · exact Nat.mul_pos hDen (Nat.pow_pos hBase)
  · exact hDen

theorem scaleBy_quotient {base : Nat} (hBase : 0 < base) (exponent : Int) (num den : Nat) :
    ((scaleBy base exponent num den).1 : ℚ) / (scaleBy base exponent num den).2 =
      (num : ℚ) / den / (base : ℚ) ^ exponent := by
  have hBase' : (base : ℚ) ≠ 0 := by exact_mod_cast hBase.ne'
  unfold scaleBy
  split
  · rename_i hSign
    obtain ⟨k, rfl⟩ := Int.eq_ofNat_of_zero_le hSign
    simp [div_div]
  · rename_i hSign
    obtain ⟨k, hk⟩ := Int.eq_ofNat_of_zero_le (show 0 ≤ -exponent by omega)
    obtain rfl : exponent = -k := by omega
    simp [div_eq_mul_inv, mul_right_comm]

theorem ratioOf_den_pos {base : Nat} (hBase : 0 < base) (mantissa : Nat) (exponent : Int) :
    0 < (ratioOf base mantissa exponent).2 :=
  scaleBy_den_pos hBase _ _ Nat.one_pos

theorem ratioOf_quotient {base : Nat} (hBase : 0 < base) (mantissa : Nat) (exponent : Int) :
    ((ratioOf base mantissa exponent).1 : ℚ) / (ratioOf base mantissa exponent).2 =
      mantissa * (base : ℚ) ^ exponent := by
  rw [ratioOf, scaleBy_quotient hBase]
  simp

theorem ratioOf_two_quotient (mantissa : Nat) (exponent : Int) :
    ((ratioOf 2 mantissa exponent).1 : ℚ) / (ratioOf 2 mantissa exponent).2 =
      mantissa * 2 ^ exponent := by
  rw [ratioOf_quotient two_pos, Nat.cast_ofNat]

theorem num_pos {num den : Nat} {q : ℚ} (hQuotient : (num : ℚ) / den = q) (hPositive : 0 < q) :
    0 < num := by
  rcases Nat.eq_zero_or_pos num with rfl | hNum
  · simp [← hQuotient] at hPositive
  · exact hNum

theorem log_two_eq {q : ℚ} {k : Int} (hLow : 2 ^ k ≤ q) (hHigh : q < 2 ^ (k + 1)) :
    Int.log 2 q = k := by
  have hPos : 0 < q := lt_of_lt_of_le (by positivity) hLow
  have hLe : k ≤ Int.log 2 q := (Int.zpow_le_iff_le_log one_lt_two hPos).mp (by exact_mod_cast hLow)
  have hLt : Int.log 2 q < k + 1 :=
    (Int.lt_zpow_iff_log_lt one_lt_two hPos).mp (by exact_mod_cast hHigh)
  omega

/-- The bit lengths of numerator and denominator fix the size of their quotient up to a factor of
two. -/
theorem quotient_bounds {num den : Nat} (hNum : 0 < num) (hDen : 0 < den) :
    (2 : ℚ) ^ ((num.log2 : Int) - den.log2 - 1) ≤ num / den ∧
      (num : ℚ) / den < 2 ^ ((num.log2 : Int) - den.log2 + 1) := by
  have hPos : (0 : ℚ) < den := by exact_mod_cast hDen
  have hNumLow : (2 : ℚ) ^ num.log2 ≤ num := by exact_mod_cast Nat.log2_self_le hNum.ne'
  have hNumHigh : (num : ℚ) < 2 ^ (num.log2 + 1) := by exact_mod_cast Nat.lt_log2_self
  have hDenLow : (2 : ℚ) ^ den.log2 ≤ den := by exact_mod_cast Nat.log2_self_le hDen.ne'
  have hDenHigh : (den : ℚ) < 2 ^ (den.log2 + 1) := by exact_mod_cast Nat.lt_log2_self
  constructor
  · rw [le_div_iff₀ hPos]
    calc (2 : ℚ) ^ ((num.log2 : Int) - den.log2 - 1) * den
        ≤ 2 ^ ((num.log2 : Int) - den.log2 - 1) * 2 ^ (den.log2 + 1) := by gcongr
      _ = 2 ^ num.log2 := by
        rw [← zpow_natCast, ← zpow_add₀ two_ne_zero, ← zpow_natCast]
        congr 1
        push_cast
        ring
      _ ≤ num := hNumLow
  · rw [div_lt_iff₀ hPos]
    calc (num : ℚ) < 2 ^ (num.log2 + 1) := hNumHigh
      _ = 2 ^ ((num.log2 : Int) - den.log2 + 1) * 2 ^ den.log2 := by
        rw [← zpow_natCast, ← zpow_natCast, ← zpow_add₀ two_ne_zero]
        congr 1
        push_cast
        ring
      _ ≤ 2 ^ ((num.log2 : Int) - den.log2 + 1) * den := by gcongr

theorem floorLog2_eq_log {num den : Nat} (hNum : 0 < num) (hDen : 0 < den) :
    floorLog2 num den = Int.log 2 ((num : ℚ) / den) := by
  obtain ⟨hLow, hHigh⟩ := quotient_bounds hNum hDen
  set guess : Int := (num.log2 : Int) - den.log2 with hGuess
  have hScaled := scaleBy_quotient two_pos guess num den
  have hScaledPos : (0 : ℚ) < (scaleBy 2 guess num den).2 := by
    exact_mod_cast scaleBy_den_pos two_pos guess num hDen
  have hTest : (scaleBy 2 guess num den).2 ≤ (scaleBy 2 guess num den).1 ↔
      (2 : ℚ) ^ guess ≤ num / den := by
    rw [← Nat.cast_le (α := ℚ), ← one_le_div hScaledPos, hScaled, Nat.cast_ofNat,
      one_le_div (by positivity)]
  have hDef : floorLog2 num den = if (scaleBy 2 guess num den).2 ≤ (scaleBy 2 guess num den).1
      then guess else guess - 1 := rfl
  rw [hDef]
  split
  · rename_i hBelow
    exact (log_two_eq (hTest.mp hBelow) hHigh).symm
  · rename_i hAbove
    have hUpper : (num : ℚ) / den < 2 ^ guess := lt_of_not_ge fun h => hAbove (hTest.mpr h)
    exact (log_two_eq hLow (by rwa [sub_add_cancel])).symm

/-- The exponent of a rational that is rounded to `precision` bits. -/
def roundedExponent (precision : Nat) (least : Int) (q : ℚ) : Int :=
  max (Int.log 2 q - (precision - 1)) least

/-- Rounding looks at the quotient only. -/
theorem roundToPrecision_eq (precision : Nat) (least : Int) {num den : Nat} (hNum : 0 < num)
    (hDen : 0 < den) :
    roundToPrecision precision least num den =
      (nearestNat ((num : ℚ) / den / 2 ^ roundedExponent precision least (num / den)),
        roundedExponent precision least (num / den)) := by
  have hExponent : max (floorLog2 num den - (precision - 1)) least =
      roundedExponent precision least (num / den) := by
    rw [roundedExponent, floorLog2_eq_log hNum hDen]
  simp only [roundToPrecision, hExponent]
  rw [roundDiv_eq_nearestNat _ (scaleBy_den_pos two_pos _ _ hDen), scaleBy_quotient two_pos]
  norm_cast

theorem log_two_mul_zpow {mantissa : Nat} (hPos : 0 < mantissa) (exponent : Int) :
    Int.log 2 ((mantissa : ℚ) * 2 ^ exponent) = mantissa.log2 + exponent := by
  have hLow : (2 : ℚ) ^ mantissa.log2 ≤ mantissa := by exact_mod_cast Nat.log2_self_le hPos.ne'
  have hHigh : (mantissa : ℚ) < 2 ^ (mantissa.log2 + 1) := by exact_mod_cast Nat.lt_log2_self
  apply log_two_eq
  · rw [zpow_add₀ two_ne_zero, zpow_natCast]
    gcongr
  · rw [add_right_comm, zpow_add₀ two_ne_zero]
    gcongr
    exact_mod_cast hHigh

/-- A number with at most `precision` bits over the least exponent keeps all of them. -/
theorem roundedExponent_le {precision : Nat} {least : Int} {mantissa : Nat} {exponent : Int}
    (hPos : 0 < mantissa) (hMantissa : mantissa < 2 ^ precision) (hLeast : least ≤ exponent) :
    roundedExponent precision least (mantissa * 2 ^ exponent) ≤ exponent := by
  have hBits : mantissa.log2 < precision := (Nat.log2_lt hPos.ne').mpr hMantissa
  rw [roundedExponent, log_two_mul_zpow hPos]
  omega

theorem nearestNat_exact {mantissa : Nat} {exponent lower : Int} (hLower : lower ≤ exponent) :
    (nearestNat ((mantissa : ℚ) * 2 ^ exponent / 2 ^ lower) : ℚ) * 2 ^ lower =
      mantissa * 2 ^ exponent := by
  obtain ⟨shift, hShift⟩ := Int.le.dest hLower
  have hWhole : (mantissa : ℚ) * 2 ^ exponent / 2 ^ lower = (mantissa * 2 ^ shift : Nat) := by
    rw [← hShift, zpow_add₀ two_ne_zero, zpow_natCast]
    field_simp
    push_cast
    ring
  rw [hWhole, nearestNat_natCast, ← hWhole]
  field_simp

/-- A quotient with at most `precision` bits over the least exponent is not changed by rounding. -/
theorem roundToPrecision_exact {precision : Nat} {least : Int} {num den mantissa : Nat}
    {exponent : Int} (hDen : 0 < den) (hPos : 0 < mantissa)
    (hQuotient : (num : ℚ) / den = mantissa * 2 ^ exponent) (hMantissa : mantissa < 2 ^ precision)
    (hLeast : least ≤ exponent) :
    ((roundToPrecision precision least num den).1 : ℚ) *
      2 ^ (roundToPrecision precision least num den).2 = num / den := by
  have hNum : 0 < num := num_pos hQuotient (by positivity)
  rw [roundToPrecision_eq precision least hNum hDen, hQuotient]
  exact nearestNat_exact (roundedExponent_le hPos hMantissa hLeast)

end MessageLisp.Number
