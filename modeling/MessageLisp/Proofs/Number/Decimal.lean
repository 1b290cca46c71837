import Mathlib
import MessageLisp.Number.Reading
import MessageLisp.Proofs.Number.Pattern

/-! Decimals and the doubles nearest to them. The shortest decimal of a double has that double as its
nearest one, and the shortcut for very large and very small decimals agrees with rounding. -/
namespace MessageLisp.Number

namespace Decimal

/-- The number a decimal stands for. -/
def value (d : Decimal) : ℚ :=
  d.digits * 10 ^ d.exponent

theorem ratio_quotient (d : Decimal) : (d.ratio.1 : ℚ) / d.ratio.2 = d.value := by
  simpa [value, ratio] using ratioOf_quotient (by decide : 0 < 10) d.digits d.exponent

theorem ratio_den_pos (d : Decimal) : 0 < d.ratio.2 :=
  ratioOf_den_pos (by decide) _ _

theorem pattern_eq (d : Decimal) : d.pattern = nearestPattern d.ratio.1 d.ratio.2 := rfl

theorem pattern_congr {d d' : Decimal} (h : d.value = d'.value) : d.pattern = d'.pattern := by
  rw [pattern_eq, pattern_eq]
  apply nearestPattern_congr d.ratio_den_pos d'.ratio_den_pos
  rw [ratio_quotient, ratio_quotient, h]

theorem pattern_of_canonical {d : Decimal} {mantissa : Nat} {exponent : Int}
    (hCanonical : Canonical mantissa exponent) (hValue : d.value = mantissa * 2 ^ exponent) :
    d.pattern = patternOf mantissa exponent := by
  rw [pattern_eq]
  apply hCanonical.nearestPattern_eq d.ratio_den_pos
  rw [ratio_quotient, hValue]

end Decimal

/-! ### The shortest decimal -/

theorem neighbour?_pattern {pattern num den : Nat} {exponent : Int} {d : Decimal}
    (h : neighbour? pattern num den exponent = some d) : d.pattern = pattern := by
  simp only [neighbour?] at h
  split at h
  · rename_i hBelow hAbove
    simp only [decide_eq_true_eq] at hBelow hAbove
    cases h
    split
    · exact hBelow
    · exact hAbove
  · rename_i hBelow hAbove
    cases h
    exact of_decide_eq_true hBelow
  · rename_i hBelow hAbove
    cases h
    exact of_decide_eq_true hAbove
  · cases h

theorem firstNeighbour?_pattern {pattern num den fuel : Nat} {exponent : Int} {d : Decimal}
    (h : firstNeighbour? pattern num den fuel exponent = some d) : d.pattern = pattern := by
  induction fuel generalizing exponent with
  | zero => cases h
  | succ fuel ih =>
      rw [firstNeighbour?] at h
      split at h
      · rename_i found hFound
        cases h
        exact neighbour?_pattern hFound
      · exact ih h

theorem exactDecimal_value (mantissa : Nat) (exponent : Int) :
    (exactDecimal mantissa exponent).value = mantissa * 2 ^ exponent := by
  unfold exactDecimal
  split
  · rename_i hSign
    obtain ⟨k, rfl⟩ := Int.eq_ofNat_of_zero_le hSign
    simp [Decimal.value]
  · rename_i hSign
    obtain ⟨k, hk⟩ := Int.eq_ofNat_of_zero_le (show 0 ≤ -exponent by omega)
    obtain rfl : exponent = -k := by omega
    have hTen : (10 : ℚ) ^ k = 5 ^ k * 2 ^ k := by rw [← mul_pow]; norm_num
    simp only [Decimal.value, neg_neg, Int.toNat_natCast, zpow_neg, zpow_natCast, Nat.pow_eq,
      Nat.cast_mul, Nat.cast_pow, Nat.cast_ofNat, hTen]
    field_simp

theorem trimZeros_value (fuel : Nat) (d : Decimal) : (trimZeros fuel d).value = d.value := by
  induction fuel generalizing d with
  | zero => rfl
  | succ fuel ih =>
      rw [trimZeros]
      split
      · rename_i hZero
        have hDigits : (d.digits : ℚ) = 10 * (d.digits / 10 : Nat) := by
          exact_mod_cast (Nat.mul_div_cancel' (Nat.dvd_of_mod_eq_zero hZero.1)).symm
        rw [ih, Decimal.value, Decimal.value, hDigits, zpow_add_one₀ (by norm_num)]
        ring
      · rfl

/-- The shortest decimal of a double has that double as its nearest one. -/
theorem shortest_pattern {mantissa : Nat} {exponent : Int} (h : Canonical mantissa exponent) :
    (shortest mantissa exponent).pattern = patternOf mantissa exponent := by
  have hNearest : nearestPattern (ratioOf 2 mantissa exponent).1 (ratioOf 2 mantissa exponent).2 =
      patternOf mantissa exponent :=
    h.nearestPattern_eq (ratioOf_den_pos two_pos _ _) (ratioOf_two_quotient mantissa exponent)
  simp only [shortest]
  rw [Decimal.pattern_congr (trimZeros_value _ _), hNearest]
  cases hFound : firstNeighbour? (patternOf mantissa exponent) (ratioOf 2 mantissa exponent).1
      (ratioOf 2 mantissa exponent).2 17
      (floorLog10 (ratioOf 2 mantissa exponent).1 (ratioOf 2 mantissa exponent).2) with
  | none => exact Decimal.pattern_of_canonical h (exactDecimal_value mantissa exponent)
  | some d => exact firstNeighbour?_pattern hFound

/-! ### Very large and very small decimals -/

theorem nearestNat_of_lt_half {q : ℚ} (hHalf : q < 1 / 2) : nearestNat q = 0 := by
  have hFloor : ⌊q⌋₊ = 0 := Nat.floor_eq_zero.mpr (by linarith)
  have hSmall : ¬(1 < 2 * q) ∧ ¬(1 = 2 * q) := ⟨by linarith, by linarith⟩
  simp [nearestNat, hFloor, hSmall]

theorem nearestPattern_of_small {num den : Nat} (hDen : 0 < den)
    (hSmall : (num : ℚ) / den < 2 ^ (-1075 : Int)) : nearestPattern num den = 0 := by
  unfold nearestPattern
  split
  · rfl
  · rename_i hNum
    have hNum : 0 < num := Nat.pos_of_ne_zero hNum
    have hPos : (0 : ℚ) < num / den := by positivity
    have hLog : Int.log 2 ((num : ℚ) / den) < -1075 :=
      (Int.lt_zpow_iff_log_lt one_lt_two hPos).mp (by exact_mod_cast hSmall)
    have hExponent : roundedExponent 53 (-1074) ((num : ℚ) / den) = -1074 := by
      rw [roundedExponent]
      omega
    have hHalf : (num : ℚ) / den / 2 ^ (-1074 : Int) < 1 / 2 := by
      rw [div_lt_iff₀ (by positivity)]
      calc (num : ℚ) / den < 2 ^ (-1075 : Int) := hSmall
        _ = 1 / 2 * 2 ^ (-1074 : Int) := by
          rw [show (-1075 : Int) = -1 + -1074 by norm_num, zpow_add₀ two_ne_zero]
          norm_num
    rw [roundToPrecision_eq _ _ hNum hDen, hExponent, nearestNat_of_lt_half hHalf]
    rfl

theorem nearestPattern_of_large {num den : Nat} (hDen : 0 < den)
    (hLarge : (2 : ℚ) ^ (1025 : Int) ≤ num / den) : nearestPattern num den = infinityBits := by
  have hPos : (0 : ℚ) < num / den := lt_of_lt_of_le (by positivity) hLarge
  have hNum : 0 < num := num_pos rfl hPos
  have hLog : 1025 ≤ Int.log 2 ((num : ℚ) / den) :=
    (Int.zpow_le_iff_le_log one_lt_two hPos).mp (by rwa [Nat.cast_ofNat])
  have hExponent : 973 ≤ roundedExponent 53 (-1074) ((num : ℚ) / den) := by
    rw [roundedExponent]
    omega
  rw [nearestPattern, if_neg hNum.ne', roundToPrecision_eq _ _ hNum hDen]
  simp only [patternOf, infinityBits, hiddenBit]
  omega

theorem two_pow_le_ten_pow : (2 : ℚ) ^ (1075 : Int) ≤ 10 ^ (400 : Int) := by
  calc (2 : ℚ) ^ (1075 : Int) ≤ 2 ^ (3 * 400 : Int) := zpow_le_zpow_right₀ (by norm_num) (by norm_num)
    _ = (2 ^ (3 : Int)) ^ (400 : Int) := zpow_mul _ _ _
    _ ≤ 10 ^ (400 : Int) := zpow_le_zpow_left₀ (by norm_num) (by norm_num) (by norm_num)

theorem digits_bounds {n : Nat} (hPos : 0 < n) :
    10 ^ (digitCount n - 1) ≤ n ∧ n < 10 ^ digitCount n := by
  have hLength : 0 < digitCount n := List.length_pos_of_ne_nil Nat.toDigits_ne_nil
  refine ⟨?_, (Nat.length_toDigits_le_iff (by decide) hLength).mp le_rfl⟩
  rcases Nat.eq_zero_or_pos (digitCount n - 1) with hOne | hMore
  · rw [hOne]
    exact hPos
  · by_contra hLt
    have hLe : digitCount n ≤ digitCount n - 1 :=
      (Nat.length_toDigits_le_iff (by decide) hMore).mpr (not_le.mp hLt)
    omega

/-- The number of digits and the exponent bound a decimal from both sides. -/
theorem Decimal.value_bounds {d : Decimal} (hPos : 0 < d.digits) :
    (10 : ℚ) ^ (d.exponent + digitCount d.digits - 1) ≤ d.value ∧
      d.value < 10 ^ (d.exponent + digitCount d.digits) := by
  obtain ⟨hLow, hHigh⟩ := digits_bounds hPos
  have hLength : 0 < digitCount d.digits := List.length_pos_of_ne_nil Nat.toDigits_ne_nil
  have hLow' : (10 : ℚ) ^ (digitCount d.digits - 1) ≤ d.digits := by exact_mod_cast hLow
  have hHigh' : (d.digits : ℚ) < 10 ^ digitCount d.digits := by exact_mod_cast hHigh
  have hSplit : d.exponent + digitCount d.digits - 1 =
      ((digitCount d.digits - 1 : Nat) : Int) + d.exponent := by omega
  rw [Decimal.value, hSplit, add_comm d.exponent, zpow_add₀ (by norm_num), zpow_add₀ (by norm_num),
    zpow_natCast, zpow_natCast]
  constructor
  · gcongr
  · gcongr

/-- The shortcut for decimals of extreme size gives what rounding gives. -/
theorem Decimal.boundedPattern_eq (d : Decimal) : d.boundedPattern = d.pattern := by
  simp only [boundedPattern]
  rcases Nat.eq_zero_or_pos d.digits with hZero | hPos
  · rw [if_pos (Or.inl hZero), pattern_eq, nearestPattern_of_small d.ratio_den_pos]
    rw [ratio_quotient, value, hZero, Nat.cast_zero, zero_mul]
    positivity
  · obtain ⟨hLow, hHigh⟩ := value_bounds hPos
    split
    · rename_i hSmall
      have hSize : d.exponent + digitCount d.digits ≤ -400 := by omega
      rw [pattern_eq, nearestPattern_of_small d.ratio_den_pos]
      calc (d.ratio.1 : ℚ) / d.ratio.2 = d.value := d.ratio_quotient
        _ < 10 ^ (d.exponent + digitCount d.digits) := hHigh
        _ ≤ 10 ^ (-400 : Int) := zpow_le_zpow_right₀ (by norm_num) hSize
        _ ≤ 2 ^ (-1075 : Int) := by
          rw [zpow_neg, zpow_neg]
          exact inv_anti₀ (by positivity) two_pow_le_ten_pow
    · split
      · rename_i hLarge
        have hSize : 400 ≤ d.exponent + digitCount d.digits - 1 := by omega
        rw [pattern_eq, nearestPattern_of_large d.ratio_den_pos]
        calc (2 : ℚ) ^ (1025 : Int) ≤ 2 ^ (1075 : Int) :=
            zpow_le_zpow_right₀ (by norm_num) (by norm_num)
          _ ≤ 10 ^ (400 : Int) := two_pow_le_ten_pow
          _ ≤ 10 ^ (d.exponent + digitCount d.digits - 1) :=
            zpow_le_zpow_right₀ (by norm_num) hSize
          _ ≤ d.value := hLow
          _ = d.ratio.1 / d.ratio.2 := d.ratio_quotient.symm
      · rfl

end MessageLisp.Number
