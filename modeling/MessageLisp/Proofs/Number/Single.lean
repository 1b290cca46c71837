import Mathlib
import MessageLisp.Number.Conversion
import MessageLisp.Proofs.Number.Pattern

/-! Single precision. A double that is a number of single precision is not changed by rounding to
single precision, and every result of that rounding is such a number or infinite. -/
namespace MessageLisp.Number

/-- A number of at most 53 bits that is not too large or too small is a double. -/
theorem exists_canonical {mantissa : Nat} {exponent : Int} (hMantissa : mantissa < 2 ^ 53)
    (hLeast : -1074 ≤ exponent) (hLarge : (mantissa : ℚ) * 2 ^ exponent < 2 ^ (1024 : Int)) :
    ∃ mantissa' exponent', Canonical mantissa' exponent' ∧
      (mantissa' : ℚ) * 2 ^ exponent' = mantissa * 2 ^ exponent := by
  rcases Nat.eq_zero_or_pos mantissa with rfl | hPos
  · exact ⟨0, -1074, ⟨by decide, by decide, by decide, by decide⟩, by simp⟩
  · have hPositive : (0 : ℚ) < mantissa * 2 ^ exponent := by positivity
    have hBound : Int.log 2 ((mantissa : ℚ) * 2 ^ exponent) < 1024 :=
      (Int.lt_zpow_iff_log_lt one_lt_two hPositive).mp (by rwa [Nat.cast_ofNat])
    rw [log_two_mul_zpow hPos exponent] at hBound
    have hBits : mantissa.log2 < 53 := (Nat.log2_lt hPos.ne').mpr hMantissa
    -- The canonical exponent is the least one that leaves at most 53 bits.
    obtain ⟨lower, hLower⟩ : ∃ lower, lower = max ((mantissa.log2 : Int) + exponent - 52) (-1074) :=
      ⟨_, rfl⟩
    obtain ⟨shift, hShift⟩ := Int.le.dest (show lower ≤ exponent by omega)
    have hHigh : mantissa * 2 ^ shift < 2 ^ (mantissa.log2 + 1 + shift) := by
      rw [pow_add]
      gcongr
      exact Nat.lt_log2_self
    have hLow : 2 ^ (mantissa.log2 + shift) ≤ mantissa * 2 ^ shift := by
      rw [pow_add]
      gcongr
      exact Nat.log2_self_le hPos.ne'
    refine ⟨mantissa * 2 ^ shift, lower, ⟨?_, by omega, by omega, ?_⟩, ?_⟩
    · exact hHigh.trans_le (Nat.pow_le_pow_right two_pos (by omega))
    · rcases eq_or_ne lower (-1074) with hEq | hNe
      · exact Or.inr hEq
      · exact Or.inl ((Nat.pow_le_pow_right two_pos (by omega)).trans hLow)
    · rw [← hShift, zpow_add₀ two_ne_zero, zpow_natCast]
      push_cast
      ring

/-- The rational numbers of single precision, by their mantissa and exponent. A carry may have left
the mantissa at `2 ^ 24`. -/
structure IsSingle (mantissa : Nat) (exponent : Int) : Prop where
  mantissa_le : mantissa ≤ 2 ^ 24
  least_le : -149 ≤ exponent
  lt_infinity : (mantissa : ℚ) * 2 ^ exponent < 2 ^ (128 : Int)

theorem nearestNat_le_pow {q : ℚ} {bits : Nat} (h : q < 2 ^ bits) : nearestNat q ≤ 2 ^ bits := by
  have hFloor : ⌊q⌋₊ < 2 ^ bits := (Nat.floor_lt' (by positivity)).mpr (by exact_mod_cast h)
  unfold nearestNat
  split <;> omega

theorem roundToPrecision_le (precision : Nat) (least : Int) {num den : Nat} (hNum : 0 < num)
    (hDen : 0 < den) :
    (roundToPrecision precision least num den).1 ≤ 2 ^ precision ∧
      least ≤ (roundToPrecision precision least num den).2 := by
  rw [roundToPrecision_eq precision least hNum hDen]
  have hPositive : (0 : ℚ) < num / den := by positivity
  have hLt : (num : ℚ) / den < 2 ^ (Int.log 2 ((num : ℚ) / den) + 1) := by
    exact_mod_cast Int.lt_zpow_succ_log_self one_lt_two ((num : ℚ) / den)
  refine ⟨nearestNat_le_pow ?_, le_max_right _ _⟩
  rw [div_lt_iff₀ (by positivity), ← zpow_natCast, ← zpow_add₀ two_ne_zero]
  refine hLt.trans_le (zpow_le_zpow_right₀ one_le_two ?_)
  rw [roundedExponent]
  omega

/-- The carried mantissa `2 ^ 24` is a shorter one with the next exponent. -/
theorem IsSingle.exists_short {mantissa : Nat} {exponent : Int} (h : IsSingle mantissa exponent) :
    ∃ (mantissa' : Nat) (exponent' : Int), mantissa' < 2 ^ 24 ∧ -149 ≤ exponent' ∧
      (mantissa' : ℚ) * 2 ^ exponent' = mantissa * 2 ^ exponent := by
  have hLeast := h.least_le
  rcases h.mantissa_le.lt_or_eq with hLt | rfl
  · exact ⟨mantissa, exponent, hLt, hLeast, rfl⟩
  · refine ⟨2 ^ 23, exponent + 1, by norm_num, by omega, ?_⟩
    rw [zpow_add_one₀ two_ne_zero]
    push_cast
    ring

theorem single_overflow_iff {num den : Nat} (hDen : 0 < den) :
    den * Nat.pow 2 128 ≤ num ↔ (2 : ℚ) ^ (128 : Int) ≤ num / den := by
  have hPos : (0 : ℚ) < den := by exact_mod_cast hDen
  rw [Nat.pow_eq, le_div_iff₀ hPos, mul_comm, ← Nat.cast_le (α := ℚ)]
  norm_cast

/-- Doubles of single precision stay as they are. -/
theorem single_of_isSingle {x : Float} {negative : Bool} {mantissa mantissa' : Nat}
    {exponent exponent' : Int} (hExact : Exact.ofFloat x = .finite negative mantissa exponent)
    (hSingle : IsSingle mantissa' exponent')
    (hValue : (mantissa : ℚ) * 2 ^ exponent = mantissa' * 2 ^ exponent') : single x = x := by
  rcases Nat.eq_zero_or_pos mantissa with rfl | hPos
  · simp [single, hExact]
  · obtain ⟨short, shortExponent, hShort, hLeast, hSame⟩ := hSingle.exists_short
    have hShortPos : 0 < short := by
      rcases Nat.eq_zero_or_pos short with rfl | hShortPos
      · have hPositive : (0 : ℚ) < mantissa * 2 ^ exponent := by positivity
        simp [hValue, ← hSame] at hPositive
      · exact hShortPos
    have hDen := ratioOf_den_pos two_pos mantissa exponent
    have hQuotient := ratioOf_two_quotient mantissa exponent
    have hRounded := roundToPrecision_exact hDen hShortPos
      (hQuotient.trans (hValue.trans hSame.symm)) hShort hLeast
    simp only [single, hExact, if_neg hPos.ne']
    set rounded := roundToPrecision 24 (-149) (ratioOf 2 mantissa exponent).1
      (ratioOf 2 mantissa exponent).2 with hDef
    have hDen' := ratioOf_den_pos two_pos rounded.1 rounded.2
    have hQuotient' := ratioOf_two_quotient rounded.1 rounded.2
    rw [hRounded, hQuotient] at hQuotient'
    have hFits : ¬(ratioOf 2 rounded.1 rounded.2).2 * Nat.pow 2 128 ≤
        (ratioOf 2 rounded.1 rounded.2).1 := by
      rw [single_overflow_iff hDen', hQuotient', hValue]
      exact not_le.mpr hSingle.lt_infinity
    rw [if_neg hFits]
    exact ofRatio_of_ofFloat hExact hDen' hQuotient'

/-- Rounding leaves a mantissa of single precision, or overflows. -/
theorem single_finite {x : Float} {negative : Bool} {mantissa : Nat} {exponent : Int}
    (hExact : Exact.ofFloat x = .finite negative mantissa exponent) (hPos : 0 < mantissa) :
    ∃ (m : Nat) (e : Int), m ≤ 2 ^ 24 ∧ -149 ≤ e ∧
      single x = if (2 : ℚ) ^ (128 : Int) ≤ m * 2 ^ e then ofPattern negative infinityBits
        else ofRatio negative (ratioOf 2 m e).1 (ratioOf 2 m e).2 := by
  have hDen := ratioOf_den_pos two_pos mantissa exponent
  have hNum : 0 < (ratioOf 2 mantissa exponent).1 :=
    num_pos (ratioOf_two_quotient mantissa exponent) (by positivity)
  obtain ⟨hBits, hLeast⟩ := roundToPrecision_le 24 (-149) hNum hDen
  refine ⟨_, _, hBits, hLeast, ?_⟩
  simp only [single, hExact, if_neg hPos.ne', single_overflow_iff (ratioOf_den_pos two_pos _ _),
    ratioOf_two_quotient]

/-- Rounding to single precision twice is rounding once. -/
theorem single_single (x : Float) : single (single x) = single x := by
  cases hExact : Exact.ofFloat x with
  | nan => simp [single, hExact]
  | infinite negative => simp [single, hExact]
  | finite negative mantissa exponent =>
      rcases Nat.eq_zero_or_pos mantissa with rfl | hPos
      · simp [single, hExact]
      · obtain ⟨m, e, hBits, hLeast, hOnce⟩ := single_finite hExact hPos
        rw [hOnce]
        split
        · simp [single, ofFloat_infinity]
        · rename_i hFits
          have hSingle : IsSingle m e := ⟨hBits, hLeast, not_le.mp hFits⟩
          have hLarge : (m : ℚ) * 2 ^ e < 2 ^ (1024 : Int) :=
            hSingle.lt_infinity.trans_le (zpow_le_zpow_right₀ one_le_two (by norm_num))
          obtain ⟨m', e', hCanonical, hValue⟩ :=
            exists_canonical (lt_of_le_of_lt hBits (by norm_num)) (by omega) hLarge
          have hPattern : ofRatio negative (ratioOf 2 m e).1 (ratioOf 2 m e).2 =
              ofPattern negative (patternOf m' e') := by
            rw [ofRatio, hCanonical.nearestPattern_eq (ratioOf_den_pos two_pos m e)]
            rw [ratioOf_two_quotient, hValue]
          rw [hPattern]
          exact single_of_isSingle (ofFloat_ofPattern hCanonical negative) hSingle hValue

end MessageLisp.Number
