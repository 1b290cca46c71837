import Mathlib
import MessageLisp.Number.Conversion
import MessageLisp.Proofs.Number.Rounding

/-! Bit patterns of doubles. Every finite double has one canonical mantissa and exponent, decoding
and encoding are inverse to each other on them, and a canonical number is its own nearest double. -/
namespace MessageLisp.Number

/-- The mantissas and exponents that finite doubles have: full ones, and those of the least
exponent. -/
structure Canonical (mantissa : Nat) (exponent : Int) : Prop where
  mantissa_lt : mantissa < 2 ^ 53
  least_le : -1074 ≤ exponent
  le_greatest : exponent ≤ 971
  full : 2 ^ 52 ≤ mantissa ∨ exponent = -1074

theorem hiddenBit_eq : hiddenBit = 2 ^ 52 := rfl

theorem signBit_eq : signBit = 2 ^ 63 := rfl

theorem Canonical.patternOf_eq {mantissa : Nat} {exponent : Int} (h : Canonical mantissa exponent) :
    patternOf mantissa exponent = (exponent + 1074).toNat * 2 ^ 52 + mantissa := by
  obtain ⟨hMantissa, hLeast, hGreatest, -⟩ := h
  have hField : (exponent + 1074).toNat ≤ 2045 := by omega
  rw [patternOf, infinityBits, hiddenBit_eq, min_eq_left]
  omega

/-- Bits that do not stand for not-a-number survive the way through a double. -/
theorem toBits_ofBits {bits : UInt64} (hNumber : bits.toNat / 2 ^ 52 % 2048 ≠ 2047 ∨
    bits.toNat % 2 ^ 52 = 0) : (Float.ofBits bits).toBits = bits := by
  have hBits : @Float.Model.UnpackedFloat.isNaNBits .binary64 bits.toBitVec = false := by
    simp only [Float.Model.UnpackedFloat.isNaNBits, Float.Model.UnpackedFloat.unpackExponent_def,
      Float.Model.UnpackedFloat.unpackMantissa_def]
    rw [decide_eq_false_iff_not, not_and_not_right, ← BitVec.toNat_inj, ← BitVec.toNat_inj]
    simp [BitVec.extractLsb'_toNat, Nat.shiftRight_eq_div_pow]
    omega
  apply UInt64.toBitVec_inj.mp
  change (Float.Model.UnpackedFloat.unpack Float.Model.Format.binary64 bits.toBitVec).pack
    Float.Model.Format.binary64 = bits.toBitVec
  rw [Float.Model.UnpackedFloat.pack_unpack, hBits]
  simp

theorem ofFloat_ofPattern {mantissa : Nat} {exponent : Int} (h : Canonical mantissa exponent)
    (negative : Bool) :
    Exact.ofFloat (ofPattern negative (patternOf mantissa exponent)) =
      .finite negative mantissa exponent := by
  rw [h.patternOf_eq]
  obtain ⟨hMantissa, hLeast, hGreatest, hFull⟩ := h
  obtain ⟨field, rfl⟩ : ∃ field : Nat, exponent = (field : Int) - 1074 :=
    ⟨(exponent + 1074).toNat, by omega⟩
  have hField : ((field : Int) - 1074 + 1074).toNat = field := by omega
  set magnitude := field * 2 ^ 52 + mantissa with hMagnitude
  set bits := if negative then 2 ^ 63 + magnitude else magnitude with hBits
  have hLt : bits < 2 ^ 64 := by split at hBits <;> omega
  have hToNat : (UInt64.ofNat bits).toNat = bits := UInt64.toNat_ofNat_of_lt' hLt
  have hExponent : bits / 2 ^ 52 % 2048 ≠ 2047 := by split at hBits <;> omega
  have hSign : decide (2 ^ 63 ≤ bits) = negative := by
    cases negative <;> simp at hBits <;> simp <;> omega
  have hRound : (Float.ofBits (UInt64.ofNat bits)).toBits.toNat = bits := by
    rw [toBits_ofBits (Or.inl (by rwa [hToNat])), hToNat]
  rw [hField]
  simp only [ofPattern, Exact.ofFloat, hiddenBit_eq, signBit_eq, ← hMagnitude, ← hBits, hRound,
    hSign, if_neg hExponent]
  split <;> simp only [Exact.finite.injEq, true_and] <;> split at hBits <;> omega

theorem ofFloat_infinity (negative : Bool) :
    Exact.ofFloat (ofPattern negative infinityBits) = .infinite negative := by
  cases negative <;> rfl

theorem canonical_of_ofFloat {x : Float} {negative : Bool} {mantissa : Nat} {exponent : Int}
    (h : Exact.ofFloat x = .finite negative mantissa exponent) : Canonical mantissa exponent := by
  have hBits : x.toBits.toNat < 2 ^ 64 := x.toBits.toNat_lt
  simp only [Exact.ofFloat] at h
  split at h
  · split at h <;> cases h
  · rename_i hNumber
    rw [hiddenBit_eq] at hNumber
    split at h
    · cases h
      rw [hiddenBit_eq]
      exact ⟨by omega, by omega, by omega, by omega⟩
    · rename_i hNormal
      cases h
      rw [hiddenBit_eq] at hNormal ⊢
      exact ⟨by omega, by omega, by omega, by omega⟩

/-- A finite double is the pattern of its mantissa and exponent. -/
theorem ofPattern_of_ofFloat {x : Float} {negative : Bool} {mantissa : Nat} {exponent : Int}
    (h : Exact.ofFloat x = .finite negative mantissa exponent) :
    ofPattern negative (patternOf mantissa exponent) = x := by
  have hBits : x.toBits.toNat < 2 ^ 64 := x.toBits.toNat_lt
  have hPattern : (if negative then 2 ^ 63 + patternOf mantissa exponent
      else patternOf mantissa exponent) = x.toBits.toNat := by
    rw [(canonical_of_ofFloat h).patternOf_eq]
    simp only [Exact.ofFloat] at h
    generalize x.toBits.toNat = bits at h hBits ⊢
    split at h
    · split at h <;> cases h
    · rename_i hNumber
      rw [hiddenBit_eq] at hNumber
      split at h
      · rename_i hField
        cases h
        rw [hiddenBit_eq] at hField ⊢
        simp only [decide_eq_true_eq, Int.add_left_neg, Int.toNat_zero, zero_mul, zero_add]
        split <;> rename_i hSign <;> rw [signBit_eq] at hSign <;> omega
      · rename_i hField
        cases h
        rw [hiddenBit_eq] at hField ⊢
        simp only [decide_eq_true_eq]
        split <;> rename_i hSign <;> rw [signBit_eq] at hSign <;> omega
  rw [ofPattern, signBit_eq, hPattern, UInt64.ofNat_toNat, Float.ofBits_toBits]

/-- The nearest double depends on the quotient only. -/
theorem nearestPattern_congr {num den num' den' : Nat} (hDen : 0 < den) (hDen' : 0 < den')
    (hQuotient : (num : ℚ) / den = num' / den') :
    nearestPattern num den = nearestPattern num' den' := by
  have hZero : num = 0 ↔ num' = 0 := by
    have hLeft : (num : ℚ) / den = 0 ↔ num = 0 := by simp [hDen.ne']
    have hRight : (num' : ℚ) / den' = 0 ↔ num' = 0 := by simp [hDen'.ne']
    rw [← hLeft, hQuotient, hRight]
  unfold nearestPattern
  by_cases hNum : num = 0
  · rw [if_pos hNum, if_pos (hZero.mp hNum)]
  · have hNum' : num' ≠ 0 := fun h => hNum (hZero.mpr h)
    rw [if_neg hNum, if_neg hNum', roundToPrecision_eq _ _ (Nat.pos_of_ne_zero hNum) hDen,
      roundToPrecision_eq _ _ (Nat.pos_of_ne_zero hNum') hDen', hQuotient]

theorem Canonical.roundedExponent_eq {mantissa : Nat} {exponent : Int}
    (h : Canonical mantissa exponent) (hPos : 0 < mantissa) :
    roundedExponent 53 (-1074) (mantissa * 2 ^ exponent) = exponent := by
  apply le_antisymm (roundedExponent_le hPos h.mantissa_lt h.least_le)
  rw [roundedExponent, log_two_mul_zpow hPos]
  rcases h.full with hFull | hLeast
  · have hLog : 52 ≤ mantissa.log2 := (Nat.le_log2 hPos.ne').mpr hFull
    omega
  · omega

/-- A canonical number is its own nearest double. -/
theorem Canonical.nearestPattern_eq {mantissa num den : Nat} {exponent : Int}
    (h : Canonical mantissa exponent) (hDen : 0 < den)
    (hQuotient : (num : ℚ) / den = mantissa * 2 ^ exponent) :
    nearestPattern num den = patternOf mantissa exponent := by
  rcases Nat.eq_zero_or_pos mantissa with rfl | hPos
  · have hNum : num = 0 := by simpa [hDen.ne'] using hQuotient
    have hLeast : exponent = -1074 := by simpa using h.full
    rw [nearestPattern, if_pos hNum, hLeast]
    rfl
  · have hNum : 0 < num := num_pos hQuotient (by positivity)
    have hWhole : (mantissa : ℚ) * 2 ^ exponent / 2 ^ exponent = mantissa := by field_simp
    rw [nearestPattern, if_neg hNum.ne', roundToPrecision_eq _ _ hNum hDen, hQuotient,
      h.roundedExponent_eq hPos, hWhole, nearestNat_natCast]

/-- Decoding and encoding a finite double gives it back. -/
theorem ofRatio_of_ofFloat {x : Float} {negative : Bool} {mantissa num den : Nat} {exponent : Int}
    (h : Exact.ofFloat x = .finite negative mantissa exponent) (hDen : 0 < den)
    (hQuotient : (num : ℚ) / den = mantissa * 2 ^ exponent) : ofRatio negative num den = x := by
  rw [ofRatio, (canonical_of_ofFloat h).nearestPattern_eq hDen hQuotient, ofPattern_of_ofFloat h]

end MessageLisp.Number
