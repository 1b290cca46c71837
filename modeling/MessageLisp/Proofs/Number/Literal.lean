import Mathlib
import MessageLisp.Number.Layout
import MessageLisp.Proofs.Number.Decimal

/-! Numbers as text. A run of digits, a sign, a point and an exponent are read back as they are
written, and so the text of an integer or of a finite double reads back as that number. -/
namespace MessageLisp.Number

/-! ### Digits -/

theorem digitsValue_eq (digits : List Char) : digitsValue digits = Nat.ofDigitChars 10 digits 0 :=
  rfl

theorem digitsValue_append (digits digits' : List Char) :
    digitsValue (digits ++ digits') =
      digitsValue digits * 10 ^ digits'.length + digitsValue digits' := by
  rw [digitsValue_eq, Nat.ofDigitChars_append, Nat.ofDigitChars_eq_ofDigitChars_zero, mul_comm]
  rfl

theorem digitsValue_zeros (count : Nat) : digitsValue (List.replicate count '0') = 0 := by
  rw [digitsValue_eq, Nat.ofDigitChars_replicate_zero]
  simp

@[simp] theorem digitsValue_toDigits (n : Nat) : digitsValue (Nat.toDigits 10 n) = n :=
  Nat.ofDigitChars_ten_toDigits

theorem isDigits_iff {text : List Char} : isDigits text = true ↔ ∀ c ∈ text, c.isDigit = true :=
  List.all_eq_true

theorem isDigits_toDigits (n : Nat) : isDigits (Nat.toDigits 10 n) = true :=
  isDigits_iff.mpr fun _ hMem => Nat.isDigit_of_mem_toDigits (by decide) (by decide) hMem

@[simp] theorem isDigits_append (text text' : List Char) :
    isDigits (text ++ text') = (isDigits text && isDigits text') :=
  List.all_append

@[simp] theorem isDigits_zeros (count : Nat) : isDigits (List.replicate count '0') = true := by
  rw [isDigits_iff]
  intro c hMem
  rw [List.eq_of_mem_replicate hMem]
  rfl

/-- Text that starts with a digit has no sign. -/
theorem splitSign_of_isDigit {c : Char} (hDigit : c.isDigit = true) (rest : List Char) :
    splitSign (c :: rest) = (false, c :: rest) := by
  rw [splitSign]
  · intro rest' hEq
    rw [(List.cons.inj hEq).1] at hDigit
    exact absurd hDigit (by decide)
  · intro rest' hEq
    rw [(List.cons.inj hEq).1] at hDigit
    exact absurd hDigit (by decide)

theorem splitSign_digits {digits : List Char} (hDigits : isDigits digits = true) :
    splitSign digits = (false, digits) := by
  cases digits with
  | nil => rfl
  | cons c rest => exact splitSign_of_isDigit (isDigits_iff.mp hDigits c (by simp)) rest

/-! ### Integers -/

theorem toList_toString_ofNat (n : Nat) : (toString (n : Int)).toList = Nat.toDigits 10 n := by
  rw [Int.toString_eq_repr, Int.repr_eq_if, if_pos (Int.natCast_nonneg n), Int.toNat_natCast,
    Nat.toList_repr]

theorem toList_toString_neg {n : Nat} (hPos : 0 < n) :
    (toString (-(n : Int))).toList = '-' :: Nat.toDigits 10 n := by
  rw [Int.toString_eq_repr, Int.repr_eq_if, if_neg (by omega), neg_neg, Int.toNat_natCast,
    String.toList_append, Nat.toList_repr]
  rfl

/-- The sign and the digits of a written integer. -/
theorem splitSign_toString (n : Int) :
    splitSign (toString n).toList = (decide (n < 0), Nat.toDigits 10 n.natAbs) := by
  rcases Int.lt_or_le n 0 with hNeg | hNonneg
  · obtain ⟨k, rfl⟩ : ∃ k : Nat, n = -k := ⟨n.natAbs, by omega⟩
    rw [toList_toString_neg (by omega), decide_eq_true hNeg, Int.natAbs_neg, Int.natAbs_natCast]
    rfl
  · obtain ⟨k, rfl⟩ := Int.eq_ofNat_of_zero_le hNonneg
    rw [toList_toString_ofNat, splitSign_digits (isDigits_toDigits k), Int.natAbs_natCast,
      decide_eq_false (not_lt.mpr hNonneg)]

theorem signed_natAbs (n : Int) : (if n < 0 then -(n.natAbs : Int) else n.natAbs) = n := by
  split <;> omega

theorem readExponent_toString (n : Int) : readExponent (toString n).toList = some n := by
  rw [readExponent, splitSign_toString]
  simp only [isDigits_toDigits, List.isEmpty_eq_false_iff.mpr Nat.toDigits_ne_nil,
    digitsValue_toDigits, decide_eq_true_eq, signed_natAbs]
  rfl

theorem checked_eq_some_iff {n : Int} {value : Int64} : checked n = some value ↔ n = value.toInt := by
  unfold checked
  constructor
  · intro hChecked
    split at hChecked
    · rename_i hRange
      cases hChecked
      exact (Int64.toInt_ofInt_of_le hRange.1 (Int.lt_add_one_of_le hRange.2)).symm
    · cases hChecked
  · rintro rfl
    rw [if_pos ⟨value.minValue_le_toInt, Int.le_sub_one_of_lt value.toInt_lt⟩, Int64.ofInt_toInt]

theorem readInteger_toString (n : Int64) : readInteger (toString n.toInt).toList = some n := by
  have hChecked : checked n.toInt = some n := checked_eq_some_iff.mpr rfl
  rw [readInteger, splitSign_toString]
  simp only [isDigits_toDigits, List.isEmpty_eq_false_iff.mpr Nat.toDigits_ne_nil,
    digitsValue_toDigits, decide_eq_true_eq, signed_natAbs, hChecked]
  rfl

/-- The integers as they may be written: an optional sign and at least one digit, of any length. -/
inductive IntegerText : List Char → Int → Prop where
  | unsigned {digits : List Char} (hSome : digits ≠ []) (hDigits : ∀ c ∈ digits, c.isDigit = true) :
      IntegerText digits (digitsValue digits)
  | positive {digits : List Char} (hSome : digits ≠ []) (hDigits : ∀ c ∈ digits, c.isDigit = true) :
      IntegerText ('+' :: digits) (digitsValue digits)
  | negative {digits : List Char} (hSome : digits ≠ []) (hDigits : ∀ c ∈ digits, c.isDigit = true) :
      IntegerText ('-' :: digits) (-(digitsValue digits))

theorem integerText_iff {text : List Char} {n : Int} :
    IntegerText text n ↔ (splitSign text).2 ≠ [] ∧ isDigits (splitSign text).2 = true ∧
      n = if (splitSign text).1 then -(digitsValue (splitSign text).2 : Int)
        else digitsValue (splitSign text).2 := by
  constructor
  · intro h
    cases h with
    | unsigned hSome hDigits =>
        rw [splitSign_digits (isDigits_iff.mpr hDigits)]
        exact ⟨hSome, isDigits_iff.mpr hDigits, rfl⟩
    | positive hSome hDigits => exact ⟨hSome, isDigits_iff.mpr hDigits, rfl⟩
    | negative hSome hDigits => exact ⟨hSome, isDigits_iff.mpr hDigits, rfl⟩
  · fun_cases splitSign text with
    | case1 digits =>
        rintro ⟨hSome, hDigits, rfl⟩
        exact IntegerText.positive hSome (isDigits_iff.mp hDigits)
    | case2 digits =>
        rintro ⟨hSome, hDigits, rfl⟩
        exact IntegerText.negative hSome (isDigits_iff.mp hDigits)
    | case3 hPlus hMinus =>
        rintro ⟨hSome, hDigits, rfl⟩
        exact IntegerText.unsigned hSome (isDigits_iff.mp hDigits)

theorem IntegerText.unique {text : List Char} {n n' : Int} (h : IntegerText text n)
    (h' : IntegerText text n') : n = n' :=
  (integerText_iff.mp h).2.2.trans (integerText_iff.mp h').2.2.symm

/-- Exactly the written integers of 64 bits are read, each with its value. -/
theorem readInteger_eq_some_iff {text : List Char} {value : Int64} :
    readInteger text = some value ↔ IntegerText text value.toInt := by
  rw [integerText_iff]
  unfold readInteger
  generalize splitSign text = split
  obtain ⟨negative, digits⟩ := split
  by_cases hShape : digits = [] ∨ isDigits digits = false
  · rcases hShape with rfl | hDigits <;> simp_all
  · obtain ⟨hSome, hDigits⟩ := not_or.mp hShape
    simp only [Bool.not_eq_false] at hDigits
    simp only [hDigits, List.isEmpty_eq_false_iff.mpr hSome, Bool.not_true, Bool.or_self,
      Bool.false_eq_true, if_false, checked_eq_some_iff]
    exact ⟨fun hValue => ⟨hSome, trivial, hValue.symm⟩, fun h => h.2.2.symm⟩

/-! ### Decimals -/

/-- What a digit text without exponent, and what one with an exponent, is read as. -/
theorem readDecimal_point (whole fraction tail : List Char) {exponent : Int}
    (hWhole : isDigits whole = true) (hFraction : isDigits fraction = true)
    (hDigits : whole ++ fraction ≠ [])
    (hTail : tail = [] ∧ exponent = 0 ∨
      ∃ rest, tail = 'e' :: rest ∧ readExponent rest = some exponent) :
    readDecimal (whole ++ '.' :: (fraction ++ tail)) =
      some ⟨digitsValue (whole ++ fraction), exponent - fraction.length⟩ := by
  have hEmpty : (whole ++ fraction).isEmpty = false := List.isEmpty_eq_false_iff.mpr hDigits
  rw [isDigits_iff] at hWhole hFraction
  have hStop : tail.takeWhile Char.isDigit = [] ∧ tail.dropWhile Char.isDigit = tail := by
    rcases hTail with ⟨rfl, -⟩ | ⟨rest, rfl, -⟩
    · exact ⟨rfl, rfl⟩
    · exact ⟨rfl, rfl⟩
  have hPoint : ('.' :: (fraction ++ tail)).takeWhile Char.isDigit = [] ∧
      ('.' :: (fraction ++ tail)).dropWhile Char.isDigit = '.' :: (fraction ++ tail) := ⟨rfl, rfl⟩
  simp only [readDecimal, List.takeWhile_append_of_pos hWhole, List.dropWhile_append_of_pos hWhole,
    hPoint, List.takeWhile_append_of_pos hFraction, List.dropWhile_append_of_pos hFraction, hStop,
    List.append_nil, hEmpty]
  rcases hTail with ⟨rfl, rfl⟩ | ⟨rest, rfl, hRest⟩
  · rfl
  · simp [hRest]

theorem readDecimal_whole {whole rest : List Char} {exponent : Int}
    (hWhole : isDigits whole = true) (hDigits : whole ≠ [])
    (hRest : readExponent rest = some exponent) :
    readDecimal (whole ++ 'e' :: rest) = some ⟨digitsValue whole, exponent⟩ := by
  have hEmpty : whole.isEmpty = false := List.isEmpty_eq_false_iff.mpr hDigits
  rw [isDigits_iff] at hWhole
  have hMark : ('e' :: rest).takeWhile Char.isDigit = [] ∧
      ('e' :: rest).dropWhile Char.isDigit = 'e' :: rest := ⟨rfl, rfl⟩
  simp [readDecimal, List.takeWhile_append_of_pos hWhole, List.dropWhile_append_of_pos hWhole,
    hMark, hEmpty, hRest]

/-- Written with a point, digits are read as the number they had before. -/
theorem readDecimal_positional {digits : List Char} (hDigits : isDigits digits = true)
    (hSome : digits ≠ []) (whole : Int) :
    ∃ d, readDecimal (Layout.standard.positional digits whole) = some d ∧
      d.value = digitsValue digits * 10 ^ (whole - digits.length) := by
  unfold Layout.positional
  split
  · rename_i hWhole
    obtain ⟨count, hCount⟩ := Int.eq_ofNat_of_zero_le (show 0 ≤ -whole by omega)
    obtain rfl : whole = -count := by omega
    have hRead := readDecimal_point ['0'] (List.replicate count '0' ++ digits) [] rfl
      (by simp [hDigits]) (by simp) (Or.inl ⟨rfl, rfl⟩)
    refine ⟨⟨digitsValue digits, -count - digits.length⟩, ?_, rfl⟩
    have hValue : digitsValue (['0'] ++ (List.replicate count '0' ++ digits)) =
        digitsValue digits := by
      rw [digitsValue_append, digitsValue_append, digitsValue_zeros]
      simp [digitsValue]
    rw [hValue] at hRead
    simpa [neg_add, sub_eq_add_neg, add_comm] using hRead
  · split
    · rename_i hWhole hLength
      obtain ⟨count, rfl⟩ := Int.eq_ofNat_of_zero_le (show 0 ≤ whole by omega)
      have hRead := readDecimal_point (digits ++ List.replicate (count - digits.length) '0') ['0']
        [] (by simp [hDigits]) rfl (by simp) (Or.inl ⟨rfl, rfl⟩)
      have hValue : digitsValue (digits ++ List.replicate (count - digits.length) '0' ++ ['0']) =
          digitsValue digits * 10 ^ (count - digits.length + 1) := by
        rw [List.append_assoc, ← List.replicate_succ', digitsValue_append, digitsValue_zeros,
          List.length_replicate, Nat.add_zero]
      have hShift : (count : Int) - digits.length = (count - digits.length : Nat) := by omega
      refine ⟨⟨digitsValue digits * 10 ^ (count - digits.length + 1), -1⟩, ?_, ?_⟩
      · rw [← hValue]
        simpa [Layout.standard] using hRead
      · rw [Decimal.value, hShift, zpow_natCast, zpow_neg_one, pow_succ]
        push_cast
        field_simp
    · rename_i hWhole hLength
      obtain ⟨count, rfl⟩ := Int.eq_ofNat_of_zero_le (show 0 ≤ whole by omega)
      have hTake : isDigits (digits.take count) = true ∧ isDigits (digits.drop count) = true := by
        rw [← Bool.and_eq_true, ← isDigits_append, List.take_append_drop]
        exact hDigits
      have hRead := readDecimal_point (digits.take count) (digits.drop count) [] hTake.1 hTake.2
        (by simpa using hSome) (Or.inl ⟨rfl, rfl⟩)
      rw [List.take_append_drop] at hRead
      refine ⟨_, by simpa only [List.append_nil, Int.toNat_natCast] using hRead, ?_⟩
      simp only [Decimal.value, List.length_drop]
      congr 2
      omega

theorem readDecimal_scientific {digits : List Char} (hDigits : isDigits digits = true)
    (hSome : digits ≠ []) (exponent : Int) :
    readDecimal (Layout.standard.scientific digits exponent) =
      some ⟨digitsValue digits, exponent + 1 - digits.length⟩ := by
  obtain ⟨first, rest, rfl⟩ := List.exists_cons_of_ne_nil hSome
  have hSplit : isDigits [first] = true ∧ isDigits rest = true := by
    rw [← Bool.and_eq_true, ← isDigits_append]
    exact hDigits
  have hExponent := readExponent_toString exponent
  cases rest with
  | nil =>
      have hRead := readDecimal_whole hSplit.1 (by simp) hExponent
      simpa [Layout.scientific, Layout.standard] using hRead
  | cons second rest =>
      have hRead := readDecimal_point [first] (second :: rest) ('e' :: (toString exponent).toList)
        hSplit.1 hSplit.2 (by simp) (Or.inr ⟨_, rfl, hExponent⟩)
      have hLength : exponent + 1 - ((first :: second :: rest).length : Int) =
          exponent - ((second :: rest).length : Int) := by simp
      rw [hLength]
      simpa [Layout.scientific, Layout.standard] using hRead

theorem readDecimal_magnitude (d : Decimal) :
    ∃ d', readDecimal (Layout.standard.magnitude d) = some d' ∧ d'.value = d.value := by
  have hDigits := isDigits_toDigits d.digits
  simp only [Layout.magnitude]
  split
  · obtain ⟨d', hRead, hValue⟩ := readDecimal_positional hDigits Nat.toDigits_ne_nil
      (d.exponent + (Nat.toDigits 10 d.digits).length - 1 + 1)
    refine ⟨d', hRead, ?_⟩
    rw [hValue, digitsValue_toDigits, Decimal.value]
    congr 2
    omega
  · refine ⟨_, readDecimal_scientific hDigits Nat.toDigits_ne_nil _, ?_⟩
    simp only [Decimal.value, digitsValue_toDigits]
    congr 2
    omega

/-! ### Doubles -/

/-- The characters of written numbers. -/
def isNumberChar (c : Char) : Bool :=
  c.isDigit || c = '.' || c = 'e' || c = '-'

/-- A text of such characters that starts with a digit and is not made of digits alone. -/
structure FloatShaped (text : List Char) : Prop where
  first : ∃ c rest, text = c :: rest ∧ c.isDigit = true
  mark : isDigits text = false
  chars : text.all isNumberChar = true

theorem isNumberChar_of_isDigits {digits : List Char} (hDigits : isDigits digits = true) :
    digits.all isNumberChar = true := by
  rw [List.all_eq_true]
  intro c hMem
  simp [isNumberChar, isDigits_iff.mp hDigits c hMem]

theorem isNumberChar_toString (n : Int) : (toString n).toList.all isNumberChar = true := by
  rcases Int.lt_or_le n 0 with hNeg | hNonneg
  · obtain ⟨k, rfl⟩ : ∃ k : Nat, n = -k := ⟨n.natAbs, by omega⟩
    rw [toList_toString_neg (by omega), List.all_cons,
      isNumberChar_of_isDigits (isDigits_toDigits k)]
    rfl
  · obtain ⟨k, rfl⟩ := Int.eq_ofNat_of_zero_le hNonneg
    rw [toList_toString_ofNat, isNumberChar_of_isDigits (isDigits_toDigits k)]

/-- Digits, then a point or an exponent mark, then anything a number is written with. -/
theorem FloatShaped.of_mark {digits tail : List Char} {mark : Char}
    (hDigits : isDigits digits = true) (hSome : digits ≠ []) (hMark : mark = '.' ∨ mark = 'e')
    (hTail : tail.all isNumberChar = true) : FloatShaped (digits ++ mark :: tail) where
  first := by
    obtain ⟨c, rest, rfl⟩ := List.exists_cons_of_ne_nil hSome
    exact ⟨c, rest ++ mark :: tail, rfl, isDigits_iff.mp hDigits c (by simp)⟩
  mark := by
    have hStop : isDigits (mark :: tail) = false := by
      rcases hMark with rfl | rfl <;> rfl
    rw [isDigits_append, hStop, Bool.and_false]
  chars := by
    rw [List.all_append, List.all_cons, isNumberChar_of_isDigits hDigits, hTail]
    rcases hMark with rfl | rfl <;> rfl

/-- The sign in front of a number comes off again. -/
theorem FloatShaped.splitSign_eq {magnitude : List Char} (h : FloatShaped magnitude)
    (negative : Bool) :
    splitSign ((if negative then ['-'] else []) ++ magnitude) = (negative, magnitude) := by
  cases negative with
  | true => rfl
  | false =>
      obtain ⟨c, rest, rfl, hDigit⟩ := h.first
      exact splitSign_of_isDigit hDigit rest

theorem floatShaped_positional {digits : List Char} (hDigits : isDigits digits = true)
    (hSome : digits ≠ []) (whole : Int) :
    FloatShaped (Layout.standard.positional digits whole) := by
  unfold Layout.positional
  split
  · rw [show "0.".toList = ['0'] ++ ['.'] from rfl, List.append_assoc, List.append_assoc]
    exact FloatShaped.of_mark rfl (by simp) (Or.inl rfl)
      (isNumberChar_of_isDigits (by simp [hDigits]))
  · rename_i hWhole
    split
    · exact FloatShaped.of_mark (by simp [hDigits]) (by simp [hSome]) (Or.inl rfl) rfl
    · have hTake : isDigits (digits.take whole.toNat) = true ∧
          isDigits (digits.drop whole.toNat) = true := by
        rw [← Bool.and_eq_true, ← isDigits_append, List.take_append_drop]
        exact hDigits
      have hFirst : digits.take whole.toNat ≠ [] := by
        rw [Ne, List.take_eq_nil_iff]
        rintro (hZero | hNil)
        · omega
        · exact hSome hNil
      exact FloatShaped.of_mark hTake.1 hFirst (Or.inl rfl) (isNumberChar_of_isDigits hTake.2)

theorem floatShaped_scientific {digits : List Char} (hDigits : isDigits digits = true)
    (hSome : digits ≠ []) (exponent : Int) :
    FloatShaped (Layout.standard.scientific digits exponent) := by
  obtain ⟨first, rest, rfl⟩ := List.exists_cons_of_ne_nil hSome
  have hSplit : isDigits [first] = true ∧ isDigits rest = true := by
    rw [← Bool.and_eq_true, ← isDigits_append]
    exact hDigits
  have hExponent := isNumberChar_toString exponent
  cases rest with
  | nil => exact FloatShaped.of_mark hSplit.1 (by simp) (Or.inr rfl) hExponent
  | cons second rest =>
      have hTail : (second :: rest ++ 'e' :: (toString exponent).toList).all isNumberChar = true := by
        rw [List.all_append, isNumberChar_of_isDigits hSplit.2, List.all_cons, hExponent]
        rfl
      have hShaped := FloatShaped.of_mark hSplit.1 (by simp) (Or.inl rfl) hTail
      simpa [Layout.scientific, Layout.standard] using hShaped

theorem floatShaped_magnitude (d : Decimal) : FloatShaped (Layout.standard.magnitude d) := by
  have hDigits := isDigits_toDigits d.digits
  simp only [Layout.magnitude]
  split
  · exact floatShaped_positional hDigits Nat.toDigits_ne_nil _
  · exact floatShaped_scientific hDigits Nat.toDigits_ne_nil _

/-- The text of a finite double is an optional minus sign and a number that the reader takes for the
magnitude of that double. -/
theorem write_finite {x : Float} (hFinite : isFinite x = true) :
    ∃ negative magnitude d, Layout.standard.write x = (if negative then ['-'] else []) ++ magnitude ∧
      FloatShaped magnitude ∧ readDecimal magnitude = some d ∧
      ofPattern negative d.pattern = x := by
  unfold isFinite at hFinite
  split at hFinite
  · rename_i negative mantissa exponent hExact
    have hCanonical := canonical_of_ofFloat hExact
    rcases Nat.eq_zero_or_pos mantissa with rfl | hPos
    · refine ⟨negative, ['0', '.', '0'], ⟨0, -1⟩, ?_, ?_, rfl, ?_⟩
      · simp [Layout.write, hExact, Layout.standard]
      · exact FloatShaped.of_mark (rfl : isDigits ['0'] = true) (by simp) (Or.inl rfl) rfl
      · rw [Decimal.pattern_of_canonical hCanonical (by simp [Decimal.value]),
          ofPattern_of_ofFloat hExact]
    · obtain ⟨d, hRead, hValue⟩ := readDecimal_magnitude (shortest mantissa exponent)
      refine ⟨negative, _, d, ?_, floatShaped_magnitude _, hRead, ?_⟩
      · simp [Layout.write, hExact, hPos.ne']
      · rw [Decimal.pattern_congr hValue, shortest_pattern hCanonical, ofPattern_of_ofFloat hExact]
  · cases hFinite

/-- The text of a finite double reads back as that double. -/
theorem readFloat_write {x : Float} (hFinite : isFinite x = true) :
    readFloat (Layout.standard.write x) = some x := by
  obtain ⟨negative, magnitude, d, hText, hShaped, hRead, hPattern⟩ := write_finite hFinite
  rw [readFloat, hText, hShaped.splitSign_eq]
  simp only [hRead, Decimal.boundedPattern_eq, hPattern]

end MessageLisp.Number
