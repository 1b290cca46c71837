import MessageLisp.Proofs.Number.Literal

/-! Numerals: integers as they are written. The digits of a numeral stand for a number by their places, however
many there are, and reading a numeral gives this number exactly if it is one of 64 bits. -/
namespace MessageLisp.Number

/-- The number that decimal digits stand for. Each digit counts for its place, the last one for itself. -/
def placeValue (digits : List Char) : Nat :=
  Nat.ofDigits 10 (digits.reverse.map fun c => c.toNat - '0'.toNat)

theorem digitsValue_eq_placeValue (digits : List Char) : digitsValue digits = placeValue digits := by
  induction digits using List.reverseRecOn with
  | nil => rfl
  | append_singleton digits c ih =>
      have hLast : digitsValue [c] = c.toNat - '0'.toNat := by simp [digitsValue]
      rw [digitsValue_append, ih, hLast, placeValue, placeValue, List.reverse_concat, List.map_cons,
        Nat.ofDigits_cons, List.length_singleton, pow_one, Nat.mul_comm, Nat.add_comm]

/-- An optional sign and at least one digit, with the number that they stand for. -/
def IsNumeral (text : List Char) (value : Int) : Prop :=
  ∃ sign digits, text = sign ++ digits ∧ digits ≠ [] ∧ (∀ c ∈ digits, c.isDigit = true) ∧
    ((sign = [] ∨ sign = ['+']) ∧ value = placeValue digits ∨ sign = ['-'] ∧ value = -placeValue digits)

theorem isNumeral_iff {text : List Char} {value : Int} :
    IsNumeral text value ↔ IntegerText text value := by
  constructor
  · rintro ⟨sign, digits, rfl, hSome, hDigits, hSign⟩
    rw [← digitsValue_eq_placeValue] at hSign
    rcases hSign with ⟨rfl | rfl, rfl⟩ | ⟨rfl, rfl⟩
    · exact IntegerText.unsigned hSome hDigits
    · exact IntegerText.positive hSome hDigits
    · exact IntegerText.negative hSome hDigits
  · intro h
    cases h with
    | unsigned hSome hDigits =>
        rw [digitsValue_eq_placeValue]
        exact ⟨[], text, rfl, hSome, hDigits, Or.inl ⟨Or.inl rfl, rfl⟩⟩
    | @positive digits hSome hDigits =>
        rw [digitsValue_eq_placeValue]
        exact ⟨['+'], digits, rfl, hSome, hDigits, Or.inl ⟨Or.inr rfl, rfl⟩⟩
    | @negative digits hSome hDigits =>
        rw [digitsValue_eq_placeValue]
        exact ⟨['-'], digits, rfl, hSome, hDigits, Or.inr ⟨rfl, rfl⟩⟩

/-- The bounds of the integers of 64 bits. -/
theorem exists_toInt_eq_iff {value : Int} :
    (∃ n : Int64, n.toInt = value) ↔ -2 ^ 63 ≤ value ∧ value ≤ 2 ^ 63 - 1 := by
  constructor
  · rintro ⟨n, rfl⟩
    exact ⟨n.le_toInt, Int.le_sub_one_of_lt n.toInt_lt⟩
  · rintro ⟨hLow, hHigh⟩
    exact ⟨Int64.ofInt value, Int64.toInt_ofInt_of_le hLow (Int.lt_of_le_sub_one hHigh)⟩

theorem IntegerText.readInteger_eq_none {text : List Char} {value : Int} (h : IntegerText text value)
    (hOutside : ¬∃ n : Int64, n.toInt = value) : readInteger text = none := by
  rw [Option.eq_none_iff_forall_ne_some]
  intro n hRead
  exact hOutside ⟨n, (readInteger_eq_some_iff.mp hRead).unique h⟩

/-- The text of an integer is a numeral. -/
theorem integerText_toString (n : Int64) : IntegerText (toString n.toInt).toList n.toInt :=
  readInteger_eq_some_iff.mp (readInteger_toString n)

end MessageLisp.Number
