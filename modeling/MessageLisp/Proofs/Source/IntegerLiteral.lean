import MessageLisp.Proofs.Number.Numeral
import MessageLisp.Proofs.Source.Lexing
import MessageLisp.Proofs.Source.Positions

/-! Integer literals. A numeral is one token of a program, whatever its length; it is read as the integer that
its digits stand for, and refused if that integer has no room in 64 bits. -/
namespace MessageLisp.Source

/-! ### A number by itself -/

theorem Lexeme.scan_eq {kind : TokenKind} {text : List Char} (h : Lexeme kind text) :
    scan text = ⟨[.ofText kind 0 text], false⟩ :=
  scanFrom_of_scans (h.scans 0)

theorem readProgram_of_number {word : List Char} (hLexeme : Lexeme .number word) {expr : Expr}
    (hNumber : numberExpr? ⟨0, byteLength word⟩ word = some expr) : readProgram word = .ok [expr] := by
  have hAtom : (Token.ofText .number 0 word).atom? = .ok (some expr) :=
    Token.atom?_of_number rfl (by simpa [Token.ofText] using hNumber)
  rw [readProgram_eq_ok_iff]
  refine ⟨_, hLexeme.scans 0, Derives.atom hAtom Derives.nil, ?_⟩
  rw [Expr.nestingAll, nesting_of_atom hAtom]
  decide

theorem readProgram_of_no_number {word : List Char} (hLexeme : Lexeme .number word)
    (hNumber : numberExpr? ⟨0, byteLength word⟩ word = none) :
    readProgram word = .error ⟨.invalidNumber (String.ofList word), ⟨0, byteLength word⟩⟩ := by
  apply readProgram_of_error
  rw [hLexeme.scan_eq, List.foldlM_cons, Reading.step_other (by simp [Token.ofText]) (by simp [Token.ofText])]
  simp only [Token.atom?, Token.ofText, Nat.zero_add, hNumber]
  rfl

/-! ### Numerals -/

/-- A numeral is one word, and looks like a number. -/
theorem lexeme_of_integerText {text : List Char} {value : Int} (h : Number.IntegerText text value) :
    Lexeme .number text := by
  have hDigit {c : Char} (hMem : c.isDigit = true) : isDelimiter c = false :=
    isDelimiter_of_isNumberChar (by simp [Number.isNumberChar, hMem])
  have hPlain : ∀ c ∈ text, isDelimiter c = false := by
    cases h with
    | unsigned _ hDigits => exact fun c hMem => hDigit (hDigits c hMem)
    | positive _ hDigits =>
        exact List.forall_mem_cons.mpr ⟨by decide, fun c hMem => hDigit (hDigits c hMem)⟩
    | negative _ hDigits =>
        exact List.forall_mem_cons.mpr ⟨by decide, fun c hMem => hDigit (hDigits c hMem)⟩
  obtain ⟨hSome, hDigits, -⟩ := Number.integerText_iff.mp h
  obtain ⟨c, rest, hFirst⟩ := List.exists_cons_of_ne_nil hSome
  have hNumeric : looksNumeric text = true :=
    looksNumeric_of_splitSign hFirst (Number.isDigits_iff.mp hDigits c (by simp [hFirst]))
  have hKind : wordKind text = .number := by rw [wordKind, if_pos hNumeric]
  rw [← hKind]
  refine Lexeme.word ?_ hPlain
  rintro rfl
  exact hSome rfl

theorem numberExpr?_of_integerText {text : List Char} {value : Int} (h : Number.IntegerText text value)
    (span : Span) : numberExpr? span text = (Number.readInteger text).map (.int span) := by
  rw [numberExpr?, if_pos (Number.integerText_iff.mp h).2.1]

/-- Integer literals are exact to the limit. A numeral, with or without sign and leading zeros, is a program of
one integer, which is the number that the numeral stands for, if that is one of 64 bits. Else it is refused
as a whole. The text of an integer is a numeral that stands for it. -/
theorem integer_literals_exact :
    (∀ (source label : String) (value : Int), Number.IsNumeral source.toList value →
      (-2 ^ 63 ≤ value ∧ value ≤ 2 ^ 63 - 1 →
        ∃ n : Int64, n.toInt = value ∧
          parse source label = .ok [.int ⟨0, source.utf8ByteSize⟩ n]) ∧
      (¬(-2 ^ 63 ≤ value ∧ value ≤ 2 ^ 63 - 1) →
        parse source label =
          .error ⟨label, ⟨0, 1, 1⟩, ⟨0, source.utf8ByteSize⟩, .invalidNumber source⟩)) ∧
    ∀ (span : Span) (n : Int64), Number.IsNumeral (Expr.int span n).text.toList n.toInt := by
  constructor
  · intro source label value hNumeral
    have hText := Number.isNumeral_iff.mp hNumeral
    have hLexeme := lexeme_of_integerText hText
    have hExpr := numberExpr?_of_integerText hText ⟨0, byteLength source.toList⟩
    rw [← Number.exists_toInt_eq_iff, ← byteLength_toList]
    constructor
    · rintro ⟨n, rfl⟩
      rw [Number.readInteger_eq_some_iff.mpr hText] at hExpr
      exact ⟨n, rfl, parse_eq_ok_iff.mpr (readProgram_of_number hLexeme hExpr)⟩
    · intro hOutside
      rw [hText.readInteger_eq_none hOutside] at hExpr
      refine parse_eq_error_iff.mpr ⟨_, readProgram_of_no_number hLexeme hExpr, ?_⟩
      have hStart : Position.locate source.toList 0 = ⟨0, 1, 1⟩ := locate_append [] source.toList
      rw [String.ofList_toList, hStart]
  · intro span n
    rw [Number.isNumeral_iff, Expr.text, String.toList_ofList]
    exact Number.integerText_toString n

/-- The least integer, with leading zeros, and the first one that is too large. -/
theorem integer_literals_exact_bounds :
    Number.IsNumeral "-009223372036854775808".toList (-2 ^ 63) ∧
      Number.IsNumeral "+9223372036854775808".toList (2 ^ 63) ∧
      (∃ n : Int64, n.toInt = -2 ^ 63 ∧ parse "-009223372036854775808" "t" = .ok [.int ⟨0, 22⟩ n]) ∧
      parse "+9223372036854775808" "t" =
        .error ⟨"t", ⟨0, 1, 1⟩, ⟨0, 20⟩, .invalidNumber "+9223372036854775808"⟩ := by
  have hLeast : Number.IsNumeral "-009223372036854775808".toList (-2 ^ 63) :=
    ⟨['-'], "009223372036854775808".toList, rfl, by decide, Number.isDigits_iff.mp rfl,
      Or.inr ⟨rfl, rfl⟩⟩
  have hLarge : Number.IsNumeral "+9223372036854775808".toList (2 ^ 63) :=
    ⟨['+'], "9223372036854775808".toList, rfl, by decide, Number.isDigits_iff.mp rfl,
      Or.inl ⟨Or.inr rfl, rfl⟩⟩
  exact ⟨hLeast, hLarge, (integer_literals_exact.1 _ "t" _ hLeast).1 (by decide),
    (integer_literals_exact.1 _ "t" _ hLarge).2 (by decide)⟩

end MessageLisp.Source
