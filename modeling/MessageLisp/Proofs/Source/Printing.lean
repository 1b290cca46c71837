import MessageLisp.Proofs.Number.Literal
import MessageLisp.Proofs.Source.Grammar
import MessageLisp.Proofs.Source.Places

/-! Printing and reading. The printed form of a readable expression has exactly the tokens that
derive the expression again, and everything the reader accepts is readable, so that reading undoes
printing on all programs. -/
namespace MessageLisp.Source

/-- The words that stand for symbols: no delimiter, not `nil`, and not the start of a number. -/
def isName (word : List Char) : Bool :=
  !word.isEmpty && word.all (!isDelimiter ·) && word ≠ "nil".toList && !looksNumeric word

theorem isName_iff {word : List Char} :
    isName word = true ↔ word ≠ [] ∧ (∀ c ∈ word, isDelimiter c = false) ∧
      word ≠ "nil".toList ∧ looksNumeric word = false := by
  simp only [isName, Bool.and_eq_true, Bool.not_eq_true', decide_eq_true_eq,
    List.isEmpty_eq_false_iff, List.all_eq_true, and_assoc]

namespace Expr

mutual

/-- Whether an expression can be written down: symbols are names and floats are finite. -/
def isReadable : Expr → Bool
  | float _ value => Number.isFinite value
  | symbol _ name => isName name.toList
  | list _ items => areReadable items
  | _ => true

@[inherit_doc isReadable]
def areReadable : List Expr → Bool
  | [] => true
  | expr :: exprs => isReadable expr && areReadable exprs

end

end Expr

/-! ### Texts and what they are read as -/

/-- The text has tokens that derive the expressions, up to places, and no comments. -/
def ReadsAs (start : Nat) (text : List Char) (exprs : List Expr) : Prop :=
  ∃ tokens read, Scans start text ⟨tokens, false⟩ ∧ Derives tokens read ∧
    Expr.bareAll read = Expr.bareAll exprs ∧ ∀ token ∈ tokens, token.kind ≠ .comment

namespace ReadsAs

theorem nil (start : Nat) : ReadsAs start [] [] :=
  ⟨[], [], Scans.done, Derives.nil, rfl, by simp⟩

theorem atom {start : Nat} {text : List Char} {kind : TokenKind} {expr read : Expr}
    (hLexeme : Lexeme kind text) (hAtom : (Token.ofText kind start text).atom? = .ok (some read))
    (hBare : read.bare = expr.bare) : ReadsAs start text [expr] := by
  refine ⟨_, [read], hLexeme.scans start, Derives.atom hAtom Derives.nil, by simp [Expr.bareAll, hBare], ?_⟩
  intro token hMem hComment
  obtain rfl := List.mem_singleton.mp hMem
  have hKind : kind = .comment := hComment
  subst hKind
  cases hAtom

theorem endsAt_of_delimiter {tokens : List Token} (hPlain : ∀ token ∈ tokens, token.kind ≠ .comment)
    {c : Char} (hDelimiter : isDelimiter c = true) (rest : List Char) :
    ∀ token ∈ tokens, token.kind.EndsAt (c :: rest) := by
  intro token hMem
  have hKind := hPlain token hMem
  cases hKind' : token.kind <;> simp_all [TokenKind.EndsAt]

theorem separated {start : Nat} {text rest : List Char} {c : Char} {exprs exprs' : List Expr}
    (hText : ReadsAs start text exprs) (hBlank : Text.isBlank c = true)
    (hRest : ReadsAs (start + byteLength text + c.utf8Size) rest exprs') :
    ReadsAs start (text ++ c :: rest) (exprs ++ exprs') := by
  obtain ⟨tokens, read, hScans, hDerives, hBare, hPlain⟩ := hText
  obtain ⟨tokens', read', hScans', hDerives', hBare', hPlain'⟩ := hRest
  have hDelimiter : isDelimiter c = true := by simp [isDelimiter, hBlank]
  have hWhole := hScans.append (endsAt_of_delimiter hPlain hDelimiter rest)
    (Scans.blank hBlank hScans')
  refine ⟨tokens ++ tokens', read ++ read', hWhole, hDerives.append hDerives', ?_, ?_⟩
  · simp [hBare, hBare']
  · intro token hMem
    rcases List.mem_append.mp hMem with hLeft | hRight
    · exact hPlain token hLeft
    · exact hPlain' token hRight

theorem list {start : Nat} {text : List Char} {items : List Expr} (span : Span)
    (hItems : ReadsAs (start + 1) text items) :
    ReadsAs start ('(' :: (text ++ [')'])) [.list span items] := by
  obtain ⟨tokens, read, hScans, hDerives, hBare, hPlain⟩ := hItems
  have hClose : Scans (start + 1 + byteLength text) ([')'] ++ [])
      ⟨[.ofText .listClose (start + 1 + byteLength text) [')']], false⟩ :=
    Scans.token Lexeme.listClose trivial Scans.done
  have hInner := hScans.append (endsAt_of_delimiter hPlain (by decide) []) hClose
  have hWhole : Scans start (['('] ++ (text ++ [')'])) _ :=
    Scans.token Lexeme.listOpen trivial hInner
  refine ⟨_, _, hWhole, Derives.list rfl rfl hDerives Derives.nil, ?_, ?_⟩
  · simp [Expr.bareAll, Expr.bare, hBare]
  · intro token hMem
    rcases List.mem_cons.mp hMem with rfl | hMem
    · simp [Token.ofText]
    · rcases List.mem_append.mp hMem with hLeft | hRight
      · exact hPlain token hLeft
      · rw [List.mem_singleton.mp hRight]
        simp [Token.ofText]

end ReadsAs

/-! ### Numbers -/

theorem isDelimiter_of_isNumberChar {c : Char} (h : Number.isNumberChar c = true) :
    isDelimiter c = false := by
  simp only [Number.isNumberChar, Bool.or_eq_true, decide_eq_true_eq, or_assoc] at h
  rcases h with hDigit | rfl | rfl | rfl
  · have hRange : 48 ≤ c.toNat ∧ c.toNat ≤ 57 := by
      simpa [Char.isDigit, Char.le_def, UInt32.le_iff_toNat_le] using hDigit
    have hBlank : Text.isBlank c = false := by
      simp [Text.isBlank, Text.Ranges.mem, Text.blankRanges, Text.Ranges.holds]
      omega
    have hNot : ∀ d : Char, d.toNat < 48 ∨ 57 < d.toNat → c ≠ d := by
      rintro d hOutside rfl
      omega
    simp [isDelimiter, hBlank, hNot '(' (by decide), hNot ')' (by decide), hNot '"' (by decide),
      hNot ';' (by decide)]
  · decide
  · decide
  · decide

/-- A word whose first character after the sign is a digit starts like a number. -/
theorem looksNumeric_of_splitSign {word rest : List Char} {c : Char}
    (hUnsigned : (Number.splitSign word).2 = c :: rest) (hDigit : c.isDigit = true) :
    looksNumeric word = true := by
  have hPoint : c ≠ '.' := by
    rintro rfl
    exact absurd hDigit (by decide)
  unfold looksNumeric
  rw [hUnsigned]
  split
  · rename_i hEq
    exact absurd (List.cons.inj hEq).1 hPoint
  · exact hDigit

theorem Token.atom?_of_number {token : Token} {expr : Expr} (hKind : token.kind = .number)
    (hNumber : numberExpr? token.span token.text = some expr) : token.atom? = .ok (some expr) := by
  simp [Token.atom?, hKind, hNumber]

theorem ReadsAs.number {start : Nat} {word : List Char} {expr : Expr} {c : Char} {rest : List Char}
    (hUnsigned : (Number.splitSign word).2 = c :: rest) (hDigit : c.isDigit = true)
    (hChars : word.all Number.isNumberChar = true)
    (hNumber : ∀ span, ∃ read, numberExpr? span word = some read ∧ read.bare = expr.bare) :
    ReadsAs start word [expr] := by
  have hKind : wordKind word = .number := by
    rw [wordKind, if_pos (looksNumeric_of_splitSign hUnsigned hDigit)]
  have hSome : word ≠ [] := by
    rintro rfl
    cases hUnsigned
  have hLexeme : Lexeme .number word := hKind ▸ Lexeme.word hSome fun c hMem =>
    isDelimiter_of_isNumberChar (List.all_eq_true.mp hChars c hMem)
  obtain ⟨read, hRead, hBare⟩ := hNumber (Token.ofText .number start word).span
  exact ReadsAs.atom hLexeme (Token.atom?_of_number rfl hRead) hBare

theorem readsAs_int (start : Nat) (span : Span) (value : Int64) :
    ReadsAs start (Expr.int span value).print [.int span value] := by
  have hSplit := Number.splitSign_toString value.toInt
  obtain ⟨c, rest, hDigits⟩ := List.exists_cons_of_ne_nil
    (Nat.toDigits_ne_nil : Nat.toDigits 10 value.toInt.natAbs ≠ [])
  have hDigit : c.isDigit = true :=
    Number.isDigits_iff.mp (hDigits ▸ Number.isDigits_toDigits _) c (by simp)
  rw [Expr.print]
  refine ReadsAs.number (by rw [hSplit, hDigits]) hDigit (Number.isNumberChar_toString _) ?_
  intro span'
  refine ⟨.int span' value, ?_, rfl⟩
  rw [numberExpr?, hSplit, if_pos (Number.isDigits_toDigits _), Number.readInteger_toString]
  rfl

theorem readsAs_float (start : Nat) (span : Span) {value : Float}
    (hFinite : Number.isFinite value = true) :
    ReadsAs start (Expr.float span value).print [.float span value] := by
  obtain ⟨negative, magnitude, d, hText, hShaped, -, -⟩ := Number.write_finite hFinite
  have hSplit := hShaped.splitSign_eq negative
  obtain ⟨c, rest, hMagnitude, hDigit⟩ := hShaped.first
  have hChars : (Number.Layout.standard.write value).all Number.isNumberChar = true := by
    rw [hText, List.all_append, hShaped.chars]
    cases negative <;> rfl
  rw [Expr.print]
  refine ReadsAs.number (by rw [hText, hSplit, hMagnitude]) hDigit hChars ?_
  intro span'
  refine ⟨.float span' value, ?_, rfl⟩
  have hRead := Number.readFloat_write hFinite
  rw [numberExpr?, hRead, hText, hSplit, if_neg (by simp [hShaped.mark])]
  simp [hFinite]

/-! ### Strings -/

theorem unescapeLetter?_of_escapeLetter? {c letter : Char} (h : Text.escapeLetter? c = some letter) :
    Text.unescapeLetter? letter = some c := by
  unfold Text.escapeLetter? at h
  split at h <;> cases h <;> rfl

theorem ne_of_escapeLetter?_none {c : Char} (h : Text.escapeLetter? c = none) :
    c ≠ '"' ∧ c ≠ '\\' := by
  constructor
  · rintro rfl
    cases h
  · rintro rfl
    cases h

/-- The body of a literal ends at the quote behind it and nowhere before. -/
theorem splitString_literal (text : List Char) :
    splitString (text.flatMap Text.literalChar ++ ['"']) =
      some (text.flatMap Text.literalChar ++ ['"'], []) := by
  induction text with
  | nil => rfl
  | cons c text ih =>
      rw [List.flatMap_cons, List.append_assoc]
      cases hEscape : Text.escapeLetter? c with
      | some letter =>
          have hChar : Text.literalChar c = ['\\', letter] := by simp [Text.literalChar, hEscape]
          simp [hChar, splitString, ih]
      | none =>
          have hChar : Text.literalChar c = [c] := by simp [Text.literalChar, hEscape]
          obtain ⟨hQuote, hSlash⟩ := ne_of_escapeLetter?_none hEscape
          rw [hChar, List.singleton_append, splitString_cons hQuote hSlash, ih]
          rfl

theorem unescape_cons {c : Char} (hSlash : c ≠ '\\') (start : Nat) (text : List Char) :
    unescape start (c :: text) = (unescape (start + c.utf8Size) text).map (c :: ·) := by
  rw [unescape]
  intro c' rest' hEq
  exact absurd hEq hSlash

theorem unescape_escape {letter plain : Char} (hLetter : Text.unescapeLetter? letter = some plain)
    (start : Nat) (text : List Char) :
    unescape start ('\\' :: letter :: text) =
      (unescape (start + 1 + letter.utf8Size) text).map (plain :: ·) := by
  simp only [unescape, hLetter]

theorem unescape_invalid {letter : Char} (hLetter : Text.unescapeLetter? letter = none)
    (start : Nat) (text : List Char) :
    unescape start ('\\' :: letter :: text) =
      .error ⟨.invalidEscape letter, ⟨start, start + 1 + letter.utf8Size⟩⟩ := by
  simp only [unescape, hLetter]

theorem unescape_literal (start : Nat) (text : List Char) :
    unescape start (text.flatMap Text.literalChar) = .ok text := by
  induction text generalizing start with
  | nil => rfl
  | cons c text ih =>
      rw [List.flatMap_cons]
      cases hEscape : Text.escapeLetter? c with
      | some letter =>
          have hChar : Text.literalChar c = ['\\', letter] := by simp [Text.literalChar, hEscape]
          rw [hChar, List.cons_append, List.cons_append,
            unescape_escape (unescapeLetter?_of_escapeLetter? hEscape), List.nil_append, ih]
          rfl
      | none =>
          have hChar : Text.literalChar c = [c] := by simp [Text.literalChar, hEscape]
          obtain ⟨-, hSlash⟩ := ne_of_escapeLetter?_none hEscape
          rw [hChar, List.singleton_append, unescape_cons hSlash, ih]
          rfl

theorem readsAs_string (start : Nat) (span : Span) (text : String) :
    ReadsAs start (Expr.string span text).print [.string span text] := by
  have hBody : (Token.ofText .string start (Text.literal text.toList)).body =
      text.toList.flatMap Text.literalChar := by
    simp [Token.body, Token.ofText, Text.literal]
  refine ReadsAs.atom (Lexeme.string (splitString_literal text.toList)) ?_
    (rfl : (Expr.string (Token.ofText .string start (Text.literal text.toList)).span text).bare = _)
  change (unescape _ (Token.ofText .string start (Text.literal text.toList)).body).map _ = _
  rw [hBody, unescape_literal]
  simp [Except.map]
  rfl

/-! ### Words -/

theorem readsAs_nil (start : Nat) (span : Span) :
    ReadsAs start (Expr.nil span).print [.nil span] := by
  have hKind : wordKind "nil".toList = .symbol := by decide
  have hPlain : ∀ c ∈ "nil".toList, isDelimiter c = false := by
    simpa using ⟨by decide, by decide, by decide⟩
  have hLexeme : Lexeme .symbol "nil".toList := hKind ▸ Lexeme.word (by decide) hPlain
  rw [Expr.print]
  refine ReadsAs.atom hLexeme ?_
    (rfl : (Expr.nil (Token.ofText .symbol start "nil".toList).span).bare = _)
  simp [Token.atom?, Token.ofText]

theorem readsAs_symbol (start : Nat) (span : Span) {name : String}
    (hName : isName name.toList = true) :
    ReadsAs start (Expr.symbol span name).print [.symbol span name] := by
  obtain ⟨hSome, hPlain, hNil, hNumber⟩ := isName_iff.mp hName
  have hKind : wordKind name.toList = .symbol := by simp [wordKind, hNumber]
  have hLexeme : Lexeme .symbol name.toList := hKind ▸ Lexeme.word hSome hPlain
  rw [Expr.print]
  refine ReadsAs.atom hLexeme ?_
    (rfl : (Expr.symbol (Token.ofText .symbol start name.toList).span name).bare = _)
  simpa [Token.atom?, Token.ofText] using hNil

/-! ### Expressions -/

theorem printAll_eq_intercalate (exprs : List Expr) :
    Expr.printAll exprs = [' '].intercalate (exprs.map Expr.print) := by
  induction exprs with
  | nil => rfl
  | cons expr exprs ih =>
      cases exprs with
      | nil => simp [Expr.printAll]
      | cons next rest => simp [Expr.printAll, ih, List.intercalate_cons_cons]

/-- Printed forms one blank apart are read as the expressions. -/
theorem readsAs_intercalate {exprs : List Expr} {c : Char} (hBlank : Text.isBlank c = true)
    (hPrint : ∀ expr ∈ exprs, ∀ start, ReadsAs start expr.print [expr]) (start : Nat) :
    ReadsAs start ([c].intercalate (exprs.map Expr.print)) exprs := by
  induction exprs generalizing start with
  | nil => exact ReadsAs.nil start
  | cons expr exprs ih =>
      have hFirst := hPrint expr (by simp) start
      have hOthers := ih fun expr hMem => hPrint expr (List.mem_cons_of_mem _ hMem)
      cases exprs with
      | nil => simpa using hFirst
      | cons next rest =>
          have hWhole := hFirst.separated hBlank (hOthers _)
          simpa [List.intercalate_cons_cons] using hWhole

theorem isReadable_of_mem {exprs : List Expr} (hReadable : Expr.areReadable exprs = true) :
    ∀ expr ∈ exprs, expr.isReadable = true := by
  induction exprs with
  | nil => simp
  | cons first exprs ih =>
      rw [Expr.areReadable, Bool.and_eq_true] at hReadable
      intro expr hMem
      rcases List.mem_cons.mp hMem with rfl | hTail
      · exact hReadable.1
      · exact ih hReadable.2 expr hTail

/-- Every readable expression is read from its printed form, wherever that stands. -/
theorem readsAs_print (expr : Expr) (hReadable : expr.isReadable = true) (start : Nat) :
    ReadsAs start expr.print [expr] := by
  match expr with
  | .nil span => exact readsAs_nil start span
  | .int span value => exact readsAs_int start span value
  | .float span value => exact readsAs_float start span hReadable
  | .string span text => exact readsAs_string start span text
  | .symbol span name => exact readsAs_symbol start span hReadable
  | .list span items =>
      have hItems := isReadable_of_mem hReadable
      rw [Expr.print, printAll_eq_intercalate]
      exact ReadsAs.list span (readsAs_intercalate (by decide)
        (fun item hMem start => readsAs_print item (hItems item hMem) start) _)

/-! ### What the reader accepts -/

theorem Scans.lexeme {start : Nat} {text : List Char} {scan : Scan} (h : Scans start text scan) :
    ∀ token ∈ scan.tokens, Lexeme token.kind token.text := by
  induction h with
  | done => simp
  | unclosed hOpen => simp
  | blank hBlank hRest ih => exact ih
  | token hLexeme hEnds hRest ih =>
      intro token hMem
      rcases List.mem_cons.mp hMem with rfl | hTail
      · exact hLexeme
      · exact ih token hTail

theorem Lexeme.symbol_word {text : List Char} {kind : TokenKind} (h : Lexeme kind text)
    (hKind : kind = .symbol) :
    text ≠ [] ∧ (∀ c ∈ text, isDelimiter c = false) ∧ looksNumeric text = false := by
  cases h with
  | word hSome hPlain =>
      refine ⟨hSome, hPlain, ?_⟩
      unfold wordKind at hKind
      split at hKind
      · cases hKind
      · rename_i hWord
        simpa using hWord
  | _ => cases hKind

/-- An atom that was scanned is readable. -/
theorem isReadable_of_atom {token : Token} {expr : Expr} (hLexeme : Lexeme token.kind token.text)
    (hAtom : token.atom? = .ok (some expr)) : expr.isReadable = true := by
  cases Token.denotes_of_atom hAtom with
  | symbol hKind hNil =>
      obtain ⟨hSome, hPlain, hNumber⟩ := hLexeme.symbol_word hKind
      rw [Expr.isReadable, String.toList_ofList]
      exact isName_iff.mpr ⟨hSome, hPlain, hNil, hNumber⟩
  | float _ _ _ hFinite => exact hFinite
  | _ => rfl

theorem areReadable_of_derives {tokens : List Token} {exprs : List Expr}
    (h : Derives tokens exprs) (hLexemes : ∀ token ∈ tokens, Lexeme token.kind token.text) :
    Expr.areReadable exprs = true := by
  induction h with
  | nil => rfl
  | comment _ _ ih => exact ih fun token hMem => hLexemes token (List.mem_cons_of_mem _ hMem)
  | atom hAtom _ ih =>
      rw [Expr.areReadable, isReadable_of_atom (hLexemes _ (by simp)) hAtom,
        ih fun token hMem => hLexemes token (List.mem_cons_of_mem _ hMem)]
      rfl
  | list _ _ _ _ ihInner ih =>
      rw [Expr.areReadable, Expr.isReadable, ihInner, ih]
      · rfl
      · intro token hMem
        exact hLexemes token (by simp [hMem])
      · intro token hMem
        exact hLexemes token (by simp [hMem])

/-! ### Round trip -/

theorem beq_self_of_isFinite {value : Float} (hFinite : Number.isFinite value = true) :
    (value == value) = true := by
  rw [Float.beq_self_iff]
  rintro rfl
  exact absurd hFinite (by decide)

mutual

/-- Readable expressions that differ in places only count as the same. -/
theorem same_of_bare (expr read : Expr) (hReadable : expr.isReadable = true)
    (hBare : read.bare = expr.bare) : read.same expr = true := by
  match expr with
  | .nil _ =>
      cases read <;> cases hBare
      rfl
  | .int _ value =>
      cases read <;> cases hBare
      exact beq_self_eq_true value
  | .float _ value =>
      cases read <;> cases hBare
      exact beq_self_of_isFinite hReadable
  | .string _ text =>
      cases read <;> cases hBare
      exact beq_self_eq_true text
  | .symbol _ name =>
      cases read <;> cases hBare
      exact beq_self_eq_true name
  | .list _ items =>
      cases read with
      | list _ read => exact sameAll_of_bare items read hReadable (Expr.list.inj hBare).2
      | _ => cases hBare

theorem sameAll_of_bare (exprs read : List Expr) (hReadable : Expr.areReadable exprs = true)
    (hBare : Expr.bareAll read = Expr.bareAll exprs) : Expr.sameAll read exprs = true := by
  match exprs, read with
  | [], [] => rfl
  | [], _ :: _ => cases hBare
  | _ :: _, [] => cases hBare
  | expr :: exprs, first :: read =>
      rw [Expr.areReadable, Bool.and_eq_true] at hReadable
      obtain ⟨hFirst, hRest⟩ := List.cons.inj hBare
      rw [Expr.sameAll, same_of_bare expr first hReadable.1 hFirst,
        sameAll_of_bare exprs read hReadable.2 hRest]
      rfl

end

/-- A program that can be written down: readable expressions, not nested too deep. -/
def WellFormed (program : List Expr) : Prop :=
  Expr.areReadable program = true ∧ Expr.nestingAll program ≤ maxNesting

/-- The printed forms of a program, one to a line. -/
def programText (program : List Expr) : String :=
  "\n".intercalate (program.map Expr.text)

theorem parse_eq_ok_iff {source label : String} {program : List Expr} :
    parse source label = .ok program ↔ readProgram source.toList = .ok program := by
  unfold parse
  split
  · rename_i hRead
    simp [hRead]
  · rename_i hRead
    simp [hRead]

theorem parse_eq_error_iff {source label : String} {error : SyntaxError} :
    parse source label = .error error ↔
      ∃ misfit, readProgram source.toList = .error misfit ∧
        error = ⟨label, Position.locate source.toList misfit.span.start, misfit.span, misfit.cause⟩ := by
  unfold parse
  cases readProgram source.toList with
  | ok program => simp
  | error misfit => simp [eq_comm]

theorem toList_programText (program : List Expr) :
    (programText program).toList = ['\n'].intercalate (program.map Expr.print) := by
  rw [programText, String.toList_intercalate, List.map_map]
  congr 1
  apply List.map_congr_left
  intro expr _
  exact String.toList_ofList

mutual

/-- Nesting does not depend on places. -/
theorem nesting_bare (expr : Expr) : expr.bare.nesting = expr.nesting := by
  match expr with
  | .nil _ | .int _ _ | .float _ _ | .string _ _ | .symbol _ _ => rfl
  | .list _ items => rw [Expr.bare, Expr.nesting, Expr.nesting, nestingAll_bareAll items]

theorem nestingAll_bareAll (exprs : List Expr) :
    Expr.nestingAll (Expr.bareAll exprs) = Expr.nestingAll exprs := by
  match exprs with
  | [] => rfl
  | expr :: exprs =>
      rw [Expr.bareAll, Expr.nestingAll, Expr.nestingAll, nesting_bare expr,
        nestingAll_bareAll exprs]

end

theorem parse_programText {program : List Expr} (hWellFormed : WellFormed program) (label : String) :
    ∃ read, parse (programText program) label = .ok read ∧
      Expr.bareAll read = Expr.bareAll program := by
  obtain ⟨hReadable, hNesting⟩ := hWellFormed
  have hPrint : ∀ expr ∈ program, ∀ start, ReadsAs start expr.print [expr] :=
    fun expr hMem => readsAs_print expr (isReadable_of_mem hReadable expr hMem)
  obtain ⟨tokens, read, hScans, hDerives, hBare, -⟩ :=
    readsAs_intercalate (by decide : Text.isBlank '\n' = true) hPrint 0
  have hDepth : Expr.nestingAll read ≤ maxNesting := by
    rwa [← nestingAll_bareAll, hBare, nestingAll_bareAll]
  refine ⟨read, parse_eq_ok_iff.mpr ?_, hBare⟩
  rw [toList_programText]
  exact readProgram_eq_ok_iff.mpr ⟨tokens, hScans, hDerives, hDepth⟩

theorem wellFormed_of_parse {source label : String} {program : List Expr}
    (hParse : parse source label = .ok program) : WellFormed program := by
  obtain ⟨tokens, hScans, hDerives, hNesting⟩ := readProgram_eq_ok_iff.mp (parse_eq_ok_iff.mp hParse)
  exact ⟨areReadable_of_derives hDerives hScans.lexeme, hNesting⟩

/-- Printing and reading are inverse to each other. Every program that can be written down is read
from its printed form, up to places; the reader accepts nothing else; and so printing what was read
and reading it again changes nothing. -/
theorem parse_print_inverse :
    (∀ (program : List Expr) (label : String), WellFormed program →
      ∃ read, parse (programText program) label = .ok read ∧
        Expr.bareAll read = Expr.bareAll program ∧ Expr.sameAll read program = true) ∧
    (∀ (source label : String) (program : List Expr), parse source label = .ok program →
      WellFormed program) ∧
    (∀ (source label : String) (program : List Expr), parse source label = .ok program →
      ∃ read, parse (programText program) label = .ok read ∧ Expr.sameAll read program = true) := by
  have hPrinted : ∀ (program : List Expr) (label : String), WellFormed program →
      ∃ read, parse (programText program) label = .ok read ∧
        Expr.bareAll read = Expr.bareAll program ∧ Expr.sameAll read program = true := by
    intro program label hWellFormed
    obtain ⟨read, hRead, hBare⟩ := parse_programText hWellFormed label
    exact ⟨read, hRead, hBare, sameAll_of_bare program read hWellFormed.1 hBare⟩
  refine ⟨hPrinted, fun source label program => wellFormed_of_parse, ?_⟩
  intro source label program hParse
  obtain ⟨read, hRead, -, hSame⟩ := hPrinted program label (wellFormed_of_parse hParse)
  exact ⟨read, hRead, hSame⟩

theorem parse_print_inverse_nested :
    WellFormed [.list default [.symbol default "a:", .string default "\"\n", .int default (-3)]] ∧
      ∃ read, parse (programText
          [.list default [.symbol default "a:", .string default "\"\n", .int default (-3)]]) "t" =
            .ok read ∧ WellFormed read ∧
        ∃ again, parse (programText read) "t" = .ok again ∧ Expr.sameAll again read = true := by
  have hWellFormed : WellFormed
      [.list default [.symbol default "a:", .string default "\"\n", .int default (-3)]] :=
    ⟨by decide, by decide⟩
  obtain ⟨read, hRead, -⟩ := parse_print_inverse.1 _ "t" hWellFormed
  exact ⟨hWellFormed, read, hRead, parse_print_inverse.2.1 _ _ _ hRead,
    parse_print_inverse.2.2 _ _ _ hRead⟩

end MessageLisp.Source
