import MessageLisp.Proofs.Source.Misfit

/-! What a syntax error points at. The span of an error divides the text into what stands before it, what it
covers and what follows, and the cause says what it covers: a parenthesis, a number, an escape, or nothing
at the end of the text. -/
namespace MessageLisp.Source

/-! ### Positions -/

/-- The position right behind a text: so many bytes, on the line that the text ends with, behind the
characters of that line. -/
structure Position.IsBehind (position : Position) (before : List Char) : Prop where
  offset : position.offset = byteLength before
  line : position.line = 1 + before.count '\n'
  column : ∃ line, '\n' ∉ line ∧ (before = line ∨ ∃ earlier, before = earlier ++ '\n' :: line) ∧
    position.column = 1 + line.length

/-- The last line of a text is what stands behind its last line break. -/
theorem exists_last_line (text : List Char) :
    ∃ line, '\n' ∉ line ∧ (text = line ∨ ∃ earlier, text = earlier ++ '\n' :: line) ∧
      line.length = (text.reverse.takeWhile (· ≠ '\n')).length := by
  by_cases hBreak : '\n' ∈ text
  · obtain ⟨line, earlier, hReversed, hLine⟩ := List.eq_append_cons_of_mem (List.mem_reverse.mpr hBreak)
    refine ⟨line.reverse, by simpa using hLine, .inr ⟨earlier.reverse, ?_⟩, ?_⟩
    · rw [← List.reverse_inj, hReversed]
      simp
    · have hPlain : ∀ c ∈ line, decide (c ≠ '\n') = true := by
        grind
      rw [hReversed, List.takeWhile_append_of_pos hPlain, List.takeWhile_cons_of_neg (by simp),
        List.append_nil, List.length_reverse]
  · refine ⟨text, hBreak, .inl rfl, ?_⟩
    rw [List.takeWhile_eq_self_iff.mpr, List.length_reverse]
    intro c hc
    grind

theorem locate_byteLength (before rest : List Char) :
    Position.locate (before ++ rest) (byteLength before) =
      ⟨byteLength before, 1 + before.count '\n',
        1 + (before.reverse.takeWhile (· ≠ '\n')).length⟩ := by
  have hClamp : min (byteLength before) (byteLength (before ++ rest)) = byteLength before := by
    rw [byteLength_append]
    omega
  simp only [Position.locate, hClamp, startingBefore_append]

theorem locate_isBehind (before rest : List Char) :
    (Position.locate (before ++ rest) (byteLength before)).IsBehind before := by
  rw [locate_byteLength]
  refine ⟨rfl, rfl, ?_⟩
  obtain ⟨line, hLine, hBefore, hLength⟩ := exists_last_line before
  exact ⟨line, hLine, hBefore, by rw [hLength]⟩

/-! ### Causes -/

/-- What is found where a misfit is reported, `under` its span. -/
def SyntaxCause.FoundAt (before under after : List Char) : SyntaxCause → Prop
  | unexpectedClose => under = [')']
  | unterminatedList => under = [] ∧ after = []
  | unterminatedString => under = [] ∧ after = []
  | invalidEscape char => under = ['\\', char]
  | invalidNumber text => under = text.toList
  | nestingTooDeep limit =>
    limit = 256 ∧ under = ['('] ∧ ∀ count,
      -- That many closing parentheses are missing before the one that is too deep.
      (∃ program, readProgram (before ++ '\n' :: closing count) = .ok program) ↔ count = 256

/-- The text can be divided at the span of the misfit such that its cause is found there. -/
def Misfit.PointsInto (misfit : Misfit) (source : List Char) : Prop :=
  ∃ before under after, source = before ++ (under ++ after) ∧
    misfit.span = ⟨byteLength before, byteLength before + byteLength under⟩ ∧
    misfit.cause.FoundAt before under after

theorem LeavesOpen.completed_iff_eq {source : List Char} {count : Nat} (h : LeavesOpen source count)
    (count' : Nat) :
    (∃ program, readProgram (source ++ '\n' :: closing count') = .ok program) ↔ count' = count := by
  rw [completed_iff]
  constructor
  · intro h'
    exact h'.unique h
  · rintro rfl
    exact h

/-- A token that is rejected has the cause in it: it is the parenthesis or the number itself, or a string
with the escape. -/
theorem Reading.Rejects.pointsInto {reading : Reading} {token : Token} {misfit : Misfit}
    (h : reading.Rejects token misfit) (hLexeme : Lexeme token.kind token.text)
    {front rest : List Char}
    (hSpan : token.span = ⟨byteLength front, byteLength front + byteLength token.text⟩)
    (hOpen : LeavesOpen front reading.pending.length) :
    misfit.PointsInto (front ++ (token.text ++ rest)) := by
  cases h with
  | tooDeep hKind hFull =>
      have hCount : reading.pending.length = 256 := le_antisymm hOpen.le_maxNesting hFull
      rw [hCount] at hOpen
      exact ⟨front, token.text, rest, rfl, hSpan, rfl, hLexeme.parenthesis.1 hKind,
        hOpen.completed_iff_eq⟩
  | unmatched hKind hTop => exact ⟨front, token.text, rest, rfl, hSpan, hLexeme.parenthesis.2 hKind⟩
  | number hKind hText => exact ⟨front, token.text, rest, rfl, hSpan, String.toList_ofList.symm⟩
  | escape hKind hBody =>
      obtain ⟨inner, c, inner', hText, rfl⟩ := Token.exists_of_body_eq_error hLexeme hKind hBody
      refine ⟨front ++ '"' :: inner, ['\\', c], inner' ++ '"' :: rest, ?_, ?_, rfl⟩
      · rw [hText]
        simp
      · have hQuote : '"'.utf8Size = 1 := rfl
        have hSlash : '\\'.utf8Size = 1 := rfl
        rw [hSpan]
        simp only [byteLength_cons, byteLength_append, byteLength_nil, hQuote, hSlash, Nat.add_zero,
          Nat.add_assoc]

theorem Reading.finish_eq_error {reading : Reading} {unterminated : Bool} {source : List Char}
    {misfit : Misfit} (h : reading.finish unterminated (byteLength source) = .error misfit) :
    misfit.PointsInto source := by
  obtain ⟨pending, finished⟩ := reading
  have hEnd : source = source ++ ([] ++ []) := by simp
  cases unterminated with
  | true =>
      cases h
      exact ⟨source, [], [], hEnd, rfl, rfl, rfl⟩
  | false =>
      cases pending <;> cases h
      exact ⟨source, [], [], hEnd, rfl, rfl, rfl⟩

/-- Whether it is a token or the end of the text that does not fit, the cause is found there. -/
theorem pointsInto_of_readProgram {source : List Char} {misfit : Misfit}
    (hRead : readProgram source = .error misfit) : misfit.PointsInto source := by
  cases hFold : (scan source).tokens.foldlM Reading.step Reading.empty with
  | ok reading =>
      rw [readProgram_of_ok hFold] at hRead
      exact Reading.finish_eq_error hRead
  | error first =>
      rw [readProgram_of_error hFold] at hRead
      cases hRead
      obtain ⟨before, token, after, reading, hTokens, hBefore, hStep⟩ :=
        Reading.foldlM_step_eq_error hFold
      have hScans : Scans 0 source ⟨before ++ token :: after, (scan source).unterminated⟩ :=
        hTokens ▸ scans_scanFrom 0 source
      obtain ⟨front, rest, hText, hSpan, -, hFront, -⟩ := hScans.around
      have hScanned : scan front = ⟨before, false⟩ := scanFrom_of_scans hFront
      have hOpen : LeavesOpen front reading.pending.length := by
        rw [LeavesOpen, hScanned]
        exact ⟨rfl, reading, hBefore, rfl⟩
      rw [Nat.zero_add] at hSpan
      rw [hText]
      exact (Reading.rejects_of_step hStep).pointsInto (hScans.lexeme token (by simp)) hSpan hOpen

/-- Syntax errors point at their cause. The span of an error covers a part of the text, between characters;
its position is that of the start of the span, and the text under the span is what the cause says: the
parenthesis that is unexpected, or too deep with exactly 256 lists open before it, the number or the escape
that cannot be read, or nothing at the end of the text. -/
theorem syntax_errors_point_at_cause {source label : String} {error : SyntaxError}
    (hParse : parse source label = .error error) :
    error.span.start ≤ error.span.stop ∧ error.span.stop ≤ source.utf8ByteSize ∧
      IsBoundary source.toList error.span.start ∧ IsBoundary source.toList error.span.stop ∧
      ∃ before under after, source.toList = before ++ (under ++ after) ∧
        error.span = ⟨byteLength before, byteLength before + byteLength under⟩ ∧
        slice source.toList error.span = under ∧ error.position.IsBehind before ∧
        error.cause.FoundAt before under after := by
  obtain ⟨misfit, hRead, rfl⟩ := parse_eq_error_iff.mp hParse
  obtain ⟨before, under, after, hText, hSpan, hFound⟩ := pointsInto_of_readProgram hRead
  have hBehind : source.toList = (before ++ under) ++ after := by rw [hText, List.append_assoc]
  dsimp only
  rw [← byteLength_toList, hSpan]
  refine ⟨Nat.le_add_right .., ?_, ⟨before, _, hText, rfl⟩,
    ⟨before ++ under, after, hBehind, byteLength_append ..⟩, before, under, after, hText, rfl, ?_, ?_,
    hFound⟩
  · rw [hBehind, byteLength_append, byteLength_append]
    exact Nat.le_add_right ..
  · rw [hText, slice_append]
  · rw [hText]
    exact locate_isBehind before _

/-- An escape that does not exist, behind characters of two bytes and on the second line. -/
theorem syntax_errors_point_at_cause_escape :
    parse "(é\n\"ü\\q\")" "t" = .error ⟨"t", ⟨7, 2, 3⟩, ⟨7, 9⟩, .invalidEscape 'q'⟩ ∧
      slice "(é\n\"ü\\q\")".toList ⟨7, 9⟩ = ['\\', 'q'] ∧
      ∃ before after, "(é\n\"ü\\q\")".toList = before ++ (['\\', 'q'] ++ after) ∧
        Position.IsBehind ⟨7, 2, 3⟩ before := by
  have hParse : parse "(é\n\"ü\\q\")" "t" =
      .error ⟨"t", ⟨7, 2, 3⟩, ⟨7, 9⟩, .invalidEscape 'q'⟩ := by
    cbv
  obtain ⟨-, -, -, -, before, under, after, hText, -, hUnder, hBehind, hFound⟩ :=
    syntax_errors_point_at_cause hParse
  cases hFound
  exact ⟨hParse, hUnder, before, after, hText, hBehind⟩

end MessageLisp.Source
