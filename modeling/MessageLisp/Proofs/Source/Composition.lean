import MessageLisp.Proofs.Source.Location

/-! Texts put together. At a line break every token is complete, unless a string is open there, and so
a text behind a line break is read as it is by itself, only further back. A text that leaves lists open
is completed by closing parentheses, and by one number of them only. -/
namespace MessageLisp.Source

/-! ### Line breaks -/

theorem TokenKind.endsAt_newline (kind : TokenKind) (rest : List Char) : kind.EndsAt ('\n' :: rest) := by
  have hDelimiter : isDelimiter '\n' = true := by decide
  cases kind <;> simp [TokenKind.EndsAt, hDelimiter]

theorem scan_newline {front : List Char} (hClosed : (scan front).unterminated = false)
    (rest : List Char) :
    scan (front ++ '\n' :: rest) =
      ⟨(scan front).tokens ++ (scan rest).tokens.map (·.shift (byteLength front + 1)),
        (scan rest).unterminated⟩ := by
  have hFront : Scans 0 front ⟨(scan front).tokens, false⟩ := hClosed ▸ scans_scanFrom 0 front
  have hRest : Scans (0 + byteLength front) ('\n' :: rest) _ :=
    Scans.blank (by decide) (by
      have hMoved := (scans_scanFrom 0 rest).shift (byteLength front + 1)
      rwa [← Nat.add_assoc] at hMoved)
  exact scanFrom_of_scans (hFront.append (fun token _ => token.kind.endsAt_newline rest) hRest)

theorem utf8Size_newline : '\n'.utf8Size = 1 := rfl

theorem byteLength_newline (front rest : List Char) :
    byteLength (front ++ '\n' :: rest) = byteLength rest + (byteLength front + 1) := by
  rw [byteLength_append, byteLength_cons, utf8Size_newline]
  omega

/-- Reading goes on behind a line break from the state that it is in there. -/
theorem readProgram_newline {front : List Char} (hClosed : (scan front).unterminated = false)
    {reading : Reading}
    (hFold : (scan front).tokens.foldlM Reading.step Reading.empty = .ok reading)
    (rest : List Char) :
    readProgram (front ++ '\n' :: rest) = (do
      let reading ← ((scan rest).tokens.map (·.shift (byteLength front + 1))).foldlM
        Reading.step reading
      reading.finish (scan rest).unterminated (byteLength rest + (byteLength front + 1))) := by
  simp only [readProgram, scan_newline hClosed, List.foldlM_append, hFold, byteLength_newline]
  rfl

/-- Behind a program and a line break a text is read as it is by itself. -/
theorem readProgram_after {front : List Char} {program : List Expr}
    (hFront : readProgram front = .ok program) (rest : List Char) :
    readProgram (front ++ '\n' :: rest) =
      moved (byteLength front + 1)
        (fun exprs => program ++ exprs.map (Expr.shift (byteLength front + 1)))
        (readProgram rest) := by
  obtain ⟨hClosed, hFold⟩ := readProgram_eq_ok_iff_foldlM.mp hFront
  have hAfter := Reading.foldlM_step_after Reading.empty (byteLength front + 1) program.reverse
    (scan rest).tokens
  have hStart : (⟨[], program.reverse⟩ : Reading) =
      Reading.empty.after (byteLength front + 1) program.reverse :=
    rfl
  rw [readProgram_newline hClosed hFold, hStart, hAfter]
  cases hRest : (scan rest).tokens.foldlM Reading.step Reading.empty with
  | error misfit =>
      rw [readProgram_of_error hRest]
      rfl
  | ok reading =>
      have hFinish := reading.finish_after (byteLength front + 1) program.reverse
        (scan rest).unterminated (byteLength rest)
      rw [List.reverse_reverse] at hFinish
      rw [readProgram_of_ok hRest, ← hFinish]
      rfl

theorem takeWhile_append_cons {p : Char → Bool} {c : Char} (hStop : p c = false)
    (text rest : List Char) : (text ++ c :: rest).takeWhile p = text.takeWhile p := by
  induction text with
  | nil => simp [hStop]
  | cons first text ih => simp [List.takeWhile_cons, ih]

theorem locate_newline (front rest : List Char) (offset : Nat) :
    Position.locate (front ++ '\n' :: rest) (offset + (byteLength front + 1)) =
      { offset := (Position.locate rest offset).offset + (byteLength front + 1)
        line := (Position.locate rest offset).line + (1 + front.count '\n')
        column := (Position.locate rest offset).column } := by
  have hClamp : min (offset + (byteLength front + 1)) (byteLength (front ++ '\n' :: rest)) =
      min offset (byteLength rest) + (byteLength front + 1) := by
    rw [byteLength_newline]
    omega
  have hBefore : startingBefore (min offset (byteLength rest) + (byteLength front + 1)) 0
      (front ++ '\n' :: rest) =
        front ++ '\n' :: startingBefore (min offset (byteLength rest)) 0 rest := by
    have hFront := startingBefore_append_add (front ++ ['\n']) rest (min offset (byteLength rest)) 0
    simpa [utf8Size_newline] using hFront
  simp only [Position.locate, hClamp, hBefore]
  generalize startingBefore (min offset (byteLength rest)) 0 rest = before
  have hColumn : ((front ++ '\n' :: before).reverse.takeWhile (· ≠ '\n')) =
      before.reverse.takeWhile (· ≠ '\n') := by
    rw [List.reverse_append, List.reverse_cons, List.append_assoc]
    exact takeWhile_append_cons (by decide) before.reverse front.reverse
  rw [hColumn, List.count_append, List.count_cons_self]
  congr 1
  omega

/-- Reading is compositional. Behind a program and a line break a text is read as it is by itself: a
program follows the first one, and a misfit is the same one, each moved by the bytes and the lines in
front of it. -/
theorem parse_newline_append {first firstLabel : String} {program : List Expr}
    (hFirst : parse first firstLabel = .ok program) (second secondLabel label : String) :
    (∀ later, parse second secondLabel = .ok later →
      parse (first ++ "\n" ++ second) label =
        .ok (program ++ later.map (Expr.shift (first.utf8ByteSize + 1)))) ∧
    (∀ error, parse second secondLabel = .error error →
      parse (first ++ "\n" ++ second) label = .error
        { label
          cause := error.cause
          span := error.span.shift (first.utf8ByteSize + 1)
          position :=
            { offset := error.position.offset + (first.utf8ByteSize + 1)
              line := error.position.line + (1 + first.toList.count '\n')
              column := error.position.column } }) := by
  have hText : (first ++ "\n" ++ second).toList = first.toList ++ '\n' :: second.toList := by simp
  have hAfter := readProgram_after (parse_eq_ok_iff.mp hFirst) second.toList
  rw [← byteLength_toList]
  constructor
  · intro later hLater
    rw [parse_eq_ok_iff, hText, hAfter, parse_eq_ok_iff.mp hLater, moved_ok]
  · intro error hError
    obtain ⟨misfit, hMisfit, rfl⟩ := parse_eq_error_iff.mp hError
    refine parse_eq_error_iff.mpr ⟨misfit.shift (byteLength first.toList + 1), ?_, ?_⟩
    · rw [hText, hAfter, hMisfit, moved_error]
    · rw [hText]
      simp only [Misfit.shift, Span.shift, locate_newline]

theorem parse_newline_append_misfit :
    parse "a ; é" "t" = .ok [.symbol ⟨0, 1⟩ "a"] ∧
      parse "b\n 1x" "t" = .error ⟨"t", ⟨3, 2, 2⟩, ⟨3, 5⟩, .invalidNumber "1x"⟩ ∧
      parse ("a ; é" ++ "\n" ++ "b\n 1x") "t" =
        .error ⟨"t", ⟨10, 3, 2⟩, ⟨10, 12⟩, .invalidNumber "1x"⟩ := by
  have hFirst : parse "a ; é" "t" = .ok [.symbol ⟨0, 1⟩ "a"] := by cbv
  have hSecond : parse "b\n 1x" "t" =
      .error ⟨"t", ⟨3, 2, 2⟩, ⟨3, 5⟩, .invalidNumber "1x"⟩ := by cbv
  exact ⟨hFirst, hSecond, (parse_newline_append hFirst "b\n 1x" "t" "t").2 _ hSecond⟩

/-! ### Closing parentheses -/

/-- A string that is open stays open if no quote follows. -/
theorem splitString_append_eq_none {text more : List Char} (h : splitString text = none)
    (hMore : '"' ∉ more) : splitString (text ++ more) = none := by
  cases hSplit : splitString (text ++ more) with
  | none => rfl
  | some split =>
      obtain ⟨body, rest⟩ := split
      obtain ⟨inner, rfl, -⟩ := exists_stringBody hSplit
      -- The closing quote is not in `more`, and so the whole body is in `text`.
      have hInside : ∃ after, text = inner ++ ['"'] ++ after := by
        rcases List.append_eq_append_iff.mp (splitString_append hSplit) with
          ⟨after, rfl, -⟩ | ⟨late, hBody, rfl⟩
        · exact ⟨after, rfl⟩
        · rcases List.eq_nil_or_concat' late with rfl | ⟨front, c, rfl⟩
          · exact ⟨[], by simp [hBody]⟩
          · rw [← List.append_assoc] at hBody
            obtain ⟨-, hQuote⟩ := List.append_inj' hBody rfl
            simp [← List.singleton_inj.mp hQuote] at hMore
      obtain ⟨after, rfl⟩ := hInside
      rw [splitString_body hSplit] at h
      cases h

/-- A text that ends inside a string still does if no quote follows. -/
theorem Scans.stays_open {start : Nat} {text : List Char} {tokens : List Token}
    (h : Scans start text ⟨tokens, true⟩) {more : List Char} (hMore : '"' ∉ more) :
    Scans start (text ++ more) ⟨tokens, true⟩ := by
  generalize hScan : (⟨tokens, true⟩ : Scan) = scan at h
  induction h generalizing tokens with
  | done => cases hScan
  | unclosed hOpen =>
      cases hScan
      exact Scans.unclosed (splitString_append_eq_none hOpen hMore)
  | blank hBlank _ ih =>
      subst hScan
      exact Scans.blank hBlank (ih rfl)
  | @token start kind lexeme rest scan hLexeme hEnds hRest ih =>
      obtain ⟨inner, unterminated⟩ := scan
      cases hScan
      have hStays : kind.EndsAt (rest ++ more) := by
        cases rest with
        | nil =>
            have hDone := scanFrom_of_scans hRest
            simp [scanFrom] at hDone
        | cons c rest => cases kind <;> exact hEnds
      rw [List.append_assoc]
      exact Scans.token hLexeme hStays (ih rfl)

/-- A line of closing parentheses. -/
def closing (count : Nat) : List Char :=
  List.replicate count ')'

theorem scans_closing (start count : Nat) :
    ∃ tokens, Scans start (closing count) ⟨tokens, false⟩ ∧ tokens.length = count ∧
      ∀ token ∈ tokens, token.kind = .listClose := by
  induction count generalizing start with
  | zero => exact ⟨[], Scans.done, rfl, by simp⟩
  | succ count ih =>
      obtain ⟨tokens, hScans, hLength, hKinds⟩ := ih (start + 1)
      refine ⟨_, Scans.token Lexeme.listClose trivial hScans, congrArg (· + 1) hLength, ?_⟩
      intro token hToken
      rcases List.mem_cons.mp hToken with rfl | hLater
      · rfl
      · exact hKinds token hLater

/-- Every closing parenthesis closes one list. -/
theorem Reading.foldlM_step_closers {tokens : List Token}
    (hKinds : ∀ token ∈ tokens, token.kind = .listClose) (reading : Reading) (count : Nat) :
    (∃ last, tokens.foldlM step reading = .ok last ∧ last.pending.length = count) ↔
      reading.pending.length = count + tokens.length := by
  induction tokens generalizing reading with
  | nil => simp [pure, Except.pure]
  | cons token tokens ih =>
      have hClose : token.kind = .listClose := hKinds token (by simp)
      have hRest := ih fun token hMem => hKinds token (List.mem_cons_of_mem _ hMem)
      obtain ⟨pending, finished⟩ := reading
      rw [List.foldlM_cons]
      cases pending with
      | nil =>
          rw [step_unmatched hClose]
          simp [bind, Except.bind]
      | cons inner outer =>
          rw [step_close hClose]
          refine (hRest _).trans ?_
          rw [length_pending_push, List.length_cons, List.length_cons]
          exact Nat.succ_inj.symm

theorem Reading.exists_finish_iff {reading : Reading} {stop : Nat} :
    (∃ program, reading.finish false stop = .ok program) ↔ reading.pending.length = 0 := by
  obtain ⟨pending, finished⟩ := reading
  cases pending <;> simp [finish]

/-- All tokens of the text fit, no string is left open, and `count` lists are. -/
def LeavesOpen (source : List Char) (count : Nat) : Prop :=
  (scan source).unterminated = false ∧ ∃ reading,
    (scan source).tokens.foldlM Reading.step Reading.empty = .ok reading ∧
      reading.pending.length = count

theorem LeavesOpen.unique {source : List Char} {count count' : Nat} (h : LeavesOpen source count)
    (h' : LeavesOpen source count') : count = count' := by
  obtain ⟨-, reading, hFold, rfl⟩ := h
  obtain ⟨-, reading', hFold', rfl⟩ := h'
  rw [Except.ok.inj (hFold.symm.trans hFold')]

theorem LeavesOpen.le_maxNesting {source : List Char} {count : Nat} (h : LeavesOpen source count) :
    count ≤ maxNesting := by
  obtain ⟨-, reading, hFold, rfl⟩ := h
  exact (Reads.empty.foldlM_step hFold).length_le

/-- A line of closing parentheses completes a text exactly if it leaves as many lists open. -/
theorem completed_iff {source : List Char} {count : Nat} :
    (∃ program, readProgram (source ++ '\n' :: closing count) = .ok program) ↔
      LeavesOpen source count := by
  unfold LeavesOpen
  obtain ⟨closers, hScans, hLength, hKinds⟩ := scans_closing 0 count
  have hClosing : scan (closing count) = ⟨closers, false⟩ := scanFrom_of_scans hScans
  cases hClosed : (scan source).unterminated with
  | true =>
      have hOpen : Scans 0 source ⟨(scan source).tokens, true⟩ := hClosed ▸ scans_scanFrom 0 source
      have hMore : '"' ∉ '\n' :: closing count := by simp [closing]
      have hStays : scan (source ++ '\n' :: closing count) = ⟨(scan source).tokens, true⟩ :=
        scanFrom_of_scans (hOpen.stays_open hMore)
      simp [readProgram_eq_ok_iff_foldlM, hStays]
  | false =>
      cases hFold : (scan source).tokens.foldlM Reading.step Reading.empty with
      | error misfit =>
          simp [readProgram_eq_ok_iff_foldlM, scan_newline hClosed, hFold, bind, Except.bind]
      | ok reading =>
          have hMoved : ∀ token ∈ closers.map (·.shift (byteLength source + 1)),
              token.kind = .listClose := by
            simpa using hKinds
          have hClosers := Reading.foldlM_step_closers hMoved reading 0
          rw [List.length_map, hLength, Nat.zero_add] at hClosers
          rw [readProgram_newline hClosed hFold, hClosing]
          cases hLast : (closers.map (·.shift (byteLength source + 1))).foldlM Reading.step reading with
          | error misfit =>
              rw [hLast] at hClosers
              simpa [bind, Except.bind] using hClosers
          | ok last =>
              rw [hLast] at hClosers
              refine Reading.exists_finish_iff.trans ?_
              simpa using hClosers

/-- No token by itself leaves a list open. -/
theorem Reading.cause_of_foldlM_step {reading : Reading} {tokens : List Token} {misfit : Misfit}
    (h : tokens.foldlM step reading = .error misfit) : misfit.cause ≠ .unterminatedList := by
  obtain ⟨-, token, -, reading', -, -, hStep⟩ := foldlM_step_eq_error h
  rcases step_eq_error hStep with ⟨-, rfl⟩ | ⟨-, rfl⟩ | hAtom
  · simp
  · simp
  · rcases Token.atom?_eq_error hAtom with ⟨c, hCause⟩ | rfl
    · simp [hCause]
    · simp

/-- That a list is open is what the reader complains of exactly if some are, and it says so at the
end of the text. -/
theorem readProgram_unterminatedList_iff {source : List Char} {misfit : Misfit} :
    readProgram source = .error misfit ∧ misfit.cause = .unterminatedList ↔
      (∃ count, 1 ≤ count ∧ LeavesOpen source count) ∧
        misfit = ⟨.unterminatedList, ⟨byteLength source, byteLength source⟩⟩ := by
  constructor
  · rintro ⟨hRead, hCause⟩
    cases hFold : (scan source).tokens.foldlM Reading.step Reading.empty with
    | error first =>
        rw [readProgram_of_error hFold] at hRead
        cases hRead
        exact absurd hCause (Reading.cause_of_foldlM_step hFold)
    | ok reading =>
        rw [readProgram_of_ok hFold] at hRead
        obtain ⟨pending, finished⟩ := reading
        cases hClosed : (scan source).unterminated with
        | true =>
            rw [hClosed] at hRead
            cases hRead
            cases hCause
        | false =>
            rw [hClosed] at hRead
            cases pending with
            | nil => cases hRead
            | cons inner outer =>
                cases hRead
                exact ⟨⟨outer.length + 1, Nat.le_add_left .., hClosed, _, hFold, rfl⟩, rfl⟩
  · rintro ⟨⟨count, hCount, hClosed, ⟨pending, finished⟩, hFold, rfl⟩, rfl⟩
    rw [readProgram_of_ok hFold, hClosed]
    cases pending with
    | nil => simp at hCount
    | cons inner outer => exact ⟨rfl, rfl⟩

/-- A text leaves a list open exactly if closing parentheses on a line of their own complete it. Only
one number of them does, which is within the limit of nesting, and the misfit is reported at the end
of the text. -/
theorem parse_unterminatedList_iff (source label : String) :
    ((∃ error, parse source label = .error error ∧ error.cause = .unterminatedList) ↔
      ∃ count, 1 ≤ count ∧ ∃ program,
        parse (source ++ "\n" ++ String.ofList (closing count)) label = .ok program) ∧
    (∀ count program, parse (source ++ "\n" ++ String.ofList (closing count)) label = .ok program →
      count ≤ maxNesting ∧ ∀ count' program',
        parse (source ++ "\n" ++ String.ofList (closing count')) label = .ok program' →
          count' = count) ∧
    (∀ error, parse source label = .error error → error.cause = .unterminatedList →
      error.span = ⟨source.utf8ByteSize, source.utf8ByteSize⟩) := by
  have hCompleted : ∀ count, (∃ program,
      parse (source ++ "\n" ++ String.ofList (closing count)) label = .ok program) ↔
        LeavesOpen source.toList count := by
    intro count
    have hText : (source ++ "\n" ++ String.ofList (closing count)).toList =
        source.toList ++ '\n' :: closing count := by
      simp
    simp only [parse_eq_ok_iff, hText]
    exact completed_iff
  refine ⟨?_, ?_, ?_⟩
  · simp only [hCompleted]
    constructor
    · rintro ⟨error, hError, hCause⟩
      obtain ⟨misfit, hMisfit, rfl⟩ := parse_eq_error_iff.mp hError
      exact (readProgram_unterminatedList_iff.mp ⟨hMisfit, hCause⟩).1
    · intro hOpen
      obtain ⟨hMisfit, hCause⟩ := readProgram_unterminatedList_iff.mpr ⟨hOpen, rfl⟩
      exact ⟨_, parse_eq_error_iff.mpr ⟨_, hMisfit, rfl⟩, hCause⟩
  · intro count program hParse
    have hOpen := (hCompleted count).mp ⟨program, hParse⟩
    refine ⟨hOpen.le_maxNesting, fun count' program' hParse' => ?_⟩
    exact ((hCompleted count').mp ⟨program', hParse'⟩).unique hOpen
  · intro error hError hCause
    obtain ⟨misfit, hMisfit, rfl⟩ := parse_eq_error_iff.mp hError
    obtain ⟨-, rfl⟩ := readProgram_unterminatedList_iff.mp ⟨hMisfit, hCause⟩
    rw [byteLength_toList]

theorem parse_unterminatedList_iff_comment :
    (∃ error, parse "(a (é ; b" "t" = .error error ∧ error.cause = .unterminatedList ∧
        error.span = ⟨10, 10⟩) ∧
      ∃ program, parse ("(a (é ; b" ++ "\n" ++ String.ofList (closing 2)) "t" = .ok program ∧
        ∀ count program', parse ("(a (é ; b" ++ "\n" ++ String.ofList (closing count)) "t" =
          .ok program' → count = 2 := by
  have hParse : ∃ program,
      parse ("(a (é ; b" ++ "\n" ++ String.ofList (closing 2)) "t" = .ok program :=
    ⟨_, by cbv⟩
  obtain ⟨program, hParse⟩ := hParse
  obtain ⟨hOpen, hUnique, hSpan⟩ := parse_unterminatedList_iff "(a (é ; b" "t"
  obtain ⟨error, hError, hCause⟩ := hOpen.mpr ⟨2, by decide, program, hParse⟩
  exact ⟨⟨error, hError, hCause, hSpan error hError hCause⟩, program, hParse,
    (hUnique 2 program hParse).2⟩

end MessageLisp.Source
