import MessageLisp.Proofs.Source.Composition
import MessageLisp.Proofs.Source.Derivation

/-! The first misfit decides. A token that does not fit is rejected for one of four reasons, and what
stands in front of it is a program or the beginning of one. No text behind it changes the verdict:
tokens and the state of reading are settled from left to right. -/
namespace MessageLisp.Source

/-- Whether a text is refused because of one of its tokens, and not because of where it ends. -/
def SyntaxCause.isOfToken : SyntaxCause → Bool
  | unterminatedList => false
  | unterminatedString => false
  | _ => true

/-! ### Rejected tokens -/

/-- Why a token does not fit the state of reading, and what is reported. -/
inductive Reading.Rejects (reading : Reading) (token : Token) : Misfit → Prop where
  | tooDeep (hKind : token.kind = .listOpen) (hFull : maxNesting ≤ reading.pending.length) :
      Rejects reading token ⟨.nestingTooDeep maxNesting, token.span⟩
  | unmatched (hKind : token.kind = .listClose) (hTop : reading.pending = []) :
      Rejects reading token ⟨.unexpectedClose, token.span⟩
  | escape {misfit : Misfit} (hKind : token.kind = .string)
      (hBody : unescape (token.span.start + 1) token.body = .error misfit) :
      Rejects reading token misfit
  | number (hKind : token.kind = .number) (hText : numberExpr? token.span token.text = none) :
      Rejects reading token ⟨.invalidNumber (String.ofList token.text), token.span⟩

theorem Reading.rejects_of_step {reading : Reading} {token : Token} {misfit : Misfit}
    (h : reading.step token = .error misfit) : reading.Rejects token misfit := by
  obtain ⟨kind, span, text⟩ := token
  cases kind with
  | listOpen =>
      rcases Nat.lt_or_ge reading.pending.length maxNesting with hRoom | hFull
      · rw [step_open rfl hRoom] at h
        cases h
      · rw [step_full rfl hFull] at h
        cases h
        exact Rejects.tooDeep rfl hFull
  | listClose =>
      obtain ⟨pending, finished⟩ := reading
      cases pending with
      | nil =>
          rw [step_unmatched rfl] at h
          cases h
          exact Rejects.unmatched rfl rfl
      | cons inner outer =>
          rw [step_close rfl] at h
          cases h
  | comment =>
      rw [step_comment rfl] at h
      cases h
  | symbol =>
      rw [step_other (by simp) (by simp)] at h
      cases map_eq_error_iff.mp h
  | string =>
      rw [step_other (by simp) (by simp)] at h
      exact Rejects.escape rfl (map_eq_error_iff.mp (map_eq_error_iff.mp h))
  | number =>
      rw [step_other (by simp) (by simp), map_eq_error_iff] at h
      simp only [Token.atom?] at h
      split at h
      · cases h
      · rename_i hText
        cases h
        exact Rejects.number rfl hText

/-- An escape that does not exist is reported where it stands. -/
theorem exists_of_unescape_eq_error {start : Nat} {text : List Char} {misfit : Misfit}
    (h : unescape start text = .error misfit) :
    ∃ front c rest, text = front ++ '\\' :: c :: rest ∧
      misfit = ⟨.invalidEscape c,
        ⟨start + byteLength front, start + byteLength front + 1 + c.utf8Size⟩⟩ := by
  have hSlash : '\\'.utf8Size = 1 := rfl
  fun_induction unescape start text with
  | case1 start => cases h
  | case2 start c rest plain hLetter ih =>
      obtain ⟨front, c', rest', rfl, rfl⟩ := ih (map_eq_error_iff.mp h)
      refine ⟨'\\' :: c :: front, c', rest', rfl, ?_⟩
      simp only [byteLength_cons, hSlash, Nat.add_assoc]
  | case3 start c rest hLetter =>
      cases h
      exact ⟨[], c, rest, rfl, rfl⟩
  | case4 start c rest hPlain ih =>
      obtain ⟨front, c', rest', rfl, rfl⟩ := ih (map_eq_error_iff.mp h)
      refine ⟨c :: front, c', rest', rfl, ?_⟩
      simp only [byteLength_cons, Nat.add_assoc]

/-- The escape that is reported stands between the quotes of the string. -/
theorem Token.exists_of_body_eq_error {token : Token} {misfit : Misfit}
    (hLexeme : Lexeme token.kind token.text) (hKind : token.kind = .string)
    (hBody : unescape (token.span.start + 1) token.body = .error misfit) :
    ∃ front c rest, token.text = '"' :: (front ++ '\\' :: c :: (rest ++ ['"'])) ∧
      misfit = ⟨.invalidEscape c, ⟨token.span.start + 1 + byteLength front,
        token.span.start + 1 + byteLength front + 1 + c.utf8Size⟩⟩ := by
  obtain ⟨body, hText, -⟩ := hLexeme.string_body hKind
  rw [Token.body, hText, List.tail_cons, List.dropLast_concat] at hBody
  obtain ⟨front, c, rest, rfl, rfl⟩ := exists_of_unescape_eq_error hBody
  refine ⟨front, c, rest, ?_, rfl⟩
  rw [hText, List.append_assoc]
  rfl

/-- What is reported of a token is a part of it. -/
theorem Reading.Rejects.within {reading : Reading} {token : Token} {misfit : Misfit}
    (h : reading.Rejects token misfit) (hLexeme : Lexeme token.kind token.text)
    (hSpan : token.span.stop = token.span.start + byteLength token.text) :
    token.span.start ≤ misfit.span.start ∧ misfit.span.start < misfit.span.stop ∧
      misfit.span.stop ≤ token.span.stop := by
  cases h with
  | tooDeep _ _ | unmatched _ _ | number _ _ =>
      have hSome := hLexeme.byteLength_pos
      refine ⟨Nat.le_refl _, ?_, Nat.le_refl _⟩
      dsimp only
      omega
  | escape hKind hBody =>
      obtain ⟨front, c, rest, hText, rfl⟩ := Token.exists_of_body_eq_error hLexeme hKind hBody
      have hQuote : '"'.utf8Size = 1 := rfl
      have hSlash : '\\'.utf8Size = 1 := rfl
      rw [hSpan, hText]
      simp only [byteLength_cons, byteLength_append, byteLength_nil, hQuote, hSlash]
      omega

/-! ### Texts around a token -/

theorem Lexeme.ne_nil {kind : TokenKind} {text : List Char} (h : Lexeme kind text) : text ≠ [] := by
  rintro rfl
  exact absurd h.byteLength_pos (by simp)

/-- A text can be cut around a token. In front of it stand the tokens before it, and it is scanned
after them whatever follows, as long as it is complete there. -/
theorem Scans.around {start : Nat} {text : List Char} {before after : List Token} {token : Token}
    {unterminated : Bool} (h : Scans start text ⟨before ++ token :: after, unterminated⟩) :
    ∃ front rest, text = front ++ (token.text ++ rest) ∧
      token.span = ⟨start + byteLength front, start + byteLength front + byteLength token.text⟩ ∧
      token.kind.EndsAt rest ∧ Scans start front ⟨before, false⟩ ∧
      ∀ rest', token.kind.EndsAt rest' → ∃ later : Scan,
        Scans start (front ++ (token.text ++ rest')) (later.prepend (before ++ [token])) := by
  have hSome : token.text ≠ [] := (h.lexeme token (by simp)).ne_nil
  generalize hScan : (⟨before ++ token :: after, unterminated⟩ : Scan) = whole at h
  induction h generalizing before with
  | done => simp at hScan
  | unclosed hOpen => simp at hScan
  | @blank start c rest scan hBlank _ ih =>
      obtain ⟨front, rest, rfl, hSpan, hEnds, hFront, hLater⟩ := ih hScan
      refine ⟨c :: front, rest, rfl, ?_, hEnds, Scans.blank hBlank hFront, ?_⟩
      · rw [hSpan, byteLength_cons, Nat.add_assoc]
      · intro rest' hRest'
        obtain ⟨later, hScans⟩ := hLater rest' hRest'
        exact ⟨later, Scans.blank hBlank hScans⟩
  | @token start kind lexeme inner innerScan hLexeme hEnds _ ih =>
      obtain ⟨innerTokens, innerUnterminated⟩ := innerScan
      cases before with
      | nil =>
          cases hScan
          refine ⟨[], inner, rfl, rfl, hEnds, Scans.done, fun rest' hRest' => ?_⟩
          exact ⟨_, Scans.token hLexeme hRest' (scans_scanFrom _ rest')⟩
      | cons first before =>
          cases hScan
          obtain ⟨front, rest, rfl, hSpan, hTokenEnds, hFront, hLater⟩ := ih rfl
          refine ⟨lexeme ++ front, rest, by rw [List.append_assoc], ?_, hTokenEnds,
            Scans.token hLexeme hEnds.left hFront, fun rest' hRest' => ?_⟩
          · rw [hSpan, byteLength_append, Nat.add_assoc]
          · obtain ⟨later, hScans⟩ := hLater rest' hRest'
            -- The token is not empty, and so what follows the first lexeme starts as before.
            have hHere : kind.EndsAt (front ++ (token.text ++ rest')) := hEnds.of_head? (by
              simp [List.head?_append, List.head?_eq_some_head hSome])
            refine ⟨later, ?_⟩
            rw [List.append_assoc]
            exact Scans.token hLexeme hHere hScans

/-! ### Reading up to the misfit -/

/-- A text that is a program, or becomes one by closing lists. -/
def StartsProgram (source label : String) : Prop :=
  (∃ program, parse source label = .ok program) ∨
    ∃ error, parse source label = .error error ∧ error.cause = .unterminatedList

theorem startsProgram_of_foldlM {source : List Char} (hClosed : (scan source).unterminated = false)
    {reading : Reading}
    (hFold : (scan source).tokens.foldlM Reading.step Reading.empty = .ok reading) (label : String) :
    StartsProgram (String.ofList source) label := by
  have hRead := readProgram_of_ok hFold
  rw [hClosed] at hRead
  obtain ⟨pending, finished⟩ := reading
  cases pending with
  | nil => exact Or.inl ⟨_, parse_eq_ok_iff.mpr (by rwa [String.toList_ofList])⟩
  | cons inner outer =>
      have hOpen : readProgram (String.ofList source).toList = .error
          ⟨.unterminatedList, ⟨byteLength source, byteLength source⟩⟩ := by
        rwa [String.toList_ofList]
      exact Or.inr ⟨_, parse_eq_error_iff.mpr ⟨_, hOpen, rfl⟩, rfl⟩

/-- Only the end of a text is to blame if all of its tokens fit. -/
theorem foldlM_of_isOfToken {source : List Char} {misfit : Misfit}
    (hRead : readProgram source = .error misfit) (hCause : misfit.cause.isOfToken = true) :
    (scan source).tokens.foldlM Reading.step Reading.empty = .error misfit := by
  cases hFold : (scan source).tokens.foldlM Reading.step Reading.empty with
  | error first =>
      rw [readProgram_of_error hFold] at hRead
      cases hRead
      rfl
  | ok reading =>
      rw [readProgram_of_ok hFold] at hRead
      obtain ⟨pending, finished⟩ := reading
      cases hClosed : (scan source).unterminated with
      | true =>
          rw [hClosed] at hRead
          cases hRead
          cases hCause
      | false =>
          rw [hClosed] at hRead
          cases pending <;> cases hRead
          cases hCause

/-- A token that is rejected is complete, also with more text behind it: only a number that reaches
the end of the text could go on. -/
theorem Reading.Rejects.endsAt_append {reading : Reading} {token : Token} {misfit : Misfit}
    (h : reading.Rejects token misfit) {rest more : List Char} (hRest : token.kind.EndsAt rest)
    (hMore : (∃ word, misfit.cause = .invalidNumber word) → misfit.span = token.span → rest = [] →
      ∀ c ∈ more.head?, isDelimiter c = true) :
    token.kind.EndsAt (rest ++ more) := by
  cases h with
  | tooDeep hKind _ | unmatched hKind _ | escape hKind _ =>
      rw [hKind]
      trivial
  | number hKind _ =>
      cases rest with
      | nil =>
          rw [hKind]
          exact hMore ⟨_, rfl⟩ rfl rfl
      | cons c rest => exact hRest.of_head? rfl

theorem startingBefore_append_of_le {offset start : Nat} {text : List Char} (more : List Char)
    (h : offset ≤ start + byteLength text) :
    startingBefore offset start (text ++ more) = startingBefore offset start text := by
  induction text generalizing start with
  | nil => cases more <;> simp_all [startingBefore, Nat.not_lt_of_le]
  | cons c text ih =>
      rw [byteLength_cons, ← Nat.add_assoc] at h
      rw [List.cons_append, startingBefore, startingBefore, ih h]

/-- More text at the end moves nothing in front of it. -/
theorem locate_append_of_le {text : List Char} {offset : Nat} (h : offset ≤ byteLength text)
    (more : List Char) : Position.locate (text ++ more) offset = Position.locate text offset := by
  have hClamp : min offset (byteLength (text ++ more)) = min offset (byteLength text) := by
    rw [byteLength_append]
    omega
  have hBefore : startingBefore (min offset (byteLength text)) 0 (text ++ more) =
      startingBefore (min offset (byteLength text)) 0 text :=
    startingBefore_append_of_le more (by omega)
  simp only [Position.locate, hClamp, hBefore]

/-- Reading stops at a token that is rejected, however the text goes on behind it. -/
theorem readProgram_eq_error_of_rejected {source : List Char} {before : List Token} {token : Token}
    {later : Scan} {reading : Reading} {misfit : Misfit}
    (hScans : Scans 0 source (later.prepend (before ++ [token])))
    (hBefore : before.foldlM Reading.step Reading.empty = .ok reading)
    (hStep : reading.step token = .error misfit) : readProgram source = .error misfit := by
  have hTokens : (scan source).tokens = before ++ token :: later.tokens := by
    rw [scan, scanFrom_of_scans hScans]
    simp [Scan.prepend]
  apply readProgram_of_error
  rw [hTokens, List.foldlM_append, hBefore]
  show (token :: later.tokens).foldlM Reading.step reading = _
  rw [List.foldlM_cons, hStep]
  rfl

/-- The first misfit decides. If a text is refused because of a token, all that stands in front of
the token is a program or the beginning of one, and with any text behind it the same error is
reported. Only a number at the very end must not be continued by that text. -/
theorem parse_error_append {source label : String} {error : SyntaxError}
    (hParse : parse source label = .error error) (hCause : error.cause.isOfToken = true) :
    (∃ token ∈ (scan source.toList).tokens, ∃ front rest,
      source.toList = front ++ (token.text ++ rest) ∧ token.span.start = byteLength front ∧
      token.span.start ≤ error.span.start ∧ error.span.start < error.span.stop ∧
      error.span.stop ≤ token.span.stop ∧ StartsProgram (String.ofList front) label) ∧
    ∀ more : String,
      ((∃ word, error.cause = .invalidNumber word) → error.span.stop = source.utf8ByteSize →
        ∀ c ∈ more.toList.head?, isDelimiter c = true) →
      parse (source ++ more) label = .error error := by
  obtain ⟨misfit, hRead, rfl⟩ := parse_eq_error_iff.mp hParse
  obtain ⟨before, token, after, reading, hTokens, hBefore, hStep⟩ :=
    Reading.foldlM_step_eq_error (foldlM_of_isOfToken hRead hCause)
  have hScans : Scans 0 source.toList ⟨before ++ token :: after, (scan source.toList).unterminated⟩ :=
    hTokens ▸ scans_scanFrom 0 source.toList
  have hRejects := Reading.rejects_of_step hStep
  obtain ⟨front, rest, hText, hSpan, hEnds, hFront, hLater⟩ := hScans.around
  rw [Nat.zero_add] at hSpan
  have hWithin := hRejects.within (hScans.lexeme token (by simp)) (by rw [hSpan])
  constructor
  · have hScanned : scan front = ⟨before, false⟩ := scanFrom_of_scans hFront
    refine ⟨token, by simp [hTokens], front, rest, hText, by rw [hSpan], hWithin.1, hWithin.2.1,
      hWithin.2.2, ?_⟩
    exact startsProgram_of_foldlM (by rw [hScanned]) (by rwa [hScanned]) label
  · intro more hMore
    have hSize : source.utf8ByteSize = byteLength front + byteLength token.text + byteLength rest := by
      rw [← byteLength_toList, hText, byteLength_append, byteLength_append, Nat.add_assoc]
    have hStop : token.span.stop = byteLength front + byteLength token.text := by rw [hSpan]
    have hStays : token.kind.EndsAt (rest ++ more.toList) := by
      refine hRejects.endsAt_append hEnds fun hNumber hWhole hRest => hMore hNumber ?_
      rw [hWhole, hStop, hSize, hRest, byteLength_nil, Nat.add_zero]
    obtain ⟨later, hAgain⟩ := hLater _ hStays
    rw [parse_eq_error_iff]
    refine ⟨misfit, ?_, ?_⟩
    · rw [String.toList_append, hText, List.append_assoc, List.append_assoc]
      exact readProgram_eq_error_of_rejected hAgain hBefore hStep
    · rw [String.toList_append, locate_append_of_le]
      rw [byteLength_toList]
      omega

/-- A number that reaches the end of the text, and an escape in a string that ends there: neither is
undone by what follows. -/
theorem parse_error_append_number :
    (parse "(+ 1 2x" "t" = .error ⟨"t", ⟨5, 1, 6⟩, ⟨5, 7⟩, .invalidNumber "2x"⟩ ∧
      parse ("(+ 1 2x" ++ ") \"open") "t" =
        .error ⟨"t", ⟨5, 1, 6⟩, ⟨5, 7⟩, .invalidNumber "2x"⟩) ∧
    (parse "a\n \"\\q\"" "t" = .error ⟨"t", ⟨4, 2, 3⟩, ⟨4, 6⟩, .invalidEscape 'q'⟩ ∧
      parse ("a\n \"\\q\"" ++ "))") "t" =
        .error ⟨"t", ⟨4, 2, 3⟩, ⟨4, 6⟩, .invalidEscape 'q'⟩) := by
  have hNumber : parse "(+ 1 2x" "t" = .error ⟨"t", ⟨5, 1, 6⟩, ⟨5, 7⟩, .invalidNumber "2x"⟩ := by cbv
  have hEscape : parse "a\n \"\\q\"" "t" =
      .error ⟨"t", ⟨4, 2, 3⟩, ⟨4, 6⟩, .invalidEscape 'q'⟩ := by cbv
  refine ⟨⟨hNumber, ?_⟩, hEscape, ?_⟩
  · apply (parse_error_append hNumber rfl).2
    intro _ _ c hMem
    have hFirst : (") \"open".toList).head? = some ')' := by decide
    rw [hFirst] at hMem
    cases hMem
    decide
  · apply (parse_error_append hEscape rfl).2
    rintro ⟨word, hWord⟩
    cases hWord

end MessageLisp.Source
