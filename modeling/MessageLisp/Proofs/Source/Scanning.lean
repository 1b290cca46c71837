import Mathlib.Data.List.Basic
import MessageLisp.Source.Token

/-! Scanning as a relation. A text scans to tokens if it is made of blanks and of lexemes that go as
far as they can; the scanner computes exactly this relation. Texts can be put together and taken
apart at the ends of tokens, and moving a text moves its tokens. -/
namespace MessageLisp.Source

/-- The texts that are one token of the given kind. -/
inductive Lexeme : TokenKind → List Char → Prop where
  | listOpen : Lexeme .listOpen ['(']
  | listClose : Lexeme .listClose [')']
  | comment {body : List Char} (hLine : ∀ c ∈ body, c ≠ '\n') : Lexeme .comment (';' :: body)
  | string {body : List Char} (hClosed : splitString body = some (body, [])) :
      Lexeme .string ('"' :: body)
  | word {word : List Char} (hSome : word ≠ []) (hPlain : ∀ c ∈ word, isDelimiter c = false) :
      Lexeme (wordKind word) word

/-- Whether a token of this kind is complete when `rest` follows. Words end at a delimiter and
comments at the end of the line; the other tokens show their end themselves. -/
def TokenKind.EndsAt : TokenKind → (rest : List Char) → Prop
  | .comment, rest => ∀ c ∈ rest.head?, c = '\n'
  | .symbol, rest => ∀ c ∈ rest.head?, isDelimiter c = true
  | .number, rest => ∀ c ∈ rest.head?, isDelimiter c = true
  | _, _ => True

/-- The scan of a text whose first character is at byte `start`. -/
inductive Scans : (start : Nat) → List Char → Scan → Prop where
  | done {start : Nat} : Scans start [] ⟨[], false⟩
  | unclosed {start : Nat} {rest : List Char} (hOpen : splitString rest = none) :
      Scans start ('"' :: rest) ⟨[], true⟩
  | blank {start : Nat} {c : Char} {rest : List Char} {scan : Scan}
      (hBlank : Text.isBlank c = true) (hRest : Scans (start + c.utf8Size) rest scan) :
      Scans start (c :: rest) scan
  | token {start : Nat} {kind : TokenKind} {text rest : List Char} {scan : Scan}
      (hLexeme : Lexeme kind text) (hEnds : kind.EndsAt rest)
      (hRest : Scans (start + byteLength text) rest scan) :
      Scans start (text ++ rest) (scan.cons (.ofText kind start text))

/-! ### Lengths -/

@[simp] theorem byteLength_nil : byteLength [] = 0 := rfl

@[simp] theorem byteLength_cons (c : Char) (text : List Char) :
    byteLength (c :: text) = c.utf8Size + byteLength text :=
  rfl

@[simp] theorem byteLength_append (text text' : List Char) :
    byteLength (text ++ text') = byteLength text + byteLength text' := by
  induction text with
  | nil => rw [List.nil_append, byteLength_nil, Nat.zero_add]
  | cons c text ih => rw [List.cons_append, byteLength_cons, byteLength_cons, ih, Nat.add_assoc]

theorem byteLength_toList (text : String) : byteLength text.toList = text.utf8ByteSize := by
  obtain ⟨chars, rfl⟩ : ∃ chars, text = String.ofList chars :=
    ⟨text.toList, String.ofList_toList.symm⟩
  rw [String.toList_ofList]
  induction chars with
  | nil => rfl
  | cons c chars ih => simp [String.ofList_cons, ih]

/-! ### The scanner computes the relation -/

theorem wordKind_cases (word : List Char) : wordKind word = .number ∨ wordKind word = .symbol := by
  unfold wordKind
  split
  · exact Or.inl rfl
  · exact Or.inr rfl

theorem wordKind_endsAt {word rest : List Char} :
    (wordKind word).EndsAt rest ↔ ∀ c ∈ rest.head?, isDelimiter c = true := by
  rcases wordKind_cases word with hKind | hKind <;> rw [hKind] <;> rfl

theorem takeWhile_append_stop {p : Char → Bool} {text rest : List Char}
    (hText : ∀ c ∈ text, p c = true) (hRest : ∀ c ∈ rest.head?, p c = false) :
    (text ++ rest).takeWhile p = text ∧ (text ++ rest).dropWhile p = rest := by
  rw [List.takeWhile_append_of_pos hText, List.dropWhile_append_of_pos hText]
  cases rest with
  | nil => simp
  | cons c rest => simp [hRest c rfl]

theorem comment_append_stop {body rest : List Char} (hLine : ∀ c ∈ body, c ≠ '\n')
    (hEnds : TokenKind.comment.EndsAt rest) :
    (body ++ rest).takeWhile (· ≠ '\n') = body ∧ (body ++ rest).dropWhile (· ≠ '\n') = rest :=
  takeWhile_append_stop (by simpa using hLine) (by simpa [TokenKind.EndsAt] using hEnds)

theorem word_append_stop {c : Char} {word rest : List Char} (hPlain : ∀ c' ∈ c :: word, isDelimiter c' = false)
    (hEnds : (wordKind (c :: word)).EndsAt rest) :
    (word ++ rest).takeWhile (!isDelimiter ·) = word ∧ (word ++ rest).dropWhile (!isDelimiter ·) = rest := by
  rw [wordKind_endsAt] at hEnds
  refine takeWhile_append_stop ?_ ?_
  · intro c' hMem
    rw [hPlain c' (List.mem_cons_of_mem _ hMem)]
    rfl
  · intro c' hMem
    rw [hEnds c' hMem]
    rfl

theorem splitString_cons {c : Char} (hQuote : c ≠ '"') (hEscape : c ≠ '\\') (text : List Char) :
    splitString (c :: text) = (splitString text).map fun (body, rest) => (c :: body, rest) := by
  rw [splitString]
  · exact hQuote
  · intro c' rest' hSlash
    exact absurd hSlash hEscape

/-- A body that was split off is split off again, whatever follows it. -/
theorem splitString_body {text body rest : List Char} (h : splitString text = some (body, rest))
    (more : List Char) : splitString (body ++ more) = some (body, more) := by
  fun_induction splitString text generalizing body rest with
  | case1 => cases h
  | case2 text =>
      cases h
      rfl
  | case3 c text ih =>
      obtain ⟨⟨body', rest'⟩, hSplit, hEq⟩ := Option.map_eq_some_iff.mp h
      cases hEq
      simp [splitString, ih hSplit]
  | case4 c text hQuote hEscape ih =>
      obtain ⟨⟨body', rest'⟩, hSplit, hEq⟩ := Option.map_eq_some_iff.mp h
      cases hEq
      have hPlain : c ≠ '\\' := by
        rintro rfl
        cases text with
        | nil => cases hSplit
        | cons c' text => exact hEscape c' text rfl rfl
      rw [List.cons_append, splitString_cons hQuote hPlain, ih hSplit]
      rfl

/-- The bodies of strings: every quote and every backslash comes after a backslash of its own. -/
inductive StringBody : List Char → Prop where
  | nil : StringBody []
  | plain {c : Char} {body : List Char} (hQuote : c ≠ '"') (hPlain : c ≠ '\\')
      (hRest : StringBody body) : StringBody (c :: body)
  | escape {letter : Char} {body : List Char} (hRest : StringBody body) :
      StringBody ('\\' :: letter :: body)

theorem exists_stringBody {text body rest : List Char} (h : splitString text = some (body, rest)) :
    ∃ inner, body = inner ++ ['"'] ∧ StringBody inner := by
  fun_induction splitString text generalizing body rest with
  | case1 => cases h
  | case2 text =>
      cases h
      exact ⟨[], rfl, StringBody.nil⟩
  | case3 c text ih =>
      obtain ⟨⟨body', rest'⟩, hSplit, hEq⟩ := Option.map_eq_some_iff.mp h
      cases hEq
      obtain ⟨inner, rfl, hInner⟩ := ih hSplit
      exact ⟨'\\' :: c :: inner, rfl, StringBody.escape hInner⟩
  | case4 c text hQuote hEscape ih =>
      obtain ⟨⟨body', rest'⟩, hSplit, hEq⟩ := Option.map_eq_some_iff.mp h
      cases hEq
      obtain ⟨inner, rfl, hInner⟩ := ih hSplit
      have hPlain : c ≠ '\\' := by
        rintro rfl
        cases text with
        | nil => cases hSplit
        | cons letter text => exact hEscape letter text rfl rfl
      exact ⟨c :: inner, rfl, StringBody.plain hQuote hPlain hInner⟩

theorem not_isBlank_of_word {c : Char} (h : isDelimiter c = false) :
    Text.isBlank c = false ∧ c ≠ '(' ∧ c ≠ ')' ∧ c ≠ '"' ∧ c ≠ ';' := by
  simpa [isDelimiter, and_assoc] using h

theorem scanFrom_blank {c : Char} (hBlank : Text.isBlank c = true) (start : Nat) (rest : List Char) :
    scanFrom start (c :: rest) = scanFrom (start + c.utf8Size) rest := by
  rw [scanFrom, if_pos hBlank]

theorem scanFrom_comment (start : Nat) (rest : List Char) :
    scanFrom start (';' :: rest) =
      (scanFrom (start + byteLength (';' :: rest.takeWhile (· ≠ '\n')))
        (rest.dropWhile (· ≠ '\n'))).cons
          (.ofText .comment start (';' :: rest.takeWhile (· ≠ '\n'))) := by
  rw [scanFrom, if_neg (by decide), if_neg (by decide), if_neg (by decide), if_pos rfl]
  rfl

theorem scanFrom_string {rest body after : List Char} (h : splitString rest = some (body, after))
    (start : Nat) :
    scanFrom start ('"' :: rest) =
      (scanFrom (start + byteLength ('"' :: body)) after).cons
        (.ofText .string start ('"' :: body)) := by
  rw [scanFrom, if_neg (by decide), if_neg (by decide), if_neg (by decide), if_neg (by decide),
    if_pos rfl]
  split
  · rename_i hNone
    cases hNone.symm.trans h
  · rename_i body' after' hSome
    cases hSome.symm.trans h
    rfl

theorem scanFrom_unclosed {rest : List Char} (h : splitString rest = none) (start : Nat) :
    scanFrom start ('"' :: rest) = ⟨[], true⟩ := by
  rw [scanFrom, if_neg (by decide), if_neg (by decide), if_neg (by decide), if_neg (by decide),
    if_pos rfl]
  split
  · rfl
  · rename_i hSome
    cases hSome.symm.trans h

theorem scanFrom_word {c : Char} (h : isDelimiter c = false) (start : Nat) (rest : List Char) :
    scanFrom start (c :: rest) =
      (scanFrom (start + byteLength (c :: rest.takeWhile (!isDelimiter ·)))
        (rest.dropWhile (!isDelimiter ·))).cons
          (.ofText (wordKind (c :: rest.takeWhile (!isDelimiter ·))) start
            (c :: rest.takeWhile (!isDelimiter ·))) := by
  obtain ⟨hBlank, hOpen, hClose, hQuote, hComment⟩ := not_isBlank_of_word h
  rw [scanFrom, if_neg (by simp [hBlank]), if_neg hOpen, if_neg hClose, if_neg hComment,
    if_neg hQuote]
  rfl

/-- A lexeme that ends where it should is scanned as one token. -/
theorem scanFrom_token {kind : TokenKind} {text rest : List Char} (hLexeme : Lexeme kind text)
    (hEnds : kind.EndsAt rest) (start : Nat) :
    scanFrom start (text ++ rest) =
      (scanFrom (start + byteLength text) rest).cons (.ofText kind start text) := by
  cases hLexeme with
  | listOpen =>
      rw [List.singleton_append, scanFrom]
      rfl
  | listClose =>
      rw [List.singleton_append, scanFrom]
      rfl
  | @comment body hLine =>
      obtain ⟨hTake, hDrop⟩ := comment_append_stop hLine hEnds
      rw [List.cons_append, scanFrom_comment, hTake, hDrop]
  | @string body hClosed =>
      rw [List.cons_append, scanFrom_string (splitString_body hClosed rest)]
  | word hSome hPlain =>
      obtain ⟨c, word, rfl⟩ := List.exists_cons_of_ne_nil hSome
      obtain ⟨hTake, hDrop⟩ := word_append_stop hPlain hEnds
      rw [List.cons_append, scanFrom_word (hPlain c (by simp)), hTake, hDrop]

theorem scanFrom_of_scans {start : Nat} {text : List Char} {scan : Scan} (h : Scans start text scan) :
    scanFrom start text = scan := by
  induction h with
  | done => rw [scanFrom]
  | unclosed hOpen => exact scanFrom_unclosed hOpen _
  | blank hBlank hRest ih => rw [scanFrom_blank hBlank, ih]
  | token hLexeme hEnds hRest ih => rw [scanFrom_token hLexeme hEnds, ih]

theorem dropWhile_head {p : Char → Bool} {text : List Char} {c : Char}
    (hMem : c ∈ (text.dropWhile p).head?) : p c = false := by
  have hFalse := List.head?_dropWhile_not p text
  rw [Option.mem_def.mp hMem] at hFalse
  simpa using hFalse

theorem mem_takeWhile {p : Char → Bool} {text : List Char} {c : Char}
    (hMem : c ∈ text.takeWhile p) : p c = true :=
  List.all_eq_true.mp List.all_takeWhile c hMem

theorem scans_scanFrom (start : Nat) (text : List Char) : Scans start text (scanFrom start text) := by
  fun_induction scanFrom start text with
  | case1 start => exact Scans.done
  | case2 start c rest hBlank ih => exact Scans.blank hBlank ih
  | case3 start rest hBlank ih => exact Scans.token Lexeme.listOpen trivial ih
  | case4 start rest hBlank hOpen ih => exact Scans.token Lexeme.listClose trivial ih
  | case5 start rest hBlank hOpen hClose token ih =>
      have hLexeme : Lexeme .comment (';' :: rest.takeWhile (· ≠ '\n')) :=
        Lexeme.comment fun c hMem => by simpa using mem_takeWhile hMem
      have hEnds : TokenKind.comment.EndsAt (rest.dropWhile (· ≠ '\n')) :=
        fun c hMem => by simpa using dropWhile_head hMem
      have hScans := Scans.token hLexeme hEnds ih
      rwa [List.cons_append, List.takeWhile_append_dropWhile] at hScans
  | case6 start rest hNone _ _ _ _ =>
      exact Scans.unclosed hNone
  | case7 start rest body after hSome _ _ _ _ token ih =>
      have hLexeme : Lexeme .string ('"' :: body) :=
        Lexeme.string (by simpa using splitString_body hSome [])
      have hScans := Scans.token hLexeme trivial ih
      rwa [List.cons_append, splitString_append hSome] at hScans
  | case8 start c rest hBlank hOpen hClose hComment hQuote word token ih =>
      have hDelimiter : isDelimiter c = false := by
        simp [isDelimiter, hBlank, hOpen, hClose, hComment, hQuote]
      have hLexeme : Lexeme (wordKind word) word := Lexeme.word (by simp [word]) (by
        intro c' hMem
        rcases List.mem_cons.mp hMem with rfl | hTail
        · exact hDelimiter
        · simpa using mem_takeWhile hTail)
      have hEnds : (wordKind word).EndsAt (rest.dropWhile (!isDelimiter ·)) :=
        wordKind_endsAt.mpr fun c' hMem => by simpa using dropWhile_head hMem
      have hScans := Scans.token hLexeme hEnds ih
      rwa [List.cons_append, List.takeWhile_append_dropWhile] at hScans

/-- The scanner computes exactly the relation. -/
theorem scans_iff {start : Nat} {text : List Char} {scan : Scan} :
    Scans start text scan ↔ scanFrom start text = scan :=
  ⟨scanFrom_of_scans, fun h => h ▸ scans_scanFrom start text⟩

/-! ### Putting together and taking apart -/

theorem TokenKind.EndsAt.append {kind : TokenKind} {text rest : List Char} (hText : kind.EndsAt text)
    (hRest : kind.EndsAt rest) : kind.EndsAt (text ++ rest) := by
  cases text with
  | nil => exact hRest
  | cons c text => cases kind <;> exact hText

theorem TokenKind.EndsAt.left {kind : TokenKind} {text rest : List Char}
    (h : kind.EndsAt (text ++ rest)) : kind.EndsAt text := by
  cases text with
  | nil => cases kind <;> simp [TokenKind.EndsAt]
  | cons c text => cases kind <;> exact h

theorem TokenKind.EndsAt.of_head? {kind : TokenKind} {rest rest' : List Char}
    (h : kind.EndsAt rest) (hHead : rest'.head? = rest.head?) : kind.EndsAt rest' := by
  cases kind with
  | comment | symbol | number =>
      intro c hMem
      exact h c (hHead ▸ hMem)
  | listOpen | listClose | string => trivial

/-- A lexeme is the only token of its own text. -/
theorem Lexeme.scans {kind : TokenKind} {text : List Char} (h : Lexeme kind text) (start : Nat) :
    Scans start text ⟨[.ofText kind start text], false⟩ := by
  have hEnds : kind.EndsAt [] := by cases kind <;> simp [TokenKind.EndsAt]
  have hScans : Scans start (text ++ []) ⟨[.ofText kind start text], false⟩ :=
    Scans.token h hEnds Scans.done
  rwa [List.append_nil] at hScans

/-- Puts several tokens in front. -/
def Scan.prepend (tokens : List Token) (scan : Scan) : Scan :=
  { scan with tokens := tokens ++ scan.tokens }

/-- Texts can be put together where every token of the first one ends. -/
theorem Scans.append {start : Nat} {text rest : List Char} {tokens : List Token} {scan : Scan}
    (hText : Scans start text ⟨tokens, false⟩) (hEnds : ∀ token ∈ tokens, token.kind.EndsAt rest)
    (hRest : Scans (start + byteLength text) rest scan) :
    Scans start (text ++ rest) (scan.prepend tokens) := by
  generalize hScan : (⟨tokens, false⟩ : Scan) = whole at hText
  induction hText generalizing tokens with
  | done =>
      cases hScan
      exact hRest
  | unclosed hOpen => cases hScan
  | blank hBlank hInner ih =>
      rw [byteLength_cons, ← Nat.add_assoc] at hRest
      exact Scans.blank hBlank (ih hEnds hRest hScan)
  | @token start kind lexeme inner innerScan hLexeme hInnerEnds hInner ih =>
      obtain ⟨innerTokens, unterminated⟩ := innerScan
      cases hScan
      rw [byteLength_append, ← Nat.add_assoc] at hRest
      rw [List.append_assoc]
      have hHere : kind.EndsAt rest := hEnds _ (List.mem_cons_self)
      exact Scans.token hLexeme (hInnerEnds.append hHere)
        (ih (fun token hMem => hEnds token (List.mem_cons_of_mem _ hMem)) hRest rfl)

/-- Taking away what stands in front of a token. -/
theorem Scans.drop {start : Nat} {text : List Char} {before after : List Token} {token : Token}
    {unterminated : Bool} (h : Scans start text ⟨before ++ token :: after, unterminated⟩) :
    ∃ front rest, text = front ++ rest ∧ token.span.start = start + byteLength front ∧
      Scans (start + byteLength front) rest ⟨token :: after, unterminated⟩ := by
  generalize hScan : (⟨before ++ token :: after, unterminated⟩ : Scan) = whole at h
  induction h generalizing before with
  | done => simp at hScan
  | unclosed hOpen => simp at hScan
  | @blank start c rest scan hBlank hInner ih =>
      obtain ⟨front, rest', rfl, hStart, hRest⟩ := ih hScan
      refine ⟨c :: front, rest', rfl, ?_, ?_⟩
      · rw [hStart, byteLength_cons, Nat.add_assoc]
      · rwa [byteLength_cons, ← Nat.add_assoc]
  | @token start kind lexeme inner innerScan hLexeme hEnds hInner ih =>
      obtain ⟨innerTokens, innerUnterminated⟩ := innerScan
      cases before with
      | nil =>
          cases hScan
          exact ⟨[], lexeme ++ inner, rfl, rfl, Scans.token hLexeme hEnds hInner⟩
      | cons first before =>
          cases hScan
          obtain ⟨front, rest', rfl, hStart, hRest⟩ := ih rfl
          refine ⟨lexeme ++ front, rest', by rw [List.append_assoc], ?_, ?_⟩
          · rw [hStart, byteLength_append, Nat.add_assoc]
          · rwa [byteLength_append, ← Nat.add_assoc]

/-- Taking away what stands behind a token. -/
theorem Scans.take {start : Nat} {text : List Char} {before after : List Token} {token : Token}
    {unterminated : Bool} (h : Scans start text ⟨before ++ token :: after, unterminated⟩) :
    ∃ front rest, text = front ++ rest ∧ token.span.stop = start + byteLength front ∧
      Scans start front ⟨before ++ [token], false⟩ := by
  generalize hScan : (⟨before ++ token :: after, unterminated⟩ : Scan) = whole at h
  induction h generalizing before with
  | done => simp at hScan
  | unclosed hOpen => simp at hScan
  | @blank start c rest scan hBlank hInner ih =>
      obtain ⟨front, rest', rfl, hStop, hFront⟩ := ih hScan
      refine ⟨c :: front, rest', rfl, ?_, Scans.blank hBlank hFront⟩
      rw [hStop, byteLength_cons, Nat.add_assoc]
  | @token start kind lexeme inner innerScan hLexeme hEnds hInner ih =>
      obtain ⟨innerTokens, innerUnterminated⟩ := innerScan
      cases before with
      | nil =>
          cases hScan
          exact ⟨lexeme, inner, rfl, rfl, hLexeme.scans start⟩
      | cons first before =>
          cases hScan
          obtain ⟨front, rest', rfl, hStop, hFront⟩ := ih rfl
          refine ⟨lexeme ++ front, rest', by rw [List.append_assoc], ?_,
            Scans.token hLexeme hEnds.left hFront⟩
          rw [hStop, byteLength_append, Nat.add_assoc]

/-! ### Moving -/

/-- The same token in a text that has `bytes` more in front. -/
def Token.shift (token : Token) (bytes : Nat) : Token :=
  { token with span := token.span.shift bytes }

@[simp] theorem Token.kind_shift (token : Token) (bytes : Nat) :
    (token.shift bytes).kind = token.kind :=
  rfl

theorem Scans.shift {start : Nat} {text : List Char} {scan : Scan} (h : Scans start text scan)
    (bytes : Nat) :
    Scans (start + bytes) text { scan with tokens := scan.tokens.map (·.shift bytes) } := by
  induction h with
  | done => exact Scans.done
  | unclosed hOpen => exact Scans.unclosed hOpen
  | blank hBlank hRest ih =>
      rw [Nat.add_right_comm] at ih
      exact Scans.blank hBlank ih
  | @token start kind text rest scan hLexeme hEnds hRest ih =>
      rw [Nat.add_right_comm] at ih
      have hToken : (Token.ofText kind start text).shift bytes =
          Token.ofText kind (start + bytes) text := by
        simp [Token.shift, Token.ofText, Span.shift, Nat.add_right_comm]
      have hScans := Scans.token hLexeme hEnds ih
      rw [← hToken] at hScans
      exact hScans

/-- A text at byte `start` has the tokens it has by itself, moved there. -/
theorem Scans.exists_shift {start : Nat} {text : List Char} {tokens : List Token} {unterminated : Bool}
    (h : Scans start text ⟨tokens, unterminated⟩) :
    ∃ own, Scans 0 text ⟨own, unterminated⟩ ∧ tokens = own.map (·.shift start) := by
  have hOwn := scans_scanFrom 0 text
  have hMoved := hOwn.shift start
  rw [Nat.zero_add] at hMoved
  have hSame := (scanFrom_of_scans h).symm.trans (scanFrom_of_scans hMoved)
  injection hSame with hTokens hUnterminated
  subst hUnterminated
  exact ⟨_, hOwn, hTokens⟩

end MessageLisp.Source
