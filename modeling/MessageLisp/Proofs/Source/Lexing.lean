import MessageLisp.Proofs.Source.Location
import MessageLisp.Source.Lexer

/-! The lexer loses nothing. Iterating it comes to an end, and the tokens that it gives stand in the text one
behind the other and leave out nothing but blanks, up to the quote of a string that is never closed. Each
token is found again in its own text. -/
namespace MessageLisp.Source

/-! ### Iterating -/

/-- Iterating the lexer ends, and has given these items by then. -/
inductive Lexer.Yields : Lexer → List (Except Misfit Token) → Prop where
  | done {lexer : Lexer} (hNone : lexer.next? = none) : Yields lexer []
  | more {lexer lexer' : Lexer} {item : Except Misfit Token} {items : List (Except Misfit Token)}
      (hNext : lexer.next? = some (item, lexer')) (hRest : Yields lexer' items) :
      Yields lexer (item :: items)

namespace Lexer

theorem yields_items (lexer : Lexer) : lexer.Yields lexer.items := by
  fun_induction items lexer with
  | case1 lexer hNone => exact Yields.done hNone
  | case2 lexer item lexer' hNext ih => exact Yields.more hNext ih

theorem Yields.unique {lexer : Lexer} {items items' : List (Except Misfit Token)}
    (h : lexer.Yields items) (h' : lexer.Yields items') : items = items' := by
  induction h generalizing items' with
  | done hNone =>
      cases h' with
      | done _ => rfl
      | more hNext _ => cases hNone.symm.trans hNext
  | more hNext _ ih =>
      cases h' with
      | done hNone => cases hNone.symm.trans hNext
      | more hNext' hRest' =>
          cases hNext.symm.trans hNext'
          rw [ih hRest']

/-- What a lexer gives depends on its next item and what follows that. -/
theorem Yields.of_next?_eq {lexer lexer' : Lexer} {items : List (Except Misfit Token)}
    (h : lexer.Yields items) (hNext : lexer'.next? = lexer.next?) : lexer'.Yields items := by
  cases h with
  | done hNone => exact Yields.done (hNext.trans hNone)
  | more hMore hRest => exact Yields.more (hNext.trans hMore) hRest

theorem next?_blank {c : Char} (hBlank : Text.isBlank c = true) (start : Nat) (rest : List Char) :
    next? ⟨start, c :: rest⟩ = next? ⟨start + c.utf8Size, rest⟩ := by
  simp only [next?, List.dropWhile_cons_of_pos hBlank, List.takeWhile_cons_of_pos hBlank, byteLength_cons,
    Nat.add_assoc]

theorem next?_cons {c : Char} (hBlank : Text.isBlank c = false) (start : Nat) (rest : List Char) :
    next? ⟨start, c :: rest⟩ = some (itemAt start c rest) := by
  have hStop : ¬Text.isBlank c = true := by simp [hBlank]
  simp only [next?, List.dropWhile_cons_of_neg hStop, List.takeWhile_cons_of_neg hStop, byteLength_nil,
    Nat.add_zero]

/-- A lexeme that ends where it should is the next item. -/
theorem next?_lexeme {kind : TokenKind} {text rest : List Char} (hLexeme : Lexeme kind text)
    (hEnds : kind.EndsAt rest) (start : Nat) :
    next? ⟨start, text ++ rest⟩ = some (give kind start text rest) := by
  cases hLexeme with
  | listOpen => exact next?_cons rfl start rest
  | listClose => exact next?_cons rfl start rest
  | @comment body hLine =>
      obtain ⟨hTake, hDrop⟩ := comment_append_stop hLine hEnds
      rw [List.cons_append, next?_cons rfl, itemAt, if_neg (by decide), if_neg (by decide), if_pos rfl, hTake,
        hDrop]
  | @string body hClosed =>
      rw [List.cons_append, next?_cons rfl, itemAt, if_neg (by decide), if_neg (by decide),
        if_neg (by decide), if_pos rfl, splitString_body hClosed rest]
  | word hSome hPlain =>
      obtain ⟨c, word, rfl⟩ := List.exists_cons_of_ne_nil hSome
      obtain ⟨hTake, hDrop⟩ := word_append_stop hPlain hEnds
      obtain ⟨hBlank, hOpen, hClose, hQuote, hComment⟩ := not_isBlank_of_word (hPlain c (by simp))
      rw [List.cons_append, next?_cons hBlank, itemAt, if_neg hOpen, if_neg hClose, if_neg hComment,
        if_neg hQuote, hTake, hDrop]

theorem next?_unclosed {rest : List Char} (hOpen : splitString rest = none) (start : Nat) :
    next? ⟨start, '"' :: rest⟩ =
      some (.error ⟨.unterminatedString,
          ⟨start + byteLength ('"' :: rest), start + byteLength ('"' :: rest)⟩⟩,
        ⟨start + byteLength ('"' :: rest), []⟩) := by
  rw [next?_cons rfl, itemAt, if_neg (by decide), if_neg (by decide), if_neg (by decide), if_pos rfl, hOpen]

end Lexer

/-! ### The lexer gives what is scanned -/

/-- What is scanned, item by item: the tokens, and a misfit where a string is left open, at byte `stop`. -/
def Scan.items (scan : Scan) (stop : Nat) : List (Except Misfit Token) :=
  scan.tokens.map .ok ++
    if scan.unterminated then [.error ⟨.unterminatedString, ⟨stop, stop⟩⟩] else []

theorem Scans.yields {start : Nat} {text : List Char} {scan : Scan} (h : Scans start text scan) :
    Lexer.Yields ⟨start, text⟩ (scan.items (start + byteLength text)) := by
  induction h with
  | done => exact Lexer.Yields.done rfl
  | unclosed hOpen => exact Lexer.Yields.more (Lexer.next?_unclosed hOpen _) (Lexer.Yields.done rfl)
  | @blank start c rest scan hBlank hRest ih =>
      rw [Nat.add_assoc] at ih
      exact ih.of_next?_eq (Lexer.next?_blank hBlank start rest)
  | @token start kind text rest scan hLexeme hEnds hRest ih =>
      rw [Nat.add_assoc, ← byteLength_append] at ih
      exact Lexer.Yields.more (Lexer.next?_lexeme hLexeme hEnds start) ih

theorem Scans.items_eq {text : List Char} {scan : Scan} (h : Scans 0 text scan) :
    (Lexer.ofText text).items = scan.items (byteLength text) := by
  have hYields := h.yields
  rw [Nat.zero_add] at hYields
  exact (Lexer.yields_items _).unique hYields

/-! ### What the tokens cover -/

/-- Tokens that cover a text but for blanks. Each has some part of the text, between characters; they stand
one behind the other; and a character outside all of them is blank. -/
structure Covers (tokens : List Token) (text : List Char) : Prop where
  nonempty : ∀ token ∈ tokens, token.span.start < token.span.stop
  boundary : ∀ token ∈ tokens, IsBoundary text token.span.start ∧ IsBoundary text token.span.stop
  ordered : tokens.Pairwise fun token token' => token.span.stop ≤ token'.span.start
  blank : ∀ before c after, text = before ++ c :: after →
    (∀ token ∈ tokens, byteLength before < token.span.start ∨ token.span.stop ≤ byteLength before) →
      Text.isBlank c = true

/-- A character of a text without open string is blank or belongs to a token. -/
theorem Scans.blank_or_covered {start : Nat} {text : List Char} {tokens : List Token}
    (h : Scans start text ⟨tokens, false⟩) {before : List Char} {c : Char} {after : List Char}
    (hText : text = before ++ c :: after) :
    Text.isBlank c = true ∨ ∃ token ∈ tokens, token.span.start ≤ start + byteLength before ∧
      start + byteLength before < token.span.stop := by
  generalize hScan : (⟨tokens, false⟩ : Scan) = scan at h
  induction h generalizing before tokens with
  | done => simp at hText
  | unclosed hOpen => cases hScan
  | @blank start first rest scan hBlank hRest ih =>
      cases before with
      | nil =>
          cases hText
          exact Or.inl hBlank
      | cons first' before =>
          cases hText
          rw [byteLength_cons, ← Nat.add_assoc]
          exact ih rfl hScan
  | @token start kind lexeme rest scan hLexeme hEnds hRest ih =>
      obtain ⟨later, unterminated⟩ := scan
      cases hScan
      -- The character is inside the lexeme, or it is one of those behind it.
      have hSplit : byteLength before < byteLength lexeme ∨
          ∃ before', before = lexeme ++ before' ∧ rest = before' ++ c :: after := by
        rcases List.append_eq_append_iff.mp hText with ⟨before', rfl, hRest'⟩ | ⟨inner, rfl, hInner⟩
        · exact Or.inr ⟨before', rfl, hRest'⟩
        · cases inner with
          | nil => exact Or.inr ⟨[], by simp, by simpa using hInner.symm⟩
          | cons c' inner =>
              have hPos : 0 < c'.utf8Size := c'.utf8Size_pos
              rw [byteLength_append, byteLength_cons]
              omega
      rcases hSplit with hInside | ⟨before', rfl, hRest'⟩
      · exact Or.inr ⟨.ofText kind start lexeme, List.mem_cons_self, Nat.le_add_right _ _,
          Nat.add_lt_add_left hInside start⟩
      · rw [byteLength_append, ← Nat.add_assoc]
        rcases ih hRest' rfl with hBlank | ⟨token, hToken, hFrom, hTo⟩
        · exact Or.inl hBlank
        · exact Or.inr ⟨token, List.mem_cons_of_mem _ hToken, hFrom, hTo⟩

theorem Scans.covers {text : List Char} {tokens : List Token} (h : Scans 0 text ⟨tokens, false⟩) :
    Covers tokens text where
  nonempty token hToken := by
    obtain ⟨front, rest, -, hSpan⟩ := h.token_at hToken
    have hPos := (h.lexeme token hToken).byteLength_pos
    rw [hSpan]
    dsimp only
    omega
  boundary token hToken := by
    obtain ⟨front, rest, rfl, hSpan⟩ := h.token_at hToken
    rw [hSpan, Nat.zero_add]
    exact ⟨⟨front, token.text ++ rest, rfl, rfl⟩, front ++ token.text, rest, by simp, by simp⟩
  ordered := h.ordered
  blank before c after hText hOutside := by
    rcases h.blank_or_covered hText with hBlank | ⟨token, hToken, hFrom, hTo⟩
    · exact hBlank
    · rw [Nat.zero_add] at hFrom hTo
      rcases hOutside token hToken with hBefore | hBehind
      · omega
      · omega

/-- A text that ends inside a string has all its tokens in front of the quote of that string. -/
theorem Scans.exists_open {start : Nat} {text : List Char} {tokens : List Token}
    (h : Scans start text ⟨tokens, true⟩) :
    ∃ covered rest, text = covered ++ '"' :: rest ∧ splitString rest = none ∧
      Scans start covered ⟨tokens, false⟩ := by
  generalize hScan : (⟨tokens, true⟩ : Scan) = scan at h
  induction h generalizing tokens with
  | done => cases hScan
  | @unclosed start rest hOpen =>
      cases hScan
      exact ⟨[], rest, rfl, hOpen, Scans.done⟩
  | @blank start c rest scan hBlank _ ih =>
      subst hScan
      obtain ⟨covered, rest, rfl, hOpen, hCovered⟩ := ih rfl
      exact ⟨c :: covered, rest, rfl, hOpen, Scans.blank hBlank hCovered⟩
  | @token start kind lexeme rest scan hLexeme hEnds _ ih =>
      obtain ⟨later, unterminated⟩ := scan
      cases hScan
      obtain ⟨covered, rest, rfl, hOpen, hCovered⟩ := ih rfl
      exact ⟨lexeme ++ covered, rest, by rw [List.append_assoc], hOpen,
        Scans.token hLexeme hEnds.left hCovered⟩

theorem StringBody.splitString_eq {body : List Char} (h : StringBody body) (more : List Char) :
    splitString (body ++ '"' :: more) = some (body ++ ['"'], more) := by
  induction h with
  | nil => rfl
  | plain hQuote hPlain _ ih =>
      rw [List.cons_append, splitString_cons hQuote hPlain, ih]
      rfl
  | escape _ ih => simp [splitString, ih]

/-- The lexer loses nothing. Iterating it ends. It gives the tokens that programs are read from, and they cover
the text but for blanks; if the text ends inside a string, they cover it up to the quote of that string, behind
which no other quote closes it, and then the last item, and no other, is a misfit at the end of the text. The
part of the text under any of the tokens is by itself one token of the same kind. -/
theorem lexing_loses_nothing (source : String) :
    (Lexer.ofText source.toList).Yields (Lexer.ofText source.toList).items ∧
      (∃ covered tail, source.toList = covered ++ tail ∧ Covers (scan source.toList).tokens covered ∧
        (tail = [] ∧ (Lexer.ofText source.toList).items = (scan source.toList).tokens.map .ok ∨
          (∃ rest, tail = '"' :: rest ∧ ¬∃ body more, StringBody body ∧ rest = body ++ '"' :: more) ∧
            (Lexer.ofText source.toList).items = (scan source.toList).tokens.map .ok ++
              [.error ⟨.unterminatedString, ⟨source.utf8ByteSize, source.utf8ByteSize⟩⟩])) ∧
      ∀ token ∈ (scan source.toList).tokens, slice source.toList token.span = token.text ∧
        (Lexer.ofText (slice source.toList token.span)).items =
          [.ok (.ofText token.kind 0 (slice source.toList token.span))] := by
  have hScans : Scans 0 source.toList (scan source.toList) := scans_scanFrom 0 source.toList
  have hItems := hScans.items_eq
  rw [byteLength_toList] at hItems
  generalize scan source.toList = scanned at hScans hItems
  obtain ⟨tokens, unterminated⟩ := scanned
  refine ⟨Lexer.yields_items _, ?_, ?_⟩
  · cases unterminated with
    | false =>
        refine ⟨source.toList, [], by simp, hScans.covers, Or.inl ⟨rfl, ?_⟩⟩
        simpa [Scan.items] using hItems
    | true =>
        obtain ⟨covered, rest, hText, hOpen, hCovered⟩ := hScans.exists_open
        refine ⟨covered, '"' :: rest, hText, hCovered.covers, Or.inr ⟨⟨rest, rfl, ?_⟩, hItems⟩⟩
        rintro ⟨body, more, hBody, rfl⟩
        cases hOpen.symm.trans (hBody.splitString_eq more)
  · intro token hToken
    have hSlice := (hScans.slice_token hToken).1
    refine ⟨hSlice, ?_⟩
    rw [hSlice]
    exact ((hScans.lexeme token hToken).scans 0).items_eq

/-- A parenthesis, a word of two bytes and a string that is left open. -/
theorem lexing_loses_nothing_unclosed :
    (scan "(é \"ü".toList).tokens = [.ofText .listOpen 0 ['('], .ofText .symbol 1 ['é']] ∧
      (∃ covered rest, "(é \"ü".toList = covered ++ '"' :: rest ∧
        Covers [.ofText .listOpen 0 ['('], .ofText .symbol 1 ['é']] covered) ∧
      (Lexer.ofText "(é \"ü".toList).items =
        [.ok (.ofText .listOpen 0 ['(']), .ok (.ofText .symbol 1 ['é']),
          .error ⟨.unterminatedString, ⟨7, 7⟩⟩] ∧
      (Lexer.ofText (slice "(é \"ü".toList ⟨1, 3⟩)).items =
        [.ok (.ofText .symbol 0 (slice "(é \"ü".toList ⟨1, 3⟩))] := by
  have hTokens : (scan "(é \"ü".toList).tokens = [.ofText .listOpen 0 ['('], .ofText .symbol 1 ['é']] := by
    cbv
  have hItems : (Lexer.ofText "(é \"ü".toList).items =
      [.ok (.ofText .listOpen 0 ['(']), .ok (.ofText .symbol 1 ['é']),
        .error ⟨.unterminatedString, ⟨7, 7⟩⟩] := by
    cbv
  obtain ⟨-, ⟨covered, tail, hText, hCovers, hEnd⟩, hAlone⟩ := lexing_loses_nothing "(é \"ü"
  rw [hTokens] at hCovers hEnd hAlone
  have hWord := (hAlone (.ofText .symbol 1 ['é']) (by simp)).2
  rcases hEnd with ⟨-, hClosed⟩ | ⟨⟨rest, rfl, -⟩, -⟩
  · cases hItems.symm.trans hClosed
  · exact ⟨hTokens, ⟨covered, rest, hText, hCovers⟩, hItems, hWord⟩

end MessageLisp.Source
