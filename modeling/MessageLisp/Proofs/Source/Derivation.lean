import MessageLisp.Proofs.Source.Printing

/-! Derivations. A program is a sequence of expressions, and an expression is an atom or a sequence of
expressions in parentheses. A derivation is the tree of the rules that were used, and a token sequence
has at most one. What the atoms stand for is stated here without the reader: by the escapes of a
string and by the shape and the value of a number. -/
namespace MessageLisp.Source

/-! ### Atoms -/

/-- The escapes of strings: the letter after the backslash, and the character it stands for. -/
def escapes : List (Char × Char) :=
  [('"', '"'), ('\\', '\\'), ('n', '\n'), ('t', '\t'), ('r', '\r'), ('0', '\x00')]

/-- The text that the body of a string stands for. Every backslash starts an escape. -/
inductive Decodes : (body text : List Char) → Prop where
  | nil : Decodes [] []
  | plain {c : Char} {body text : List Char} (hPlain : c ≠ '\\') (hRest : Decodes body text) :
      Decodes (c :: body) (c :: text)
  | escape {letter c : Char} {body text : List Char} (hEscape : (letter, c) ∈ escapes)
      (hRest : Decodes body text) : Decodes ('\\' :: letter :: body) (c :: text)

/-- The expression that a token other than a parenthesis stands for. A number whose text has the shape
of an integer is that integer, and stands for nothing if 64 bits do not hold it; any other number is
the float that its text reads as. -/
inductive Token.IsAtom (token : Token) : Expr → Prop where
  | nil (hKind : token.kind = .symbol) (hText : token.text = "nil".toList) :
      IsAtom token (.nil token.span)
  | symbol (hKind : token.kind = .symbol) (hText : token.text ≠ "nil".toList) :
      IsAtom token (.symbol token.span (String.ofList token.text))
  | string {body text : List Char} (hKind : token.kind = .string)
      (hText : token.text = '"' :: (body ++ ['"'])) (hBody : Decodes body text) :
      IsAtom token (.string token.span (String.ofList text))
  | int {value : Int64} (hKind : token.kind = .number)
      (hValue : Number.IntegerText token.text value.toInt) : IsAtom token (.int token.span value)
  | float {value : Float} (hKind : token.kind = .number)
      (hShape : ∀ n, ¬ Number.IntegerText token.text n)
      (hValue : Number.readFloat token.text = some value)
      (hFinite : Number.isFinite value = true) : IsAtom token (.float token.span value)

theorem unescapeLetter?_eq_some_iff {letter c : Char} :
    Text.unescapeLetter? letter = some c ↔ (letter, c) ∈ escapes := by
  constructor
  · intro h
    unfold Text.unescapeLetter? at h
    split at h <;> cases h <;> simp [escapes]
  · intro h
    simp only [escapes, List.mem_cons, Prod.mk.injEq, List.not_mem_nil, or_false] at h
    rcases h with ⟨rfl, rfl⟩ | ⟨rfl, rfl⟩ | ⟨rfl, rfl⟩ | ⟨rfl, rfl⟩ | ⟨rfl, rfl⟩ | ⟨rfl, rfl⟩ <;> rfl

theorem Decodes.unique {body text text' : List Char} (h : Decodes body text)
    (h' : Decodes body text') : text = text' := by
  induction h generalizing text' with
  | nil =>
      cases h'
      rfl
  | plain hPlain _ ih =>
      cases h' with
      | plain _ hRest => rw [ih hRest]
      | escape _ _ => exact absurd rfl hPlain
  | escape hEscape _ ih =>
      cases h' with
      | plain hPlain _ => exact absurd rfl hPlain
      | escape hEscape' hRest =>
          have hSame := (unescapeLetter?_eq_some_iff.mpr hEscape).symm.trans
            (unescapeLetter?_eq_some_iff.mpr hEscape')
          rw [ih hRest, Option.some.inj hSame]

theorem Decodes.unescape_eq {body text : List Char} (h : Decodes body text) (start : Nat) :
    unescape start body = .ok text := by
  induction h generalizing start with
  | nil => rfl
  | plain hPlain _ ih => simp [unescape_cons hPlain, ih, Except.map]
  | escape hEscape _ ih =>
      simp [unescape_escape (unescapeLetter?_eq_some_iff.mpr hEscape), ih, Except.map]

/-- In the body of a string no backslash is left alone, and so the reader takes nothing but
escapes. -/
theorem StringBody.decodes {body : List Char} (hBody : StringBody body) {start : Nat}
    {text : List Char} (h : unescape start body = .ok text) : Decodes body text := by
  induction hBody generalizing start text with
  | nil =>
      cases h
      exact Decodes.nil
  | plain hQuote hPlain _ ih =>
      rw [unescape_cons hPlain] at h
      obtain ⟨inner, hInner, rfl⟩ := map_eq_ok_iff.mp h
      exact Decodes.plain hPlain (ih hInner)
  | @escape letter body _ ih =>
      cases hLetter : Text.unescapeLetter? letter with
      | none =>
          rw [unescape_invalid hLetter] at h
          cases h
      | some plain =>
          rw [unescape_escape hLetter] at h
          obtain ⟨inner, hInner, rfl⟩ := map_eq_ok_iff.mp h
          exact Decodes.escape (unescapeLetter?_eq_some_iff.mp hLetter) (ih hInner)

theorem Lexeme.string_body {kind : TokenKind} {text : List Char} (h : Lexeme kind text)
    (hKind : kind = .string) : ∃ body, text = '"' :: (body ++ ['"']) ∧ StringBody body := by
  cases h with
  | string hClosed =>
      obtain ⟨inner, rfl, hInner⟩ := exists_stringBody hClosed
      exact ⟨inner, rfl, hInner⟩
  | word _ _ => rcases wordKind_cases text with hWord | hWord <;> simp [hWord] at hKind
  | _ => cases hKind

theorem Lexeme.number_word {kind : TokenKind} {text : List Char} (h : Lexeme kind text)
    (hKind : kind = .number) : (Number.splitSign text).2 ≠ [] := by
  cases h with
  | word _ _ =>
      intro hEmpty
      simp [wordKind, looksNumeric, hEmpty, startsWithDigit] at hKind
  | _ => cases hKind

theorem Token.IsAtom.unique {token : Token} {expr expr' : Expr} (h : token.IsAtom expr)
    (h' : token.IsAtom expr') : expr = expr' := by
  cases h with
  | nil hKind hText => cases h' <;> simp_all
  | symbol hKind hText => cases h' <;> simp_all
  | string hKind hText hBody =>
      cases h' with
      | string _ hText' hBody' =>
          have hSame := List.append_cancel_right (List.cons.inj (hText.symm.trans hText')).2
          subst hSame
          rw [hBody.unique hBody']
      | _ => simp_all
  | int hKind hValue =>
      cases h' with
      | int _ hValue' => rw [Int64.toInt_inj.mp (hValue.unique hValue')]
      | float _ hShape _ _ => exact absurd hValue (hShape _)
      | _ => simp_all
  | float hKind hShape hValue hFinite =>
      cases h' with
      | int _ hValue' => exact absurd hValue' (hShape _)
      | float _ _ hValue' _ => rw [Option.some.inj (hValue.symm.trans hValue')]
      | _ => simp_all

/-- The reader takes a scanned token for an atom exactly if it is one. -/
theorem Token.atom?_eq_ok_iff {token : Token} {expr : Expr}
    (hLexeme : Lexeme token.kind token.text) :
    token.atom? = .ok (some expr) ↔ token.IsAtom expr := by
  constructor
  · intro hAtom
    cases Token.denotes_of_atom hAtom with
    | nil hKind hText => exact IsAtom.nil hKind hText
    | symbol hKind hText => exact IsAtom.symbol hKind hText
    | string hKind hText =>
        obtain ⟨body, hQuoted, hBody⟩ := hLexeme.string_body hKind
        rw [Token.body, hQuoted, List.tail_cons, List.dropLast_concat] at hText
        exact IsAtom.string hKind hQuoted (hBody.decodes hText)
    | int hKind _ hValue => exact IsAtom.int hKind (Number.readInteger_eq_some_iff.mp hValue)
    | float hKind hDigits hValue hFinite =>
        refine IsAtom.float hKind ?_ hValue hFinite
        intro n hInteger
        simp [(Number.integerText_iff.mp hInteger).2.1] at hDigits
  · intro hAtom
    apply Token.Denotes.atom
    cases hAtom with
    | nil hKind hText => exact Denotes.nil hKind hText
    | symbol hKind hText => exact Denotes.symbol hKind hText
    | string hKind hText hBody =>
        refine Denotes.string hKind ?_
        rw [Token.body, hText, List.tail_cons, List.dropLast_concat]
        exact hBody.unescape_eq _
    | int hKind hValue =>
        exact Denotes.int hKind (Number.integerText_iff.mp hValue).2.1
          (Number.readInteger_eq_some_iff.mpr hValue)
    | float hKind hShape hValue hFinite =>
        refine Denotes.float hKind ?_ hValue hFinite
        by_contra hDigits
        rw [Bool.not_eq_false] at hDigits
        exact hShape _ (Number.integerText_iff.mpr ⟨hLexeme.number_word hKind, hDigits, rfl⟩)

/-! ### Derivation trees -/

/-- A derivation of one expression. Every tree is a use of the rules: leaves are atoms, and the
outer tokens of a list are parentheses. -/
inductive Tree where
  | atom (token : Token) (expr : Expr) (hAtom : token.IsAtom expr)
  | list (opener closer : Token) (hOpener : opener.kind = .listOpen)
      (hCloser : closer.kind = .listClose) (items : List Tree)

namespace Tree

mutual

/-- The tokens of a derivation, in order. -/
def tokens : Tree → List Token
  | atom token _ _ => [token]
  | list opener closer _ _ items => opener :: (tokensAll items ++ [closer])

@[inherit_doc tokens]
def tokensAll : List Tree → List Token
  | [] => []
  | tree :: trees => tokens tree ++ tokensAll trees

end

mutual

/-- The expression that is derived. -/
def expr : Tree → Expr
  | atom _ expr _ => expr
  | list opener closer _ _ items => .list ⟨opener.span.start, closer.span.stop⟩ (exprAll items)

@[inherit_doc expr]
def exprAll : List Tree → List Expr
  | [] => []
  | tree :: trees => expr tree :: exprAll trees

end

end Tree

theorem Token.IsAtom.kind_ne {token : Token} {expr : Expr} (h : token.IsAtom expr) :
    token.kind ≠ .listOpen ∧ token.kind ≠ .listClose ∧ token.kind ≠ .comment := by
  cases h <;> simp_all

namespace Tree

theorem tokens_head (tree : Tree) :
    ∃ first rest, tree.tokens = first :: rest ∧ first.kind ≠ .listClose := by
  cases tree with
  | atom token expr hAtom => exact ⟨token, [], rfl, hAtom.kind_ne.2.1⟩
  | list opener closer hOpener hCloser items =>
      exact ⟨opener, tokensAll items ++ [closer], rfl, by simp [hOpener]⟩

/-- Nothing follows, or a closing parenthesis does. -/
def Ends (rest : List Token) : Prop :=
  ∀ token ∈ rest.head?, token.kind = .listClose

theorem not_ends_tokens_append (tree : Tree) (rest : List Token) : ¬ Ends (tree.tokens ++ rest) := by
  obtain ⟨first, tail, hTokens, hFirst⟩ := tree.tokens_head
  rw [hTokens]
  intro hEnds
  exact hFirst (hEnds first rfl)

/-- Derivations can be told from their tokens, also in front of the end of the list they stand in. -/
theorem tokensAll_append_inj {trees trees' : List Tree} {rest rest' : List Token}
    (hRest : Ends rest) (hRest' : Ends rest')
    (h : tokensAll trees ++ rest = tokensAll trees' ++ rest') : trees = trees' ∧ rest = rest' := by
  match trees, trees' with
  | [], [] => exact ⟨rfl, h⟩
  | [], tree :: trees =>
      rw [tokensAll, tokensAll, List.nil_append, List.append_assoc] at h
      exact absurd (h ▸ hRest) (not_ends_tokens_append _ _)
  | tree :: trees, [] =>
      rw [tokensAll, tokensAll, List.nil_append, List.append_assoc] at h
      exact absurd (h ▸ hRest') (not_ends_tokens_append _ _)
  | .atom token expr hAtom :: trees, .atom token' expr' hAtom' :: trees' =>
      obtain ⟨rfl, hTail⟩ := List.cons.inj h
      obtain rfl := hAtom.unique hAtom'
      obtain ⟨rfl, rfl⟩ := tokensAll_append_inj hRest hRest' hTail
      exact ⟨rfl, rfl⟩
  | .atom token expr hAtom :: trees, .list opener closer hOpener hCloser items :: trees' =>
      obtain ⟨rfl, -⟩ := List.cons.inj h
      exact absurd hOpener hAtom.kind_ne.1
  | .list opener closer hOpener hCloser items :: trees, .atom token expr hAtom :: trees' =>
      obtain ⟨rfl, -⟩ := List.cons.inj h
      exact absurd hOpener hAtom.kind_ne.1
  | .list opener closer hOpener hCloser items :: trees,
    .list opener' closer' hOpener' hCloser' items' :: trees' =>
      simp only [tokensAll, tokens, List.cons_append, List.append_assoc, List.nil_append,
        List.cons.injEq] at h
      obtain ⟨rfl, hInner⟩ := h
      have hEnds : Ends (closer :: (tokensAll trees ++ rest)) := fun _ hHead => by
        cases hHead
        exact hCloser
      have hEnds' : Ends (closer' :: (tokensAll trees' ++ rest')) := fun _ hHead => by
        cases hHead
        exact hCloser'
      obtain ⟨rfl, hTail⟩ := tokensAll_append_inj hEnds hEnds' hInner
      obtain ⟨rfl, hOuter⟩ := List.cons.inj hTail
      obtain ⟨rfl, rfl⟩ := tokensAll_append_inj hRest hRest' hOuter
      exact ⟨rfl, rfl⟩

/-- The grammar is unambiguous: a token sequence has at most one derivation. -/
theorem tokensAll_injective : Function.Injective tokensAll := by
  intro trees trees' h
  have hNone : Ends [] := fun _ hHead => by cases hHead
  exact (tokensAll_append_inj hNone hNone (by rw [h])).1

end Tree

/-! ### Derivations and the reader -/

/-- The tokens that the grammar is about: all but the comments. -/
def significant (tokens : List Token) : List Token :=
  tokens.filter (·.kind ≠ .comment)

@[simp] theorem significant_append (tokens tokens' : List Token) :
    significant (tokens ++ tokens') = significant tokens ++ significant tokens' :=
  List.filter_append ..

theorem significant_comment {token : Token} (hKind : token.kind = .comment) (tokens : List Token) :
    significant (token :: tokens) = significant tokens :=
  List.filter_cons_of_neg (by simp [hKind])

theorem significant_cons {token : Token} (hKind : token.kind ≠ .comment) (tokens : List Token) :
    significant (token :: tokens) = token :: significant tokens :=
  List.filter_cons_of_pos (by simp [hKind])

theorem Derives.comments {before tokens : List Token} {exprs : List Expr}
    (hBefore : ∀ token ∈ before, token.kind = .comment) (h : Derives tokens exprs) :
    Derives (before ++ tokens) exprs := by
  induction before with
  | nil => exact h
  | cons token before ih =>
      exact Derives.comment (hBefore token (by simp))
        (ih fun token hMem => hBefore token (List.mem_cons_of_mem _ hMem))

/-- The first token of a derivation comes after comments only. -/
theorem exists_of_significant_eq_cons {tokens rest : List Token} {token : Token}
    (h : significant tokens = token :: rest) :
    ∃ before after, tokens = before ++ token :: after ∧
      (∀ token ∈ before, token.kind = .comment) ∧ significant after = rest := by
  obtain ⟨before, after, rfl, hBefore, -, hAfter⟩ := List.filter_eq_cons_iff.mp h
  exact ⟨before, after, rfl, by simpa using hBefore, hAfter⟩

/-- A derivation stands for what the reader makes of its tokens, with comments anywhere. -/
theorem Tree.derives {trees : List Tree} {tokens : List Token}
    (hLexemes : ∀ token ∈ tokens, Lexeme token.kind token.text)
    (h : significant tokens = tokensAll trees) : Derives tokens (exprAll trees) := by
  match trees with
  | [] =>
      have hComments : ∀ token ∈ tokens, token.kind = .comment := by
        simpa using List.filter_eq_nil_iff.mp h
      rw [← List.append_nil tokens]
      exact Derives.comments hComments Derives.nil
  | .atom token expr hAtom :: trees =>
      obtain ⟨before, after, rfl, hBefore, hAfter⟩ := exists_of_significant_eq_cons h
      have hToken := (Token.atom?_eq_ok_iff (hLexemes token (by simp))).mpr hAtom
      refine Derives.comments hBefore (Derives.atom hToken (Tree.derives ?_ hAfter))
      exact fun token hMem => hLexemes token (by simp [hMem])
  | .list opener closer hOpener hCloser items :: trees =>
      simp only [tokensAll, Tree.tokens, List.cons_append, List.append_assoc] at h
      obtain ⟨before, later, rfl, hBefore, hLater⟩ := exists_of_significant_eq_cons h
      obtain ⟨inner, last, rfl, hInner, hLast⟩ := List.filter_eq_append_iff.mp hLater
      obtain ⟨gap, after, rfl, hGap, hAfter⟩ := exists_of_significant_eq_cons hLast
      have hItems : Derives (inner ++ gap) (exprAll items) := by
        have hDerives := (Tree.derives (fun token hMem => hLexemes token (by simp [hMem]))
          hInner).append (Derives.comments hGap Derives.nil)
        simpa using hDerives
      have hRest := Tree.derives (fun token hMem => hLexemes token (by simp [hMem])) hAfter
      have hList := Derives.list hOpener hCloser hItems hRest
      rw [List.append_assoc] at hList
      exact Derives.comments hBefore hList

/-- What the reader accepts has a derivation. -/
theorem Derives.exists_trees {tokens : List Token} {exprs : List Expr} (h : Derives tokens exprs)
    (hLexemes : ∀ token ∈ tokens, Lexeme token.kind token.text) :
    ∃ trees, significant tokens = Tree.tokensAll trees ∧ Tree.exprAll trees = exprs := by
  induction h with
  | nil => exact ⟨[], rfl, rfl⟩
  | comment hKind _ ih =>
      obtain ⟨trees, hTokens, hExprs⟩ := ih fun token hMem => hLexemes token (by simp [hMem])
      exact ⟨trees, (significant_comment hKind _).trans hTokens, hExprs⟩
  | @atom token tokens expr exprs hAtom _ ih =>
      obtain ⟨trees, hTokens, rfl⟩ := ih fun token hMem => hLexemes token (by simp [hMem])
      have hToken := (Token.atom?_eq_ok_iff (hLexemes token (by simp))).mp hAtom
      refine ⟨.atom token expr hToken :: trees, ?_, rfl⟩
      rw [significant_cons hToken.kind_ne.2.2, hTokens]
      rfl
  | @list opener closer inner tokens items exprs hOpener hCloser _ _ ihInner ih =>
      obtain ⟨items, hItems, rfl⟩ := ihInner fun token hMem => hLexemes token (by simp [hMem])
      obtain ⟨trees, hTokens, rfl⟩ := ih fun token hMem => hLexemes token (by simp [hMem])
      refine ⟨.list opener closer hOpener hCloser items :: trees, ?_, rfl⟩
      rw [significant_cons (by simp [hOpener]), significant_append,
        significant_cons (by simp [hCloser]), hItems, hTokens]
      simp [Tree.tokensAll, Tree.tokens]

/-- A text is read as a program exactly if no string is left open and the tokens other than comments
have a derivation of the program in which lists are not nested too deep. No other derivation, and so
no other program, belongs to these tokens. -/
theorem parse_eq_ok_iff_derivation (source label : String) (program : List Expr) :
    (parse source label = .ok program ↔
      (scan source.toList).unterminated = false ∧
        ∃ trees, significant (scan source.toList).tokens = Tree.tokensAll trees ∧
          Tree.exprAll trees = program ∧ Expr.nestingAll program ≤ maxNesting) ∧
    (∀ trees trees', significant (scan source.toList).tokens = Tree.tokensAll trees →
      significant (scan source.toList).tokens = Tree.tokensAll trees' →
        trees = trees' ∧ Tree.exprAll trees = Tree.exprAll trees') := by
  have hScans : Scans 0 source.toList (scan source.toList) := scans_scanFrom 0 _
  refine ⟨?_, ?_⟩
  · rw [parse_eq_ok_iff, readProgram_eq_ok_iff]
    constructor
    · rintro ⟨tokens, hTokens, hDerives, hNesting⟩
      have hScan : scan source.toList = ⟨tokens, false⟩ := scanFrom_of_scans hTokens
      obtain ⟨trees, hTrees, hExprs⟩ := hDerives.exists_trees hTokens.lexeme
      rw [hScan]
      exact ⟨rfl, trees, hTrees, hExprs, hNesting⟩
    · rintro ⟨hClosed, trees, hTrees, rfl, hNesting⟩
      refine ⟨(scan source.toList).tokens, ?_, Tree.derives hScans.lexeme hTrees, hNesting⟩
      rwa [← hClosed]
  · intro trees trees' hTrees hTrees'
    obtain rfl := Tree.tokensAll_injective (hTrees.symm.trans hTrees')
    exact ⟨rfl, rfl⟩

theorem parse_eq_ok_iff_derivation_commented :
    parse "(a ; b\n \"x\\n\" -7)" "t" = .ok [.list ⟨0, 17⟩
        [.symbol ⟨1, 2⟩ "a", .string ⟨8, 13⟩ "x\n", .int ⟨14, 16⟩ (-7)]] ∧
      ∃ trees, significant (scan "(a ; b\n \"x\\n\" -7)".toList).tokens = Tree.tokensAll trees ∧
        Tree.exprAll trees = [.list ⟨0, 17⟩
          [.symbol ⟨1, 2⟩ "a", .string ⟨8, 13⟩ "x\n", .int ⟨14, 16⟩ (-7)]] ∧
        ∀ trees', significant (scan "(a ; b\n \"x\\n\" -7)".toList).tokens =
          Tree.tokensAll trees' → trees = trees' := by
  have hParse : parse "(a ; b\n \"x\\n\" -7)" "t" = .ok [.list ⟨0, 17⟩
      [.symbol ⟨1, 2⟩ "a", .string ⟨8, 13⟩ "x\n", .int ⟨14, 16⟩ (-7)]] := by
    cbv
  obtain ⟨hReads, hUnique⟩ := parse_eq_ok_iff_derivation "(a ; b\n \"x\\n\" -7)" "t" _
  obtain ⟨-, trees, hTrees, hExprs, -⟩ := hReads.mp hParse
  exact ⟨hParse, trees, hTrees, hExprs, fun trees' hTrees' => (hUnique _ _ hTrees hTrees').1⟩

end MessageLisp.Source
