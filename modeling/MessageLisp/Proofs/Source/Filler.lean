import MessageLisp.Proofs.Source.Composition
import MessageLisp.Proofs.Source.Derivation

/-! Filler between tokens. What is read depends on the kinds and texts of the tokens that are no
comments, and blanks and comments between tokens, or right behind one, change none of these. Behind a
comment, filler first prolongs the comment, up to the end of the line. -/
namespace MessageLisp.Source

/-- Texts of blanks and of comments that end with their line. -/
inductive Filler : List Char → Prop where
  | nil : Filler []
  | blank {c : Char} {rest : List Char} (hBlank : Text.isBlank c = true) (hRest : Filler rest) :
      Filler (c :: rest)
  | comment {body rest : List Char} (hLine : ∀ c ∈ body, c ≠ '\n') (hRest : Filler rest) :
      Filler (';' :: (body ++ '\n' :: rest))

/-! ### What reading depends on -/

/-- An outcome without its places. -/
def placeless {α β : Type} (f : α → β) : Except Misfit α → Except SyntaxCause β
  | .ok value => .ok (f value)
  | .error misfit => .error misfit.cause

theorem placeless_bind {α β γ δ : Type} {f : α → γ} {g : β → δ} {first second : Except Misfit α}
    {next next' : α → Except Misfit β} (hFirst : placeless f first = placeless f second)
    (hNext : ∀ a b, f a = f b → placeless g (next a) = placeless g (next' b)) :
    placeless g (first >>= next) = placeless g (second >>= next') := by
  cases first with
  | ok a =>
      cases second with
      | ok b => exact hNext a b (Except.ok.inj hFirst)
      | error misfit => cases hFirst
  | error misfit =>
      cases second with
      | ok b => cases hFirst
      | error misfit' => exact congrArg Except.error (Except.error.inj hFirst)

namespace Expr

mutual

@[simp] theorem bare_bare (expr : Expr) : expr.bare.bare = expr.bare := by
  match expr with
  | .nil _ | .int _ _ | .float _ _ | .string _ _ | .symbol _ _ => rfl
  | .list _ items => rw [bare, bare, bareAll_bareAll items]

@[simp] theorem bareAll_bareAll (exprs : List Expr) : bareAll (bareAll exprs) = bareAll exprs := by
  match exprs with
  | [] => rfl
  | expr :: exprs => rw [bareAll, bareAll, bare_bare expr, bareAll_bareAll exprs]

end

end Expr

/-- The token without its place. -/
def Token.bare (token : Token) : Token :=
  ⟨token.kind, default, token.text⟩

/-- The scan without comments and places. -/
def Scan.bare (scan : Scan) : Scan :=
  ⟨(significant scan.tokens).map Token.bare, scan.unterminated⟩

/-- The state of reading without places. -/
def Reading.bare (reading : Reading) : Reading :=
  ⟨reading.pending.map fun list => ⟨0, list.items.map Expr.bare⟩, reading.finished.map Expr.bare⟩

theorem numberExpr?_bare (span span' : Span) (word : List Char) :
    (numberExpr? span word).map Expr.bare = (numberExpr? span' word).map Expr.bare := by
  unfold numberExpr?
  split <;> rw [Option.map_map, Option.map_map] <;> rfl

theorem Token.atom?_bare (token : Token) :
    placeless (Option.map Expr.bare) token.bare.atom? =
      placeless (Option.map Expr.bare) token.atom? := by
  obtain ⟨kind, span, text⟩ := token
  cases kind with
  | symbol =>
      change Except.ok (some (Expr.bare (if text = "nil".toList then .nil default
        else .symbol default (String.ofList text)))) = Except.ok (some (Expr.bare
          (if text = "nil".toList then .nil span else .symbol span (String.ofList text))))
      rw [apply_ite Expr.bare, apply_ite Expr.bare]
      rfl
  | string =>
      have hBody : unescape (span.start + 1) (Token.body ⟨.string, span, text⟩) =
          moved span.start id (unescape 1 (Token.body ⟨.string, span, text⟩)) := by
        rw [Nat.add_comm, unescape_add]
      simp only [Token.atom?, hBody]
      change placeless _ ((unescape 1 (Token.body ⟨.string, span, text⟩)).map _) = _
      cases unescape 1 (Token.body ⟨.string, span, text⟩) <;> rfl
  | number =>
      have hNumber := numberExpr?_bare default span text
      simp only [Token.atom?, Token.bare]
      cases hHere : numberExpr? span text <;> cases hThere : numberExpr? default text <;>
        simp_all [placeless]
  | listOpen | listClose | comment => rfl

namespace Reading

theorem push_bare (reading : Reading) (expr : Expr) :
    (reading.push expr).bare = reading.bare.push expr.bare := by
  obtain ⟨pending, finished⟩ := reading
  cases pending <;> rfl

@[simp] theorem bare_bare (reading : Reading) : reading.bare.bare = reading.bare := by
  simp [bare, Function.comp_def]

theorem elim_bare (reading : Reading) {expr? expr?' : Option Expr}
    (h : expr?'.map Expr.bare = expr?.map Expr.bare) :
    (expr?.elim reading reading.push).bare = (expr?'.elim reading.bare reading.bare.push).bare := by
  cases expr? with
  | none =>
      obtain rfl := Option.map_eq_none_iff.mp h
      exact reading.bare_bare.symm
  | some expr =>
      obtain ⟨expr', rfl, hExpr⟩ := Option.map_eq_some_iff.mp h
      rw [Option.elim_some, Option.elim_some, push_bare, push_bare, bare_bare, hExpr]

theorem atom_bare {atom atom' : Except Misfit (Option Expr)}
    (h : placeless (Option.map Expr.bare) atom' = placeless (Option.map Expr.bare) atom)
    (reading : Reading) :
    placeless bare (atom.map (·.elim reading reading.push)) =
      placeless bare (atom'.map (·.elim reading.bare reading.bare.push)) := by
  cases atom with
  | error misfit =>
      cases atom' with
      | error misfit' => exact congrArg Except.error (Except.error.inj h).symm
      | ok expr? => cases h
  | ok expr? =>
      cases atom' with
      | error misfit' => cases h
      | ok expr?' => exact congrArg Except.ok (elim_bare reading (Except.ok.inj h))

theorem step_bare (reading : Reading) (token : Token) :
    placeless bare (reading.step token) = placeless bare (reading.bare.step token.bare) := by
  by_cases hOpen : token.kind = .listOpen
  · have hBare : token.bare.kind = .listOpen := hOpen
    have hLength : reading.bare.pending.length = reading.pending.length := List.length_map ..
    rcases Nat.lt_or_ge reading.pending.length maxNesting with hRoom | hFull
    · rw [step_open hOpen hRoom, step_open hBare (hLength ▸ hRoom)]
      simp [placeless, bare, Function.comp_def]
    · rw [step_full hOpen hFull, step_full hBare (hLength ▸ hFull)]
      rfl
  · by_cases hClose : token.kind = .listClose
    · have hBare : token.bare.kind = .listClose := hClose
      obtain ⟨pending, finished⟩ := reading
      cases pending with
      | nil =>
          rw [step_unmatched hClose, bare, List.map_nil, step_unmatched hBare]
          rfl
      | cons inner outer =>
          rw [step_close hClose, bare, List.map_cons, step_close hBare]
          simp only [placeless, push_bare, Expr.bare, Expr.bareAll_eq_map, List.map_reverse,
            List.map_map, Function.comp_def, Expr.bare_bare]
          rw [← bare_bare ⟨outer, finished⟩]
          rfl
    · have hOpen' : token.bare.kind ≠ .listOpen := hOpen
      rw [step_other hOpen hClose, step_other hOpen' hClose]
      exact atom_bare token.atom?_bare reading

theorem foldlM_step_bare {reading reading' : Reading} (h : reading.bare = reading'.bare)
    {tokens tokens' : List Token} (hTokens : tokens.map Token.bare = tokens'.map Token.bare) :
    placeless bare (tokens.foldlM step reading) = placeless bare (tokens'.foldlM step reading') := by
  induction tokens generalizing reading reading' tokens' with
  | nil =>
      obtain rfl := List.map_eq_nil_iff.mp hTokens.symm
      exact congrArg Except.ok h
  | cons token tokens ih =>
      obtain ⟨token', tokens', rfl, hToken, hRest⟩ := List.map_eq_cons_iff.mp hTokens.symm
      rw [List.foldlM_cons, List.foldlM_cons]
      apply placeless_bind (f := bare)
      · rw [step_bare, step_bare reading', h, hToken]
      · exact fun next next' hNext => ih hNext hRest.symm

theorem foldlM_step_significant (reading : Reading) (tokens : List Token) :
    (significant tokens).foldlM step reading = tokens.foldlM step reading := by
  induction tokens generalizing reading with
  | nil => rfl
  | cons token tokens ih =>
      by_cases hKind : token.kind = .comment
      · rw [significant_comment hKind, ih, List.foldlM_cons, step_comment hKind]
        rfl
      · rw [significant_cons hKind, List.foldlM_cons, List.foldlM_cons]
        exact bind_congr ih

theorem finish_bare (reading : Reading) (unterminated : Bool) (stop stop' : Nat) :
    placeless Expr.bareAll (reading.finish unterminated stop) =
      placeless Expr.bareAll (reading.bare.finish unterminated stop') := by
  obtain ⟨pending, finished⟩ := reading
  cases unterminated with
  | true => rfl
  | false =>
      cases pending with
      | nil => simp [finish, bare, placeless, Expr.bareAll_eq_map, Function.comp_def]
      | cons inner outer => rfl

end Reading

/-- Texts with the same tokens are read alike, wherever these stand. -/
theorem readProgram_bare {source source' : List Char} (h : (scan source).bare = (scan source').bare) :
    placeless Expr.bareAll (readProgram source) = placeless Expr.bareAll (readProgram source') := by
  injection h with hTokens hEnd
  have hFold : placeless Reading.bare ((scan source).tokens.foldlM Reading.step Reading.empty) =
      placeless Reading.bare ((scan source').tokens.foldlM Reading.step Reading.empty) := by
    rw [← Reading.foldlM_step_significant, ← Reading.foldlM_step_significant _ (scan source').tokens]
    exact Reading.foldlM_step_bare rfl hTokens
  refine placeless_bind (f := Reading.bare) hFold fun reading reading' hReading => ?_
  rw [Reading.finish_bare reading _ _ 0, Reading.finish_bare reading' _ _ 0, hReading, hEnd]

/-! ### Scanning filler -/

theorem Scan.bare_comment {token : Token} (hKind : token.kind = .comment) (scan : Scan) :
    (scan.cons token).bare = scan.bare := by
  rw [Scan.bare, Scan.cons, significant_comment hKind]
  rfl

theorem Scan.bare_cons {token : Token} (hKind : token.kind ≠ .comment) (scan : Scan) :
    (scan.cons token).bare = scan.bare.cons token.bare := by
  rw [Scan.bare, Scan.cons, significant_cons hKind]
  rfl

theorem Lexeme.comment_line {kind : TokenKind} {text : List Char} (h : Lexeme kind text)
    (hKind : kind = .comment) : ∃ body, text = ';' :: body ∧ ∀ c ∈ body, c ≠ '\n' := by
  cases h with
  | comment hLine => exact ⟨_, rfl, hLine⟩
  | word _ _ => rcases wordKind_cases text with hWord | hWord <;> simp [hWord] at hKind
  | _ => cases hKind

theorem scanFrom_bare (start start' : Nat) (text : List Char) :
    (scanFrom start text).bare = (scanFrom start' text).bare := by
  have hMoved (bytes : Nat) : (scanFrom bytes text).bare = (scanFrom 0 text).bare := by
    have hScans := (scans_scanFrom 0 text).shift bytes
    rw [Nat.zero_add] at hScans
    rw [scanFrom_of_scans hScans, Scan.bare, significant, List.filter_map, List.map_map]
    rfl
  rw [hMoved start, hMoved start']

namespace Filler

/-- Filler in front of a text adds no tokens but comments. -/
theorem bare_scanFrom {filler : List Char} (h : Filler filler) (start start' : Nat) (after : List Char) :
    (scanFrom start (filler ++ after)).bare = (scanFrom start' after).bare := by
  induction h generalizing start with
  | nil => exact scanFrom_bare start start' after
  | blank hBlank _ ih => rw [List.cons_append, scanFrom_blank hBlank, ih]
  | @comment body rest hLine _ ih =>
      have hEnds : TokenKind.comment.EndsAt ('\n' :: (rest ++ after)) := by
        intro c hMem
        exact (Option.some.inj hMem).symm
      have hSplit : ';' :: (body ++ '\n' :: rest) ++ after =
          (';' :: body) ++ '\n' :: (rest ++ after) := by
        simp
      rw [hSplit, scanFrom_token (Lexeme.comment hLine) hEnds, Scan.bare_comment rfl,
        scanFrom_blank (by decide), ih]

theorem bare_of_scans {filler : List Char} (h : Filler filler) {after : List Char} {scan : Scan}
    (start start' : Nat) (hAfter : Scans start after scan) :
    (scanFrom start' (filler ++ after)).bare = scan.bare := by
  rw [h.bare_scanFrom start' start, scanFrom_of_scans hAfter]

/-- A token that is no comment ends where filler starts. -/
theorem endsAt {filler : List Char} (h : Filler filler) {kind : TokenKind} (hKind : kind ≠ .comment)
    {after : List Char} (hAfter : kind.EndsAt after) : kind.EndsAt (filler ++ after) := by
  have hDelimiter : filler ≠ [] → ∀ c ∈ (filler ++ after).head?, isDelimiter c = true := by
    intro hSome c hMem
    cases h with
    | nil => exact absurd rfl hSome
    | blank hBlank _ =>
        obtain rfl := Option.some.inj hMem
        simp [isDelimiter, hBlank]
    | comment _ _ =>
        obtain rfl := Option.some.inj hMem
        decide
  by_cases hEmpty : filler = []
  · rwa [hEmpty]
  · cases kind with
    | comment => exact absurd rfl hKind
    | symbol | number => exact hDelimiter hEmpty
    | listOpen | listClose | string => trivial

/-- Filler behind a comment prolongs it up to the end of a line, where filler or the text behind it
goes on. -/
theorem exists_line {filler : List Char} (h : Filler filler) {after : List Char}
    (hAfter : TokenKind.comment.EndsAt after) :
    ∃ line rest, filler ++ after = line ++ (rest ++ after) ∧ (∀ c ∈ line, c ≠ '\n') ∧
      Filler rest ∧ TokenKind.comment.EndsAt (rest ++ after) := by
  induction h with
  | nil => exact ⟨[], [], rfl, by simp, Filler.nil, hAfter⟩
  | @blank c rest hBlank hRest ih =>
      by_cases hNewline : c = '\n'
      · subst hNewline
        refine ⟨[], '\n' :: rest, rfl, by simp, Filler.blank hBlank hRest, ?_⟩
        intro c hMem
        exact (Option.some.inj hMem).symm
      · obtain ⟨line, rest', hText, hLine, hRest', hEnds⟩ := ih
        refine ⟨c :: line, rest', by simp [hText], ?_, hRest', hEnds⟩
        rintro c' (_ | ⟨_, hMem⟩)
        · exact hNewline
        · exact hLine c' hMem
  | @comment body rest hLine hRest ih =>
      refine ⟨';' :: body, '\n' :: rest, by simp, ?_, Filler.blank (by decide) hRest, ?_⟩
      · rintro c (_ | ⟨_, hMem⟩)
        · decide
        · exact hLine c hMem
      · intro c hMem
        exact (Option.some.inj hMem).symm

/-- Filler right behind a token changes neither it nor what follows. -/
theorem bare_scanFrom_token {filler : List Char} (h : Filler filler) {kind : TokenKind}
    {lexeme after : List Char} (hLexeme : Lexeme kind lexeme) (hEnds : kind.EndsAt after)
    (start start' : Nat) :
    (scanFrom start (lexeme ++ (filler ++ after))).bare =
      (scanFrom start' (lexeme ++ after)).bare := by
  by_cases hKind : kind = .comment
  · obtain ⟨body, rfl, hBody⟩ := hLexeme.comment_line hKind
    rw [hKind] at hEnds
    obtain ⟨line, rest, hText, hLine, hRest, hRestEnds⟩ := h.exists_line hEnds
    have hLonger : Lexeme .comment (';' :: (body ++ line)) := by
      apply Lexeme.comment
      intro c hMem
      rcases List.mem_append.mp hMem with hMem | hMem
      · exact hBody c hMem
      · exact hLine c hMem
    have hSplit : (';' :: body) ++ (filler ++ after) = (';' :: (body ++ line)) ++ (rest ++ after) := by
      simp [hText]
    rw [hSplit, scanFrom_token hLonger hRestEnds, Scan.bare_comment rfl,
      scanFrom_token (Lexeme.comment hBody) hEnds, Scan.bare_comment rfl, hRest.bare_scanFrom]
  · rw [scanFrom_token hLexeme (h.endsAt hKind hEnds), scanFrom_token hLexeme hEnds,
      Scan.bare_cons hKind, Scan.bare_cons hKind, h.bare_scanFrom]
    rfl

end Filler

/-! ### Where filler may stand -/

/-- The byte of an opening quote whose string is never closed. -/
def UnclosedAt (source : List Char) (offset : Nat) : Prop :=
  ∃ front rest, source = front ++ '"' :: rest ∧ byteLength front = offset ∧
    (scan front).unterminated = false ∧ scan source = ⟨(scan front).tokens, true⟩

/-- Whether a place lies strictly inside no token. -/
def Outside (offset : Nat) (tokens : List Token) : Prop :=
  ∀ token ∈ tokens, ¬(token.span.start < offset ∧ offset < token.span.stop)

theorem byteLength_eq_zero {text : List Char} : byteLength text = 0 ↔ text = [] := by
  cases text with
  | nil => simp
  | cons c text =>
      have hSize := c.utf8Size_pos
      simp
      omega

/-- A place outside of the first token is in front of it or behind it. -/
theorem eq_nil_or_behind {kind : TokenKind} {start : Nat} {lexeme rest before after : List Char}
    (hText : lexeme ++ rest = before ++ after)
    (hToken : ¬((Token.ofText kind start lexeme).span.start < start + byteLength before ∧
      start + byteLength before < (Token.ofText kind start lexeme).span.stop)) :
    before = [] ∨ ∃ inner, before = lexeme ++ inner ∧ rest = inner ++ after := by
  rcases List.append_eq_append_iff.mp hText with ⟨inner, hBefore, hRest⟩ | ⟨later, hLexeme, hAfter⟩
  · exact Or.inr ⟨inner, hBefore, hRest⟩
  · by_cases hLater : later = []
    · subst hLater
      exact Or.inr ⟨[], by simp [hLexeme], by simp [hAfter]⟩
    · left
      have hPositive : byteLength later ≠ 0 := fun hZero => hLater (byteLength_eq_zero.mp hZero)
      rw [← byteLength_eq_zero]
      simp only [Token.ofText, hLexeme, byteLength_append] at hToken
      omega

/-- The tokens stay what they are, whatever filler is inserted outside of them. -/
theorem Scans.bare_insert {start : Nat} {text before after : List Char} {scan : Scan}
    (h : Scans start text scan) (hText : text = before ++ after)
    (hOutside : Outside (start + byteLength before) scan.tokens)
    (hOpen : ∀ front rest, text = front ++ '"' :: rest → Scans start front ⟨scan.tokens, false⟩ →
      scan.unterminated = true → byteLength before ≤ byteLength front)
    {filler : List Char} (hFiller : Filler filler) (start' : Nat) :
    (scanFrom start' (before ++ (filler ++ after))).bare = scan.bare := by
  induction h generalizing before start' with
  | @done start =>
      obtain ⟨rfl, rfl⟩ := List.nil_eq_append_iff.mp hText
      exact hFiller.bare_of_scans start start' Scans.done
  | @unclosed start body hBody =>
      have hNone : byteLength before ≤ 0 := hOpen [] _ rfl Scans.done rfl
      obtain rfl : before = [] := byteLength_eq_zero.mp (by omega)
      subst hText
      exact hFiller.bare_of_scans start start' (Scans.unclosed hBody)
  | @blank start c rest scan hBlank hRest ih =>
      cases before with
      | nil =>
          subst hText
          exact hFiller.bare_of_scans start start' (Scans.blank hBlank hRest)
      | cons c' before =>
          cases hText
          rw [List.cons_append, scanFrom_blank hBlank]
          rw [byteLength_cons, ← Nat.add_assoc] at hOutside
          refine ih rfl hOutside (fun front rest hEq hScans hEnd => ?_) _
          have hLonger := hOpen (c :: front) rest (by rw [hEq]; rfl) (Scans.blank hBlank hScans) hEnd
          simpa using hLonger
  | @token start kind lexeme rest scan hLexeme hEnds hRest ih =>
      have hScans := Scans.token hLexeme hEnds hRest
      have hToken := hOutside (.ofText kind start lexeme) List.mem_cons_self
      rcases eq_nil_or_behind hText hToken with hFront | ⟨inner, hBefore, hInner⟩
      · subst hFront
        rw [hText] at hScans
        exact hFiller.bare_of_scans start start' hScans
      · subst hBefore hInner
        by_cases hEmpty : inner = []
        · subst hEmpty
          have hAfter := hFiller.bare_scanFrom_token hLexeme hEnds start' start
          rw [scanFrom_of_scans hScans] at hAfter
          rwa [List.append_nil]
        · have hEnds' : kind.EndsAt (inner ++ (filler ++ after)) :=
            hEnds.of_head? (by simp [List.head?_append, List.head?_eq_some_head hEmpty])
          have hLater : (scanFrom (start' + byteLength lexeme) (inner ++ (filler ++ after))).bare =
              scan.bare := by
            apply ih rfl
            · intro token hMem
              have hInside := hOutside token (List.mem_cons_of_mem _ hMem)
              rwa [byteLength_append, ← Nat.add_assoc] at hInside
            · intro front rest hEq hFront hEnd
              have hLonger := hOpen (lexeme ++ front) rest (by rw [hEq, List.append_assoc])
                (Scans.token hLexeme (hEq ▸ hEnds).left hFront) hEnd
              simpa using hLonger
          rw [List.append_assoc, scanFrom_token hLexeme hEnds']
          by_cases hKind : kind = .comment
          · rw [Scan.bare_comment hKind, Scan.bare_comment hKind, hLater]
          · rw [Scan.bare_cons hKind, Scan.bare_cons hKind, hLater]
            rfl

theorem scan_bare_insert {before filler after : List Char} (hFiller : Filler filler)
    (hOutside : Outside (byteLength before) (scan (before ++ after)).tokens)
    (hOpen : ∀ offset, UnclosedAt (before ++ after) offset → byteLength before ≤ offset) :
    (scan (before ++ filler ++ after)).bare = (scan (before ++ after)).bare := by
  rw [List.append_assoc]
  refine (scans_scanFrom 0 (before ++ after)).bare_insert rfl ?_ ?_ hFiller 0
  · rwa [Nat.zero_add]
  · intro front rest hText hFront hEnd
    have hScan : scan front = ⟨(scan (before ++ after)).tokens, false⟩ := scanFrom_of_scans hFront
    refine hOpen _ ⟨front, rest, hText, rfl, by rw [hScan], ?_⟩
    rw [hScan, ← hEnd]
    rfl

/-- Blanks and comments say nothing outside of tokens. Filler that is inserted strictly inside no
token, and not behind the opening quote of a string that is never closed, leaves the expressions and
the cause of a failure as they are. -/
theorem parse_filler (before filler after label : String) (hFiller : Filler filler.toList)
    (hOutside : Outside before.utf8ByteSize (scan (before ++ after).toList).tokens)
    (hOpen : ∀ offset, UnclosedAt (before ++ after).toList offset → before.utf8ByteSize ≤ offset) :
    (∀ program, parse (before ++ after) label = .ok program →
      ∃ program', parse (before ++ filler ++ after) label = .ok program' ∧
        Expr.bareAll program' = Expr.bareAll program) ∧
    ∀ error, parse (before ++ after) label = .error error →
      ∃ error', parse (before ++ filler ++ after) label = .error error' ∧
        error'.cause = error.cause := by
  rw [← byteLength_toList] at hOutside hOpen
  rw [String.toList_append] at hOutside hOpen
  have hSame := readProgram_bare (scan_bare_insert hFiller hOutside hOpen)
  rw [← String.toList_append, ← String.toList_append, ← String.toList_append] at hSame
  constructor
  · intro program hParse
    rw [parse_eq_ok_iff.mp hParse] at hSame
    cases hRead : readProgram (before ++ filler ++ after).toList with
    | ok program' =>
        rw [hRead] at hSame
        exact ⟨program', parse_eq_ok_iff.mpr hRead, Except.ok.inj hSame⟩
    | error misfit =>
        rw [hRead] at hSame
        cases hSame
  · intro error hParse
    obtain ⟨misfit, hMisfit, rfl⟩ := parse_eq_error_iff.mp hParse
    rw [hMisfit] at hSame
    cases hRead : readProgram (before ++ filler ++ after).toList with
    | ok program' =>
        rw [hRead] at hSame
        cases hSame
    | error misfit' =>
        rw [hRead] at hSame
        exact ⟨_, parse_eq_error_iff.mpr ⟨misfit', hRead, rfl⟩, Except.error.inj hSame⟩

/-- Filler at the end of a comment, and in front of a text with a string that is never closed. -/
theorem parse_filler_comment :
    (parse ("(a ;b" ++ "\n 1)") "t" =
        .ok [.list ⟨0, 9⟩ [.symbol ⟨1, 2⟩ "a", .int ⟨7, 8⟩ 1]] ∧
      ∃ program', parse ("(a ;b" ++ " ;c\n" ++ "\n 1)") "t" = .ok program' ∧
        Expr.bareAll program' = [.list default [.symbol default "a", .int default 1]]) ∧
    ∃ error', parse ("" ++ ";c\n" ++ "a \"b") "t" = .error error' ∧
      error'.cause = .unterminatedString := by
  have hNote : Filler [';', 'c', '\n'] := @Filler.comment ['c'] [] (by simp) Filler.nil
  have hRead : parse ("(a ;b" ++ "\n 1)") "t" =
      .ok [.list ⟨0, 9⟩ [.symbol ⟨1, 2⟩ "a", .int ⟨7, 8⟩ 1]] := by cbv
  have hTokens : scan ("(a ;b" ++ "\n 1)").toList = ⟨[⟨.listOpen, ⟨0, 1⟩, ['(']⟩,
      ⟨.symbol, ⟨1, 2⟩, ['a']⟩, ⟨.comment, ⟨3, 5⟩, [';', 'b']⟩, ⟨.number, ⟨7, 8⟩, ['1']⟩,
      ⟨.listClose, ⟨8, 9⟩, [')']⟩], false⟩ := by cbv
  refine ⟨⟨hRead, (parse_filler "(a ;b" " ;c\n" "\n 1)" "t" ?_ ?_ ?_).1 _ hRead⟩, ?_⟩
  · exact Filler.blank (by decide) hNote
  · rw [hTokens]
    unfold Outside
    decide
  · intro offset hUnclosed
    obtain ⟨front, rest, -, -, -, hScan⟩ := hUnclosed
    rw [hTokens] at hScan
    cases congrArg Scan.unterminated hScan
  · have hOpen : parse ("" ++ "a \"b") "t" =
        .error ⟨"t", ⟨4, 1, 5⟩, ⟨4, 4⟩, .unterminatedString⟩ := by cbv
    refine (parse_filler "" ";c\n" "a \"b" "t" hNote ?_ fun _ _ => Nat.zero_le _).2 _ hOpen
    intro token _ hInside
    exact absurd hInside.1 (Nat.not_lt_zero _)

end MessageLisp.Source
