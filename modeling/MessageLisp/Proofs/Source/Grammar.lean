import MessageLisp.Proofs.Source.Scanning
import MessageLisp.Source.Program

/-! The grammar of programs. Tokens derive expressions if parentheses match, every other token is an
atom, and comments are left out. The reader, which keeps a stack of open lists, accepts exactly the
derivable token sequences whose lists are not nested too deep, and builds what they derive. -/
namespace MessageLisp.Source

/-- The expressions that tokens stand for. -/
inductive Derives : List Token → List Expr → Prop where
  | nil : Derives [] []
  | comment {token : Token} {tokens : List Token} {exprs : List Expr}
      (hKind : token.kind = .comment) (hRest : Derives tokens exprs) :
      Derives (token :: tokens) exprs
  | atom {token : Token} {tokens : List Token} {expr : Expr} {exprs : List Expr}
      (hAtom : token.atom? = .ok (some expr)) (hRest : Derives tokens exprs) :
      Derives (token :: tokens) (expr :: exprs)
  | list {opener closer : Token} {inner tokens : List Token} {items exprs : List Expr}
      (hOpener : opener.kind = .listOpen) (hCloser : closer.kind = .listClose)
      (hInner : Derives inner items) (hRest : Derives tokens exprs) :
      Derives (opener :: (inner ++ closer :: tokens))
        (.list ⟨opener.span.start, closer.span.stop⟩ items :: exprs)

theorem Derives.append {tokens tokens' : List Token} {exprs exprs' : List Expr}
    (h : Derives tokens exprs) (h' : Derives tokens' exprs') :
    Derives (tokens ++ tokens') (exprs ++ exprs') := by
  induction h with
  | nil => exact h'
  | comment hKind _ ih => exact Derives.comment hKind ih
  | atom hAtom _ ih => exact Derives.atom hAtom ih
  | @list opener closer inner tokens items exprs hOpener hCloser hInner _ _ ih =>
      have hList := Derives.list hOpener hCloser hInner ih
      simpa using hList

namespace Expr

mutual

/-- How deep lists are nested in an expression. -/
def nesting : Expr → Nat
  | list _ items => nestingAll items + 1
  | _ => 0

@[inherit_doc nesting]
def nestingAll : List Expr → Nat
  | [] => 0
  | expr :: exprs => max (nesting expr) (nestingAll exprs)

end

@[simp] theorem nestingAll_append (exprs exprs' : List Expr) :
    nestingAll (exprs ++ exprs') = max (nestingAll exprs) (nestingAll exprs') := by
  induction exprs with
  | nil => simp [nestingAll]
  | cons expr exprs ih => simp [nestingAll, ih, Nat.max_assoc]

@[simp] theorem nestingAll_reverse (exprs : List Expr) :
    nestingAll exprs.reverse = nestingAll exprs := by
  induction exprs with
  | nil => rfl
  | cons expr exprs ih => simp [nestingAll, ih, Nat.max_comm]

end Expr

theorem map_eq_ok_iff {ε α β : Type} {f : α → β} {x : Except ε α} {b : β} :
    x.map f = .ok b ↔ ∃ a, x = .ok a ∧ f a = b := by
  cases x <;> simp [Except.map]

theorem map_eq_error_iff {ε α β : Type} {f : α → β} {x : Except ε α} {error : ε} :
    x.map f = .error error ↔ x = .error error := by
  cases x <;> simp [Except.map]

/-! ### Derivable tokens are accepted -/

namespace Reading

@[simp] theorem length_pending_push (reading : Reading) (expr : Expr) :
    (reading.push expr).pending.length = reading.pending.length := by
  unfold push
  split
  · rfl
  · rename_i hPending
    simp [hPending]

/-- Adds several expressions, oldest first. -/
def pushAll (reading : Reading) (exprs : List Expr) : Reading :=
  exprs.foldl push reading

theorem pushAll_top (finished exprs : List Expr) :
    pushAll ⟨[], finished⟩ exprs = ⟨[], exprs.reverse ++ finished⟩ := by
  induction exprs generalizing finished with
  | nil => rfl
  | cons expr exprs ih =>
      change pushAll ⟨[], expr :: finished⟩ exprs = _
      rw [ih]
      simp

theorem pushAll_inner (start : Nat) (items : List Expr) (outer : List OpenList)
    (finished exprs : List Expr) :
    pushAll ⟨⟨start, items⟩ :: outer, finished⟩ exprs =
      ⟨⟨start, exprs.reverse ++ items⟩ :: outer, finished⟩ := by
  induction exprs generalizing items with
  | nil => rfl
  | cons expr exprs ih =>
      change pushAll ⟨⟨start, expr :: items⟩ :: outer, finished⟩ exprs = _
      rw [ih]
      simp

theorem step_comment {token : Token} (hKind : token.kind = .comment) (reading : Reading) :
    reading.step token = .ok reading := by
  simp [step, hKind, Token.atom?, Except.map]

theorem step_atom {token : Token} {expr : Expr} (hAtom : token.atom? = .ok (some expr))
    (reading : Reading) : reading.step token = .ok (reading.push expr) := by
  have hParens : token.kind ≠ .listOpen ∧ token.kind ≠ .listClose := by
    constructor
    · intro hKind
      simp [Token.atom?, hKind] at hAtom
    · intro hKind
      simp [Token.atom?, hKind] at hAtom
  unfold step
  split
  · exact absurd ‹_› hParens.1
  · exact absurd ‹_› hParens.2
  · rw [hAtom]
    rfl

theorem step_open {token : Token} (hKind : token.kind = .listOpen) {reading : Reading}
    (hRoom : reading.pending.length < maxNesting) :
    reading.step token =
      .ok { reading with pending := ⟨token.span.start, []⟩ :: reading.pending } := by
  simp [step, hKind, hRoom]

theorem step_close {token : Token} (hKind : token.kind = .listClose) (inner : OpenList)
    (outer : List OpenList) (finished : List Expr) :
    step ⟨inner :: outer, finished⟩ token =
      .ok (push ⟨outer, finished⟩ (.list ⟨inner.start, token.span.stop⟩ inner.items.reverse)) := by
  simp [step, hKind]

theorem step_full {token : Token} (hKind : token.kind = .listOpen) {reading : Reading}
    (hFull : maxNesting ≤ reading.pending.length) :
    reading.step token = .error ⟨.nestingTooDeep maxNesting, token.span⟩ := by
  simp [step, hKind, hFull]

theorem step_unmatched {token : Token} (hKind : token.kind = .listClose) (finished : List Expr) :
    step ⟨[], finished⟩ token = .error ⟨.unexpectedClose, token.span⟩ := by
  simp [step, hKind]

theorem step_other {token : Token} (hOpen : token.kind ≠ .listOpen) (hClose : token.kind ≠ .listClose)
    (reading : Reading) : reading.step token = token.atom?.map (·.elim reading reading.push) := by
  unfold step
  split
  · exact absurd ‹_› hOpen
  · exact absurd ‹_› hClose
  · congr 1
    funext expr?
    cases expr? <;> rfl

/-- What tokens derive is added to the innermost open list. -/
theorem foldlM_step_of_derives {tokens : List Token} {exprs : List Expr}
    (h : Derives tokens exprs) (reading : Reading)
    (hRoom : reading.pending.length + Expr.nestingAll exprs ≤ maxNesting) :
    tokens.foldlM step reading = .ok (reading.pushAll exprs) := by
  induction h generalizing reading with
  | nil => rfl
  | comment hKind _ ih =>
      rw [List.foldlM_cons, step_comment hKind]
      exact ih reading hRoom
  | atom hAtom _ ih =>
      rw [List.foldlM_cons, step_atom hAtom]
      refine ih _ ?_
      rw [Expr.nestingAll] at hRoom
      rw [length_pending_push]
      omega
  | @list opener closer inner tokens items exprs hOpener hCloser _ _ ihInner ih =>
      obtain ⟨pending, finished⟩ := reading
      have hOuter : pending.length + max (Expr.nestingAll items + 1) (Expr.nestingAll exprs) ≤
          maxNesting := hRoom
      have hInner : (⟨opener.span.start, []⟩ :: pending : List OpenList).length +
          Expr.nestingAll items ≤ maxNesting := by
        simp only [List.length_cons]
        omega
      have hOpen : pending.length < maxNesting := by omega
      have hAfter : pending.length + Expr.nestingAll exprs ≤ maxNesting := by omega
      rw [List.foldlM_cons, step_open hOpener hOpen]
      change (inner ++ closer :: tokens).foldlM step _ = _
      rw [List.foldlM_append, ihInner _ hInner, pushAll_inner]
      change (closer :: tokens).foldlM step _ = _
      rw [List.foldlM_cons, step_close hCloser, List.append_nil, List.reverse_reverse]
      exact ih _ (by rwa [length_pending_push])

end Reading

/-! ### Accepted tokens are derivable -/

/-- What the tokens read so far have to do with the state of reading: they derive the finished
expressions, and behind them stand the open lists, outermost first, each with its opening
parenthesis and tokens that derive its items. No item is nested too deep for its place. -/
inductive Reads (finished : List Expr) : List Token → List OpenList → Prop where
  | top {tokens : List Token} (hDerives : Derives tokens finished.reverse)
      (hNesting : Expr.nestingAll finished ≤ maxNesting) : Reads finished tokens []
  | inner {before tokens : List Token} {opener : Token} {items : List Expr} {outer : List OpenList}
      (hOuter : Reads finished before outer) (hOpener : opener.kind = .listOpen)
      (hDerives : Derives tokens items.reverse)
      (hNesting : outer.length + 1 + Expr.nestingAll items ≤ maxNesting) :
      Reads finished (before ++ opener :: tokens) (⟨opener.span.start, items⟩ :: outer)

/-- Tokens that derive expressions of their own extend what has been read. -/
theorem Reads.push {reading : Reading} {tokens tokens' : List Token} {expr : Expr}
    (h : Reads reading.finished tokens reading.pending) (hDerives : Derives tokens' [expr])
    (hNesting : reading.pending.length + expr.nesting ≤ maxNesting) :
    Reads (reading.push expr).finished (tokens ++ tokens') (reading.push expr).pending := by
  obtain ⟨pending, finished⟩ := reading
  cases h with
  | top hTop hDepth =>
      have hFirst : expr.nesting ≤ maxNesting := by simpa using hNesting
      change Reads (expr :: finished) _ []
      refine Reads.top ?_ (Nat.max_le.mpr ⟨hFirst, hDepth⟩)
      simpa using hTop.append hDerives
  | @inner before tokens opener items outer hOuter hOpener hItems hDepth =>
      have hFirst : outer.length + 1 + expr.nesting ≤ maxNesting := hNesting
      change Reads finished _ (⟨opener.span.start, expr :: items⟩ :: outer)
      rw [List.append_assoc, List.cons_append]
      refine Reads.inner hOuter hOpener ?_ ?_
      · simpa using hItems.append hDerives
      · rw [Expr.nestingAll]
        omega

/-- The expression that an atom stands for, case by case. -/
inductive Token.Denotes (token : Token) : Expr → Prop where
  | nil (hKind : token.kind = .symbol) (hText : token.text = "nil".toList) :
      Denotes token (.nil token.span)
  | symbol (hKind : token.kind = .symbol) (hText : token.text ≠ "nil".toList) :
      Denotes token (.symbol token.span (String.ofList token.text))
  | string {text : List Char} (hKind : token.kind = .string)
      (hText : unescape (token.span.start + 1) token.body = .ok text) :
      Denotes token (.string token.span (String.ofList text))
  | int {value : Int64} (hKind : token.kind = .number)
      (hDigits : Number.isDigits (Number.splitSign token.text).2 = true)
      (hValue : Number.readInteger token.text = some value) :
      Denotes token (.int token.span value)
  | float {value : Float} (hKind : token.kind = .number)
      (hDigits : Number.isDigits (Number.splitSign token.text).2 = false)
      (hValue : Number.readFloat token.text = some value)
      (hFinite : Number.isFinite value = true) :
      Denotes token (.float token.span value)

theorem Token.denotes_of_atom {token : Token} {expr : Expr}
    (hAtom : token.atom? = .ok (some expr)) : token.Denotes expr := by
  unfold Token.atom? at hAtom
  split at hAtom
  · rename_i hKind
    split at hAtom
    · cases hAtom
      exact Denotes.nil hKind ‹_›
    · cases hAtom
      exact Denotes.symbol hKind ‹_›
  · rename_i hKind
    cases hText : unescape (token.span.start + 1) token.body with
    | error misfit =>
        rw [hText] at hAtom
        cases hAtom
    | ok text =>
        rw [hText] at hAtom
        cases hAtom
        exact Denotes.string hKind hText
  · rename_i hKind
    split at hAtom
    · rename_i number hNumber
      cases hAtom
      unfold numberExpr? at hNumber
      split at hNumber
      · rename_i hDigits
        obtain ⟨value, hValue, rfl⟩ := Option.map_eq_some_iff.mp hNumber
        exact Denotes.int hKind hDigits hValue
      · rename_i hDigits
        obtain ⟨value, hFloat, rfl⟩ := Option.map_eq_some_iff.mp hNumber
        obtain ⟨hValue, hFinite⟩ := Option.filter_eq_some_iff.mp hFloat
        exact Denotes.float hKind (by simpa using hDigits) hValue hFinite
    · cases hAtom
  · cases hAtom

theorem Token.Denotes.atom {token : Token} {expr : Expr} (h : token.Denotes expr) :
    token.atom? = .ok (some expr) := by
  cases h with
  | nil hKind hText => simp [Token.atom?, hKind, hText]
  | symbol hKind hText => simpa [Token.atom?, hKind] using hText
  | string hKind hText => simp [Token.atom?, hKind, hText, Except.map]
  | int hKind hDigits hValue => simp [Token.atom?, hKind, numberExpr?, hDigits, hValue]
  | float hKind hDigits hValue hFinite =>
      simp [Token.atom?, hKind, numberExpr?, hDigits, hValue, Option.filter, hFinite]

/-- An atom stands for an expression that is no list. -/
theorem nesting_of_atom {token : Token} {expr : Expr} (hAtom : token.atom? = .ok (some expr)) :
    expr.nesting = 0 := by
  cases Token.denotes_of_atom hAtom <;> rfl

theorem kind_of_no_atom {token : Token} (hAtom : token.atom? = .ok none)
    (hOpen : token.kind ≠ .listOpen) (hClose : token.kind ≠ .listClose) :
    token.kind = .comment := by
  unfold Token.atom? at hAtom
  split at hAtom
  · cases hAtom
  · cases hText : unescape (token.span.start + 1) token.body with
    | error misfit =>
        rw [hText] at hAtom
        cases hAtom
    | ok text =>
        rw [hText] at hAtom
        cases hAtom
  · split at hAtom <;> cases hAtom
  · rename_i hSymbol hString hNumber
    cases hKind : token.kind with
    | comment => rfl
    | listOpen => exact absurd hKind hOpen
    | listClose => exact absurd hKind hClose
    | symbol => exact absurd hKind hSymbol
    | string => exact absurd hKind hString
    | number => exact absurd hKind hNumber

theorem Reads.length_le {finished : List Expr} {tokens : List Token} {pending : List OpenList}
    (h : Reads finished tokens pending) : pending.length ≤ maxNesting := by
  cases h with
  | top _ _ => simp
  | inner _ _ _ hNesting =>
      simp only [List.length_cons]
      omega

theorem Reads.skip {finished : List Expr} {tokens : List Token} {pending : List OpenList}
    {token : Token} (h : Reads finished tokens pending) (hKind : token.kind = .comment) :
    Reads finished (tokens ++ [token]) pending := by
  have hComment : Derives [token] [] := Derives.comment hKind Derives.nil
  cases h with
  | top hTop hDepth => exact Reads.top (by simpa using hTop.append hComment) hDepth
  | inner hOuter hOpener hItems hDepth =>
      rw [List.append_assoc, List.cons_append]
      exact Reads.inner hOuter hOpener (by simpa using hItems.append hComment) hDepth

/-- Taking in one more token. -/
theorem Reads.step {reading reading' : Reading} {tokens : List Token} {token : Token}
    (h : Reads reading.finished tokens reading.pending) (hStep : reading.step token = .ok reading') :
    Reads reading'.finished (tokens ++ [token]) reading'.pending := by
  unfold Reading.step at hStep
  split at hStep
  · rename_i hKind
    split at hStep
    · cases hStep
    · rename_i hRoom
      cases hStep
      exact Reads.inner h hKind Derives.nil (by simp [Expr.nestingAll]; omega)
  · rename_i hKind
    obtain ⟨pending, finished⟩ := reading
    cases h with
    | top _ _ => cases hStep
    | @inner before tokens opener items outer hOuter hOpener hItems hDepth =>
        cases hStep
        have hList := Derives.list hOpener hKind hItems Derives.nil
        rw [List.append_assoc, List.cons_append]
        refine Reads.push hOuter hList ?_
        rw [Expr.nesting, Expr.nestingAll_reverse]
        change outer.length + (Expr.nestingAll items + 1) ≤ maxNesting
        omega
  · rename_i hOpen hClose
    cases hAtom : token.atom? with
    | error misfit =>
        rw [hAtom] at hStep
        cases hStep
    | ok expr? =>
        rw [hAtom] at hStep
        cases expr? with
        | some expr =>
            cases hStep
            refine h.push (Derives.atom hAtom Derives.nil) ?_
            rw [nesting_of_atom hAtom]
            exact h.length_le
        | none =>
            cases hStep
            exact h.skip (kind_of_no_atom hAtom hOpen hClose)

theorem Reads.foldlM_step {reading reading' : Reading} {before tokens : List Token}
    (h : Reads reading.finished before reading.pending)
    (hFold : tokens.foldlM Reading.step reading = .ok reading') :
    Reads reading'.finished (before ++ tokens) reading'.pending := by
  induction tokens generalizing reading before with
  | nil =>
      cases hFold
      simpa using h
  | cons token tokens ih =>
      rw [List.foldlM_cons] at hFold
      cases hStep : reading.step token with
      | error misfit =>
          rw [hStep] at hFold
          cases hFold
      | ok next =>
          rw [hStep] at hFold
          simpa using ih (h.step hStep) hFold

/-! ### Misfits -/

theorem unescape_eq_error {start : Nat} {text : List Char} {misfit : Misfit}
    (h : unescape start text = .error misfit) : ∃ c, misfit.cause = .invalidEscape c := by
  fun_induction unescape start text with
  | case1 start => cases h
  | case2 start c rest plain hLetter ih => exact ih (map_eq_error_iff.mp h)
  | case3 start c rest hLetter =>
      cases h
      exact ⟨c, rfl⟩
  | case4 start c rest hPlain ih => exact ih (map_eq_error_iff.mp h)

theorem Token.atom?_eq_error {token : Token} {misfit : Misfit} (h : token.atom? = .error misfit) :
    (∃ c, misfit.cause = .invalidEscape c) ∨
      misfit = ⟨.invalidNumber (String.ofList token.text), token.span⟩ := by
  unfold Token.atom? at h
  split at h
  · cases h
  · exact Or.inl (unescape_eq_error (map_eq_error_iff.mp h))
  · split at h
    · cases h
    · cases h
      exact Or.inr rfl
  · cases h

/-- Why a token does not fit: there is no room for a list, no list to be closed, or the token is a
word or string that stands for nothing. -/
theorem Reading.step_eq_error {reading : Reading} {token : Token} {misfit : Misfit}
    (h : reading.step token = .error misfit) :
    (maxNesting ≤ reading.pending.length ∧ misfit = ⟨.nestingTooDeep maxNesting, token.span⟩) ∨
      (reading.pending = [] ∧ misfit = ⟨.unexpectedClose, token.span⟩) ∨
      token.atom? = .error misfit := by
  obtain ⟨pending, finished⟩ := reading
  by_cases hOpen : token.kind = .listOpen
  · rcases Nat.lt_or_ge pending.length maxNesting with hRoom | hFull
    · rw [step_open hOpen hRoom] at h
      cases h
    · rw [step_full hOpen hFull] at h
      cases h
      exact Or.inl ⟨hFull, rfl⟩
  by_cases hClose : token.kind = .listClose
  · cases pending with
    | nil =>
        rw [step_unmatched hClose] at h
        cases h
        exact Or.inr (Or.inl ⟨rfl, rfl⟩)
    | cons inner outer =>
        rw [step_close hClose] at h
        cases h
  · rw [step_other hOpen hClose] at h
    exact Or.inr (Or.inr (map_eq_error_iff.mp h))

/-- Reading fails at the first token that does not fit. -/
theorem Reading.foldlM_step_eq_error {reading : Reading} {tokens : List Token} {misfit : Misfit}
    (h : tokens.foldlM step reading = .error misfit) :
    ∃ before token after reading', tokens = before ++ token :: after ∧
      before.foldlM step reading = .ok reading' ∧ reading'.step token = .error misfit := by
  induction tokens generalizing reading with
  | nil => cases h
  | cons token tokens ih =>
      rw [List.foldlM_cons] at h
      cases hStep : reading.step token with
      | error misfit' =>
          rw [hStep] at h
          cases h
          exact ⟨[], token, tokens, reading, rfl, rfl, hStep⟩
      | ok next =>
          rw [hStep] at h
          obtain ⟨before, misfitting, after, last, rfl, hBefore, hMisfit⟩ := ih h
          refine ⟨token :: before, misfitting, after, last, rfl, ?_, hMisfit⟩
          rw [List.foldlM_cons, hStep]
          exact hBefore

/-! ### Programs -/

theorem Reading.finish_eq_ok_iff {reading : Reading} {unterminated : Bool} {stop : Nat}
    {program : List Expr} :
    reading.finish unterminated stop = .ok program ↔
      unterminated = false ∧ reading = ⟨[], program.reverse⟩ := by
  obtain ⟨pending, finished⟩ := reading
  cases unterminated <;> cases pending <;> simp [finish, List.reverse_eq_iff]

theorem readProgram_of_ok {source : List Char} {reading : Reading}
    (hFold : (scan source).tokens.foldlM Reading.step Reading.empty = .ok reading) :
    readProgram source = reading.finish (scan source).unterminated (byteLength source) := by
  simp only [readProgram, hFold]
  rfl

theorem readProgram_of_error {source : List Char} {misfit : Misfit}
    (hFold : (scan source).tokens.foldlM Reading.step Reading.empty = .error misfit) :
    readProgram source = .error misfit := by
  simp only [readProgram, hFold]
  rfl

/-- A text is a program exactly if no string is left open and the tokens leave no list open. -/
theorem readProgram_eq_ok_iff_foldlM {source : List Char} {program : List Expr} :
    readProgram source = .ok program ↔
      (scan source).unterminated = false ∧
        (scan source).tokens.foldlM Reading.step Reading.empty = .ok ⟨[], program.reverse⟩ := by
  cases hFold : (scan source).tokens.foldlM Reading.step Reading.empty with
  | error misfit => simp [readProgram_of_error hFold]
  | ok reading => simp [readProgram_of_ok hFold, Reading.finish_eq_ok_iff]

theorem Reads.derives {finished : List Expr} {tokens : List Token} (h : Reads finished tokens []) :
    Derives tokens finished.reverse ∧ Expr.nestingAll finished ≤ maxNesting := by
  cases h with
  | top hDerives hNesting => exact ⟨hDerives, hNesting⟩

theorem Reads.empty : Reads Reading.empty.finished [] Reading.empty.pending :=
  Reads.top Derives.nil (Nat.zero_le _)

/-- A text is a program exactly if its tokens derive one that is not nested too deep. -/
theorem readProgram_eq_ok_iff {source : List Char} {program : List Expr} :
    readProgram source = .ok program ↔
      ∃ tokens, Scans 0 source ⟨tokens, false⟩ ∧ Derives tokens program ∧
        Expr.nestingAll program ≤ maxNesting := by
  rw [readProgram_eq_ok_iff_foldlM]
  constructor
  · rintro ⟨hClosed, hFold⟩
    have hScans : Scans 0 source (scan source) := scans_scanFrom 0 source
    obtain ⟨hDerives, hNesting⟩ := (Reads.empty.foldlM_step hFold).derives
    rw [List.reverse_reverse] at hDerives
    rw [Expr.nestingAll_reverse] at hNesting
    exact ⟨(scan source).tokens, hClosed ▸ hScans, hDerives, hNesting⟩
  · rintro ⟨tokens, hScans, hDerives, hNesting⟩
    have hScan : scan source = ⟨tokens, false⟩ := scanFrom_of_scans hScans
    have hFold := Reading.foldlM_step_of_derives hDerives Reading.empty
      (by simpa [Reading.empty] using hNesting)
    rw [hScan]
    refine ⟨rfl, hFold.trans ?_⟩
    rw [Reading.empty, Reading.pushAll_top, List.append_nil]

end MessageLisp.Source
