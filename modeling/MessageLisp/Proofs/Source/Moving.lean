import MessageLisp.Proofs.Source.Printing

/-! Moved texts. A text that stands further back, behind others, is read as it is by itself, with
every place moved: reading commutes with moving, one token after the other. This holds of failures
as well as of expressions. -/
namespace MessageLisp.Source

namespace Expr

mutual

/-- The same expression in a text that has `bytes` more in front. -/
def shift (bytes : Nat) : Expr → Expr
  | nil span => nil (span.shift bytes)
  | int span value => int (span.shift bytes) value
  | float span value => float (span.shift bytes) value
  | string span text => string (span.shift bytes) text
  | symbol span name => symbol (span.shift bytes) name
  | list span items => list (span.shift bytes) (shiftAll bytes items)

@[inherit_doc shift]
def shiftAll (bytes : Nat) : List Expr → List Expr
  | [] => []
  | expr :: exprs => shift bytes expr :: shiftAll bytes exprs

end

theorem shiftAll_eq_map (bytes : Nat) (exprs : List Expr) :
    shiftAll bytes exprs = exprs.map (shift bytes) := by
  induction exprs with
  | nil => rfl
  | cons expr exprs ih => simp [shiftAll, ih]

mutual

@[simp] theorem bare_shift (bytes : Nat) (expr : Expr) : (expr.shift bytes).bare = expr.bare := by
  match expr with
  | .nil _ | .int _ _ | .float _ _ | .string _ _ | .symbol _ _ => rfl
  | .list _ items => rw [shift, bare, bare, bareAll_shiftAll bytes items]

@[simp] theorem bareAll_shiftAll (bytes : Nat) (exprs : List Expr) :
    bareAll (shiftAll bytes exprs) = bareAll exprs := by
  match exprs with
  | [] => rfl
  | expr :: exprs =>
      rw [shiftAll, bareAll, bareAll, bare_shift bytes expr, bareAll_shiftAll bytes exprs]

end

end Expr

/-! ### Outcomes -/

/-- The same misfit in a text that has `bytes` more in front. -/
def Misfit.shift (misfit : Misfit) (bytes : Nat) : Misfit :=
  { misfit with span := misfit.span.shift bytes }

/-- An outcome in a text that has `bytes` more in front; `f` says what becomes of the value. -/
def moved {α β : Type} (bytes : Nat) (f : α → β) : Except Misfit α → Except Misfit β
  | .ok value => .ok (f value)
  | .error misfit => .error (misfit.shift bytes)

@[simp] theorem moved_ok {α β : Type} (bytes : Nat) (f : α → β) (value : α) :
    moved bytes f (.ok value) = .ok (f value) :=
  rfl

@[simp] theorem moved_error {α β : Type} (bytes : Nat) (f : α → β) (misfit : Misfit) :
    moved bytes f (.error misfit) = .error (misfit.shift bytes) :=
  rfl

theorem moved_eq_ok_iff {α β : Type} {bytes : Nat} {f : α → β} {outcome : Except Misfit α} {b : β} :
    moved bytes f outcome = .ok b ↔ ∃ a, outcome = .ok a ∧ f a = b := by
  cases outcome <;> simp

/-! ### Tokens -/

theorem unescape_add (start bytes : Nat) (text : List Char) :
    unescape (start + bytes) text = moved bytes id (unescape start text) := by
  fun_induction unescape start text with
  | case1 start => rfl
  | case2 start c rest plain hLetter ih =>
      rw [unescape_escape hLetter,
        show start + bytes + 1 + c.utf8Size = start + 1 + c.utf8Size + bytes by omega, ih]
      cases unescape (start + 1 + c.utf8Size) rest <;> rfl
  | case3 start c rest hLetter =>
      rw [unescape_invalid hLetter,
        show start + bytes + 1 + c.utf8Size = start + 1 + c.utf8Size + bytes by omega]
      rfl
  | case4 start c rest hPlain ih =>
      rw [unescape, Nat.add_right_comm, ih]
      · cases unescape (start + c.utf8Size) rest <;> rfl
      · exact hPlain

theorem numberExpr?_shift (span : Span) (bytes : Nat) (word : List Char) :
    numberExpr? (span.shift bytes) word = (numberExpr? span word).map (Expr.shift bytes) := by
  unfold numberExpr?
  split <;> rw [Option.map_map] <;> rfl

theorem Token.atom?_shift (token : Token) (bytes : Nat) :
    (token.shift bytes).atom? = moved bytes (Option.map (Expr.shift bytes)) token.atom? := by
  obtain ⟨kind, span, text⟩ := token
  cases kind with
  | symbol =>
      change _ = Except.ok (some (Expr.shift bytes (if text = "nil".toList then .nil span
        else .symbol span (String.ofList text))))
      rw [apply_ite (Expr.shift bytes)]
      rfl
  | string =>
      have hBody : unescape (span.start + bytes + 1) (Token.body ⟨.string, span, text⟩) =
          moved bytes id (unescape (span.start + 1) (Token.body ⟨.string, span, text⟩)) := by
        rw [Nat.add_right_comm, unescape_add]
      change (unescape (span.start + bytes + 1) (Token.body ⟨.string, span, text⟩)).map _ = _
      rw [hBody, Token.atom?]
      cases unescape (span.start + 1) (Token.body ⟨.string, span, text⟩) <;> rfl
  | number =>
      simp only [Token.atom?, Token.shift, numberExpr?_shift]
      cases numberExpr? span text <;> rfl
  | _ => rfl

/-! ### The reader -/

/-- The same open list in a text that has `bytes` more in front. -/
def OpenList.shift (list : OpenList) (bytes : Nat) : OpenList :=
  ⟨list.start + bytes, list.items.map (Expr.shift bytes)⟩

namespace Reading

/-- The state of reading a text that stands `bytes` further back, behind expressions that were
finished before. -/
def after (reading : Reading) (bytes : Nat) (earlier : List Expr) : Reading :=
  ⟨reading.pending.map (·.shift bytes), reading.finished.map (Expr.shift bytes) ++ earlier⟩

theorem push_after (reading : Reading) (bytes : Nat) (earlier : List Expr) (expr : Expr) :
    (reading.after bytes earlier).push (expr.shift bytes) =
      (reading.push expr).after bytes earlier := by
  obtain ⟨pending, finished⟩ := reading
  cases pending <;> rfl

theorem step_after (reading : Reading) (bytes : Nat) (earlier : List Expr) (token : Token) :
    (reading.after bytes earlier).step (token.shift bytes) =
      moved bytes (·.after bytes earlier) (reading.step token) := by
  obtain ⟨pending, finished⟩ := reading
  have hKind := token.kind_shift bytes
  have hLength : (after ⟨pending, finished⟩ bytes earlier).pending.length = pending.length :=
    List.length_map ..
  by_cases hOpen : token.kind = .listOpen
  · rcases Nat.lt_or_ge pending.length maxNesting with hRoom | hFull
    · rw [step_open hOpen hRoom, step_open (hKind.trans hOpen) (hLength ▸ hRoom)]
      rfl
    · rw [step_full hOpen hFull, step_full (hKind.trans hOpen) (hLength ▸ hFull)]
      rfl
  by_cases hClose : token.kind = .listClose
  · cases pending with
    | nil =>
        rw [step_unmatched hClose]
        exact step_unmatched (hKind.trans hClose) _
    | cons inner outer =>
        rw [step_close hClose, moved_ok, ← push_after]
        refine (step_close (hKind.trans hClose) _ _ _).trans ?_
        rw [Expr.shift, Expr.shiftAll_eq_map, List.map_reverse]
        rfl
  · rw [step_other hOpen hClose, step_other (hKind ▸ hOpen) (hKind ▸ hClose), token.atom?_shift]
    cases token.atom? with
    | error misfit => rfl
    | ok expr? =>
        cases expr? with
        | none => rfl
        | some expr => exact congrArg Except.ok (push_after _ _ _ _)

theorem foldlM_step_after (reading : Reading) (bytes : Nat) (earlier : List Expr)
    (tokens : List Token) :
    (tokens.map (·.shift bytes)).foldlM step (reading.after bytes earlier) =
      moved bytes (·.after bytes earlier) (tokens.foldlM step reading) := by
  induction tokens generalizing reading with
  | nil => rfl
  | cons token tokens ih =>
      rw [List.map_cons, List.foldlM_cons, List.foldlM_cons, step_after]
      cases reading.step token with
      | error misfit => rfl
      | ok next => exact ih next

theorem finish_after (reading : Reading) (bytes : Nat) (earlier : List Expr) (unterminated : Bool)
    (stop : Nat) :
    (reading.after bytes earlier).finish unterminated (stop + bytes) =
      moved bytes (fun exprs => earlier.reverse ++ exprs.map (Expr.shift bytes))
        (reading.finish unterminated stop) := by
  obtain ⟨pending, finished⟩ := reading
  cases unterminated with
  | true => rfl
  | false =>
      cases pending with
      | nil => simp [finish, after]
      | cons inner outer => rfl

end Reading

end MessageLisp.Source
