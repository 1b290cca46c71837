import Mathlib
import MessageLisp.Proofs.Semantics.Ownership
import MessageLisp.Proofs.Semantics.Receiver

/-! Evaluators that halt on the way. A run can be followed up to any evaluation that it comes to, and up to
there it is the plain run. If it is followed for as long as nothing in the body of a method gives a value to
`self` or `super`, then it takes a course that keeps the scope of the body. -/
namespace MessageLisp

open Source (Expr)

namespace Evaluator

/-- Evaluates like the plain evaluator, but gives up before an evaluation if told so, for want of the given
fuel. -/
def halting (halt? : Expr → ScopeId → Session → Option Fuel) : (fuel : Nat) → Evaluator
  | 0 => .uniform (fun _ _ => throw (.outOfFuel .nesting)) 0
  | fuel + 1 =>
    .uniform (fun expr scope => do
      match halt? expr scope (← get) with
      | some kind => throw (.outOfFuel kind)
      | none => (halting halt? fuel).evaluateExpr expr scope) fuel

variable {halt? halt?' : Expr → ScopeId → Session → Option Fuel}

theorem runIn_evaluate_halting (halt? : Expr → ScopeId → Session → Option Fuel) (fuel : Nat)
    (expr : Expr) (scope : ScopeId) (session : Session) :
    ((halting halt? (fuel + 1)).evaluate expr scope).runIn session =
      match halt? expr scope session with
      | some kind => (.error (.outOfFuel kind), session)
      | none => ((halting halt? fuel).evaluateExpr expr scope).runIn session := by
  show (get >>= _ : Eval Value).runIn session = _
  rw [Eval.runIn_get_bind]
  cases halt? expr scope session with
  | some kind => rfl
  | none => rfl

/-- Nothing but halting is in the way of the plain evaluator. -/
theorem halting_none (fuel : Nat) : halting (fun _ _ _ => none) fuel = ofFuel fuel := by
  induction fuel with
  | zero => rfl
  | succ fuel ih =>
      rw [halting, ofFuel, ih]
      rfl

/-- One evaluator follows another one if it halts in the same places, and for an excused reason in
others. -/
theorem halting_follows {excused : Fuel → Prop}
    (hHalt : ∀ expr scope session, halt? expr scope session = halt?' expr scope session ∨
      ∃ kind, excused kind ∧ halt? expr scope session = some kind) (fuel : Nat) :
    Evaluator.Follows .equality excused (halting halt? fuel) (halting halt?' fuel) := by
  induction fuel with
  | zero =>
      exact .ofAccess LevelLikeness.equality_fixed
        (.uniform (fun _ _ _ _ => id) fun _ _ _ _ _ _ => .throw _) (.inl rfl)
  | succ fuel ih =>
      refine .ofAccess LevelLikeness.equality_fixed (.uniform (fun _ _ _ _ => id) ?_) (.inl rfl)
      intro program program' expr expr' hCode scope
      have hSameExpr : expr = expr' := hCode
      subst hSameExpr
      apply Eval.Follows.read
      intro session session' hAlike _ _
      obtain rfl : session = session' := hAlike.eq Likeness.equality_strict
      rcases hHalt expr scope session with hSame | ⟨kind, hExcused, hKind⟩
      · rw [hSame]
        cases halt?' expr scope session with
        | some kind => exact .throw _
        | none => exact ih.evaluateExpr hCode scope
      · rw [hKind]
        exact fun _ _ _ _ _ => .inl ⟨kind, hExcused, rfl⟩

/-- What an evaluator that halts makes of an expression, the plain one makes of it, too. -/
theorem evaluate_of_halting {fuel : Nat} {expr : Expr} {scope : ScopeId} {session later : Session}
    {value : Value}
    (h : ((halting halt? fuel).evaluate expr scope).runIn session = (.ok value, later)) :
    ((ofFuel fuel).evaluate expr scope).runIn session = (.ok value, later) := by
  have hFollows : Evaluator.Follows .equality (fun _ => True) (halting halt? fuel) (ofFuel fuel) := by
    rw [← halting_none]
    apply halting_follows
    intro expr scope session
    cases hHalt : halt? expr scope session with
    | none => exact .inl rfl
    | some kind => exact .inr ⟨kind, trivial, rfl⟩
  have hCode : Likeness.equality.code session.source? session.source? expr expr := rfl
  rcases hFollows.evaluate hCode scope session session session.alike_equality rfl rfl with
    ⟨kind, -, hOut⟩ | hMatches
  · rw [h] at hOut
    cases hOut
  · rw [← hMatches.eq Likeness.equality_strict eq_of_alike, h]

theorem halting_orderly
    (hRegular : ∀ expr scope session, session.Sound → halt? expr scope session ≠ some .foreign)
    (fuel : Nat) : (halting halt? fuel).Orderly := by
  have hEnter : ∀ {source? : Option SourceText} {body : Eval Value} {session : Session},
      body.Proceeds Value.Lives (session.inside source?) →
        (Eval.enter source? body).Proceeds Value.Lives session := by
    intro source? body session hBody
    exact .enter hBody fun hGrows hValue => hValue.mono hGrows
  induction fuel with
  | zero =>
      have hThrow : Abides fun _ _ => throw (.outOfFuel .nesting) := by
        intro _ _ session _
        have hKind : (Interruption.outOfFuel .nesting).Regular := nofun
        exact .throw hKind
      exact .uniform hThrow hEnter 0
  | succ fuel ih =>
      refine .uniform ?_ hEnter fuel
      intro expr scope session hSound
      apply Eval.Proceeds.read
      cases hHalt : halt? expr scope session with
      | none => exact ih.evaluateExpr expr scope session hSound
      | some kind =>
          have hKind : (Interruption.outOfFuel kind).Regular := by
            rintro rfl
            exact hRegular expr scope session hSound hHalt
          exact .throw hKind

end Evaluator

/-- The expression is a list whose head stands for a form, and the form would give a value to `self` or
`super` inside the body. -/
def Session.Spoils (session : Session) (body : ScopeId) (expr : Expr) (scope : ScopeId) : Prop :=
  ¬session.Outside body scope ∧ ∃ span head parts, expr = .list span (head :: parts) ∧
    ∃ fuel builtin later,
      ((Evaluator.ofFuel fuel).evaluate head scope).runIn session =
          (.ok (.function (.builtin builtin)), later) ∧
        (selfName ∈ builtin.binds (parts.map .expr) ∨ superName ∈ builtin.binds (parts.map .expr))

/-- An evaluator that halts in unsound sessions, and where the body would be spoiled, keeps the scope of the
body. -/
theorem Evaluator.halting_goes {halt? : Expr → ScopeId → Session → Option Fuel} {body : ScopeId}
    (hRegular : ∀ expr scope session, session.Sound → halt? expr scope session ≠ some .foreign)
    (hHeeds : ∀ expr scope session, halt? expr scope session = none →
      session.Sound ∧ ¬session.Spoils body expr scope) (fuel : Nat) :
    (halting halt? fuel).Goes (some body) := by
  induction fuel with
  | zero => exact .uniform 0 (fun _ _ _ => .start) (fun _ _ _ _ _ _ hRun => nomatch hRun)
  | succ fuel ih =>
      refine .uniform fuel ?_ ?_
      · intro expr scope session
        apply Eval.Goes.read
        cases hHalt : halt? expr scope session with
        | some kind => exact .start
        | none =>
            obtain ⟨-, hPlain⟩ := hHeeds expr scope session hHalt
            apply ih.evaluateExpr
            rintro span head parts rfl builtin later hHead name hName
            have hMay : session.MayBind (some body) scope name := by
              rintro kept ⟨⟩
              by_cases hOutside : session.Outside body scope
              · exact .inl hOutside
              · have hNeither : ¬(selfName ∈ builtin.binds (parts.map .expr) ∨
                    superName ∈ builtin.binds (parts.map .expr)) := fun hBinds =>
                  hPlain ⟨hOutside, span, head, parts, rfl, fuel, builtin, later,
                    evaluate_of_halting hHead, hBinds⟩
                obtain ⟨hSelf, hSuper⟩ := not_or.mp hNeither
                exact .inr ⟨ne_of_mem_of_not_mem hName hSelf, ne_of_mem_of_not_mem hName hSuper⟩
            have hCourse : Course (some body) session _ := ih.evaluate head scope session
            rw [hHead] at hCourse
            exact hMay.continues hCourse.continues
      · intro _ expr scope session value later hRun
        have hEvaluate := runIn_evaluate_halting halt? fuel expr scope session
        change ((halting halt? (fuel + 1)).evaluate expr scope).runIn session = _ at hRun
        cases hHalt : halt? expr scope session with
        | some kind =>
            rw [hHalt, hRun] at hEvaluate
            cases hEvaluate
        | none =>
            obtain ⟨hSound, -⟩ := hHeeds expr scope session hHalt
            have hOrderly := (halting_orderly hRegular (fuel + 1)).evaluate expr scope session hSound
            have hEvolves := hOrderly.evolves
            rw [hRun] at hEvolves
            exact hEvolves.sound hSound

end MessageLisp
