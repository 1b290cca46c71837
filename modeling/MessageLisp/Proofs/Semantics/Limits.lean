import Mathlib
import MessageLisp.Proofs.Semantics.Running

/-! Limits on the depth of applications. A run that its limit refuses nothing goes the same way
under every larger limit. -/
namespace MessageLisp

open Source (Expr)

/-! ### Evaluators that look at what they do -/

namespace Evaluator

/-- Evaluates like the plain evaluator, with something done around every evaluation and around every
body of a function. -/
def instrumented (around : Eval Value → Eval Value)
    (enter : Option SourceText → Eval Value → Eval Value) : (fuel : Nat) → Evaluator
  | 0 => { uniform (fun _ _ => throw (.outOfFuel .nesting)) 0 with enter }
  | fuel + 1 =>
    { uniform
        (fun expr scope => around ((instrumented around enter fuel).evaluateExpr expr scope)) fuel
      with enter }

variable {L : Likeness} {excused : Fuel → Prop} {around : Eval Value → Eval Value}
    {enter : Option SourceText → Eval Value → Eval Value}

/-- An instrumented evaluator follows the plain one if what it does around a computation does. -/
theorem instrumented_follows
    (hAny : ∀ ⦃program program' : Option SourceText⦄ ⦃expr expr' : Expr⦄,
      L.expr expr expr' → L.code program program' expr expr')
    (hAround : ∀ {program program' : Option SourceText} {x x' : Eval Value},
      Eval.Follows L excused program program' (Value.Alike L) x x' →
        Eval.Follows L excused program program' (Value.Alike L) (around x) x')
    (hEnter : ∀ {program program' inner inner' : Option SourceText} {x x' : Eval Value},
      L.source inner inner' → Eval.Follows L excused inner inner' (Value.Alike L) x x' →
        Eval.Follows L excused program program' (Value.Alike L) (enter inner x)
          (Eval.enter inner' x')) (fuel : Nat) :
    Evaluator.Follows L excused (instrumented around enter fuel) (ofFuel fuel) := by
  induction fuel with
  | zero =>
      have hAccess : Access.Follows L excused (.uniform fun _ _ => throw (.outOfFuel .nesting))
          (.uniform fun _ _ => throw (.outOfFuel .nesting)) :=
        .uniform hAny fun _ _ _ _ _ _ => .throw _
      exact { hAccess with guarded := hAccess, enter := hEnter, rounds := .inl rfl }
  | succ fuel ih =>
      have hAccess : Access.Follows L excused
          (.uniform fun expr scope =>
            around ((instrumented around enter fuel).evaluateExpr expr scope))
          (.uniform (ofFuel fuel).evaluateExpr) :=
        .uniform hAny fun _ _ _ _ hCode scope => hAround (ih.evaluateExpr hCode scope)
      exact { hAccess with guarded := hAccess, enter := hEnter, rounds := .inl rfl }

end Evaluator

/-! ### Raising the limit -/

/-- Levels under two limits. -/
def LevelLikeness.limits (limit limit' : Nat) : LevelLikeness where
  alike level level' := level.limit = limit ∧ level'.limit = limit' ∧ level.depth = level'.depth
  depth_eq h := h.2.2
  deeper h _ _ := ⟨h.1, h.2.1, congrArg (· + 1) h.2.2⟩

/-- Leaves the limit open only. -/
def Likeness.limits (limit limit' : Nat) : Likeness :=
  { Likeness.equality with levels := .limits limit limit' }

theorem Likeness.limits_literal (limit limit' : Nat) : (Likeness.limits limit limit').Literal :=
  ⟨id, id⟩

theorem Session.alike_limits (session : Session) (limit limit' : Nat) :
    (session.withLimit limit).Alike (.limits limit limit') (session.withLimit limit') :=
  Session.alike_withLimit (fun _ _ => rfl) (fun _ => rfl) session ⟨rfl, rfl, rfl⟩

/-- Runs the body of a function, but gives up where the limit refuses it. -/
def Eval.enterBelow (source? : Option SourceText) (body : Eval Value) : Eval Value := do
  let session ← get
  if session.maxDepth ≤ session.depth then throw (.outOfFuel .nesting) else enter source? body

theorem Eval.Follows.enterBelow {limit limit' : Nat} (hLimit : limit ≤ limit')
    {program program' inner inner' : Option SourceText} {x x' : Eval Value}
    (hSource : (Likeness.limits limit limit').source inner inner')
    (hBody : Eval.Follows (.limits limit limit') (· = .nesting) inner inner'
      (Value.Alike (.limits limit limit')) x x') :
    Eval.Follows (.limits limit limit') (· = .nesting) program program'
      (Value.Alike (.limits limit limit')) (Eval.enterBelow inner x) (Eval.enter inner' x') := by
  intro session session' hAlike _ _
  obtain ⟨hOwn, hOwn', hDepth⟩ : session.maxDepth = limit ∧ session'.maxDepth = limit' ∧
    session.depth = session'.depth := hAlike.level
  rw [Eval.enterBelow, runIn_get_bind]
  by_cases hBelow : session.maxDepth ≤ session.depth
  · rw [if_pos hBelow]
    exact .inl ⟨.nesting, rfl, rfl⟩
  · rw [if_neg hBelow]
    exact enter_of_lt hSource hBody hAlike (by omega) (by omega)

namespace Evaluator

/-- Evaluates like the plain evaluator, but gives up when the limit refuses an application. -/
def unrefused : (fuel : Nat) → Evaluator :=
  instrumented id Eval.enterBelow

theorem unrefused_follows {limit limit' : Nat} (hLimit : limit ≤ limit') (fuel : Nat) :
    Evaluator.Follows (.limits limit limit') (· = .nesting) (unrefused fuel) (ofFuel fuel) :=
  instrumented_follows (fun _ _ _ _ => id) id (.enterBelow hLimit) fuel

/-- As long as the limit refuses nothing, a run is the same under every larger limit. -/
theorem run_eq_unrefused {limit limit' : Nat} (hLimit : limit ≤ limit') {session : Session}
    {text label : String} {fuel : Nat}
    (hUnrefused : (((unrefused fuel).run text label).run (session.withLimit limit)).1.Finished) :
    ((ofFuel fuel).run text label).run (session.withLimit limit') =
      ((((unrefused fuel).run text label).run (session.withLimit limit)).1,
        (((unrefused fuel).run text label).run (session.withLimit limit)).2.withLimit limit') := by
  cases hParse : Source.parse text label with
  | error error =>
      rw [run_of_error hParse, run_of_error hParse]
      rfl
  | ok program =>
      have hProgram : List.Forall₂ Eq program program := List.forall₂_same.mpr fun _ _ => rfl
      rcases (unrefused_follows hLimit fuel).evaluate.run hParse hParse rfl hProgram
        (session.alike_limits limit limit') with ⟨_, _, hOut⟩ | hRuns
      · rw [hOut] at hUnrefused
        exact hUnrefused.elim
      · have hLimit' : (((ofFuel fuel).run text label).run (session.withLimit limit')).2.maxDepth =
            limit' := hRuns.session.level.2.1
        rw [hRuns.eq_withLimit (Likeness.limits_literal limit limit'), hLimit']

end Evaluator

end MessageLisp
