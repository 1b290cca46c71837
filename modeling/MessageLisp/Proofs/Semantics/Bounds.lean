import MessageLisp.Proofs.Semantics.Simulation

/-! Evaluators with separate bounds: on nested evaluations, on the rounds of loops, and on how deep
expressions from elsewhere are taken in. Larger bounds change only runs that were short of them, and
plain fuel is one way to set all bounds at once. -/
namespace MessageLisp

open Source (Expr)

namespace Evaluator

/-- Follows nested evaluations `nesting` deep. -/
def nested (rounds : Nat) (adopt : Nat → Eval (Expr → ScopeId → Eval Value)) :
    (nesting : Nat) → Evaluator
  | 0 => .ofAccess ⟨fun _ _ => throw (.outOfFuel .nesting), fun _ => adopt 0⟩ rounds
  | nesting + 1 =>
    .ofAccess ⟨(nested rounds adopt nesting).evaluateExpr, fun _ => adopt (nesting + 1)⟩ rounds

/-- Follows nested evaluations `nesting` deep, loops for less than `rounds` rounds, and takes in
expressions from elsewhere only `foreign` deep, one such expression inside another. -/
def bounded (rounds : Nat) : (foreign nesting : Nat) → Evaluator
  | 0 => nested rounds fun _ => throw (.outOfFuel .foreign)
  | foreign + 1 => nested rounds fun nesting => pure (bounded rounds foreign nesting).evaluate

variable (rounds foreign nesting : Nat)

theorem bounded_evaluate_zero :
    (bounded rounds foreign 0).evaluate = fun _ _ => throw (.outOfFuel .nesting) := by
  cases foreign <;> rfl

theorem bounded_evaluate_succ :
    (bounded rounds foreign (nesting + 1)).evaluate = (bounded rounds foreign nesting).evaluateExpr := by
  cases foreign <;> rfl

theorem bounded_adopt_zero (exprs : List Expr) :
    (bounded rounds 0 nesting).adopt exprs = throw (.outOfFuel .foreign) := by
  cases nesting <;> rfl

theorem bounded_adopt_succ (exprs : List Expr) :
    (bounded rounds (foreign + 1) nesting).adopt exprs =
      pure (bounded rounds foreign nesting).evaluate := by
  cases nesting <;> rfl

theorem bounded_rounds : (bounded rounds foreign nesting).rounds = rounds := by
  cases foreign <;> cases nesting <;> rfl

theorem bounded_plain : (bounded rounds foreign nesting).Plain := by
  cases foreign <;> cases nesting <;> rfl

variable {rounds foreign nesting} {excused : Fuel → Prop}

theorem tracks_of_excused {interruption : Fuel} (h : excused interruption)
    (evaluate : Expr → ScopeId → Eval Value) :
    Evaluator.Tracks .equality excused (fun _ _ => throw (.outOfFuel interruption)) evaluate :=
  fun _ _ _ _ _ _ _ _ _ _ _ => .inl ⟨interruption, h, rfl⟩

/-! ### More nested evaluations -/

theorem bounded_follows_of_tracks {nesting' : Nat}
    (h : ∀ foreign, Evaluator.Tracks .equality excused (bounded rounds foreign nesting).evaluate
      (bounded rounds foreign nesting').evaluate) :
    Evaluator.Follows .equality excused (bounded rounds foreign nesting)
      (bounded rounds foreign nesting') := by
  apply Follows.plain LevelLikeness.equality_fixed (bounded_plain _ _ _) (bounded_plain _ _ _)
  · refine { evaluate := h foreign, adopt := fun hExprs => ?_ }
    cases foreign with
    | zero =>
        rw [bounded_adopt_zero, bounded_adopt_zero]
        exact .throw _
    | succ foreign =>
        rw [bounded_adopt_succ, bounded_adopt_succ]
        exact .pure ⟨hExprs, h foreign⟩
  · rw [bounded_rounds, bounded_rounds]
    exact .inl rfl

theorem bounded_tracks {nesting' : Nat} (h : nesting = nesting' ∨ nesting ≤ nesting' ∧ excused .nesting)
    (foreign : Nat) :
    Evaluator.Tracks .equality excused (bounded rounds foreign nesting).evaluate
      (bounded rounds foreign nesting').evaluate := by
  induction nesting generalizing nesting' foreign with
  | zero =>
      rw [bounded_evaluate_zero]
      rcases h with rfl | ⟨_, hExcused⟩
      · rw [bounded_evaluate_zero]
        exact fun _ _ _ _ _ _ => .throw _
      · exact tracks_of_excused hExcused _
  | succ nesting ih =>
      obtain ⟨rest, rfl⟩ : ∃ rest, nesting' = rest + 1 := ⟨nesting' - 1, by omega⟩
      have hRest : nesting = rest ∨ nesting ≤ rest ∧ excused .nesting :=
        h.imp (by omega) fun hMore => ⟨by omega, hMore.2⟩
      rw [bounded_evaluate_succ, bounded_evaluate_succ]
      exact (bounded_follows_of_tracks fun foreign => ih hRest foreign).evaluateExpr

/-- A larger allowance for nested evaluations changes nothing but runs that were short of it. -/
theorem bounded_follows {nesting' : Nat}
    (h : nesting = nesting' ∨ nesting ≤ nesting' ∧ excused .nesting) :
    Evaluator.Follows .equality excused (bounded rounds foreign nesting)
      (bounded rounds foreign nesting') :=
  bounded_follows_of_tracks fun foreign => bounded_tracks h foreign

/-! ### Bounds and plain fuel -/

/-- With enough fuel, the plain evaluator does what a bounded one does. -/
theorem bounded_tracks_ofFuel {fuel : Nat} (h : nesting + rounds < fuel) (foreign : Nat) :
    Evaluator.Tracks .equality (fun _ => True) (bounded rounds foreign nesting).evaluate
      (ofFuel fuel).evaluate := by
  induction nesting generalizing fuel foreign with
  | zero =>
      rw [bounded_evaluate_zero]
      exact tracks_of_excused trivial _
  | succ nesting ih =>
      obtain ⟨rest, rfl⟩ : ∃ rest, fuel = rest + 1 := ⟨fuel - 1, by omega⟩
      have hFollows : Evaluator.Follows .equality (fun _ => True) (bounded rounds foreign nesting)
          (ofFuel rest) := by
        apply Follows.plain LevelLikeness.equality_fixed (bounded_plain _ _ _) (ofFuel_plain rest)
        · refine { evaluate := ih (by omega) foreign, adopt := fun hExprs => ?_ }
          cases foreign with
          | zero =>
              rw [bounded_adopt_zero]
              exact fun _ _ _ _ _ => .inl ⟨.foreign, trivial, rfl⟩
          | succ foreign =>
              rw [bounded_adopt_succ, ofFuel_adopt]
              exact .pure ⟨hExprs, ih (by omega) foreign⟩
        · obtain ⟨less, rfl⟩ : ∃ less, rest = less + 1 := ⟨rest - 1, by omega⟩
          rw [bounded_rounds]
          exact .inr ⟨by change rounds ≤ less; omega, trivial⟩
      rw [bounded_evaluate_succ]
      exact hFollows.evaluateExpr

/-- With large enough bounds, a bounded evaluator does what the plain one does: expressions from
elsewhere that are inside one another are nested evaluations too. -/
theorem ofFuel_tracks_bounded {fuel : Nat} (hForeign : fuel ≤ foreign) (hNesting : fuel ≤ nesting)
    (hRounds : fuel ≤ rounds + 1) :
    Evaluator.Tracks .equality (fun _ => True) (ofFuel fuel).evaluate
      (bounded rounds foreign nesting).evaluate := by
  induction fuel generalizing foreign nesting with
  | zero => exact tracks_of_excused trivial _
  | succ fuel ih =>
      obtain ⟨less, rfl⟩ : ∃ less, nesting = less + 1 := ⟨nesting - 1, by omega⟩
      obtain ⟨fewer, rfl⟩ : ∃ fewer, foreign = fewer + 1 := ⟨foreign - 1, by omega⟩
      have hFollows : Evaluator.Follows .equality (fun _ => True) (ofFuel fuel)
          (bounded rounds (fewer + 1) less) := by
        apply Follows.plain LevelLikeness.equality_fixed (ofFuel_plain fuel) (bounded_plain _ _ _)
        · refine { evaluate := ih (by omega) (by omega) (by omega), adopt := fun hExprs => ?_ }
          rw [bounded_adopt_succ, ofFuel_adopt]
          exact .pure ⟨hExprs, ih (by omega) (by omega) (by omega)⟩
        · rw [bounded_rounds]
          refine .inr ⟨?_, trivial⟩
          cases fuel with
          | zero => exact Nat.zero_le _
          | succ fuel => change fuel ≤ rounds; omega
      rw [bounded_evaluate_succ]
      exact hFollows.evaluateExpr

end Evaluator

end MessageLisp
