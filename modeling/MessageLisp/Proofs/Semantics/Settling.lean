import MessageLisp.Proofs.Semantics.Simulation

/-! Settling. A family of runs, one for each allowance of nested evaluations, settles if all large
enough allowances give the same outcome and it is not for want of allowance. A computation settles as
soon as all it evaluates settles; the limit on the depth of applications is what makes this enough for
the bodies of functions. -/
namespace MessageLisp

open Source (Expr)

/-- From some allowance on, the outcome is the same and not `short`. -/
def Settles {β : Type} (short : β → Prop) (run : Nat → β) : Prop :=
  ∃ outcome enough, (∀ nesting, enough ≤ nesting → run nesting = outcome) ∧ ¬short outcome

/-- Outcomes for want of allowance. -/
def Short {α : Type} (outcome : Except Interruption α × Session) : Prop :=
  outcome.1 = .error (.outOfFuel .nesting)

namespace Settles

variable {β γ : Type} {short : β → Prop} {short' : γ → Prop}

theorem const {outcome : β} (h : ¬short outcome) : Settles short fun _ => outcome :=
  ⟨outcome, 0, fun _ _ => rfl, h⟩

/-- What depends on the outcome only, after a run that settles. -/
theorem bind {run : Nat → β} (next : Nat → β → γ) (hRun : Settles short run)
    (hNext : ∀ outcome, ¬short outcome → (∃ nesting, run nesting = outcome) →
      Settles short' fun nesting => next nesting outcome) :
    Settles short' fun nesting => next nesting (run nesting) := by
  obtain ⟨outcome, enough, hSame, hShort⟩ := hRun
  obtain ⟨final, enough', hFinal, hShort'⟩ :=
    hNext outcome hShort ⟨enough, hSame enough (Nat.le_refl _)⟩
  refine ⟨final, max enough enough', fun nesting hNesting => ?_, hShort'⟩
  change next nesting (run nesting) = final
  rw [hSame nesting (by omega)]
  exact hFinal nesting (by omega)

theorem map {run : Nat → β} (f : β → γ) (hRun : Settles short run)
    (hShort : ∀ outcome, ¬short outcome → ¬short' (f outcome)) :
    Settles short' fun nesting => f (run nesting) :=
  bind (fun _ => f) hRun fun outcome hOutcome _ => const (hShort outcome hOutcome)

theorem of_succ {run : Nat → β} (h : Settles short fun nesting => run (nesting + 1)) :
    Settles short run := by
  obtain ⟨outcome, enough, hSame, hShort⟩ := h
  refine ⟨outcome, enough + 1, fun nesting hNesting => ?_, hShort⟩
  obtain ⟨previous, rfl⟩ : ∃ previous, nesting = previous + 1 := ⟨nesting - 1, by omega⟩
  exact hSame previous (by omega)

/-! ### Computations -/

variable {α : Type} {session : Session}

theorem evalBind {x : Nat → Eval α} {f : Nat → α → Eval β}
    (hFirst : Settles Short fun nesting => (x nesting).runIn session)
    (hRest : ∀ nesting a later, (x nesting).runIn session = (.ok a, later) →
      Settles Short fun nesting => (f nesting a).runIn later) :
    Settles Short fun nesting => (x nesting >>= f nesting).runIn session := by
  simp only [Eval.runIn_bind]
  apply bind (fun nesting => Eval.continued (f nesting)) hFirst
  rintro ⟨interruption | a, later⟩ hShort ⟨nesting, hRun⟩
  · exact const fun hOut => hShort (by cases hOut; rfl)
  · exact hRest nesting a later hRun

theorem attempt {x : Nat → Eval α} (h : Settles Short fun nesting => (x nesting).runIn session) :
    Settles Short fun nesting => (Eval.attempt (x nesting)).runIn session := by
  simp only [Eval.runIn_attempt]
  apply map Eval.attempted h
  rintro ⟨(error | panic | fuel) | a, later⟩ hShort hOut
  · cases hOut
  · cases hOut
  · cases hOut
    exact hShort rfl
  · cases hOut

theorem handling {x : Nat → Eval α} {handler : Nat → Error → Eval Unit}
    (hTry : Settles Short fun nesting => (x nesting).runIn session)
    (hHandler : ∀ nesting error,
      Settles Short fun other => (handler other error).runIn ((x nesting).runIn session).2.clearFaultSite) :
    Settles Short fun nesting => (Eval.handling (x nesting) (handler nesting)).runIn session := by
  apply evalBind (attempt hTry)
  intro nesting result later hRun
  cases result with
  | ok a => exact const nofun
  | error error =>
      have hLater : ((x nesting).runIn session).2 = later := by
        rw [← Eval.attempted_session, ← Eval.runIn_attempt, hRun]
      change Settles Short fun other =>
        (handler other error >>= fun _ => pure true).runIn later.clearFaultSite
      apply evalBind (hLater ▸ hHandler nesting error)
      exact fun _ _ _ _ => const nofun

theorem locating {x : Nat → Eval α} (expr : Expr)
    (h : Settles Short fun nesting => (x nesting).runIn session) :
    Settles Short fun nesting => (Eval.locating expr (x nesting)).runIn session := by
  simp only [Eval.runIn_locating]
  apply map (Eval.located expr) h
  rintro ⟨(error | panic | fuel) | a, later⟩ hShort hOut
  · cases hOut
  · cases hOut
  · exact hShort hOut
  · cases hOut

theorem enter {x : Nat → Eval α} {source? : Option SourceText}
    (h : ¬session.maxDepth ≤ session.depth →
      Settles Short fun nesting => (x nesting).runIn (session.inside source?)) :
    Settles Short fun nesting => (Eval.enter source? (x nesting)).runIn session := by
  by_cases hLimit : session.maxDepth ≤ session.depth
  · simp only [Eval.runIn_enter_of_le hLimit]
    exact const nofun
  · simp only [Eval.runIn_enter hLimit]
    apply map (fun outcome => (outcome.1, outcome.2.outside session.source?)) (h hLimit)
    exact fun outcome hShort hOut => hShort hOut

end Settles

/-- Ways to evaluate, for use at a depth of applications below a limit. They settle on all expressions
deeper down, and on all that they take in from elsewhere. -/
structure Settled (limit depth : Nat) (access : Nat → Access) : Prop where
  inside : ∀ (expr : Expr) (scope : ScopeId) (session : Session), session.maxDepth = limit →
    depth < session.depth → session.depth ≤ limit →
      Settles Short fun nesting => ((access nesting).evaluate expr scope).runIn session
  adopt : (∀ nesting exprs, (access nesting).adopt exprs = throw (.outOfFuel .foreign)) ∨
    ∃ inner : Nat → Expr → ScopeId → Eval Value,
      (∀ nesting exprs, (access nesting).adopt exprs = pure (inner nesting)) ∧
      ∀ (expr : Expr) (scope : ScopeId) (session : Session),
        Settles Short fun nesting => (inner nesting expr scope).runIn session

theorem Settled.deeper {limit depth : Nat} {access : Nat → Access} (h : Settled limit depth access) :
    Settled limit (depth + 1) access where
  inside expr scope session hLimit hSession hBelow :=
    h.inside expr scope session hLimit (by omega) hBelow
  adopt := h.adopt

/-- A family of evaluators at a depth of applications below a limit. It settles on the expressions
related by `P`, on all expressions deeper down, and on all that it takes in from elsewhere. -/
structure Ready (P : Expr → Expr → Prop) (limit depth : Nat) (ev : Nat → Evaluator) : Prop where
  follows : ∀ nesting, Evaluator.Follows .equality (fun _ => False) (ev nesting) (ev nesting)
  rounds : ∀ nesting, (ev nesting).rounds = (ev 0).rounds
  enter : ∀ nesting, (ev nesting).enter = Eval.enter
  evaluate : ∀ {expr expr' : Expr}, P expr expr' → ∀ (scope : ScopeId) (session : Session),
    session.maxDepth = limit → session.depth = depth →
      Settles Short fun nesting => ((ev nesting).evaluate expr scope).runIn session
  settled : Settled limit depth fun nesting => (ev nesting).toAccess
  guarded : Settled limit depth fun nesting => (ev nesting).guarded

/-! ### Rules -/

/-- Loops settle, since the number of rounds is fixed. -/
theorem Settles.loop {program : Option SourceText} {limit depth : Nat} {test : Nat → Eval Bool}
    {body : Nat → Eval Value}
    (hTest : ∀ session : Session, session.source? = program → session.maxDepth = limit →
      session.depth = depth → Settles Short fun nesting => (test nesting).runIn session)
    (hBody : ∀ session : Session, session.source? = program → session.maxDepth = limit →
      session.depth = depth → Settles Short fun nesting => (body nesting).runIn session)
    (hTestBalanced : ∀ nesting (session later : Session) holds, session.source? = program →
      (test nesting).runIn session = (.ok holds, later) → session.Balanced later)
    (hBodyBalanced : ∀ nesting (session later : Session) value, session.source? = program →
      (body nesting).runIn session = (.ok value, later) → session.Balanced later)
    (rounds : Nat) (last : Value) {session : Session} (hSource : session.source? = program)
    (hLimit : session.maxDepth = limit) (hDepth : session.depth = depth) :
    Settles Short fun nesting => (Eval.loop (test nesting) (body nesting) rounds last).runIn session := by
  induction rounds generalizing last session with
  | zero => exact const nofun
  | succ rounds ih =>
      apply evalBind (hTest session hSource hLimit hDepth)
      intro nesting holds later hRun
      have hLater := hTestBalanced nesting session later holds hSource hRun
      cases holds with
      | false => exact const nofun
      | true =>
          apply evalBind (hBody later (hLater.source.trans hSource) (hLater.maxDepth.trans hLimit)
            (hLater.depth.trans hDepth))
          intro nesting value last hRun
          have hLast := hLater.trans (hBodyBalanced nesting later last value
            (hLater.source.trans hSource) hRun)
          exact ih value (hLast.source.trans hSource) (hLast.maxDepth.trans hLimit)
            (hLast.depth.trans hDepth)

theorem Evaluator.Follows.adopted {ev : Evaluator} {evaluate : Expr → ScopeId → Eval Value}
    (h : Evaluator.Follows .equality (fun _ => False) ev ev) (hAdopt : ev.adopt [] = pure evaluate) :
    Evaluator.Follows .equality (fun _ => False) { ev with evaluate } { ev with evaluate } := by
  have hEvaluate : Evaluator.Tracks .equality (fun _ => False) evaluate evaluate := by
    have hAdopted : Eval.Follows .equality (fun _ => False) none none _ (ev.adopt []) (ev.adopt []) :=
      h.adopt List.Forall₂.nil
    rw [hAdopt] at hAdopted
    -- Any session will do to look at what was taken in.
    rcases hAdopted (Session.new 0) (Session.new 0) (Session.alike_equality _) rfl rfl with
      ⟨_, hNever, _⟩ | ⟨hResult, _, _, _⟩
    · exact hNever.elim
    · cases hResult with
      | ok hEvaluate => exact hEvaluate.2
  exact { h with evaluate := hEvaluate }

namespace Ready

variable {P : Expr → Expr → Prop} {limit depth : Nat} {ev : Nat → Evaluator}

/-- Inside the body of a function all expressions settle. -/
theorem entered {Q : Expr → Expr → Prop} (h : Ready P limit depth ev) (hDepth : depth < limit) :
    Ready Q limit (depth + 1) ev where
  follows := h.follows
  rounds := h.rounds
  enter := h.enter
  evaluate _ scope session hLimit hSession :=
    h.settled.inside _ scope session hLimit (by omega) (by omega)
  settled := h.settled.deeper
  guarded := h.guarded.deeper

/-- All expressions settle after some were taken in from elsewhere. -/
theorem adopted {Q : Expr → Expr → Prop} (h : Ready P limit depth ev)
    {inner : Nat → Expr → ScopeId → Eval Value}
    (hAdopt : ∀ nesting exprs, (ev nesting).adopt exprs = pure (inner nesting))
    (hInner : ∀ (expr : Expr) (scope : ScopeId) (session : Session),
      Settles Short fun nesting => (inner nesting expr scope).runIn session) :
    Ready Q limit depth fun nesting => { ev nesting with evaluate := inner nesting } where
  follows nesting := (h.follows nesting).adopted (hAdopt nesting [])
  rounds := h.rounds
  enter := h.enter
  evaluate _ scope session _ _ := hInner _ scope session
  settled :=
    { inside := fun expr scope session _ _ _ => hInner expr scope session
      adopt := h.settled.adopt }
  guarded := h.guarded

/-- What is attempted evaluates expressions inside functions only. -/
theorem guarding (h : Ready P limit depth ev) :
    Ready (fun _ _ => False) limit depth fun nesting => (ev nesting).guarding where
  follows nesting := (h.follows nesting).guarding
  rounds := h.rounds
  enter := h.enter
  evaluate := False.elim
  settled := h.guarded
  guarded := h.guarded

end Ready

/-- A computation settles if all it evaluates does. -/
theorem Computes.settles {program program' : Option SourceText} {P : Expr → Expr → Prop} {α : Type}
    {R : α → α → Prop} {x x' : Evaluator → Eval α}
    (h : Computes .equality program program' P R x x') (hSame : program = program') {limit depth : Nat}
    {ev : Nat → Evaluator} (hReady : Ready P limit depth ev) {session : Session}
    (hSource : session.source? = program) (hLimit : session.maxDepth = limit)
    (hDepth : session.depth = depth) :
    Settles Short fun nesting => (x (ev nesting)).runIn session := by
  induction h generalizing limit depth ev session with
  | pure hValue => exact Settles.const nofun
  | fail error => exact Settles.const nofun
  | panic panic => exact Settles.const nofun
  | bind hFirst _ ihFirst ihRest =>
      subst hSame
      apply Settles.evalBind (ihFirst rfl hReady hSource hLimit hDepth)
      intro nesting a later hRun
      obtain ⟨⟨a', hValue⟩, hBalanced⟩ :=
        hFirst.exists_counterpart (hReady.follows nesting) hSource hRun
      exact ihRest a a' hValue rfl hReady (hBalanced.source.trans hSource)
        (hBalanced.maxDepth.trans hLimit) (hBalanced.depth.trans hDepth)
  | read _ ih =>
      exact ih session session session.alike_equality hSource (hSource.trans hSame) hSame hReady hSource
        hLimit hDepth
  | step _ _ _ => exact Settles.const nofun
  | evaluate hPart _ scope => exact hReady.evaluate hPart scope session hLimit hDepth
  | adopt hExprs _ ih =>
      rcases hReady.settled.adopt with hRefused | ⟨inner, hAdopt, hInner⟩
      · simp only [hRefused]
        exact Settles.const nofun
      · simp only [hAdopt, pure_bind]
        exact ih hExprs hSame (hReady.adopted hAdopt hInner) hSource hLimit hDepth
  | handle hTry _ ihTry ihHandler =>
      subst hSame
      apply Settles.handling (ihTry rfl hReady.guarding hSource hLimit hDepth)
      intro nesting error
      have hBalanced := (hTry.balanced_of_follows (hReady.follows nesting).guarding hSource).trans
        (.clearFaultSite _)
      exact ihHandler error rfl hReady (hBalanced.source.trans hSource)
        (hBalanced.maxDepth.trans hLimit) (hBalanced.depth.trans hDepth)
  | enter hInner _ ih =>
      simp only [hReady.enter]
      apply Settles.enter
      intro hBelow
      exact ih hInner (hReady.entered (by omega)) rfl hLimit (congrArg (· + 1) hDepth)
  | loop hTest hBody _ ihTest ihBody =>
      subst hSame
      simp only [hReady.rounds]
      apply Settles.loop
      · exact fun session hSource hLimit hDepth => ihTest rfl hReady hSource hLimit hDepth
      · exact fun session hSource hLimit hDepth => ihBody rfl hReady hSource hLimit hDepth
      · exact fun nesting session later holds hSource hRun =>
          (hTest.exists_counterpart (hReady.follows nesting) hSource hRun).2
      · exact fun nesting session later value hSource hRun =>
          (hBody.exists_counterpart (hReady.follows nesting) hSource hRun).2
      · exact hSource
      · exact hLimit
      · exact hDepth

end MessageLisp
