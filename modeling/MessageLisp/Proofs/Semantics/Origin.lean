import Mathlib
import MessageLisp.Proofs.Semantics.Layout

/-! Origins of failures. An evaluation that fails does so by itself, or because an evaluation inside
it fails and hands the error on. The expression that a fault reports is the one at the end of this
chain, whatever failed before and whatever was handled on the way. -/
namespace MessageLisp

open Source (Expr)

/-! ### Evaluations inside one another -/

/-- The evaluation of an expression in a scope of a session. -/
structure Evaluation where
  expr : Expr
  scope : ScopeId
  session : Session

namespace Evaluation

/-- How an evaluation goes, `fuel` evaluations deep. -/
def run (v : Evaluation) (fuel : Nat) : Except Interruption Value × Session :=
  ((Evaluator.ofFuel fuel).evaluate v.expr v.scope).runIn v.session

def Fails (v : Evaluation) (fuel : Nat) (error : Error) : Prop :=
  (v.run fuel).1 = .error (.error error)

def isFailing (fuel : Nat) (v : Evaluation) : Bool :=
  match (v.run fuel).1 with
  | .error (.error _) => true
  | _ => false

theorem Fails.isFailing {v : Evaluation} {fuel : Nat} {error : Error} (h : v.Fails fuel error) :
    v.isFailing fuel = true := by
  rw [Evaluation.isFailing, show (v.run fuel).1 = _ from h]

theorem isFailing_eq_false {v : Evaluation} {fuel : Nat} (h : ∀ error, ¬v.Fails fuel error) :
    v.isFailing fuel = false := by
  rw [isFailing]
  split
  · rename_i error hFails
    exact absurd hFails (h error)
  · rfl

end Evaluation

/-- Does what `ev` does, but gives up in place of some evaluations. It lacks none of those whose
failure is going to be caught. -/
def Evaluator.lacking (ev : Evaluator) (lacks : Evaluation → Bool) : Evaluator :=
  { ev with
    toAccess := .uniform fun expr scope => do
      if lacks ⟨expr, scope, ← get⟩ then throw (.outOfFuel .nesting) else ev.evaluate expr scope }

namespace Evaluation

/-- How an evaluation goes without some of the evaluations inside it, these being followed `fuel`
deep. -/
def runWithout (v : Evaluation) (fuel : Nat) (lacks : Evaluation → Bool) :
    Except Interruption Value × Session :=
  (((Evaluator.ofFuel fuel).lacking lacks).evaluateExpr v.expr v.scope).runIn v.session

/-- An evaluation fails inside another one, which cannot do without it and does not catch the
failure. -/
structure Hands (fuel : Nat) (error : Error) (inner outer : Evaluation) : Prop where
  fails : inner.Fails fuel error
  needed : ∀ lacks : Evaluation → Bool, lacks inner = true →
    (outer.runWithout fuel lacks).1 = .error (.outOfFuel .nesting)

/-- An evaluation fails with an error that comes from the last evaluation: each one fails with the
error because the next hands it on, and the last one is handed it by none. -/
inductive ComesFrom (error : Error) : (fuel : Nat) → Evaluation → Evaluation → Prop where
  | itself {fuel : Nat} {v : Evaluation} (hFails : v.Fails (fuel + 1) error)
      (hOwn : ∀ inner, ¬Hands fuel error inner v) : ComesFrom error (fuel + 1) v v
  | handed {fuel : Nat} {v inner origin : Evaluation} (hFails : v.Fails (fuel + 1) error)
      (hHands : Hands fuel error inner v) (hInner : ComesFrom error fuel inner origin) :
      ComesFrom error (fuel + 1) v origin

end Evaluation

namespace Evaluator

theorem runIn_lacking_evaluate (ev : Evaluator) (lacks : Evaluation → Bool) (expr : Expr)
    (scope : ScopeId) (session : Session) :
    ((ev.lacking lacks).evaluate expr scope).runIn session =
      if lacks ⟨expr, scope, session⟩ then (.error (.outOfFuel .nesting), session)
      else (ev.evaluate expr scope).runIn session := by
  change (get >>= fun _ => _ : Eval Value).runIn session = _
  rw [Eval.runIn_get_bind]
  split <;> rfl

theorem ofFuel_guarding (fuel : Nat) : (ofFuel fuel).guarding = ofFuel fuel := by
  cases fuel <;> rfl

theorem lacking_guarding (fuel : Nat) (lacks : Evaluation → Bool) :
    ((ofFuel fuel).lacking lacks).guarding = ofFuel fuel := by
  cases fuel <;> rfl

end Evaluator

/-! ### Failures inside a computation -/

section

variable (fuel : Nat) {α : Type} (x : Evaluator → Eval α) (session : Session)

/-- No evaluation inside the computation fails, unless the failure is caught. -/
structure Undisturbed : Prop where
  same : (x ((Evaluator.ofFuel fuel).lacking (Evaluation.isFailing fuel))).runIn session =
    (x (.ofFuel fuel)).runIn session
  site : ((x (.ofFuel fuel)).runIn session).2.faultSite? = none

/-- An evaluation inside the computation fails, and its failure ends the computation. -/
structure Passes (inner : Evaluation) (error : Error) : Prop where
  fails : inner.Fails fuel error
  empty : inner.session.faultSite? = none
  result : ((x (.ofFuel fuel)).runIn session).1 = .error (.error error)
  site : ((x (.ofFuel fuel)).runIn session).2.faultSite? = (inner.run fuel).2.faultSite?
  needed : ∀ lacks : Evaluation → Bool, lacks inner = true →
    ((x ((Evaluator.ofFuel fuel).lacking lacks)).runIn session).1 = .error (.outOfFuel .nesting)

/-- Without some of the evaluations inside it, a computation goes the same way or gives up. Its
failure is its own or that of an evaluation inside it. -/
structure Traceable : Prop where
  lacking : ∀ lacks,
    ((x ((Evaluator.ofFuel fuel).lacking lacks)).runIn session).1 = .error (.outOfFuel .nesting) ∨
      (x ((Evaluator.ofFuel fuel).lacking lacks)).runIn session = (x (.ofFuel fuel)).runIn session
  cases : Undisturbed fuel x session ∨ ∃ inner error, Passes fuel x session inner error

end

namespace Traceable

variable {fuel : Nat} {α β : Type} {x : Evaluator → Eval α} {session : Session}

/-- A failure of another kind, or none, leaves no fault on record. -/
theorem site_eq_none (h : Traceable fuel x session)
    (hResult : ∀ error, ((x (.ofFuel fuel)).runIn session).1 ≠ .error (.error error)) :
    ((x (.ofFuel fuel)).runIn session).2.faultSite? = none := by
  rcases h.cases with hUndisturbed | ⟨inner, error, hPasses⟩
  · exact hUndisturbed.site
  · exact absurd hPasses.result (hResult error)

theorem const {x : Eval α} (h : (x.runIn session).2.faultSite? = none) :
    Traceable fuel (fun _ => x) session :=
  ⟨fun _ => .inr rfl, .inl ⟨rfl, h⟩⟩

/-- A computation that ends like another one, up to parts of the session that do not matter. -/
theorem map {y : Evaluator → Eval α} {session' : Session} (h : Traceable fuel y session')
    (g : Except Interruption α × Session → Except Interruption α × Session)
    (hFirst : ∀ outcome, (g outcome).1 = outcome.1)
    (hSite : ∀ outcome, (g outcome).2.faultSite? = outcome.2.faultSite?)
    (hPlain : (x (.ofFuel fuel)).runIn session = g ((y (.ofFuel fuel)).runIn session'))
    (hLacking : ∀ lacks, (x ((Evaluator.ofFuel fuel).lacking lacks)).runIn session =
      g ((y ((Evaluator.ofFuel fuel).lacking lacks)).runIn session')) :
    Traceable fuel x session := by
  constructor
  · intro lacks
    rw [hLacking, hPlain, hFirst]
    exact (h.lacking lacks).imp_right (congrArg g)
  · rcases h.cases with hUndisturbed | ⟨inner, error, hPasses⟩
    · left
      constructor
      · rw [hLacking, hPlain, hUndisturbed.same]
      · rw [hPlain, hSite, hUndisturbed.site]
    · refine .inr ⟨inner, error, hPasses.fails, hPasses.empty, ?_, ?_, ?_⟩
      · rw [hPlain, hFirst, hPasses.result]
      · rw [hPlain, hSite, hPasses.site]
      · intro lacks hLacks
        rw [hLacking, hFirst, hPasses.needed lacks hLacks]

theorem congr {y : Evaluator → Eval α} {session' : Session} (h : Traceable fuel y session')
    (hPlain : (x (.ofFuel fuel)).runIn session = (y (.ofFuel fuel)).runIn session')
    (hLacking : ∀ lacks, (x ((Evaluator.ofFuel fuel).lacking lacks)).runIn session =
      (y ((Evaluator.ofFuel fuel).lacking lacks)).runIn session') : Traceable fuel x session :=
  h.map id (fun _ => rfl) (fun _ => rfl) hPlain hLacking

theorem undisturbed_of_ok (h : Traceable fuel x session) {a : α} {later : Session}
    (hRun : (x (.ofFuel fuel)).runIn session = (.ok a, later)) : Undisturbed fuel x session := by
  rcases h.cases with hUndisturbed | ⟨inner, error, hPasses⟩
  · exact hUndisturbed
  · have hResult := hPasses.result
    rw [hRun] at hResult
    cases hResult

/-- A computation whose first part fails. -/
theorem bind_of_error {f : α → Evaluator → Eval β} (hFirst : Traceable fuel x session)
    {interruption : Interruption} {later : Session}
    (hRun : (x (.ofFuel fuel)).runIn session = (.error interruption, later)) :
    Traceable fuel (fun ev => x ev >>= fun a => f a ev) session := by
  have hStops : ∀ ev, (x ev).runIn session = (.error interruption, later) →
      (x ev >>= fun a => f a ev).runIn session = (.error interruption, later) := by
    intro ev hError
    rw [Eval.runIn_bind, hError]
    rfl
  constructor
  · intro lacks
    rcases hFirst.lacking lacks with hOut | hSame
    · exact .inl (Eval.runIn_bind_error hOut _)
    · rw [hStops _ (hSame.trans hRun), hStops _ hRun]
      exact .inr rfl
  · rcases hFirst.cases with ⟨hSame, hSite⟩ | ⟨inner, error, hPasses⟩
    · left
      constructor
      · rw [hStops _ (hSame.trans hRun), hStops _ hRun]
      · rw [hRun] at hSite
        rw [hStops _ hRun]
        exact hSite
    · have hResult := hPasses.result
      have hSite := hPasses.site
      rw [hRun] at hResult hSite
      cases hResult
      refine .inr ⟨inner, error, hPasses.fails, hPasses.empty, ?_, ?_, ?_⟩
      · rw [hStops _ hRun]
      · rw [hStops _ hRun]
        exact hSite
      · exact fun lacks hLacks => Eval.runIn_bind_error (hPasses.needed lacks hLacks) _

/-- A computation whose first part gives a value. -/
theorem bind_of_ok {f : α → Evaluator → Eval β} (hFirst : Traceable fuel x session) {a : α}
    {later : Session} (hRun : (x (.ofFuel fuel)).runIn session = (.ok a, later))
    (hRest : Traceable fuel (f a) later) :
    Traceable fuel (fun ev => x ev >>= fun a => f a ev) session := by
  have hGoesOn : ∀ ev, (x ev).runIn session = (.ok a, later) →
      (x ev >>= fun a => f a ev).runIn session = (f a ev).runIn later :=
    fun ev hOk => Eval.runIn_bind_ok hOk _
  constructor
  · intro lacks
    rcases hFirst.lacking lacks with hOut | hSame
    · exact .inl (Eval.runIn_bind_error hOut _)
    · rw [hGoesOn _ (hSame.trans hRun), hGoesOn _ hRun]
      exact hRest.lacking lacks
  · rcases hRest.cases with ⟨hSame, hSite⟩ | ⟨inner, error, hPasses⟩
    · have hFirstSame := (hFirst.undisturbed_of_ok hRun).same
      left
      constructor
      · rw [hGoesOn _ (hFirstSame.trans hRun), hGoesOn _ hRun, hSame]
      · rw [hGoesOn _ hRun, hSite]
    · refine .inr ⟨inner, error, hPasses.fails, hPasses.empty, ?_, ?_, ?_⟩
      · rw [hGoesOn _ hRun, hPasses.result]
      · rw [hGoesOn _ hRun, hPasses.site]
      · -- What is lacked may be met in the first part already. Then the whole gives up there.
        intro lacks hLacks
        rcases hFirst.lacking lacks with hOut | hSame
        · exact Eval.runIn_bind_error hOut _
        · rw [hGoesOn _ (hSame.trans hRun), hPasses.needed lacks hLacks]

theorem bind {f : α → Evaluator → Eval β} (hFirst : Traceable fuel x session)
    (hRest : ∀ a later, (x (.ofFuel fuel)).runIn session = (.ok a, later) →
      later.faultSite? = none → Traceable fuel (f a) later) :
    Traceable fuel (fun ev => x ev >>= fun a => f a ev) session := by
  rcases hRun : (x (.ofFuel fuel)).runIn session with ⟨interruption | a, later⟩
  · exact hFirst.bind_of_error hRun
  · have hSite := (hFirst.undisturbed_of_ok hRun).site
    rw [hRun] at hSite
    exact hFirst.bind_of_ok hRun (hRest a later hRun hSite)

/-- An evaluation that fails is the one that a failure comes from. -/
theorem evaluate (hClean : ∀ v : Evaluation, v.session.faultSite? = none →
      (∀ error, ¬v.Fails fuel error) → (v.run fuel).2.faultSite? = none)
    (hEmpty : session.faultSite? = none) (expr : Expr) (scope : ScopeId) :
    Traceable fuel (fun ev => ev.evaluate expr scope) session := by
  constructor
  · intro lacks
    rw [Evaluator.runIn_lacking_evaluate]
    split
    · exact .inl rfl
    · exact .inr rfl
  · by_cases hFails : ∃ error, Evaluation.Fails ⟨expr, scope, session⟩ fuel error
    · obtain ⟨error, hFails⟩ := hFails
      refine .inr ⟨⟨expr, scope, session⟩, error, hFails, hEmpty, hFails, rfl, ?_⟩
      intro lacks hLacks
      rw [Evaluator.runIn_lacking_evaluate, if_pos hLacks]
    · have hNone := not_exists.mp hFails
      left
      constructor
      · rw [Evaluator.runIn_lacking_evaluate, Evaluation.isFailing_eq_false hNone]
        rfl
      · exact hClean ⟨expr, scope, session⟩ hEmpty hNone

theorem enter {x : Evaluator → Eval Value} (hEmpty : session.faultSite? = none)
    (source? : Option SourceText) (hBody : Traceable fuel x (session.inside source?)) :
    Traceable fuel (fun ev => ev.enter source? (x ev)) session := by
  have hEnter : ∀ lacks, ((Evaluator.ofFuel fuel).lacking lacks).enter = Eval.enter :=
    fun _ => Evaluator.ofFuel_enter fuel
  by_cases hLimit : session.maxDepth ≤ session.depth
  · have hRefused : Traceable fuel
        (fun _ => (Eval.fail (.stackExhausted session.maxDepth) : Eval Value)) session :=
      const hEmpty
    refine hRefused.congr ?_ ?_
    · rw [Evaluator.ofFuel_enter, Eval.runIn_enter_of_le hLimit]
      rfl
    · intro lacks
      rw [hEnter, Eval.runIn_enter_of_le hLimit]
      rfl
  · refine hBody.map (fun outcome => (outcome.1, outcome.2.outside session.source?)) (fun _ => rfl)
      (fun _ => rfl) ?_ ?_
    · rw [Evaluator.ofFuel_enter, Eval.runIn_enter hLimit]
    · intro lacks
      rw [hEnter, Eval.runIn_enter hLimit]

/-- What is attempted does not matter to the failure of the whole: its own failure is caught, and is
no longer on record when the handler starts. -/
theorem handling {handler : Error → Evaluator → Eval Unit} (hTry : Traceable fuel x session)
    (hHandler : ∀ error, Traceable fuel (handler error)
      ((x (.ofFuel fuel)).runIn session).2.clearFaultSite) :
    Traceable fuel (fun ev => Eval.handling (x ev.guarding) fun error => handler error ev)
      session := by
  -- With or without the evaluations that are lacked, the same is attempted.
  have hPlain : (Eval.handling (x (Evaluator.ofFuel fuel).guarding) fun error =>
      handler error (.ofFuel fuel)).runIn session =
        Eval.handled (handler · (.ofFuel fuel)) ((x (.ofFuel fuel)).runIn session) := by
    rw [Evaluator.ofFuel_guarding, Eval.runIn_handling]
  have hLacking : ∀ lacks, (Eval.handling (x ((Evaluator.ofFuel fuel).lacking lacks).guarding)
      fun error => handler error ((Evaluator.ofFuel fuel).lacking lacks)).runIn session =
        Eval.handled (handler · ((Evaluator.ofFuel fuel).lacking lacks))
          ((x (.ofFuel fuel)).runIn session) := by
    intro lacks
    rw [Evaluator.lacking_guarding, Eval.runIn_handling]
  have hHandled : ∀ error, Traceable fuel (fun ev => handler error ev >>= fun _ => pure true)
      ((x (.ofFuel fuel)).runIn session).2.clearFaultSite :=
    fun error => (hHandler error).bind fun _ _ _ hLater => const hLater
  have hSite := hTry.site_eq_none
  rcases hRun : (x (.ofFuel fuel)).runIn session with ⟨(error | panic | short) | a, later⟩
  all_goals rw [hRun] at hPlain hHandled hSite
  · refine (hHandled error).congr hPlain fun lacks => ?_
    rw [hLacking, hRun]
    rfl
  · refine (hHandled panic.toError).congr hPlain fun lacks => ?_
    rw [hLacking, hRun]
    rfl
  · have hOut : Traceable fuel (fun _ => (throw (.outOfFuel short) : Eval Bool)) later :=
      const (hSite nofun)
    refine hOut.congr hPlain fun lacks => ?_
    rw [hLacking, hRun]
    rfl
  · have hDone : Traceable fuel (fun _ => (pure false : Eval Bool)) later := const (hSite nofun)
    refine hDone.congr hPlain fun lacks => ?_
    rw [hLacking, hRun]
    rfl

theorem loop {program : Option SourceText} {test : Evaluator → Eval Bool}
    {body : Evaluator → Eval Value}
    (hTest : ∀ session : Session, session.source? = program → session.faultSite? = none →
      Traceable fuel test session)
    (hBody : ∀ session : Session, session.source? = program → session.faultSite? = none →
      Traceable fuel body session)
    (hTestSource : ∀ (session later : Session) holds, session.source? = program →
      (test (.ofFuel fuel)).runIn session = (.ok holds, later) → later.source? = program)
    (hBodySource : ∀ (session later : Session) value, session.source? = program →
      (body (.ofFuel fuel)).runIn session = (.ok value, later) → later.source? = program)
    (rounds : Nat) (last : Value) {session : Session} (hSource : session.source? = program)
    (hEmpty : session.faultSite? = none) :
    Traceable fuel (fun ev => Eval.loop (test ev) (body ev) rounds last) session := by
  induction rounds generalizing last session with
  | zero => exact const hEmpty
  | succ rounds ih =>
      apply bind (hTest session hSource hEmpty)
      intro holds later hRun hLater
      have hLaterSource := hTestSource session later holds hSource hRun
      cases holds with
      | false => exact const hLater
      | true =>
          apply bind (hBody later hLaterSource hLater)
          intro value final hRun hFinal
          exact ih value (hBodySource later final value hLaterSource hRun) hFinal

end Traceable

/-- What the rules of the language compute is traceable, if all evaluations leave no fault on record
unless they fail. -/
theorem Computes.traceable {program program' : Option SourceText} {P : Expr → Expr → Prop}
    {α : Type} {R : α → α → Prop} {x x' : Evaluator → Eval α}
    (h : Computes .equality program program' P R x x') (hSame : program = program') {fuel : Nat}
    (hClean : ∀ v : Evaluation, v.session.faultSite? = none →
      (∀ error, ¬v.Fails fuel error) → (v.run fuel).2.faultSite? = none)
    {session : Session} (hSource : session.source? = program) (hEmpty : session.faultSite? = none) :
    Traceable fuel x session := by
  have hFollows : Evaluator.Follows .equality (fun _ => False) (.ofFuel fuel) (.ofFuel fuel) :=
    .ofFuel LevelLikeness.equality_fixed (fun _ _ _ _ => id) fuel
  induction h generalizing session with
  | pure hValue => exact .const hEmpty
  | fail error => exact .const hEmpty
  | panic panic => exact .const hEmpty
  | bind hFirst _ ihFirst ihRest =>
      subst hSame
      apply Traceable.bind (ihFirst rfl hSource hEmpty)
      intro a later hRun hLater
      obtain ⟨⟨a', hValue⟩, hBalanced⟩ := hFirst.exists_counterpart hFollows hSource hRun
      exact ihRest a a' hValue rfl (hBalanced.source.trans hSource) hLater
  | read _ ih =>
      exact (ih session session session.alike_equality hSource (hSource.trans hSame) hSame hSource
        hEmpty).congr rfl fun _ => rfl
  | step _ hQuiet _ => exact .const ((hQuiet session).faultSite.trans hEmpty)
  | evaluate _ _ scope => exact .evaluate hClean hEmpty _ scope
  | adopt hExprs _ ih =>
      refine (ih hExprs hSame hSource hEmpty).congr ?_ fun _ => rfl
      rw [Evaluator.ofFuel_adopt]
      rfl
  | handle hTry _ ihTry ihHandler =>
      subst hSame
      apply Traceable.handling (ihTry rfl hSource hEmpty)
      intro error
      have hBalanced := hTry.balanced_of_follows hFollows hSource
      exact ihHandler error rfl (hBalanced.source.trans hSource) rfl
  | enter hInner _ ih => exact .enter hEmpty _ (ih hInner rfl hEmpty)
  | @loop program _ P test test' body body' last last' hTest hBody _ ihTest ihBody =>
      subst hSame
      have hLoop := Traceable.loop
        (fun session hSource hEmpty => ihTest rfl hSource hEmpty)
        (fun session hSource hEmpty => ihBody rfl hSource hEmpty)
        (fun session later holds hSource hRun =>
          (hTest.exists_counterpart hFollows hSource hRun).2.source.trans hSource)
        (fun session later value hSource hRun =>
          (hBody.exists_counterpart hFollows hSource hRun).2.source.trans hSource)
        (Evaluator.ofFuel fuel).rounds last hSource hEmpty
      exact hLoop.congr rfl fun _ => rfl

/-! ### The origin on record -/

namespace Evaluation

theorem run_succ (v : Evaluation) (fuel : Nat) :
    v.run (fuel + 1) =
      Eval.located v.expr (((Evaluator.ofFuel fuel).interpret v.expr v.scope).runIn v.session) :=
  Eval.runIn_locating v.expr _ v.session

theorem runWithout_eq (v : Evaluation) (fuel : Nat) (lacks : Evaluation → Bool) :
    v.runWithout fuel lacks = Eval.located v.expr
      ((((Evaluator.ofFuel fuel).lacking lacks).interpret v.expr v.scope).runIn v.session) :=
  Eval.runIn_locating v.expr _ v.session

/-- An evaluation that starts without a fault on record, as it leaves the record: empty unless it
fails, and otherwise with the origin of its failure. -/
structure Recorded (v : Evaluation) (fuel : Nat) : Prop where
  origin {error : Error} (hFails : v.Fails fuel error) : ∃ origin, ComesFrom error fuel v origin ∧
    (v.run fuel).2.faultSite? = some ⟨origin.expr, origin.session.source?⟩
  empty (hNone : ∀ error, ¬v.Fails fuel error) : (v.run fuel).2.faultSite? = none

/-- The failure is the evaluation's own: it would fail like this without any failure inside it. -/
theorem comesFrom_itself {v : Evaluation} {fuel : Nat} {error : Error}
    (h : Undisturbed fuel (fun ev => ev.interpret v.expr v.scope) v.session)
    (hFails : v.Fails (fuel + 1) error) : ComesFrom error (fuel + 1) v v := by
  refine .itself hFails ?_
  intro inner hHands
  have hOut := hHands.needed (isFailing fuel) hHands.fails.isFailing
  rw [runWithout_eq, h.same, ← run_succ, hFails] at hOut
  cases hOut

/-- The failure is that of an evaluation inside, handed on. -/
theorem comesFrom_inner {v inner origin : Evaluation} {fuel : Nat} {error : Error}
    (h : Passes fuel (fun ev => ev.interpret v.expr v.scope) v.session inner error)
    (hFails : v.Fails (fuel + 1) error) (hInner : ComesFrom error fuel inner origin) :
    ComesFrom error (fuel + 1) v origin := by
  refine .handed hFails ⟨h.fails, ?_⟩ hInner
  intro lacks hLacks
  rw [runWithout_eq]
  exact Eval.located_outOfFuel (h.needed lacks hLacks)

theorem recorded_succ {v : Evaluation} {fuel : Nat}
    (hInner : ∀ w : Evaluation, w.session.faultSite? = none → w.Recorded fuel)
    (h : Traceable fuel (fun ev => ev.interpret v.expr v.scope) v.session)
    (hSource : (((Evaluator.ofFuel fuel).interpret v.expr v.scope).runIn v.session).2.source? =
      v.session.source?) : v.Recorded (fuel + 1) := by
  constructor
  · intro error hFails
    have hRun := hFails
    rw [Fails, run_succ] at hRun
    rcases hParts : ((Evaluator.ofFuel fuel).interpret v.expr v.scope).runIn v.session with
      ⟨(own | panic | short) | value, later⟩
    all_goals rw [hParts] at hRun hSource
    all_goals cases hRun
    rcases h.cases with hUndisturbed | ⟨inner, passed, hPasses⟩
    · have hSite := hUndisturbed.site
      rw [hParts] at hSite
      refine ⟨v, comesFrom_itself hUndisturbed hFails, ?_⟩
      rw [run_succ, hParts]
      change (later.noteFaultSite v.expr).faultSite? = _
      rw [Session.noteFaultSite, hSite, ← hSource]
    · have hResult := hPasses.result
      have hSite := hPasses.site
      rw [hParts] at hResult hSite
      cases hResult
      obtain ⟨origin, hOrigin, hRecord⟩ := (hInner inner hPasses.empty).origin hPasses.fails
      refine ⟨origin, comesFrom_inner hPasses hFails hOrigin, ?_⟩
      rw [run_succ, hParts]
      change (later.noteFaultSite v.expr).faultSite? = _
      rw [Session.noteFaultSite, hSite.trans hRecord]
      exact hSite.trans hRecord
  · intro hNone
    have hSite := h.site_eq_none
    rw [run_succ]
    rcases hParts : ((Evaluator.ofFuel fuel).interpret v.expr v.scope).runIn v.session with
      ⟨(own | panic | short) | value, later⟩
    · have hFails : v.Fails (fuel + 1) own := by
        rw [Fails, run_succ, hParts]
        rfl
      exact absurd hFails (hNone own)
    all_goals
      rw [hParts] at hSite
      refine hSite ?_
      intro _ hOwn
      cases hOwn

/-- Every evaluation that starts without a fault on record leaves the record as it should be. -/
theorem recorded (fuel : Nat) {v : Evaluation} (hEmpty : v.session.faultSite? = none) :
    v.Recorded fuel := by
  induction fuel generalizing v with
  | zero => exact ⟨fun hFails => (nomatch hFails), fun _ => hEmpty⟩
  | succ fuel ih =>
      have hParts : List.Forall₂ (fun _ _ => True) v.expr.parts v.expr.parts :=
        List.forall₂_same.mpr fun _ _ => trivial
      have hRule : Computes .equality v.session.source? v.session.source? (fun _ _ => True)
          (Value.Alike .equality) (fun ev => ev.interpret v.expr v.scope)
          (fun ev => ev.interpret v.expr v.scope) := .interpret rfl hParts v.scope
      have hTraceable :=
        hRule.traceable rfl (fun w hStart hNone => (ih hStart).empty hNone) rfl hEmpty
      exact recorded_succ (fun w hStart => ih hStart) hTraceable (hRule.balanced fuel rfl).source

end Evaluation

/-! ### Programs -/

/-- The evaluation of an expression of a program, which starts without a fault on record. -/
def Evaluation.top (expr : Expr) (session : Session) : Evaluation :=
  ⟨expr, Environment.root, session.clearFaultSite⟩

namespace Evaluator

/-- The evaluation of one of the expressions of a program, after those before it gave their
values. -/
def Reaches (fuel : Nat) (source : SourceText) (program : List Expr) (last : Value)
    (session : Session) (v : Evaluation) : Prop :=
  ∃ before expr after value reached, program = before ++ expr :: after ∧
    ((ofFuel fuel).runProgram source before last).run session = (.value value, reached) ∧
    v = .top expr reached

theorem runProgram_top (fuel : Nat) (source : SourceText) (expr : Expr) (rest : List Expr)
    (last : Value) (session : Session) :
    ((ofFuel fuel).runProgram source (expr :: rest) last).run session =
      (ofFuel fuel).continueWith source expr rest ((Evaluation.top expr session).run fuel) :=
  runProgram_cons source expr rest last session

theorem Reaches.cons {fuel : Nat} {source : SourceText} {expr : Expr} {rest : List Expr}
    {last value : Value} {session later : Session} {v : Evaluation}
    (hFirst : (Evaluation.top expr session).run fuel = (.ok value, later))
    (h : Reaches fuel source rest value later v) :
    Reaches fuel source (expr :: rest) last session v := by
  obtain ⟨before, failing, after, final, reached, rfl, hBefore, hTop⟩ := h
  refine ⟨expr :: before, failing, after, final, reached, rfl, ?_, hTop⟩
  rw [runProgram_top, hFirst]
  exact hBefore

/-- What a fault says about the evaluation of the expression that failed: the origin of an error, or
the expression itself if the host broke down. -/
def Reports (fuel : Nat) (v : Evaluation) (fault : Fault) : Prop :=
  (∃ origin, Evaluation.ComesFrom fault.error fuel v origin ∧
      fault.expression? = some origin.expr.text) ∨
    ∃ panic, (v.run fuel).1 = .error (.panic panic) ∧ fault.error = panic.toError ∧
      fault.expression? = some v.expr.text

theorem runProgram_fault {fuel : Nat} {source : SourceText} {program : List Expr} {last : Value}
    {session : Session} {fault : Fault}
    (h : (((ofFuel fuel).runProgram source program last).run session).1 = .fault fault) :
    ∃ v, Reaches fuel source program last session v ∧ Reports fuel v fault := by
  induction program generalizing last session with
  | nil => cases h
  | cons expr rest ih =>
      have hReaches : Reaches fuel source (expr :: rest) last session (.top expr session) :=
        ⟨[], expr, rest, last, session, rfl, rfl, rfl⟩
      have hRecorded : (Evaluation.top expr session).Recorded fuel := Evaluation.recorded fuel rfl
      rw [runProgram_top] at h
      rcases hRun : (Evaluation.top expr session).run fuel with
        ⟨(error | panic | short) | value, later⟩
      all_goals rw [hRun] at h
      · have hFails : (Evaluation.top expr session).Fails fuel error := by
          rw [Evaluation.Fails, hRun]
        obtain ⟨origin, hOrigin, hSite⟩ := hRecorded.origin hFails
        rw [hRun] at hSite
        cases h
        refine ⟨_, hReaches, .inl ⟨origin, ?_, ?_⟩⟩
        · rwa [locateFault_error]
        · rw [locateFault_expression?, hSite]
          rfl
      · -- A breakdown of the host is no error of an evaluation, so no evaluation put it on record.
        have hSite := hRecorded.empty fun error hFails => by
          rw [Evaluation.Fails, hRun] at hFails
          cases hFails
        rw [hRun] at hSite
        cases h
        refine ⟨_, hReaches, .inr ⟨panic, by rw [hRun], locateFault_error _ _ _, ?_⟩⟩
        rw [locateFault_expression?, hSite]
        rfl
      · cases h
      · obtain ⟨v, hRest, hReports⟩ := ih h
        exact ⟨v, hRest.cons hRun, hReports⟩

end Evaluator

end MessageLisp
