import MessageLisp.Proofs.Semantics.Change
import MessageLisp.Proofs.Semantics.Simulation

/-! How computations proceed. From a sound session a computation of the language changes the session
in permitted ways only, keeps the depth, and ends in a value whose references exist or in an ordinary
failure. Some computations only look at the session. -/
namespace MessageLisp

open Source (Expr)

/-- An error other than a breakdown that was caught. -/
def Error.Regular : Error → Prop
  | .nativePanic _ => False
  | _ => True

/-- An ordinary failure, or no more fuel for the expressions at hand. -/
def Interruption.Regular : Interruption → Prop
  | .error failure => failure.Regular
  | .panic _ => False
  | .outOfFuel fuel => fuel ≠ .foreign

namespace Eval

variable {α β : Type} {session : Session}

/-! ### Looking at the session -/

/-- The computation leaves the session as it is, and gives something as expected or fails. -/
inductive Inspects (Q : α → Prop) (x : Eval α) (session : Session) : Prop where
  | ok {a : α} (hRun : x.runIn session = (.ok a, session)) (hResult : Q a)
  | error {interruption : Interruption} (hRun : x.runIn session = (.error interruption, session))
      (hRegular : interruption.Regular)

namespace Inspects

variable {Q : α → Prop} {Q' : β → Prop}

theorem pure {a : α} (hResult : Q a) : (Pure.pure a : Eval α).Inspects Q session :=
  .ok rfl hResult

theorem fail {error : Error} (hRegular : error.Regular) : (Eval.fail error : Eval α).Inspects Q session :=
  .error rfl hRegular

theorem read {f : Session → Eval α} (h : (f session).Inspects Q session) :
    (get >>= f : Eval α).Inspects Q session := by
  cases h with
  | ok hRun hResult => exact .ok hRun hResult
  | error hRun hRegular => exact .error hRun hRegular

theorem bind {x : Eval α} {f : α → Eval β} (hFirst : x.Inspects Q session)
    (hRest : ∀ a, Q a → (f a).Inspects Q' session) : (x >>= f).Inspects Q' session := by
  cases hFirst with
  | error hRun hRegular =>
      refine .error ?_ hRegular
      rw [runIn_bind, hRun, continued]
  | @ok a hRun hResult =>
      cases hRest a hResult with
      | ok hRun' hResult' => exact .ok ((runIn_bind_ok hRun f).trans hRun') hResult'
      | error hRun' hRegular => exact .error ((runIn_bind_ok hRun f).trans hRun') hRegular

theorem imp {x : Eval α} {Q₂ : α → Prop} (h : x.Inspects Q session) (hImp : ∀ a, Q a → Q₂ a) :
    x.Inspects Q₂ session := by
  cases h with
  | ok hRun hResult => exact .ok hRun (hImp _ hResult)
  | error hRun hRegular => exact .error hRun hRegular

theorem ofExcept {result : Except Error α} (hOk : ∀ a, result = .ok a → Q a)
    (hError : ∀ error, result = .error error → error.Regular) :
    (Eval.ofExcept result).Inspects Q session := by
  cases result with
  | ok a => exact pure (hOk a rfl)
  | error error => exact fail (hError error rfl)

theorem mapM {items : List α} {f : α → Eval β} (hItem : ∀ a ∈ items, (f a).Inspects Q' session) :
    (items.mapM f).Inspects (fun results => ∀ b ∈ results, Q' b) session := by
  induction items with
  | nil => exact pure (fun _ hMem => nomatch hMem)
  | cons item items ih =>
      rw [List.mapM_cons]
      apply bind (hItem item List.mem_cons_self)
      intro b hFirst
      apply bind (ih fun a hMem => hItem a (List.mem_cons_of_mem _ hMem))
      intro bs hOthers
      exact pure (List.forall_mem_cons.mpr ⟨hFirst, hOthers⟩)

end Inspects

/-! ### Changing the session -/

/-- What a run ends in: a result as expected, or an ordinary failure. -/
def Ends (R : Session → α → Prop) : Except Interruption α × Session → Prop
  | (.ok a, later) => R later a
  | (.error interruption, _) => interruption.Regular

/-- A run that changed the session in permitted ways and ended as expected. -/
structure Orderly (R : Session → α → Prop) (before : Session)
    (run : Except Interruption α × Session) : Prop where
  evolves : before.Evolves run.2
  depth : run.2.depth = before.depth
  ends : Ends R run

/-- The computation makes an orderly run from the session. -/
def Proceeds (R : Session → α → Prop) (x : Eval α) (session : Session) : Prop :=
  Orderly R session (x.runIn session)

theorem Orderly.trans {R : Session → α → Prop} {before middle : Session}
    {run : Except Interruption α × Session} (hEvolves : before.Evolves middle)
    (hDepth : middle.depth = before.depth) (h : Orderly R middle run) : Orderly R before run where
  evolves := hEvolves.trans h.evolves
  depth := h.depth.trans hDepth
  ends := h.ends

namespace Proceeds

variable {R : Session → α → Prop} {S : Session → β → Prop}

theorem pure {a : α} (hResult : R session a) : (Pure.pure a : Eval α).Proceeds R session :=
  ⟨.refl session, rfl, hResult⟩

theorem throw {interruption : Interruption} (hRegular : interruption.Regular) :
    (MonadExcept.throw interruption : Eval α).Proceeds R session :=
  ⟨.refl session, rfl, hRegular⟩

theorem fail {error : Error} (hRegular : error.Regular) : (Eval.fail error : Eval α).Proceeds R session :=
  throw hRegular

theorem read {f : Session → Eval α} (h : (f session).Proceeds R session) :
    (get >>= f : Eval α).Proceeds R session :=
  h

/-- One change. -/
theorem change {f : Session → α × Session} {log : List Extension}
    (hChange : Change (fun _ => False) session log (f session).2) (hDepth : (f session).2.depth = session.depth)
    (hResult : R (f session).2 (f session).1) : (modifyGet f : Eval α).Proceeds R session :=
  ⟨.of_change hChange, hDepth, hResult⟩

theorem inspect {Q : α → Prop} {x : Eval α} {f : α → Eval β} (hFirst : x.Inspects Q session)
    (hRest : ∀ a, Q a → (f a).Proceeds S session) : (x >>= f).Proceeds S session := by
  cases hFirst with
  | error hRun hRegular =>
      rw [Proceeds, runIn_bind, hRun]
      exact ⟨.refl session, rfl, hRegular⟩
  | @ok a hRun hResult =>
      rw [Proceeds, runIn_bind_ok hRun]
      exact hRest a hResult

theorem of_inspects {Q : α → Prop} {x : Eval α} (h : x.Inspects Q session)
    (hResult : ∀ a, Q a → R session a) : x.Proceeds R session := by
  rw [← bind_pure x]
  exact inspect h fun a hExpected => pure (hResult a hExpected)

/-- The second part may ask how the first one came to where it ended. -/
theorem bind_evolves {x : Eval α} {f : α → Eval β} (hFirst : x.Proceeds R session)
    (hRest : ∀ a later, session.Evolves later → R later a → (f a).Proceeds S later) :
    (x >>= f).Proceeds S session := by
  rw [Proceeds, runIn_bind]
  obtain ⟨hEvolves, hDepth, hEnds⟩ := hFirst
  generalize x.runIn session = run at hEvolves hDepth hEnds
  rcases run with ⟨interruption | a, later⟩
  · exact ⟨hEvolves, hDepth, hEnds⟩
  · exact (hRest a later hEvolves hEnds).trans hEvolves hDepth

theorem bind {x : Eval α} {f : α → Eval β} (hSound : session.Sound) (hFirst : x.Proceeds R session)
    (hRest : ∀ a later, later.Sound → session.Grows later → R later a → (f a).Proceeds S later) :
    (x >>= f).Proceeds S session :=
  bind_evolves hFirst fun a later hEvolves =>
    hRest a later (hEvolves.sound hSound) hEvolves.grows

/-- A change whose result nobody looks at. -/
theorem update {f : Session → Session} {x : Eval β} {log : List Extension} (hSound : session.Sound)
    (hChange : Change (fun _ => False) session log (f session)) (hDepth : (f session).depth = session.depth)
    (hRest : (f session).Sound → session.Grows (f session) → x.Proceeds S (f session)) :
    (modify f >>= fun _ => x : Eval β).Proceeds S session :=
  (hRest (hChange.sound hSound) hChange.grows).trans (.of_change hChange) hDepth

/-! ### Lists -/

theorem mapM {items : List α} {f : α → Eval β} (hSound : session.Sound)
    (hMono : ∀ {before after : Session} {b : β}, before.Grows after → S before b → S after b)
    (hItem : ∀ a ∈ items, ∀ later : Session, later.Sound → session.Grows later →
      (f a).Proceeds S later) :
    (items.mapM f).Proceeds (fun later results => ∀ b ∈ results, S later b) session := by
  induction items generalizing session with
  | nil => exact pure (fun _ hMem => nomatch hMem)
  | cons item items ih =>
      rw [List.mapM_cons]
      apply bind hSound (hItem item List.mem_cons_self session hSound (.refl session))
      intro b middle hMiddle hGrows hFirst
      apply bind hMiddle (ih hMiddle fun a hMem later hLater hGrows' =>
        hItem a (List.mem_cons_of_mem _ hMem) later hLater (hGrows.trans hGrows'))
      intro bs later hLater hGrows' hOthers
      exact pure (List.forall_mem_cons.mpr ⟨hMono hGrows' hFirst, hOthers⟩)

theorem foldlM {items : List α} {f : β → α → Eval β} {start : β} (hSound : session.Sound)
    (hStart : S session start)
    (hStep : ∀ b, ∀ a ∈ items, ∀ later : Session, later.Sound → session.Grows later → S later b →
      (f b a).Proceeds S later) :
    (items.foldlM f start).Proceeds S session := by
  induction items generalizing session start with
  | nil => exact pure hStart
  | cons item items ih =>
      rw [List.foldlM_cons]
      apply bind hSound (hStep start item List.mem_cons_self session hSound (.refl session) hStart)
      intro b middle hMiddle hGrows hNext
      exact ih hMiddle hNext fun b a hMem later hLater hGrows' =>
        hStep b a (List.mem_cons_of_mem _ hMem) later hLater (hGrows.trans hGrows')

theorem filterAuxM {Q : α → Prop} {items kept : List α} {f : α → Eval Bool} (hSound : session.Sound)
    (hItems : ∀ a ∈ items, Q a) (hKept : ∀ a ∈ kept, Q a)
    (hItem : ∀ a ∈ items, ∀ later : Session, later.Sound → session.Grows later →
      (f a).Proceeds (fun _ _ => True) later) :
    (items.filterAuxM f kept).Proceeds (fun _ results => ∀ a ∈ results, Q a) session := by
  induction items generalizing session kept with
  | nil => exact pure hKept
  | cons item items ih =>
      obtain ⟨hHead, hTail⟩ := List.forall_mem_cons.mp hItems
      apply bind hSound (hItem item List.mem_cons_self session hSound (.refl session))
      intro keep middle hMiddle hGrows _
      apply ih hMiddle hTail
      · cases keep with
        | false => exact hKept
        | true => exact List.forall_mem_cons.mpr ⟨hHead, hKept⟩
      · intro a hMem later hLater hGrows'
        exact hItem a (List.mem_cons_of_mem _ hMem) later hLater (hGrows.trans hGrows')

theorem filterM {Q : α → Prop} {items : List α} {f : α → Eval Bool} (hSound : session.Sound)
    (hItems : ∀ a ∈ items, Q a)
    (hItem : ∀ a ∈ items, ∀ later : Session, later.Sound → session.Grows later →
      (f a).Proceeds (fun _ _ => True) later) :
    (items.filterM f).Proceeds (fun _ results => ∀ a ∈ results, Q a) session := by
  apply bind hSound (filterAuxM hSound hItems (fun _ hMem => absurd hMem List.not_mem_nil) hItem)
  intro kept later _ _ hKept
  exact pure fun a hMem => hKept a (List.mem_reverse.mp hMem)

theorem forEach {items : List α} {f : α → Eval β} (hSound : session.Sound)
    (hItem : ∀ a ∈ items, ∀ later : Session, later.Sound → session.Grows later →
      (f a).Proceeds S later) :
    (forIn items PUnit.unit fun a _ =>
      f a >>= fun _ => Pure.pure (ForInStep.yield PUnit.unit) : Eval PUnit).Proceeds
        (fun _ _ => True) session := by
  induction items generalizing session with
  | nil => exact pure trivial
  | cons item items ih =>
      simp only [List.forIn_cons, bind_assoc, pure_bind]
      apply bind hSound (hItem item List.mem_cons_self session hSound (.refl session))
      intro _ middle hMiddle hGrows _
      exact ih hMiddle fun a hMem later hLater hGrows' =>
        hItem a (List.mem_cons_of_mem _ hMem) later hLater (hGrows.trans hGrows')

/-! ### Failures and bodies -/

theorem locating {x : Eval α} (expr : Expr) (h : x.Proceeds R session) :
    (Eval.locating expr x).Proceeds R session := by
  rw [Proceeds, runIn_locating]
  obtain ⟨hEvolves, hDepth, hEnds⟩ := h
  generalize x.runIn session = run at hEvolves hDepth hEnds
  rcases run with ⟨(error | panic | fuel) | a, later⟩
  · have hSame := (Session.Balanced.noteFaultSite later expr).depth
    exact ⟨hEvolves.trans (.of_change (.noteFaultSite later expr)), hSame.trans hDepth, hEnds⟩
  · exact ⟨hEvolves, hDepth, hEnds⟩
  · exact ⟨hEvolves, hDepth, hEnds⟩
  · exact ⟨hEvolves, hDepth, hEnds⟩

/-- Failures reach the handler. There is no breakdown that could reach it. -/
theorem handling {x : Eval α} {handler : Error → Eval Unit} (hSound : session.Sound)
    (hTry : x.Proceeds R session)
    (hHandler : ∀ error (later : Session), later.Sound → session.Grows later →
      (handler error).Proceeds (fun _ _ => True) later) :
    (Eval.handling x handler).Proceeds (fun _ _ => True) session := by
  rw [Proceeds, runIn_handling]
  obtain ⟨hEvolves, hDepth, hEnds⟩ := hTry
  generalize x.runIn session = run at hEvolves hDepth hEnds
  rcases run with ⟨(error | panic | fuel) | a, later⟩
  · have hClear : later.Evolves later.clearFaultSite := .of_change (.clearFaultSite later)
    have hLater := hClear.sound (hEvolves.sound hSound)
    have hHandled : (handler error >>= fun _ => Pure.pure true).Proceeds (fun _ _ => True)
        later.clearFaultSite :=
      bind hLater (hHandler error _ hLater (hEvolves.grows.trans hClear.grows))
        fun _ _ _ _ _ => pure trivial
    exact hHandled.trans (hEvolves.trans hClear) hDepth
  · exact hEnds.elim
  · exact ⟨hEvolves, hDepth, hEnds⟩
  · exact ⟨hEvolves, hDepth, trivial⟩

theorem within {x : Eval α} {source? : Option SourceText}
    (hInner : x.Proceeds R (session.withSource source?))
    (hMono : ∀ {before after : Session} {a : α}, before.Grows after → R before a → R after a) :
    (Eval.within source? x).Proceeds R session := by
  rw [Proceeds, runIn_within]
  obtain ⟨hEvolves, hDepth, hEnds⟩ := hInner
  generalize x.runIn (session.withSource source?) = run at hEvolves hDepth hEnds
  obtain ⟨result, later⟩ := run
  have hBefore : session.Evolves (session.withSource source?) := .of_change (.note session ..)
  have hAfter : later.Evolves (later.withSource session.source?) := .of_change (.note later ..)
  refine ⟨(hBefore.trans hEvolves).trans hAfter, hDepth, ?_⟩
  cases result with
  | error interruption => exact hEnds
  | ok a => exact hMono hAfter.grows hEnds

/-- The body of a function ends at its own depth, which is above zero. -/
theorem enter {x : Eval α} {source? : Option SourceText}
    (hBody : x.Proceeds R (session.inside source?))
    (hMono : ∀ {before after : Session} {a : α}, before.Grows after → R before a → R after a) :
    (Eval.enter source? x).Proceeds R session := by
  rw [Proceeds]
  by_cases hLimit : session.maxDepth ≤ session.depth
  · rw [runIn_enter_of_le hLimit]
    exact ⟨.refl session, rfl, trivial⟩
  · rw [runIn_enter hLimit]
    obtain ⟨hEvolves, hDepth, hEnds⟩ := hBody
    generalize x.runIn (session.inside source?) = run at hEvolves hDepth hEnds
    obtain ⟨result, later⟩ := run
    have hBefore : session.Evolves (session.inside source?) := .of_change (.note session ..)
    have hAfter : later.Evolves (later.outside session.source?) := .of_change (.note later ..)
    refine ⟨(hBefore.trans hEvolves).trans hAfter, congrArg (· - 1) hDepth, ?_⟩
    cases result with
    | error interruption => exact hEnds
    | ok a => exact hMono hAfter.grows hEnds

theorem loop {test : Eval Bool} {body : Eval Value} (hSound : session.Sound)
    (hTest : ∀ later : Session, later.Sound → session.Grows later →
      test.Proceeds (fun _ _ => True) later)
    (hBody : ∀ later : Session, later.Sound → session.Grows later → body.Proceeds Value.Lives later)
    (rounds : Nat) {last : Value} (hLast : last.Lives session) :
    (Eval.loop test body rounds last).Proceeds Value.Lives session := by
  induction rounds generalizing session last with
  | zero => exact throw (nofun : Fuel.rounds ≠ Fuel.foreign)
  | succ rounds ih =>
      rw [Eval.loop]
      apply bind hSound (hTest session hSound (.refl session))
      intro holds middle hMiddle hGrows _
      cases holds with
      | false => exact pure (hLast.mono hGrows)
      | true =>
          apply bind hMiddle (hBody middle hMiddle hGrows)
          intro value later hLater hGrows' hValue
          apply ih hLater _ _ hValue
          · intro last hLast hGrows''
            exact hTest last hLast ((hGrows.trans hGrows').trans hGrows'')
          · intro last hLast hGrows''
            exact hBody last hLast ((hGrows.trans hGrows').trans hGrows'')

end Proceeds

end Eval

/-! ### Evaluators -/

/-- From sound sessions, the way to evaluate gives values whose references exist. -/
def Evaluator.Abides (evaluate : Expr → ScopeId → Eval Value) : Prop :=
  ∀ expr scope, ∀ session : Session, session.Sound → (evaluate expr scope).Proceeds Value.Lives session

structure Access.Orderly (access : Access) : Prop where
  evaluate : Evaluator.Abides access.evaluate
  adopt (exprs : List Expr) {session : Session} (hSound : session.Sound) :
    (access.adopt exprs).Proceeds (fun _ evaluate => Evaluator.Abides evaluate) session

/-- All that the evaluator does from sound sessions is orderly. -/
structure Evaluator.Orderly (ev : Evaluator) : Prop extends Access.Orderly ev.toAccess where
  guarded : ev.guarded.Orderly
  enter {source? : Option SourceText} {body : Eval Value} {session : Session}
    (hBody : body.Proceeds Value.Lives (session.inside source?)) :
    (ev.enter source? body).Proceeds Value.Lives session

namespace Evaluator.Orderly

variable {ev : Evaluator}

theorem guarding (h : ev.Orderly) : ev.guarding.Orderly :=
  { h.guarded with
    guarded := h.guarded
    enter := h.enter }

theorem adopting (h : ev.Orderly) (exprs : List Expr) {session : Session} (hSound : session.Sound) :
    (ev.adopting exprs).Proceeds (fun _ guest => guest.Orderly) session := by
  rw [Evaluator.adopting]
  split
  · exact .pure h
  · apply Eval.Proceeds.bind hSound (h.adopt exprs hSound)
    intro evaluate later _ _ hEvaluate
    exact .pure { h with evaluate := hEvaluate }

theorem sequence (h : ev.Orderly) (exprs : List Expr) (scope : ScopeId) {session : Session}
    (hSound : session.Sound) : (ev.sequence exprs scope).Proceeds Value.Lives session := by
  apply Eval.Proceeds.foldlM hSound trivial
  intro _ expr _ later hLater _ _
  exact h.evaluate expr scope later hLater

end Evaluator.Orderly

end MessageLisp
