import MessageLisp.Proofs.Semantics.Evaluation

/-! Simulation. An evaluator follows another if it does the same on alike sessions for as long as it
goes on; it may give up earlier, for want of some kinds of fuel. If one evaluator follows another on
expressions, it does so on every computation. -/
namespace MessageLisp

open Source (Expr)

/-- The session with another program as the current one. -/
def Session.withSource (session : Session) (source? : Option SourceText) : Session :=
  { session with source? }

/-- The session as the body of a function sees it. -/
def Session.inside (session : Session) (source? : Option SourceText) : Session :=
  { session with depth := session.depth + 1, source? }

/-- The session after the body of a function that was applied in the program `source?`. -/
def Session.outside (session : Session) (source? : Option SourceText) : Session :=
  { session with depth := session.depth - 1, source? }

namespace Eval

variable {α β : Type}

/-- The outcome of a computation and the session that it leaves behind. -/
def runIn (x : Eval α) (session : Session) : Except Interruption α × Session :=
  x.run.run session

theorem runIn_pure (a : α) (session : Session) :
    (pure a : Eval α).runIn session = (.ok a, session) :=
  rfl

theorem runIn_get_bind (f : Session → Eval α) (session : Session) :
    (get >>= f : Eval α).runIn session = (f session).runIn session :=
  rfl

theorem runIn_modifyGet (f : Session → α × Session) (session : Session) :
    (modifyGet f : Eval α).runIn session = (.ok (f session).1, (f session).2) :=
  rfl

theorem runIn_requireOpen {session : Session} (h : session.isOpen = true) :
    requireOpen.runIn session = (.ok (), session) := by
  rw [requireOpen, runIn_get_bind, h]
  rfl

theorem runIn_closureOf {session : Session} {id : ClosureId} {closure : Closure}
    (h : session.closures[id.index]? = some closure) :
    (closureOf id).runIn session = (.ok closure, session) := by
  rw [closureOf, runIn_get_bind, h]
  rfl

/-- How a computation goes on after the outcome of its first part. -/
def continued (f : α → Eval β) :
    Except Interruption α × Session → Except Interruption β × Session
  | (.ok a, later) => (f a).runIn later
  | (.error interruption, later) => (.error interruption, later)

theorem runIn_bind (x : Eval α) (f : α → Eval β) (session : Session) :
    (x >>= f).runIn session = continued f (x.runIn session) := by
  change (match x.runIn session with
    | (result, later) => (ExceptT.bindCont f result : StateM Session _) later) = _
  rcases x.runIn session with ⟨_ | _, later⟩ <;> rfl

theorem runIn_bind_ok {x : Eval α} {a : α} {session later : Session}
    (h : x.runIn session = (.ok a, later)) (f : α → Eval β) :
    (x >>= f).runIn session = (f a).runIn later := by
  rw [runIn_bind, h, continued]

theorem runIn_bind_error {x : Eval α} {session : Session} {interruption : Interruption}
    (h : (x.runIn session).1 = .error interruption) (f : α → Eval β) :
    ((x >>= f).runIn session).1 = .error interruption := by
  rw [runIn_bind]
  rcases hRun : x.runIn session with ⟨result, later⟩
  rw [hRun] at h
  obtain rfl : result = _ := h
  rfl

theorem exists_of_runIn_bind {x : Eval α} {f : α → Eval β} {session later : Session} {b : β}
    (h : (x >>= f).runIn session = (.ok b, later)) :
    ∃ a middle, x.runIn session = (.ok a, middle) ∧ (f a).runIn middle = (.ok b, later) := by
  rw [runIn_bind] at h
  rcases hFirst : x.runIn session with ⟨interruption | a, middle⟩
  · rw [hFirst] at h
    cases h
  · rw [hFirst] at h
    exact ⟨a, middle, rfl, h⟩

theorem runIn_outcome_bind (x : Eval α) (f : Except Interruption α → Eval β) (session : Session) :
    (outcome x >>= f).runIn session = (f (x.runIn session).1).runIn (x.runIn session).2 := by
  rw [runIn_bind]
  rfl

/-- What `attempt` makes of an outcome. -/
def attempted : Except Interruption α × Session → Except Interruption (Except Error α) × Session
  | (.ok a, later) => (.ok (.ok a), later)
  | (.error (.error error), later) => (.ok (.error error), later)
  | (.error (.panic panic), later) => (.ok (.error panic.toError), later)
  | (.error (.outOfFuel fuel), later) => (.error (.outOfFuel fuel), later)

theorem runIn_attempt (x : Eval α) (session : Session) :
    (attempt x).runIn session = attempted (x.runIn session) := by
  rw [attempt, runIn_outcome_bind]
  rcases x.runIn session with ⟨(_ | _ | _) | _, later⟩ <;> rfl

theorem attempted_outOfFuel {outcome : Except Interruption α × Session} {fuel : Fuel}
    (h : outcome.1 = .error (.outOfFuel fuel)) :
    (attempted outcome).1 = .error (.outOfFuel fuel) := by
  obtain ⟨result, later⟩ := outcome
  obtain rfl : result = _ := h
  rfl

theorem attempted_session (outcome : Except Interruption α × Session) :
    (attempted outcome).2 = outcome.2 := by
  rcases outcome with ⟨(_ | _ | _) | _, later⟩ <;> rfl

/-- What `handling` makes of an outcome. -/
def handled (handler : Error → Eval Unit) :
    Except Interruption α × Session → Except Interruption Bool × Session
  | (.ok _, later) => (.ok false, later)
  | (.error (.error error), later) =>
    (handler error >>= fun _ => pure true).runIn later.clearFaultSite
  | (.error (.panic panic), later) =>
    (handler panic.toError >>= fun _ => pure true).runIn later.clearFaultSite
  | (.error (.outOfFuel fuel), later) => (.error (.outOfFuel fuel), later)

theorem runIn_handling (x : Eval α) (handler : Error → Eval Unit) (session : Session) :
    (handling x handler).runIn session = handled handler (x.runIn session) := by
  rw [handling, runIn_bind, runIn_attempt]
  rcases x.runIn session with ⟨(_ | _ | _) | _, later⟩ <;> rfl

theorem runIn_andFinally (x : Eval α) (f : Session → Session) (session : Session) :
    (andFinally x f).runIn session = ((x.runIn session).1, f (x.runIn session).2) := by
  rw [andFinally, runIn_outcome_bind]
  rcases x.runIn session with ⟨_ | _, later⟩ <;> rfl

/-- What `locating` makes of an outcome. -/
def located (expr : Expr) : Except Interruption α × Session → Except Interruption α × Session
  | (.error (.error error), later) => (.error (.error error), later.noteFaultSite expr)
  | outcome => outcome

theorem runIn_locating (expr : Expr) (x : Eval α) (session : Session) :
    (locating expr x).runIn session = located expr (x.runIn session) := by
  rw [locating, runIn_outcome_bind]
  rcases x.runIn session with ⟨(_ | _ | _) | _, later⟩ <;> rfl

theorem located_outOfFuel {expr : Expr} {outcome : Except Interruption α × Session} {fuel : Fuel}
    (h : outcome.1 = .error (.outOfFuel fuel)) :
    (located expr outcome).1 = .error (.outOfFuel fuel) := by
  obtain ⟨result, later⟩ := outcome
  obtain rfl : result = _ := h
  rfl

theorem runIn_within (source? : Option SourceText) (x : Eval α) (session : Session) :
    (within source? x).runIn session =
      ((x.runIn (session.withSource source?)).1,
        (x.runIn (session.withSource source?)).2.withSource session.source?) := by
  rw [within, runIn_get_bind, runIn_bind]
  exact runIn_andFinally x _ _

theorem runIn_enter_of_le {session : Session} (hLimit : session.maxDepth ≤ session.depth)
    (source? : Option SourceText) (x : Eval α) :
    (enter source? x).runIn session =
      (.error (.error (.stackExhausted session.maxDepth)), session) := by
  rw [enter, deeper, runIn_get_bind, if_pos hLimit]
  rfl

theorem runIn_enter {session : Session} (hLimit : ¬session.maxDepth ≤ session.depth)
    (source? : Option SourceText) (x : Eval α) :
    (enter source? x).runIn session =
      ((x.runIn (session.inside source?)).1,
        (x.runIn (session.inside source?)).2.outside session.source?) := by
  rw [enter, deeper, runIn_get_bind, if_neg hLimit, runIn_bind]
  change (andFinally _ _).runIn _ = _
  rw [runIn_andFinally, runIn_within]
  rfl

theorem exists_of_runIn_enter {source? : Option SourceText} {x : Eval α} {session later : Session}
    {a : α} (h : (enter source? x).runIn session = (.ok a, later)) :
    ∃ middle, x.runIn (session.inside source?) = (.ok a, middle) := by
  by_cases hLimit : session.maxDepth ≤ session.depth
  · rw [runIn_enter_of_le hLimit] at h
    cases h
  · rw [runIn_enter hLimit] at h
    exact ⟨(x.runIn (session.inside source?)).2, Prod.ext (Prod.mk.inj h).1 rfl⟩

end Eval

/-! ### Following -/

/-- Two runs that went the same way. -/
structure Matches (L : Likeness) {α : Type} (R : α → α → Prop) (before before' : Session)
    (run run' : Except Interruption α × Session) : Prop where
  result : ExceptAlike R run.1 run'.1
  session : run.2.Alike L run'.2
  balanced : before.Balanced run.2
  balanced' : before'.Balanced run'.2

/-- Under a strict likeness, runs that went the same way are equal. -/
theorem Matches.eq {L : Likeness} {α : Type} {R : α → α → Prop} {before before' : Session}
    {run run' : Except Interruption α × Session} (hStrict : L.Strict)
    (hEq : ∀ a a', R a a' → a = a') (h : Matches L R before before' run run') : run = run' := by
  obtain ⟨result, later⟩ := run
  obtain ⟨result', later'⟩ := run'
  obtain ⟨hResult, hLater, _, _⟩ := h
  obtain rfl : later = later' := hLater.eq hStrict
  cases hResult with
  | ok hValue => rw [hEq _ _ hValue]
  | error interruption => rfl

/-- From alike sessions, `x` either gives up for want of fuel of an excused kind or goes the same way
as `x'`. -/
def Eval.Follows (L : Likeness) (excused : Fuel → Prop) (program program' : Option SourceText)
    {α : Type} (R : α → α → Prop) (x x' : Eval α) : Prop :=
  ∀ session session' : Session, session.Alike L session' → session.source? = program →
    session'.source? = program' →
      (∃ fuel, excused fuel ∧ (x.runIn session).1 = .error (.outOfFuel fuel)) ∨
        Matches L R session session' (x.runIn session) (x'.runIn session')

namespace Eval.Follows

variable {L : Likeness} {excused : Fuel → Prop} {program program' : Option SourceText}
variable {α β : Type} {R : α → α → Prop} {S : β → β → Prop}

theorem pure {a a' : α} (hValue : R a a') :
    Follows L excused program program' R (Pure.pure a) (Pure.pure a') := by
  intro session session' hAlike _ _
  exact .inr ⟨.ok hValue, hAlike, .refl session, .refl session'⟩

theorem throw (interruption : Interruption) :
    Follows L excused program program' R (MonadExcept.throw interruption)
      (MonadExcept.throw interruption) := by
  intro session session' hAlike _ _
  exact .inr ⟨.error interruption, hAlike, .refl session, .refl session'⟩

theorem bind {x x' : Eval α} {f f' : α → Eval β} (hFirst : Follows L excused program program' R x x')
    (hRest : ∀ a a', R a a' → Follows L excused program program' S (f a) (f' a')) :
    Follows L excused program program' S (x >>= f) (x' >>= f') := by
  intro session session' hAlike hSource hSource'
  rcases hFirst session session' hAlike hSource hSource' with ⟨fuel, hFuel, hOut⟩ | hMatches
  · exact .inl ⟨fuel, hFuel, runIn_bind_error hOut f⟩
  · rw [runIn_bind, runIn_bind]
    generalize x.runIn session = run at hMatches ⊢
    generalize x'.runIn session' = run' at hMatches ⊢
    obtain ⟨result, later⟩ := run
    obtain ⟨result', later'⟩ := run'
    obtain ⟨hResult, hLater, hBalanced, hBalanced'⟩ := hMatches
    cases hResult with
    | error interruption => exact .inr ⟨.error interruption, hLater, hBalanced, hBalanced'⟩
    | ok hValue =>
        rcases hRest _ _ hValue later later' hLater (hBalanced.source.trans hSource)
          (hBalanced'.source.trans hSource') with hOut | hNext
        · exact .inl hOut
        · exact .inr ⟨hNext.result, hNext.session, hBalanced.trans hNext.balanced,
            hBalanced'.trans hNext.balanced'⟩

theorem read {f f' : Session → Eval α}
    (hRest : ∀ session session' : Session, session.Alike L session' → session.source? = program →
      session'.source? = program' →
        Follows L excused program program' R (f session) (f' session')) :
    Follows L excused program program' R (get >>= f) (get >>= f') := by
  intro session session' hAlike hSource hSource'
  exact hRest session session' hAlike hSource hSource' session session' hAlike hSource hSource'

theorem step {f f' : Session → α × Session}
    (hStep : ∀ session session' : Session, session.Alike L session' → session.source? = program →
      session'.source? = program' → R (f session).1 (f' session').1 ∧
        (f session).2.Alike L (f' session').2)
    (hBalanced : ∀ session : Session, session.Balanced (f session).2)
    (hBalanced' : ∀ session : Session, session.Balanced (f' session).2) :
    Follows L excused program program' R (modifyGet f) (modifyGet f') := by
  intro session session' hAlike hSource hSource'
  obtain ⟨hResult, hLater⟩ := hStep session session' hAlike hSource hSource'
  exact .inr ⟨.ok hResult, hLater, hBalanced session, hBalanced' session'⟩

theorem attempt {x x' : Eval α} (hTry : Follows L excused program program' R x x') :
    Follows L excused program program' (ExceptAlike R) (Eval.attempt x) (Eval.attempt x') := by
  intro session session' hAlike hSource hSource'
  rw [runIn_attempt, runIn_attempt]
  rcases hTry session session' hAlike hSource hSource' with ⟨fuel, hFuel, hOut⟩ | hMatches
  · exact .inl ⟨fuel, hFuel, attempted_outOfFuel hOut⟩
  · generalize x.runIn session = run at hMatches ⊢
    generalize x'.runIn session' = run' at hMatches ⊢
    obtain ⟨result, later⟩ := run
    obtain ⟨result', later'⟩ := run'
    obtain ⟨hResult, hLater, hBalanced, hBalanced'⟩ := hMatches
    right
    cases hResult with
    | ok hValue => exact ⟨.ok (.ok hValue), hLater, hBalanced, hBalanced'⟩
    | error interruption =>
        cases interruption with
        | error error => exact ⟨.ok (.error error), hLater, hBalanced, hBalanced'⟩
        | panic panic => exact ⟨.ok (.error panic.toError), hLater, hBalanced, hBalanced'⟩
        | outOfFuel fuel =>
            exact ⟨ExceptAlike.error (Interruption.outOfFuel fuel), hLater, hBalanced, hBalanced'⟩

theorem locating {x x' : Eval α} {expr expr' : Expr} (hCode : L.code program program' expr expr')
    (hInner : Follows L excused program program' R x x') :
    Follows L excused program program' R (Eval.locating expr x) (Eval.locating expr' x') := by
  intro session session' hAlike hSource hSource'
  rw [runIn_locating, runIn_locating]
  rcases hInner session session' hAlike hSource hSource' with ⟨fuel, hFuel, hOut⟩ | hMatches
  · exact .inl ⟨fuel, hFuel, located_outOfFuel hOut⟩
  · generalize x.runIn session = run at hMatches ⊢
    generalize x'.runIn session' = run' at hMatches ⊢
    obtain ⟨result, later⟩ := run
    obtain ⟨result', later'⟩ := run'
    obtain ⟨hResult, hLater, hBalanced, hBalanced'⟩ := hMatches
    right
    cases hResult with
    | ok hValue => exact ⟨.ok hValue, hLater, hBalanced, hBalanced'⟩
    | error interruption =>
        cases interruption with
        | error error =>
            refine ⟨.error _, hLater.noteFaultSite ?_, hBalanced.trans (.noteFaultSite later expr),
              hBalanced'.trans (.noteFaultSite later' expr')⟩
            rw [hBalanced.source.trans hSource, hBalanced'.source.trans hSource']
            exact hCode
        | panic panic => exact ⟨.error _, hLater, hBalanced, hBalanced'⟩
        | outOfFuel fuel => exact ⟨.error _, hLater, hBalanced, hBalanced'⟩

theorem handling {x x' : Eval α} {handler handler' : Error → Eval Unit}
    (hTry : Follows L excused program program' R x x')
    (hHandler : ∀ error, Follows L excused program program' Eq (handler error) (handler' error)) :
    Follows L excused program program' Eq (Eval.handling x handler) (Eval.handling x' handler') := by
  apply bind (attempt hTry)
  intro result result' hResult
  cases hResult with
  | ok _ => exact pure rfl
  | error error =>
      have hClear : Follows L excused program program' Eq (modify Session.clearFaultSite)
          (modify Session.clearFaultSite) :=
        step (fun _ _ hAlike _ _ => ⟨rfl, hAlike.clearFaultSite⟩)
          (fun session => .clearFaultSite session) fun session => .clearFaultSite session
      apply bind hClear
      rintro _ _ rfl
      apply bind (hHandler error)
      rintro _ _ rfl
      exact pure rfl

/-- Below their limits, two functions go the same way if their bodies do. -/
theorem enter_of_lt {inner inner' : Option SourceText} {x x' : Eval α}
    (hSource : L.source inner inner') (hBody : Follows L excused inner inner' R x x')
    {session session' : Session} (hAlike : session.Alike L session')
    (hBelow : session.depth < session.maxDepth) (hBelow' : session'.depth < session'.maxDepth) :
    (∃ fuel, excused fuel ∧ ((Eval.enter inner x).runIn session).1 = .error (.outOfFuel fuel)) ∨
      Matches L R session session' ((Eval.enter inner x).runIn session)
        ((Eval.enter inner' x').runIn session') := by
  rw [runIn_enter (Nat.not_le.mpr hBelow), runIn_enter (Nat.not_le.mpr hBelow')]
  have hInside : (session.inside inner).Alike L (session'.inside inner') :=
    { hAlike with level := L.levels.deeper hAlike.level hBelow hBelow', source := hSource }
  rcases hBody _ _ hInside rfl rfl with hOut | hMatches
  · exact .inl hOut
  · have hBalanced : session.Balanced ((x.runIn (session.inside inner)).2.outside session.source?) :=
      { hMatches.balanced with
        depth := congrArg (· - 1) hMatches.balanced.depth, source := rfl
        retains := ⟨hMatches.balanced.retains.closures, hMatches.balanced.retains.classes⟩ }
    have hBalanced' : session'.Balanced
        ((x'.runIn (session'.inside inner')).2.outside session'.source?) :=
      { hMatches.balanced' with
        depth := congrArg (· - 1) hMatches.balanced'.depth, source := rfl
        retains := ⟨hMatches.balanced'.retains.closures, hMatches.balanced'.retains.classes⟩ }
    refine .inr ⟨hMatches.result, { hMatches.session with level := ?_, source := hAlike.source },
      hBalanced, hBalanced'⟩
    rw [hBalanced.level_eq, hBalanced'.level_eq]
    exact hAlike.level

theorem enter (hFixed : L.levels.Fixed) {inner inner' : Option SourceText} {x x' : Eval α}
    (hSource : L.source inner inner') (hBody : Follows L excused inner inner' R x x') :
    Follows L excused program program' R (Eval.enter inner x) (Eval.enter inner' x') := by
  intro session session' hAlike _ _
  have hDepth := hAlike.depth_eq
  have hLimit : session.maxDepth = session'.maxDepth := hFixed hAlike.level
  by_cases hBelow : session.depth < session.maxDepth
  · exact enter_of_lt hSource hBody hAlike hBelow (by omega)
  · rw [runIn_enter_of_le (by omega), runIn_enter_of_le (by omega), hLimit]
    exact .inr ⟨.error _, hAlike, .refl session, .refl session'⟩

/-- More rounds do not change a loop that ends. -/
theorem loop {test test' : Eval Bool} {body body' : Eval Value} {rounds rounds' : Nat}
    (hRounds : rounds = rounds' ∨ rounds ≤ rounds' ∧ excused .rounds)
    (hTest : Follows L excused program program' Eq test test')
    (hBody : Follows L excused program program' (Value.Alike L) body body')
    {last last' : Value} (hLast : last.Alike L last') :
    Follows L excused program program' (Value.Alike L) (Eval.loop test body rounds last)
      (Eval.loop test' body' rounds' last') := by
  induction rounds generalizing rounds' last last' with
  | zero =>
      rcases hRounds with rfl | ⟨_, hExcused⟩
      · exact throw _
      · exact fun _ _ _ _ _ => .inl ⟨.rounds, hExcused, rfl⟩
  | succ rounds ih =>
      obtain ⟨rest, rfl⟩ : ∃ rest, rounds' = rest + 1 := ⟨rounds' - 1, by omega⟩
      have hRest : rounds = rest ∨ rounds ≤ rest ∧ excused .rounds :=
        hRounds.imp (by omega) fun hMore => ⟨by omega, hMore.2⟩
      rw [Eval.loop, Eval.loop]
      apply bind hTest
      rintro holds _ rfl
      cases holds with
      | false => exact pure hLast
      | true =>
          apply bind hBody
          intro value value' hValue
          exact ih hRest hValue

end Eval.Follows

/-- One way to evaluate follows another on every expression. -/
def Evaluator.Tracks (L : Likeness) (excused : Fuel → Prop)
    (evaluate evaluate' : Expr → ScopeId → Eval Value) : Prop :=
  ∀ ⦃program program' : Option SourceText⦄ ⦃expr expr' : Expr⦄,
    L.code program program' expr expr' → ∀ scope : ScopeId,
      Eval.Follows L excused program program' (Value.Alike L) (evaluate expr scope)
        (evaluate' expr' scope)

/-- The first ways to evaluate follow the second. What they take in from elsewhere, they take in as
part of the current program. -/
structure Access.Follows (L : Likeness) (excused : Fuel → Prop) (access access' : Access) : Prop where
  evaluate : Evaluator.Tracks L excused access.evaluate access'.evaluate
  adopt {program program' : Option SourceText} {exprs exprs' : List Expr}
    (hExprs : List.Forall₂ L.expr exprs exprs') :
    Eval.Follows L excused program program'
      (fun evaluate evaluate' => List.Forall₂ (L.code program program') exprs exprs' ∧
        Evaluator.Tracks L excused evaluate evaluate')
      (access.adopt exprs) (access'.adopt exprs')

/-- Ways to evaluate without regard for where expressions come from. -/
theorem Access.Follows.uniform {L : Likeness} {excused : Fuel → Prop}
    (hAny : ∀ ⦃program program' : Option SourceText⦄ ⦃expr expr' : Expr⦄,
      L.expr expr expr' → L.code program program' expr expr')
    {evaluate evaluate' : Expr → ScopeId → Eval Value}
    (hEvaluate : Evaluator.Tracks L excused evaluate evaluate') :
    Access.Follows L excused (.uniform evaluate) (.uniform evaluate') where
  evaluate := hEvaluate
  adopt hExprs := .pure ⟨hExprs.imp fun _ _ hExpr => hAny hExpr, hEvaluate⟩

/-- The first evaluator follows the second. -/
structure Evaluator.Follows (L : Likeness) (excused : Fuel → Prop) (ev ev' : Evaluator) : Prop
    extends Access.Follows L excused ev.toAccess ev'.toAccess where
  guarded : Access.Follows L excused ev.guarded ev'.guarded
  enter {program program' inner inner' : Option SourceText} {x x' : Eval Value}
    (hSource : L.source inner inner')
    (hBody : Eval.Follows L excused inner inner' (Value.Alike L) x x') :
    Eval.Follows L excused program program' (Value.Alike L) (ev.enter inner x) (ev'.enter inner' x')
  rounds : ev.rounds = ev'.rounds ∨ ev.rounds ≤ ev'.rounds ∧ excused .rounds

theorem Evaluator.Follows.guarding {L : Likeness} {excused : Fuel → Prop} {ev ev' : Evaluator}
    (h : Evaluator.Follows L excused ev ev') :
    Evaluator.Follows L excused ev.guarding ev'.guarding :=
  { h.guarded with
    guarded := h.guarded
    enter := h.enter
    rounds := h.rounds }

/-- Whatever is put together from values of expressions is followed if these are. -/
theorem Computes.follows {L : Likeness} {excused : Fuel → Prop} {program program' : Option SourceText}
    {P : Expr → Expr → Prop} {α : Type} {R : α → α → Prop} {x x' : Evaluator → Eval α}
    (h : Computes L program program' P R x x') {ev ev' : Evaluator}
    (hFollows : Evaluator.Follows L excused ev ev') :
    Eval.Follows L excused program program' R (x ev) (x' ev') := by
  induction h generalizing ev ev' with
  | pure hValue => exact .pure hValue
  | fail error => exact .throw _
  | panic panic => exact .throw _
  | bind _ _ ihFirst ihRest => exact .bind (ihFirst hFollows) fun a a' hValue => ihRest a a' hValue hFollows
  | read _ ih =>
      apply Eval.Follows.read
      intro session session' hAlike hSource hSource'
      exact ih session session' hAlike hSource hSource' hFollows
  | step hStep hQuiet hQuiet' =>
      exact .step hStep (fun session => (hQuiet session).toBalanced)
        fun session => (hQuiet' session).toBalanced
  | evaluate _ hCode scope => exact hFollows.evaluate hCode scope
  | adopt hExprs _ ih =>
      apply Eval.Follows.bind (hFollows.adopt hExprs)
      rintro evaluate evaluate' ⟨hCode, hEvaluate⟩
      exact ih hCode { hFollows with evaluate := hEvaluate }
  | handle _ _ ihTry ihHandler =>
      exact .handling (ihTry hFollows.guarding) fun error => ihHandler error hFollows
  | enter hSource _ ih => exact hFollows.enter hSource (ih hFollows)
  | loop _ _ hLast ihTest ihBody => exact .loop hFollows.rounds (ihTest hFollows) (ihBody hFollows) hLast

/-- An evaluator given by its ways to evaluate. -/
def Evaluator.Plain (ev : Evaluator) : Prop :=
  ev = .ofAccess ev.toAccess ev.rounds

theorem Evaluator.ofFuel_plain (fuel : Nat) : (Evaluator.ofFuel fuel).Plain := by
  cases fuel <;> rfl

theorem Evaluator.ofFuel_adopt (fuel : Nat) (exprs : List Expr) :
    (Evaluator.ofFuel fuel).adopt exprs = pure (Evaluator.ofFuel fuel).evaluate := by
  cases fuel <;> rfl

theorem Evaluator.ofFuel_enter (fuel : Nat) : (Evaluator.ofFuel fuel).enter = Eval.enter := by
  cases fuel <;> rfl

namespace Evaluator.Follows

variable {L : Likeness} {excused : Fuel → Prop}

theorem evaluateExpr {ev ev' : Evaluator} (h : Evaluator.Follows L excused ev ev') :
    Evaluator.Tracks L excused ev.evaluateExpr ev'.evaluateExpr := by
  intro program program' expr expr' hCode scope
  exact .locating hCode ((Computes.interpret hCode (L.code_parts hCode) scope).follows h)

theorem ofAccess (hFixed : L.levels.Fixed) {access access' : Access} {rounds rounds' : Nat}
    (h : Access.Follows L excused access access')
    (hRounds : rounds = rounds' ∨ rounds ≤ rounds' ∧ excused .rounds) :
    Evaluator.Follows L excused (.ofAccess access rounds) (.ofAccess access' rounds') :=
  { h with
    guarded := h
    enter := fun hSource hBody => .enter hFixed hSource hBody
    rounds := hRounds }

theorem plain (hFixed : L.levels.Fixed) {ev ev' : Evaluator} (hPlain : ev.Plain) (hPlain' : ev'.Plain)
    (h : Access.Follows L excused ev.toAccess ev'.toAccess)
    (hRounds : ev.rounds = ev'.rounds ∨ ev.rounds ≤ ev'.rounds ∧ excused .rounds) :
    Evaluator.Follows L excused ev ev' := by
  rw [hPlain, hPlain']
  exact ofAccess hFixed h hRounds

/-- Evaluators without regard for where expressions come from. -/
theorem uniform (hFixed : L.levels.Fixed)
    (hAny : ∀ ⦃program program' : Option SourceText⦄ ⦃expr expr' : Expr⦄,
      L.expr expr expr' → L.code program program' expr expr')
    {evaluate evaluate' : Expr → ScopeId → Eval Value} {rounds rounds' : Nat}
    (hEvaluate : Evaluator.Tracks L excused evaluate evaluate')
    (hRounds : rounds = rounds' ∨ rounds ≤ rounds' ∧ excused .rounds) :
    Evaluator.Follows L excused (.uniform evaluate rounds) (.uniform evaluate' rounds') :=
  ofAccess hFixed (.uniform hAny hEvaluate) hRounds

theorem ofFuel (hFixed : L.levels.Fixed)
    (hAny : ∀ ⦃program program' : Option SourceText⦄ ⦃expr expr' : Expr⦄,
      L.expr expr expr' → L.code program program' expr expr') (fuel : Nat) :
    Evaluator.Follows L (fun _ => False) (.ofFuel fuel) (.ofFuel fuel) := by
  induction fuel with
  | zero => exact uniform hFixed hAny (fun _ _ _ _ _ _ => .throw _) (.inl rfl)
  | succ fuel ih => exact uniform hFixed hAny ih.evaluateExpr (.inl rfl)

end Evaluator.Follows

/-- A computation of the language leaves alone what evaluation leaves alone, whatever its outcome. -/
theorem Computes.balanced_of_follows {program : Option SourceText} {P : Expr → Expr → Prop} {α : Type}
    {R : α → α → Prop} {x x' : Evaluator → Eval α} (h : Computes .equality program program P R x x')
    {ev : Evaluator} (hFollows : Evaluator.Follows .equality (fun _ => False) ev ev)
    {session : Session} (hSource : session.source? = program) :
    session.Balanced ((x ev).runIn session).2 := by
  rcases h.follows hFollows session session session.alike_equality hSource hSource with
    ⟨_, hNever, _⟩ | hMatches
  · exact hNever.elim
  · exact hMatches.balanced

/-- A value that a computation gives has a counterpart, and the session stays balanced. -/
theorem Computes.exists_counterpart {program : Option SourceText} {P : Expr → Expr → Prop} {α : Type}
    {R : α → α → Prop} {x x' : Evaluator → Eval α} (h : Computes .equality program program P R x x')
    {ev : Evaluator} (hFollows : Evaluator.Follows .equality (fun _ => False) ev ev)
    {session later : Session} (hSource : session.source? = program) {a : α}
    (hRun : (x ev).runIn session = (.ok a, later)) :
    (∃ a', R a a') ∧ session.Balanced later := by
  refine ⟨?_, by simpa only [hRun] using h.balanced_of_follows hFollows hSource⟩
  rcases h.follows hFollows session session session.alike_equality hSource hSource with
    ⟨_, hNever, _⟩ | ⟨hResult, _, _, _⟩
  · exact hNever.elim
  · rw [hRun] at hResult
    generalize ((x' ev).runIn session).1 = result' at hResult
    cases hResult with
    | ok hValue => exact ⟨_, hValue⟩

theorem Computes.balanced {program : Option SourceText} {P : Expr → Expr → Prop} {α : Type}
    {R : α → α → Prop} {x : Evaluator → Eval α}
    (h : Computes .equality program program P R x x) (fuel : Nat) {session : Session}
    (hSource : session.source? = program) :
    session.Balanced ((x (.ofFuel fuel)).runIn session).2 :=
  h.balanced_of_follows (.ofFuel LevelLikeness.equality_fixed (fun _ _ _ _ => id) fuel) hSource

end MessageLisp
