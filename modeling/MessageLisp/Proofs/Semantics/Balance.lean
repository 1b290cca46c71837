import MessageLisp.Native.EntryPoint
import MessageLisp.Proofs.Semantics.Limits

/-! Balance. Whatever a host asks of a session, and however it ends, the depth of applications stays
between where it was and the limit on the way, and comes back to where it was; so does the current
program. -/
namespace MessageLisp

open Source (Expr)
open Native (Signature Cell NativeType)

variable {start limit : Nat}

/-! ### Watching the depth -/

namespace Eval

/-- Gives up unless the depth is between `start` and `limit`. -/
def look (start limit : Nat) : Eval Unit := do
  let session ← get
  unless start ≤ session.depth ∧ session.depth ≤ limit do throw (.outOfFuel .nesting)

/-- Looks at the depth before `x` and after it, whatever its outcome. -/
def watching (start limit : Nat) (x : Eval Value) : Eval Value := do
  look start limit
  let result ← outcome x
  look start limit
  MonadExcept.ofExcept result

theorem runIn_look {session : Session} (h : start ≤ session.depth ∧ session.depth ≤ limit) :
    (look start limit).runIn session = (.ok (), session) := by
  rw [look, runIn_get_bind, if_pos h]
  rfl

theorem runIn_watching {x : Eval Value} {session : Session}
    (hBefore : start ≤ session.depth ∧ session.depth ≤ limit)
    (hAfter : start ≤ (x.runIn session).2.depth ∧ (x.runIn session).2.depth ≤ limit) :
    (watching start limit x).runIn session = x.runIn session := by
  rw [watching, runIn_bind_ok (runIn_look hBefore), runIn_outcome_bind,
    runIn_bind_ok (runIn_look hAfter)]
  rcases x.runIn session with ⟨_ | _, later⟩ <;> rfl

end Eval

/-- Equal levels, between a depth and a limit. -/
def LevelLikeness.between (start limit : Nat) : LevelLikeness where
  alike level level' :=
    level = level' ∧ level.limit = limit ∧ start ≤ level.depth ∧ level.depth ≤ limit
  depth_eq h := congrArg Level.depth h.1
  deeper := by
    rintro level _ ⟨rfl, hLimit, hStart, _⟩ hBelow _
    exact ⟨rfl, hLimit, Nat.le_succ_of_le hStart, hLimit ▸ hBelow⟩

/-- Equality of sessions between a depth and a limit. -/
def Likeness.between (start limit : Nat) : Likeness :=
  { Likeness.equality with levels := .between start limit }

theorem Likeness.between_strict : (Likeness.between start limit).Strict :=
  ⟨⟨id, id⟩, And.left⟩

theorem Value.eq_of_between (value value' : Value)
    (h : value.Alike (.between start limit) value') : value = value' :=
  h.eq Likeness.between_strict.toLiteral

theorem Eval.Follows.watching {program program' : Option SourceText} {x x' : Eval Value}
    (h : Eval.Follows (.between start limit) (fun _ => False) program program'
      (Value.Alike (.between start limit)) x x') :
    Eval.Follows (.between start limit) (fun _ => False) program program'
      (Value.Alike (.between start limit)) (Eval.watching start limit x) x' := by
  intro session session' hAlike hSource hSource'
  rcases h session session' hAlike hSource hSource' with ⟨_, hNever, _⟩ | hMatches
  · exact hNever.elim
  · rw [runIn_watching hAlike.level.2.2 hMatches.session.level.2.2]
    exact .inr hMatches

namespace Evaluator

/-- Evaluates like the plain evaluator, but gives up as soon as the depth is not between `start` and
`limit`. It looks before and after every evaluation, and before and after every change of the
depth. -/
def watched (start limit : Nat) : (fuel : Nat) → Evaluator :=
  instrumented (Eval.watching start limit) fun source? body =>
    Eval.watching start limit (Eval.enter source? (Eval.watching start limit body))

theorem watched_follows (start limit fuel : Nat) :
    Evaluator.Follows (.between start limit) (fun _ => False) (watched start limit fuel)
      (ofFuel fuel) := by
  apply instrumented_follows
  · exact fun _ _ _ _ => id
  · exact .watching
  · intro program program' inner inner' x x' hSource hBody
    have hFixed : (LevelLikeness.between start limit).Fixed := fun _ _ h => congrArg Level.limit h.1
    exact .watching (.enter hFixed hSource (.watching hBody))

end Evaluator

/-! ### Computations that keep within bounds -/

/-- The depth is between `start` and the limit. -/
structure Session.Within (session : Session) (start limit : Nat) : Prop where
  maxDepth : session.maxDepth = limit
  start_le : start ≤ session.depth
  depth_le : session.depth ≤ limit

/-- What comes back to where it was: the level and the current program. -/
structure Session.Steady (before after : Session) : Prop where
  level : after.level = before.level
  source : after.source? = before.source?

namespace Session

theorem Steady.refl (session : Session) : session.Steady session :=
  ⟨rfl, rfl⟩

theorem Steady.trans {first second third : Session} (h : first.Steady second)
    (h' : second.Steady third) : first.Steady third :=
  ⟨h'.level.trans h.level, h'.source.trans h.source⟩

theorem Within.of_level {session session' : Session} (h : session.Within start limit)
    (hLevel : session'.level = session.level) : session'.Within start limit := by
  obtain ⟨hLimit, hDepth⟩ : session'.maxDepth = session.maxDepth ∧ session'.depth = session.depth :=
    Level.mk.inj hLevel
  exact ⟨hLimit.trans h.maxDepth, hDepth ▸ h.start_le, hDepth ▸ h.depth_le⟩

theorem Within.alike {session : Session} (h : session.Within start limit) :
    session.Alike (.between start limit) session :=
  Session.alike_withLimit (L := .between start limit) (fun _ _ => rfl) (fun _ => rfl) session
    ⟨rfl, h.maxDepth, h.start_le, h.depth_le⟩

end Session

/-- Wherever the depth is between `start` and `limit`, the computations do the same and come back to
where they were. -/
def Eval.Keeps {α : Type} (start limit : Nat) (x x' : Eval α) : Prop :=
  ∀ session : Session, session.Within start limit →
    x.runIn session = x'.runIn session ∧ session.Steady (x'.runIn session).2

/-- What the rules of the language compute stays within bounds. -/
theorem Computes.keeps {P : Expr → Expr → Prop} {α : Type} {R : α → α → Prop}
    {x : Evaluator → Eval α} (hEq : ∀ a a', R a a' → a = a')
    (h : ∀ program, Computes (.between start limit) program program P R x x) (fuel : Nat) :
    Eval.Keeps start limit (x (.watched start limit fuel)) (x (.ofFuel fuel)) := by
  intro session hWithin
  rcases (h session.source?).follows (Evaluator.watched_follows start limit fuel) session session
    hWithin.alike rfl rfl with ⟨_, hNever, _⟩ | hMatches
  · exact hNever.elim
  · exact ⟨hMatches.eq Likeness.between_strict hEq, hMatches.balanced'.level_eq,
      hMatches.balanced'.source⟩

namespace Eval.Keeps

variable {α β : Type}

theorem pure (a : α) : Keeps start limit (Pure.pure a) (Pure.pure a) :=
  fun session _ => ⟨rfl, .refl session⟩

theorem throw (interruption : Interruption) :
    Keeps start limit (MonadExcept.throw interruption : Eval α) (MonadExcept.throw interruption) :=
  fun session _ => ⟨rfl, .refl session⟩

theorem step {f : Session → α × Session} (h : ∀ session : Session, session.Steady (f session).2) :
    Keeps start limit (modifyGet f : Eval α) (modifyGet f) :=
  fun session _ => ⟨rfl, h session⟩

theorem bind {x x' : Eval α} {f f' : α → Eval β} (hFirst : Keeps start limit x x')
    (hRest : ∀ a, Keeps start limit (f a) (f' a)) : Keeps start limit (x >>= f) (x' >>= f') := by
  intro session hWithin
  obtain ⟨hSame, hSteady⟩ := hFirst session hWithin
  rw [runIn_bind, runIn_bind, hSame]
  generalize x'.runIn session = run at hSteady ⊢
  obtain ⟨interruption | a, later⟩ := run
  · exact ⟨rfl, hSteady⟩
  · obtain ⟨hRestSame, hRestSteady⟩ := hRest a later (hWithin.of_level hSteady.level)
    exact ⟨hRestSame, hSteady.trans hRestSteady⟩

theorem mapM {items : List α} {f f' : α → Eval β} (h : ∀ a, Keeps start limit (f a) (f' a)) :
    Keeps start limit (items.mapM f) (items.mapM f') := by
  induction items with
  | nil => exact pure []
  | cons item items ih =>
      simp only [List.mapM_cons]
      apply bind (h item)
      intro b
      apply bind ih
      intro bs
      exact pure (b :: bs)

theorem attempt {x x' : Eval α} (h : Keeps start limit x x') :
    Keeps start limit (Eval.attempt x) (Eval.attempt x') := by
  intro session hWithin
  obtain ⟨hSame, hSteady⟩ := h session hWithin
  rw [runIn_attempt, runIn_attempt, hSame, attempted_session]
  exact ⟨rfl, hSteady⟩

theorem within {x x' : Eval α} (h : Keeps start limit x x') (source? : Option SourceText) :
    Keeps start limit (Eval.within source? x) (Eval.within source? x') := by
  intro session hWithin
  obtain ⟨hSame, hSteady⟩ := h (session.withSource source?) (hWithin.of_level rfl)
  rw [runIn_within, runIn_within, hSame]
  exact ⟨rfl, hSteady.level, rfl⟩

theorem ofExcept (result : Except Error α) :
    Keeps start limit (Eval.ofExcept result) (Eval.ofExcept result) := by
  cases result with
  | ok a => exact pure a
  | error error => exact throw _

end Eval.Keeps

namespace Evaluator

theorem evaluate_keeps (expr : Expr) (scope : ScopeId) (fuel : Nat) :
    Eval.Keeps start limit ((watched start limit fuel).evaluate expr scope)
      ((ofFuel fuel).evaluate expr scope) :=
  Computes.keeps Value.eq_of_between
    (fun _ => .evaluate (P := fun _ _ => True) trivial rfl scope) fuel

theorem sequence_keeps (exprs : List Expr) (scope : ScopeId) (fuel : Nat) :
    Eval.Keeps start limit ((watched start limit fuel).sequence exprs scope)
      ((ofFuel fuel).sequence exprs scope) :=
  Computes.keeps Value.eq_of_between
    (fun _ => .sequence (P := fun _ _ => True)
      (List.forall₂_same.mpr fun _ _ => ⟨trivial, rfl⟩) scope) fuel

theorem applyClosure_keeps (id : ClosureId) (arguments : List Value) (fuel : Nat) :
    Eval.Keeps start limit ((watched start limit fuel).applyClosure id none arguments)
      ((ofFuel fuel).applyClosure id none arguments) :=
  Computes.keeps Value.eq_of_between
    (fun _ => .applyClosure (P := fun _ _ => False) id Option.Rel.none
      (Value.all_alike_self (fun _ => rfl) arguments)) fuel

theorem apply_keeps (target : FunctionRef) (arguments : List Value) (scope : ScopeId) (fuel : Nat) :
    Eval.Keeps start limit ((watched start limit fuel).apply target arguments scope)
      ((ofFuel fuel).apply target arguments scope) :=
  Computes.keeps Value.eq_of_between
    (fun _ => .apply (P := fun _ _ => False) target (Value.all_alike_self (fun _ => rfl) arguments)
      scope) fuel

theorem send_keeps (receiver : Value) (message : Message) (start? : Option ClassId) (fuel : Nat) :
    Eval.Keeps start limit ((watched start limit fuel).send receiver message start?)
      ((ofFuel fuel).send receiver message start?) :=
  Computes.keeps Value.eq_of_between
    (fun _ => .send (P := fun _ _ => False) (Value.alike_self (fun _ => rfl) receiver)
      ⟨rfl, Value.all_alike_self (fun _ => rfl) message.arguments⟩ start?) fuel

theorem extendClass_keeps (cls : ClassId) (definitions : ClosureId) (fuel : Nat) :
    Eval.Keeps start limit ((watched start limit fuel).extendClass cls definitions)
      ((ofFuel fuel).extendClass cls definitions) :=
  Computes.keeps (fun _ _ => id)
    (fun _ => .extendClass (P := fun _ _ => False) cls definitions) fuel

theorem evaluateSource_keeps (text label : String) (scope : ScopeId) (fuel : Nat) :
    Eval.Keeps start limit ((watched start limit fuel).evaluateSource text label scope)
      ((ofFuel fuel).evaluateSource text label scope) := by
  rw [evaluateSource, evaluateSource]
  cases Source.parse text label with
  | error error => exact .throw _
  | ok program => exact (sequence_keeps program scope fuel).within _

theorem runProgram_keeps (source : SourceText) (program : List Expr) (last : Value) (fuel : Nat)
    {session : Session} (hWithin : session.Within start limit) :
    ((watched start limit fuel).runProgram source program last).run session =
        ((ofFuel fuel).runProgram source program last).run session ∧
      session.Steady (((ofFuel fuel).runProgram source program last).run session).2 := by
  induction program generalizing last session with
  | nil => exact ⟨rfl, .refl session⟩
  | cons expr rest ih =>
      obtain ⟨hSame, hSteady⟩ := evaluate_keeps expr Environment.root fuel session.clearFaultSite
        (hWithin.of_level rfl)
      rw [runProgram_cons, runProgram_cons, hSame]
      generalize ((ofFuel fuel).evaluate expr Environment.root).runIn session.clearFaultSite = run
        at hSteady ⊢
      have hLater : session.Steady run.2 := ⟨hSteady.level, hSteady.source⟩
      obtain ⟨(error | panic | fuel) | value, later⟩ := run
      · exact ⟨rfl, hLater.level, hLater.source⟩
      · exact ⟨rfl, hLater.level, hLater.source⟩
      · exact ⟨rfl, hLater⟩
      · obtain ⟨hRest, hRestSteady⟩ := ih value (hWithin.of_level hLater.level)
        exact ⟨hRest, hLater.trans hRestSteady⟩

theorem run_keeps (text label : String) (fuel : Nat) {session : Session}
    (hWithin : session.Within start limit) :
    ((watched start limit fuel).run text label).run session =
        ((ofFuel fuel).run text label).run session ∧
      session.Steady (((ofFuel fuel).run text label).run session).2 := by
  cases hParse : Source.parse text label with
  | error error =>
      rw [run_of_error hParse, run_of_error hParse]
      exact ⟨rfl, .refl session⟩
  | ok program =>
      have hInside : (session.withSource (some ⟨label, text⟩)).Within start limit :=
        hWithin.of_level rfl
      obtain ⟨hSame, hSteady⟩ := runProgram_keeps ⟨label, text⟩ program .null fuel hInside
      rw [run_of_parse hParse, run_of_parse hParse, hSame]
      exact ⟨rfl, hSteady.level, rfl⟩

end Evaluator

namespace Native

theorem cellOf_keeps (type : NativeType) (value : Value) :
    Eval.Keeps start limit (cellOf type value) (cellOf type value) := by
  have hCoerce : Eval.Keeps start limit (coerceTo type value) (coerceTo type value) :=
    Computes.keeps (x := fun _ => coerceTo type value) Value.eq_of_between
      (fun _ => .coerceTo (P := fun _ _ => False) type (Value.alike_self (fun _ => rfl) value)) 0
  apply hCoerce.bind
  intro coerced
  cases type with
  | pointer => cases coerced <;> exact .pure _
  | cString =>
      dsimp only
      split
      · split
        · exact .throw _
        · exact .pure _
      · exact .pure _
  | unsupported name => exact .throw _
  | _ => exact .pure _

theorem applyDetached_keeps (target : FunctionRef) (scope? : Option ScopeId) (values : List Value)
    (fuel : Nat) :
    Eval.Keeps start limit (applyDetached (.watched start limit fuel) target scope? values)
      (applyDetached (.ofFuel fuel) target scope? values) := by
  cases scope? with
  | some scope =>
      cases target with
      | closure id => exact Evaluator.applyClosure_keeps id values fuel
      | builtin builtin => exact Evaluator.apply_keeps (.builtin builtin) values scope fuel
      | host id => exact Evaluator.apply_keeps (.host id) values scope fuel
  | none =>
      have hScope : Eval.Keeps start limit (Eval.newScope none) (Eval.newScope none) :=
        .step fun _ => ⟨rfl, rfl⟩
      cases target with
      | closure id => exact Evaluator.applyClosure_keeps id values fuel
      | builtin builtin =>
          exact hScope.bind fun scope => Evaluator.apply_keeps (.builtin builtin) values scope fuel
      | host id => exact hScope.bind fun scope => Evaluator.apply_keeps (.host id) values scope fuel

theorem call_keeps (signature : Signature) (target : FunctionRef) (scope? : Option ScopeId)
    (arguments : List Value) (fuel : Nat) :
    Eval.Keeps start limit (call (.watched start limit fuel) signature target scope? arguments)
      (call (.ofFuel fuel) signature target scope? arguments) := by
  have hInvoke : ∀ cells, Eval.Keeps start limit
      (invoke (.watched start limit fuel) signature target scope? cells)
      (invoke (.ofFuel fuel) signature target scope? cells) := by
    intro cells
    apply Eval.Keeps.bind (.mapM fun (type, cell) => .ofExcept (cell.readArgument type))
    intro values
    exact (applyDetached_keeps target scope? values fuel).bind (cellOf_keeps signature.returns)
  have hEnter : ∀ cells, Eval.Keeps start limit
      (enter (.watched start limit fuel) signature target scope? cells)
      (enter (.ofFuel fuel) signature target scope? cells) := by
    intro cells
    apply (hInvoke cells).attempt.bind
    intro result
    cases result with
    | ok cell => exact .pure _
    | error error =>
        have hKept : Eval.Keeps start limit (modify ({ · with lastError? := some error }))
            (modify ({ · with lastError? := some error })) := .step fun _ => ⟨rfl, rfl⟩
        exact hKept.bind fun _ => .pure _
  rw [call, call]
  split
  · exact .throw _
  · apply Eval.Keeps.bind (.mapM fun (type, value) => cellOf_keeps type value)
    intro cells
    exact (hEnter cells).bind fun cell => .ofExcept (cell.readResult signature.returns)

end Native

/-! ### What a host asks of a session -/

/-- Something that a host does with a session. -/
inductive HostStep where
  | evaluate (expr : Expr) (scope : ScopeId)
  | evaluateSource (text label : String) (scope : ScopeId)
  | run (text label : String)
  | apply (target : FunctionRef) (arguments : List Value) (scope : ScopeId)
  | send (receiver : Value) (message : Message) (start? : Option ClassId)
  | call (signature : Signature) (target : FunctionRef) (scope? : Option ScopeId)
      (arguments : List Value)
  | extendClass (cls : ClassId) (definitions : ClosureId)
  | addHost (host : HostFunction)
  | addClosure (closure : Closure)
  | mapEnvironment (f : Environment Value → Environment Value)
  | mapHierarchy (f : Hierarchy → Hierarchy)
  | takeOutput
  | takeLastError
  | close

/-- What the host gets back. -/
inductive Answer where
  | outcome (outcome : Except Interruption Value)
  | installed (outcome : Except Interruption Nat)
  | result (result : RunResult)
  | output (output : String)
  | lastError (error? : Option Error)
  | done

theorem Eval.Keeps.answered {α : Type} {x x' : Eval α} (h : Eval.Keeps start limit x x')
    {session : Session} (hWithin : session.Within start limit)
    (f : Except Interruption α → Answer) :
    (x.runIn session).map f id = (x'.runIn session).map f id ∧
      session.Steady ((x'.runIn session).map f id).2 := by
  obtain ⟨hSame, hSteady⟩ := h session hWithin
  rw [hSame]
  exact ⟨rfl, hSteady⟩

namespace HostStep

def perform (ev : Evaluator) (session : Session) : HostStep → Answer × Session
  | evaluate expr scope => ((ev.evaluate expr scope).runIn session).map .outcome id
  | evaluateSource text label scope =>
    ((ev.evaluateSource text label scope).runIn session).map .outcome id
  | run text label => ((ev.run text label).run session).map .result id
  | apply target arguments scope =>
    ((ev.apply target arguments scope).runIn session).map .outcome id
  | send receiver message start? =>
    ((ev.send receiver message start?).runIn session).map .outcome id
  | call signature target scope? arguments =>
    ((Native.call ev signature target scope? arguments).runIn session).map .outcome id
  | extendClass cls definitions =>
    ((ev.extendClass cls definitions).runIn session).map .installed id
  | addHost host => (.done, (session.addHost host).2)
  | addClosure closure => (.done, (session.addClosure closure).2)
  | mapEnvironment f => (.done, session.mapEnvironment f)
  | mapHierarchy f => (.done, session.mapHierarchy f)
  | takeOutput => session.takeOutput.map .output id
  | takeLastError => session.takeLastError.map .lastError id
  | close => (.done, session.close)

/-- Does one thing after the other. -/
def performAll (ev : Evaluator) : List HostStep → Session → List Answer × Session
  | [], session => ([], session)
  | step :: steps, session =>
    let first := step.perform ev session
    (performAll ev steps first.2).map (first.1 :: ·) id

theorem perform_keeps (step : HostStep) (fuel : Nat) {session : Session}
    (hWithin : session.Within start limit) :
    step.perform (.watched start limit fuel) session = step.perform (.ofFuel fuel) session ∧
      session.Steady (step.perform (.ofFuel fuel) session).2 := by
  cases step with
  | evaluate expr scope =>
      exact (Evaluator.evaluate_keeps expr scope fuel).answered hWithin .outcome
  | evaluateSource text label scope =>
      exact (Evaluator.evaluateSource_keeps text label scope fuel).answered hWithin .outcome
  | run text label =>
      obtain ⟨hSame, hSteady⟩ := Evaluator.run_keeps text label fuel hWithin
      rw [perform, perform, hSame]
      exact ⟨rfl, hSteady⟩
  | apply target arguments scope =>
      exact (Evaluator.apply_keeps target arguments scope fuel).answered hWithin .outcome
  | send receiver message start? =>
      exact (Evaluator.send_keeps receiver message start? fuel).answered hWithin .outcome
  | call signature target scope? arguments =>
      exact (Native.call_keeps signature target scope? arguments fuel).answered hWithin .outcome
  | extendClass cls definitions =>
      exact (Evaluator.extendClass_keeps cls definitions fuel).answered hWithin .installed
  | _ => exact ⟨rfl, rfl, rfl⟩

theorem performAll_keeps (steps : List HostStep) (fuel : Nat) {session : Session}
    (hWithin : session.Within start limit) :
    performAll (.watched start limit fuel) steps session = performAll (.ofFuel fuel) steps session ∧
      session.Steady (performAll (.ofFuel fuel) steps session).2 := by
  induction steps generalizing session with
  | nil => exact ⟨rfl, .refl session⟩
  | cons step steps ih =>
      obtain ⟨hSame, hSteady⟩ := step.perform_keeps fuel hWithin
      obtain ⟨hRest, hRestSteady⟩ := ih (hWithin.of_level hSteady.level)
      simp only [performAll, hSame, hRest, true_and]
      exact hSteady.trans hRestSteady

end HostStep

/-- Whatever a host does with a session, step after step and however the steps end, the depth stays
between where it was and the limit, and in the end the depth and the current program are what they
were. In a new session no application is running then and no program is current. -/
theorem host_steps_balanced {session : Session} (hDepth : session.depth ≤ session.maxDepth)
    (steps : List HostStep) (fuel : Nat) :
    HostStep.performAll (.watched session.depth session.maxDepth fuel) steps session =
        HostStep.performAll (.ofFuel fuel) steps session ∧
      (HostStep.performAll (.ofFuel fuel) steps session).2.depth = session.depth ∧
      (HostStep.performAll (.ofFuel fuel) steps session).2.source? = session.source? ∧
      ∀ maxDepth,
        (HostStep.performAll (.ofFuel fuel) steps (Session.new maxDepth)).2.depth = 0 ∧
        (HostStep.performAll (.ofFuel fuel) steps (Session.new maxDepth)).2.source? = none := by
  obtain ⟨hSame, hSteady⟩ := HostStep.performAll_keeps steps fuel ⟨rfl, Nat.le_refl _, hDepth⟩
  refine ⟨hSame, congrArg Level.depth hSteady.level, hSteady.source, fun maxDepth => ?_⟩
  have hNew : (Session.new maxDepth).Within 0 maxDepth := ⟨rfl, Nat.le_refl 0, Nat.zero_le maxDepth⟩
  have hNewSteady := (HostStep.performAll_keeps steps fuel hNew).2
  exact ⟨congrArg Level.depth hNewSteady.level, hNewSteady.source⟩

/-- A session in the middle of an application, with room for one more: a breakdown of the host and a
recursion that the limit stops. -/
theorem host_steps_balanced_inside :
    ((Session.new 2).inside (some ⟨"a", "(f)"⟩)).depth = 1 ∧
      (HostStep.performAll (.watched 1 2 9)
          [.addHost ⟨"halt", none, false, .panic ⟨none⟩⟩, .apply (.host ⟨0⟩) [] Environment.root,
            .run "(set f (lambda () (f))) (f)" "b"]
          ((Session.new 2).inside (some ⟨"a", "(f)"⟩))).2.depth = 1 ∧
      (HostStep.performAll (.watched 1 2 9)
          [.addHost ⟨"halt", none, false, .panic ⟨none⟩⟩, .apply (.host ⟨0⟩) [] Environment.root,
            .run "(set f (lambda () (f))) (f)" "b"]
          ((Session.new 2).inside (some ⟨"a", "(f)"⟩))).2.source? = some ⟨"a", "(f)"⟩ := by
  have hDepth : ((Session.new 2).inside (some ⟨"a", "(f)"⟩)).depth ≤
      ((Session.new 2).inside (some ⟨"a", "(f)"⟩)).maxDepth := by decide
  obtain ⟨hSame, hAfter, hSource, -⟩ := host_steps_balanced hDepth
    [.addHost ⟨"halt", none, false, .panic ⟨none⟩⟩, .apply (.host ⟨0⟩) [] Environment.root,
      .run "(set f (lambda () (f))) (f)" "b"] 9
  rw [← hSame] at hAfter hSource
  exact ⟨rfl, hAfter, hSource⟩

end MessageLisp
