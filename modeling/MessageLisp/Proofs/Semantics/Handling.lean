import MessageLisp.Proofs.Semantics.Dispatch
import MessageLisp.Proofs.Semantics.Keywords
import MessageLisp.Proofs.Semantics.Origin

/-! Failures that are caught. A closure under a handler is applied as it would be without one. If it
fails, whatever the reason, the handler takes over where the failure left the session, and gets to see
the same message that a run of the closure would have been reported with. -/
namespace MessageLisp

open Source (Expr)
open Eval

/-- The error that a failure is caught and reported as. -/
def Interruption.reported? : Interruption → Option Error
  | .error cause => some cause
  | .panic breakdown => some breakdown.toError
  | .outOfFuel _ => none

/-! ### Handlers -/

/-- What a handler of a failure is applied to: the message if it is a closure of one parameter, and
nothing otherwise. -/
def Session.handed (session : Session) (handler : FunctionRef) (error : Error) : List Value :=
  match handler with
  | .closure id =>
    if session.closures[id.index]?.any (·.prototype.arity = 1) then [.string error.message] else []
  | _ => []

/-- The outcome of an exception that was handed to a handler. -/
def handlerOutcome : Except Interruption Value × Session → Except Interruption Value × Session
  | (.ok _, last) => (.ok (.bool true), last)
  | (.error interruption, last) => (.error interruption, last)

/-- A handler that is there before the failure is there after it, with the same parameters. -/
theorem runIn_handlerArguments {session later : Session} {handler : FunctionRef}
    (hHandler : handler.Lives session) (hRetains : session.Retains later) (error : Error) :
    (handlerArguments handler error).runIn later = (.ok (session.handed handler error), later) := by
  cases handler with
  | builtin builtin => rfl
  | host id => rfl
  | closure id =>
      have hClosure : session.closures[id.index]? = some session.closures[id.index] :=
        Array.getElem?_eq_getElem hHandler
      obtain ⟨closure, hLater, hPrototype⟩ := hRetains.closures _ _ hClosure
      simp only [handlerArguments, Session.handed, hClosure, Option.any_some, ← hPrototype]
      rw [runIn_bind_ok (runIn_closureOf hLater)]
      by_cases hOne : closure.prototype.arity = 1
      · simp only [hOne, if_true, decide_true]
        rfl
      · simp only [hOne, if_false, decide_false]
        rfl

section Handling

variable {session : Session} {guarded : ClosureId} {closure : Closure} {handler : FunctionRef}

/-- What is done with a failure that was caught. -/
def Evaluator.handle (ev : Evaluator) (handler : FunctionRef) (scope : ScopeId) (error : Error) :
    Eval Unit := do
  let arguments ← handlerArguments handler error
  let _ ← ev.apply handler arguments scope
  pure ()

theorem runIn_handleFailure (hOpen : session.isOpen = true)
    (hClosure : session.closures[guarded.index]? = some closure) (fuel : Nat) :
    ((Evaluator.ofFuel fuel).handleFailure guarded handler).runIn session =
      handled ((Evaluator.ofFuel fuel).handle handler closure.scope)
        (((Evaluator.ofFuel fuel).apply (.closure guarded) [] closure.scope).runIn session) := by
  rw [Evaluator.handleFailure, runIn_bind_ok (runIn_requireOpen hOpen),
    runIn_bind_ok (runIn_closureOf hClosure), runIn_handling, Evaluator.ofFuel_guarding]
  rfl

theorem runIn_onException (ev : Evaluator) (session : Session) :
    (ev.runPrimitive .onException (.function (.closure guarded)) [.function handler]).runIn session =
      continued (fun caught => pure (.bool caught))
        ((ev.handleFailure guarded handler).runIn session) := by
  have hGuarded : (closureIdOf (.function (.closure guarded))).runIn session =
      (.ok guarded, session) := rfl
  have hArgument : (argument [.function handler] 0).runIn session =
      (.ok (.function handler), session) := rfl
  have hHandler : (functionOf (.function handler)).runIn session = (.ok handler, session) := rfl
  simp only [Evaluator.runPrimitive]
  rw [runIn_bind_ok hGuarded, runIn_bind_ok hArgument, runIn_bind_ok hHandler, runIn_bind]

/-- An application leaves the depth and the program as they were, also if it fails. -/
theorem balanced_apply (fuel : Nat) (scope : ScopeId) :
    session.Balanced
      (((Evaluator.ofFuel fuel).apply (.closure guarded) [] scope).runIn session).2 :=
  (Computes.applyClosure (P := fun _ _ => False) guarded Option.Rel.none
    (Value.all_alike_self (fun _ => rfl) [])).balanced fuel rfl

theorem continued_handle {later : Session} (hHandler : handler.Lives session)
    (hRetains : session.Retains later) (ev : Evaluator) (scope : ScopeId) (error : Error) :
    continued (fun caught => pure (.bool caught))
        ((ev.handle handler scope error >>= fun _ => pure true).runIn later) =
      handlerOutcome ((ev.apply handler (session.handed handler error) scope).runIn later) := by
  rw [runIn_bind, Evaluator.handle,
    runIn_bind_ok (runIn_handlerArguments hHandler hRetains error), runIn_bind]
  rcases (ev.apply handler (session.handed handler error) scope).runIn later with
    ⟨failure | value, last⟩ <;> rfl

/-- The handler takes over in the session that the failure left. -/
theorem handled_reported {interruption : Interruption} {error : Error} {later : Session}
    (hReported : interruption.reported? = some error) (hHandler : handler.Lives session)
    (hRetains : session.Retains later) (ev : Evaluator) (scope : ScopeId) :
    continued (fun caught => pure (.bool caught))
        (handled (α := Value) (ev.handle handler scope) (.error interruption, later)) =
      handlerOutcome ((ev.apply handler (session.handed handler error) scope).runIn
        later.clearFaultSite) := by
  have hCleared : session.Retains later.clearFaultSite := hRetains.trans (.of_eq rfl rfl)
  cases interruption with
  | error _ =>
      cases hReported
      exact continued_handle hHandler hCleared ev scope _
  | panic _ =>
      cases hReported
      exact continued_handle hHandler hCleared ev scope _
  | outOfFuel _ => cases hReported

end Handling

/-! ### Reports -/

namespace Evaluator

variable {ev : Evaluator}

theorem runProgram_append {source : SourceText} {before after : List Expr} {last value : Value}
    {session reached : Session}
    (hBefore : (ev.runProgram source before last).run session = (.value value, reached)) :
    (ev.runProgram source (before ++ after) last).run session =
      (ev.runProgram source after value).run reached := by
  induction before generalizing last session with
  | nil =>
      cases hBefore
      rfl
  | cons expr before ih =>
      rw [runProgram_cons] at hBefore
      rw [List.cons_append, runProgram_cons]
      generalize (ev.evaluate expr Environment.root).runIn session.clearFaultSite = run
        at hBefore ⊢
      rcases run with ⟨(error | panic | fuel) | first, later⟩
      · cases hBefore
      · cases hBefore
      · cases hBefore
      · exact ih hBefore

/-- A failure of an expression of a program is reported as what a handler would have caught. -/
theorem run_of_failure {text label : String} {before after : List Expr} {expr : Expr} {value : Value}
    {host reached later : Session} {interruption : Interruption} {error : Error}
    (hParse : Source.parse text label = .ok (before ++ expr :: after))
    (hBefore : (ev.runProgram ⟨label, text⟩ before .null).run
      (host.withSource (some ⟨label, text⟩)) = (.value value, reached))
    (hFails : (ev.evaluate expr Environment.root).runIn reached.clearFaultSite =
      (.error interruption, later))
    (hReported : interruption.reported? = some error) :
    ∃ fault, ((ev.run text label).run host).1 = .fault fault ∧ fault.error = error := by
  rw [run_of_parse hParse, runProgram_append hBefore, runProgram_cons, hFails]
  cases interruption with
  | outOfFuel fuel => cases hReported
  | error _ =>
      cases hReported
      exact ⟨_, rfl, locateFault_error ..⟩
  | panic panic =>
      cases hReported
      exact ⟨_, rfl, locateFault_error ..⟩

/-- A list of one name that is bound to a closure applies the closure. -/
theorem evaluate_application {session : Session} {scope : ScopeId} {name : String} {id : ClosureId}
    (hName : name ≠ superName)
    (hLookup : session.environment.lookup? scope name = some (.function (.closure id))) (fuel : Nat)
    (span span' : Source.Span) :
    ((ofFuel (fuel + 2)).evaluate (.list span [.symbol span' name]) scope).runIn session =
      located (.list span [.symbol span' name])
        (((ofFuel (fuel + 1)).applyClosure id none []).runIn session) := by
  have hHead : (Expr.symbol span' name).symbol? ≠ some superName :=
    fun hSuper => hName (Option.some.inj hSuper)
  have hList : ((ofFuel (fuel + 1)).evaluateList [.symbol span' name] scope).runIn session =
      ((ofFuel (fuel + 1)).applyClosure id none []).runIn session := by
    rw [evaluateList, runIn_get_bind, superStart?, if_neg hHead]
    exact runIn_bind_ok (evaluate_variable fuel span' hLookup) _
  rw [← hList]
  exact runIn_locating ..

end Evaluator

theorem exists_located (expr : Expr) (interruption : Interruption) (later : Session) :
    ∃ last, located (α := Value) expr (.error interruption, later) = (.error interruption, last) := by
  cases interruption <;> exact ⟨_, rfl⟩

/-! ### Exceptions -/

/-- A closure under a handler is applied as it is without one. If that gives a value, the answer is
false in the session that the application left, and the handler plays no part. If it fails, by an error
or by a breakdown, the depth and the program are those from before, the fault on record is dropped, and
all else is as the failure left it; there the handler is applied, to the message if it is a closure of
one parameter and to nothing otherwise. The answer is true, or the failure of the handler itself. A
program that applies the closure in the same session is reported with the same error, hence with the
same message. -/
theorem exceptions_are_contained {session : Session} {guarded : ClosureId} {closure : Closure}
    {handler : FunctionRef} (hOpen : session.isOpen = true)
    (hClosure : session.closures[guarded.index]? = some closure) (hHandler : handler.Lives session)
    (fuel : Nat) :
    let ev := Evaluator.ofFuel (fuel + 1)
    let receiver : Value := .function (.closure guarded)
    let plain := (ev.apply (.closure guarded) [] closure.scope).runIn session
    let answer := (ev.runPrimitive .onException receiver [.function handler]).runIn session
    (∀ value later, plain = (.ok value, later) → answer = (.ok (.bool false), later)) ∧
      (∀ interruption error later, plain = (.error interruption, later) →
        interruption.reported? = some error →
          later.depth = session.depth ∧ later.source? = session.source? ∧
            answer = handlerOutcome ((ev.apply handler (session.handed handler error)
              closure.scope).runIn { later with faultSite? := none }) ∧
            ∀ (host reached : Session) (text label name : String) (before after : List Expr)
              (span span' : Source.Span) (value : Value),
              Source.parse text label = .ok (before ++ .list span [.symbol span' name] :: after) →
              ((Evaluator.ofFuel (fuel + 2)).runProgram ⟨label, text⟩ before .null).run
                (host.withSource (some ⟨label, text⟩)) = (.value value, reached) →
              reached.clearFaultSite = session → name ≠ superName →
              session.environment.lookup? Environment.root name = some receiver →
                ∃ fault, (((Evaluator.ofFuel (fuel + 2)).run text label).run host).1 = .fault fault ∧
                  fault.error = error) ∧
      (∀ kind later, plain = (.error (.outOfFuel kind), later) →
        answer = (.error (.outOfFuel kind), later)) ∧
      (session.Answers receiver .onException →
        (ev.send receiver ⟨"onException:", [.function handler]⟩ none).runIn session = answer) := by
  intro ev receiver plain answer
  have hAnswer : answer = continued (fun caught => pure (.bool caught))
      (handled (ev.handle handler closure.scope) plain) := by
    simp only [answer, receiver, plain, ev]
    rw [runIn_onException, runIn_handleFailure hOpen hClosure]
  have hBalanced : session.Balanced plain.2 := balanced_apply (fuel + 1) closure.scope
  refine ⟨?_, ?_, ?_, ?_⟩
  · intro value later hPlain
    rw [hAnswer, hPlain]
    rfl
  · intro interruption error later hPlain hReported
    rw [hPlain] at hBalanced
    refine ⟨hBalanced.depth, hBalanced.source, ?_, ?_⟩
    · rw [hAnswer, hPlain]
      exact handled_reported hReported hHandler hBalanced.retains ev closure.scope
    · rintro host _ text label name before after span span' value hParse hBefore rfl hName hLookup
      obtain ⟨last, hLocated⟩ := exists_located (.list span [.symbol span' name]) interruption later
      have hFails := Evaluator.evaluate_application hName hLookup fuel span span'
      exact Evaluator.run_of_failure hParse hBefore
        (hFails.trans ((congrArg (located _) hPlain).trans hLocated)) hReported
  · intro kind later hPlain
    rw [hAnswer, hPlain]
    rfl
  · intro hAnswers
    have hArity : selectorArity Primitive.onException.selector = 1 := by decide
    exact Evaluator.runIn_send_unary hAnswers hArity (.function handler) ev

/-- A closure that applies the function `boom`. -/
def breakdownClosure : Closure where
  name? := none
  owner? := none
  prototype := .empty
  body := [.list ⟨0, 0⟩ [.symbol ⟨0, 0⟩ "boom"]]
  scope := Environment.root
  source? := none
  signature? := none

/-- A session in which `boom` is a function of the host that breaks down. The second closure returns
its argument. -/
def breakdownSession : Session :=
  { Session.new 8 with
    environment := (Session.new 8).environment.defineAll Environment.root
      [("c", .function (.closure ⟨0⟩)), ("boom", .function (.host ⟨0⟩))]
    hosts := #[⟨"boom", none, false, .panic ⟨some "oops"⟩⟩]
    closures := #[breakdownClosure,
      { breakdownClosure with
        prototype := ⟨[⟨"m", none⟩], none⟩
        body := [.symbol ⟨0, 0⟩ "m"] }] }

/-- The same session while the program `(c)` runs. -/
def breakdownRunning : Session :=
  (breakdownSession.withSource (some ⟨"a", "(c)"⟩)).clearFaultSite

/-- What the first closure leaves there. -/
def brokenDown : Except Interruption Value × Session :=
  ((Evaluator.ofFuel 3).apply (.closure ⟨0⟩) [] Environment.root).runIn breakdownRunning

theorem brokenDown_panic : brokenDown.1 = .error (.panic ⟨some "oops"⟩) := by
  cbv

/-- The handler is applied to the message of the breakdown, and a run without it reports the same
error. -/
theorem exceptions_are_contained_breakdown :
    ((Evaluator.ofFuel 3).runPrimitive .onException (.function (.closure ⟨0⟩))
        [.function (.closure ⟨1⟩)]).runIn breakdownRunning =
        handlerOutcome (((Evaluator.ofFuel 3).apply (.closure ⟨1⟩)
          [.string "native code panicked: oops"] Environment.root).runIn
            { brokenDown.2 with faultSite? := none }) ∧
      (((Evaluator.ofFuel 3).apply (.closure ⟨1⟩) [.string "native code panicked: oops"]
        Environment.root).runIn { brokenDown.2 with faultSite? := none }).1 =
        .ok (.string "native code panicked: oops") ∧
      ∃ fault, (((Evaluator.ofFuel 4).run "(c)" "a").run breakdownSession).1 = .fault fault ∧
        fault.error = .nativePanic "oops" := by
  have hClosure : breakdownRunning.closures[0]? = some breakdownClosure := rfl
  have hHandler : (FunctionRef.closure ⟨1⟩).Lives breakdownRunning := show 1 < 2 by decide
  have hFails := (exceptions_are_contained rfl hClosure hHandler 2).2.1
  obtain ⟨-, -, hAnswer, hReport⟩ := hFails (.panic ⟨some "oops"⟩) (.nativePanic "oops")
    brokenDown.2 (Prod.ext brokenDown_panic rfl) rfl
  have hParse : Source.parse "(c)" "a" =
      .ok ([] ++ Expr.list ⟨0, 3⟩ [.symbol ⟨1, 2⟩ "c"] :: []) := by
    cbv
  have hLookup : breakdownRunning.environment.lookup? Environment.root "c" =
      some (.function (.closure ⟨0⟩)) := by
    cbv
  refine ⟨hAnswer, ?_, hReport breakdownSession _ "(c)" "a" "c" [] [] ⟨0, 3⟩ ⟨1, 2⟩ .null hParse rfl
    rfl (by decide) hLookup⟩
  cbv

end MessageLisp
