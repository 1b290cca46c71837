import Mathlib
import MessageLisp.Proofs.Semantics.Dispatch

/-! Loops. A loop applies its condition and its body in turn, each in the session that the application
before has left, up to the first that fails or the first condition that no longer holds. All of these
applications start at the depth at which the loop does: the limit on the depth bounds what one of them
may do, not how many there are. -/
namespace MessageLisp

open Eval

/-- A condition and a body that are applied in turn, from a session on. -/
structure Alternation where
  ev : Evaluator
  condition : ClosureId
  body : FunctionRef
  scope : ScopeId
  start : Session

namespace Alternation

/-- The function whose turn it is: the condition at even turns, the body at odd ones. -/
def target (loop : Alternation) (turn : Nat) : FunctionRef :=
  if turn % 2 = 0 then .closure loop.condition else loop.body

/-- The session in which a turn starts: the one that the turn before has left. -/
def before (loop : Alternation) : (turn : Nat) → Session
  | 0 => loop.start
  | turn + 1 => ((loop.ev.apply (loop.target turn) [] loop.scope).runIn (loop.before turn)).2

/-- The outcome of a turn, and the session that it leaves. -/
def applied (loop : Alternation) (turn : Nat) : Except Interruption Value × Session :=
  (loop.ev.apply (loop.target turn) [] loop.scope).runIn (loop.before turn)

/-- The first turns give values, and the conditions among them have the expected truth value. -/
def GoesOn (loop : Alternation) (expected : Bool) (turns : Nat) : Prop :=
  ∀ turn < turns, ∃ value, (loop.applied turn).1 = .ok value ∧
    (turn % 2 = 0 → value.isTrue = expected)

/-- The value that the body has after some rounds: the one it gave last, null before the first. -/
inductive LastValue (loop : Alternation) : (rounds : Nat) → Value → Prop where
  | none : LastValue loop 0 .null
  | some {round : Nat} {value : Value} (hBody : (loop.applied (2 * round + 1)).1 = .ok value) :
      LastValue loop (round + 1) value

/-- How a loop ends in which the condition has held `n` times: after `n` rounds the condition does not
hold, or one of the turns up to there fails. -/
inductive Ends (loop : Alternation) (expected : Bool) (n : Nat) :
    Except Interruption Value × Session → Prop where
  | stopped {last value : Value} {later : Session} (hBefore : loop.GoesOn expected (2 * n))
      (hLast : loop.LastValue n last) (hTest : loop.applied (2 * n) = (.ok value, later))
      (hOther : value.isTrue ≠ expected) : Ends loop expected n (.ok last, later)
  | failed {turn : Nat} {interruption : Interruption} {later : Session}
      (hBefore : loop.GoesOn expected turn) (hTurn : turn = 2 * n ∨ turn + 1 = 2 * n)
      (hFails : loop.applied turn = (.error interruption, later)) :
      Ends loop expected n (.error interruption, later)

variable {loop : Alternation} {expected : Bool}

theorem target_even (loop : Alternation) (round : Nat) :
    loop.target (2 * round) = .closure loop.condition := by
  rw [target, if_pos (by omega)]

theorem target_odd (loop : Alternation) (round : Nat) : loop.target (2 * round + 1) = loop.body := by
  rw [target, if_neg (by omega)]

theorem GoesOn.succ {turns : Nat} {value : Value} (h : loop.GoesOn expected turns)
    (hValue : (loop.applied turns).1 = .ok value)
    (hHolds : turns % 2 = 0 → value.isTrue = expected) : loop.GoesOn expected (turns + 1) := by
  intro turn hTurn
  rcases Nat.lt_succ_iff_lt_or_eq.mp hTurn with hEarlier | rfl
  · exact h turn hEarlier
  · exact ⟨value, hValue, hHolds⟩

theorem GoesOn.exists_lastValue {n : Nat} (h : loop.GoesOn expected (2 * n)) :
    ∃ last, loop.LastValue n last := by
  cases n with
  | zero => exact ⟨_, .none⟩
  | succ n =>
      obtain ⟨last, hBody, -⟩ := h (2 * n + 1) (by omega)
      exact ⟨last, .some hBody⟩

/-! ### One round -/

/-- The loop as the rules of the language have it. -/
def run (loop : Alternation) (expected : Bool) (rounds : Nat) (last : Value) : Eval Value :=
  Eval.loop (loop.ev.test loop.condition expected loop.scope)
    (loop.ev.apply loop.body [] loop.scope) rounds last

theorem runIn_test (loop : Alternation) (expected : Bool) (round : Nat) :
    (loop.ev.test loop.condition expected loop.scope).runIn (loop.before (2 * round)) =
      continued (fun value => pure (decide (value.isTrue = expected))) (loop.applied (2 * round)) := by
  rw [applied, target_even, Evaluator.test, runIn_bind]

theorem runIn_body (loop : Alternation) (round : Nat) :
    (loop.ev.apply loop.body [] loop.scope).runIn (loop.applied (2 * round)).2 =
      loop.applied (2 * round + 1) := by
  rw [applied.eq_1 loop (2 * round + 1), target_odd]
  rfl

section Round

variable {round rounds : Nat} {last value : Value} {interruption : Interruption} {later : Session}

theorem runIn_testFails (hTest : loop.applied (2 * round) = (.error interruption, later)) :
    (loop.run expected (rounds + 1) last).runIn (loop.before (2 * round)) =
      (.error interruption, later) := by
  rw [run, Eval.loop, runIn_bind, runIn_test, hTest]
  rfl

theorem runIn_stopped (hTest : loop.applied (2 * round) = (.ok value, later))
    (hOther : value.isTrue ≠ expected) :
    (loop.run expected (rounds + 1) last).runIn (loop.before (2 * round)) = (.ok last, later) := by
  rw [run, Eval.loop, runIn_bind, runIn_test, hTest]
  simp only [continued, hOther, decide_false]
  rfl

theorem runIn_held (hTest : (loop.applied (2 * round)).1 = .ok value)
    (hHolds : value.isTrue = expected) :
    (loop.run expected (rounds + 1) last).runIn (loop.before (2 * round)) =
      continued (loop.run expected rounds) (loop.applied (2 * round + 1)) := by
  have hTested : (loop.ev.test loop.condition expected loop.scope).runIn (loop.before (2 * round)) =
      (.ok true, (loop.applied (2 * round)).2) := by
    have hSplit : loop.applied (2 * round) = (.ok value, (loop.applied (2 * round)).2) :=
      Prod.ext hTest rfl
    rw [runIn_test, hSplit, continued, decide_eq_true hHolds]
    rfl
  rw [run, Eval.loop, runIn_bind_ok hTested, if_pos rfl, runIn_bind, runIn_body]
  rfl

end Round

/-! ### All rounds -/

/-- Rounds that go on lead to the next ones. -/
theorem run_goesOn {n : Nat} {last : Value} (h : loop.GoesOn expected (2 * n))
    (hLast : loop.LastValue n last) (rounds : Nat) :
    (loop.run expected (rounds + n) .null).runIn loop.start =
      (loop.run expected rounds last).runIn (loop.before (2 * n)) := by
  induction n generalizing last rounds with
  | zero =>
      cases hLast
      rfl
  | succ n ih =>
      have hEarlier : loop.GoesOn expected (2 * n) := fun turn hTurn => h turn (by omega)
      obtain ⟨value, hTest, hHolds⟩ := h (2 * n) (by omega)
      cases hLast with
      | some hBody =>
          have hSplit : loop.applied (2 * n + 1) = (.ok last, loop.before (2 * (n + 1))) :=
            Prod.ext hBody rfl
          obtain ⟨earlier, hEarlierLast⟩ := hEarlier.exists_lastValue
          rw [← Nat.succ_add_eq_add_succ, ih hEarlier hEarlierLast, runIn_held hTest (hHolds (by omega)),
            hSplit, continued]

/-- A loop that has gone on for some rounds and comes to an end does so in one of the ways that loops
end. -/
theorem exists_ends_of_goesOn {n : Nat} {last : Value} (h : loop.GoesOn expected (2 * n))
    (hLast : loop.LastValue n last) {rounds : Nat}
    (hFinished : ∀ kind, ((loop.run expected rounds last).runIn (loop.before (2 * n))).1 ≠
      .error (.outOfFuel kind)) :
    ∃ m, loop.Ends expected m ((loop.run expected rounds last).runIn (loop.before (2 * n))) := by
  induction rounds generalizing n last with
  | zero => exact absurd rfl (hFinished .rounds)
  | succ rounds ih =>
      rcases hTest : loop.applied (2 * n) with ⟨interruption | value, later⟩
      · rw [runIn_testFails hTest]
        exact ⟨n, .failed h (.inl rfl) hTest⟩
      · by_cases hHolds : value.isTrue = expected
        · have hTested : (loop.applied (2 * n)).1 = .ok value := congrArg Prod.fst hTest
          have hNext := h.succ hTested fun _ => hHolds
          rw [runIn_held hTested hHolds] at hFinished ⊢
          rcases hBody : loop.applied (2 * n + 1) with ⟨interruption | value, after⟩
          · exact ⟨n + 1, .failed hNext (.inr rfl) hBody⟩
          · have hGiven : (loop.applied (2 * n + 1)).1 = .ok value := congrArg Prod.fst hBody
            obtain rfl : loop.before (2 * (n + 1)) = after := congrArg Prod.snd hBody
            rw [hBody, continued] at hFinished
            exact ih (hNext.succ hGiven (by omega)) (.some hGiven) hFinished
        · rw [runIn_stopped hTest hHolds]
          exact ⟨n, .stopped h hLast hTest hHolds⟩

theorem Ends.run_eq {n : Nat} {ending : Except Interruption Value × Session}
    (h : loop.Ends expected n ending) {rounds : Nat} (hRounds : n < rounds) :
    (loop.run expected rounds .null).runIn loop.start = ending := by
  cases h with
  | stopped hBefore hLast hTest hOther =>
      obtain ⟨more, rfl⟩ : ∃ more, rounds = more + 1 + n := ⟨rounds - n - 1, by omega⟩
      rw [run_goesOn hBefore hLast, runIn_stopped hTest hOther]
  | @failed turn _ _ hBefore hTurn hFails =>
      rcases hTurn with rfl | hBody
      · obtain ⟨last, hLast⟩ := hBefore.exists_lastValue
        obtain ⟨more, rfl⟩ : ∃ more, rounds = more + 1 + n := ⟨rounds - n - 1, by omega⟩
        rw [run_goesOn hBefore hLast, runIn_testFails hFails]
      · obtain ⟨round, rfl⟩ : ∃ round, n = round + 1 := ⟨n - 1, by omega⟩
        obtain rfl : turn = 2 * round + 1 := by omega
        have hRoundBefore : loop.GoesOn expected (2 * round) := fun turn hTurn => hBefore turn (by omega)
        obtain ⟨last, hLast⟩ := hRoundBefore.exists_lastValue
        obtain ⟨value, hTest, hHolds⟩ := hBefore (2 * round) (by omega)
        obtain ⟨more, rfl⟩ : ∃ more, rounds = more + 1 + round := ⟨rounds - round - 1, by omega⟩
        rw [run_goesOn hRoundBefore hLast, runIn_held hTest (hHolds (by omega)), hFails, continued]

/-! ### Depth -/

/-- Every turn starts at the depth at which the loop starts. -/
theorem depth_before {fuel : Nat} (hEv : loop.ev = .ofFuel fuel) (turn : Nat) :
    (loop.before turn).depth = loop.start.depth := by
  induction turn with
  | zero => rfl
  | succ turn ih =>
      have hBalanced : (loop.before turn).Balanced (loop.before (turn + 1)) := by
        rw [before, hEv]
        exact (Computes.apply (P := fun _ _ => False) (loop.target turn)
          (Value.all_alike_self (fun _ => rfl) []) loop.scope).balanced fuel rfl
      rw [hBalanced.depth, ih]

end Alternation

/-- The message that repeats a body while a condition has the given truth value. -/
def Primitive.whileTruth (expected : Bool) : Primitive :=
  if expected then .whileTrue else .whileFalse

theorem runIn_whileTruth {session : Session} {condition : ClosureId} {closure : Closure}
    (hClosure : session.closures[condition.index]? = some closure) (body : FunctionRef)
    (expected : Bool) (ev : Evaluator) :
    (ev.runPrimitive (.whileTruth expected) (.function (.closure condition))
      [.function body]).runIn session =
      (Alternation.run ⟨ev, condition, body, closure.scope, session⟩ expected ev.rounds
        .null).runIn session := by
  have hRepeat : (ev.repeatWhile expected (.function (.closure condition)) (.function body)).runIn
      session = (Alternation.run ⟨ev, condition, body, closure.scope, session⟩ expected ev.rounds
        .null).runIn session := by
    have hCondition : (closureIdOf (.function (.closure condition))).runIn session =
        (.ok condition, session) := rfl
    have hBody : (functionOf (.function body)).runIn session = (.ok body, session) := rfl
    rw [Evaluator.repeatWhile, runIn_bind_ok hCondition, runIn_bind_ok hBody,
      runIn_bind_ok (runIn_closureOf hClosure)]
    rfl
  rw [← hRepeat]
  cases expected <;> rfl

/-- Loops take turns. The condition and the body of a loop are applied in turn, the condition first, each
in the session that the application before has left, and all of them at the depth at which the loop
starts. A loop that comes to an end does so after some number of rounds, in all of which the condition
has had the expected truth value: the condition has the other one, and the answer is the last value of
the body or null, or an application fails, and the answer is its failure. Either way nothing is applied
after that. In particular a loop exceeds the limit on the depth only if one of these applications does.
Conversely, turns that end in one of these ways are what the loop does. -/
theorem loops_take_turns {session : Session} {condition : ClosureId} {closure : Closure}
    (hClosure : session.closures[condition.index]? = some closure) (body : FunctionRef)
    (expected : Bool) (fuel : Nat) :
    let ev := Evaluator.ofFuel fuel
    let loop : Alternation := ⟨ev, condition, body, closure.scope, session⟩
    let receiver : Value := .function (.closure condition)
    let primitive := Primitive.whileTruth expected
    let answer := (ev.runPrimitive primitive receiver [.function body]).runIn session
    (∀ turn, (loop.before turn).depth = session.depth) ∧
      ((∀ kind, answer.1 ≠ .error (.outOfFuel kind)) →
        ∃ n, loop.Ends expected n answer ∧
          ∀ limit, answer.1 = .error (.error (.stackExhausted limit)) →
            ∃ turn ≤ 2 * n, (loop.applied turn).1 = .error (.error (.stackExhausted limit))) ∧
      (∀ n ending, loop.Ends expected n ending → n < ev.rounds → answer = ending) ∧
      (session.Answers receiver primitive →
        (ev.send receiver ⟨primitive.selector, [.function body]⟩ none).runIn session = answer) := by
  intro ev loop receiver primitive answer
  have hAnswer : answer = (loop.run expected ev.rounds .null).runIn loop.start :=
    runIn_whileTruth hClosure body expected ev
  refine ⟨Alternation.depth_before rfl, ?_, ?_, ?_⟩
  · intro hFinished
    have hNone : loop.GoesOn expected (2 * 0) := fun turn hTurn => absurd hTurn (Nat.not_lt_zero turn)
    obtain ⟨n, hEnds⟩ := Alternation.exists_ends_of_goesOn hNone .none (hAnswer ▸ hFinished)
    have hEnds : loop.Ends expected n answer := hAnswer ▸ hEnds
    refine ⟨n, hEnds, ?_⟩
    intro limit hExhausted
    generalize answer = ending at hEnds hExhausted
    cases hEnds with
    | stopped => cases hExhausted
    | @failed turn _ _ _ hTurn hFails =>
        cases hExhausted
        exact ⟨turn, by omega, congrArg Prod.fst hFails⟩
  · intro n ending hEnds hRounds
    exact hAnswer.trans (hEnds.run_eq hRounds)
  · intro hAnswers
    have hArity : selectorArity primitive.selector = 1 := by cases expected <;> decide
    exact Evaluator.runIn_send_unary hAnswers hArity (.function body) ev

/-- A closure without parameters. -/
def block (body : List Source.Expr) : Closure where
  name? := none
  owner? := none
  prototype := .empty
  body
  scope := Environment.root
  source? := none
  signature? := none

/-- `(set name value)`, for names of variables. -/
def assignment (name value : String) : Source.Expr :=
  .list default [.symbol default "set", .symbol default name, .symbol default value]

/-- A session with the closures `(lambda () go)` and `(lambda () (set go next) (set next false))` that
allows no application inside another. -/
def twoRounds : Session :=
  { Session.new 1 with
    environment := (Session.new 1).environment.defineAll Environment.root
      [("go", .bool true), ("next", .bool true)]
    closures := #[block [.symbol default "go"],
      block [assignment "go" "next", assignment "next" "false"]] }

/-- The turns of the loop that they make up. -/
def twoRoundsLoop : Alternation :=
  ⟨.ofFuel 5, ⟨0⟩, .closure ⟨1⟩, Environment.root, twoRounds⟩

theorem twoRoundsLoop_applied :
    (List.range 5).map (fun turn => (twoRoundsLoop.applied turn).1) =
      [.ok (.bool true), .ok (.bool false), .ok (.bool true), .ok (.bool false),
        .ok (.bool false)] := by
  cbv

theorem twoRoundsLoop_ends :
    twoRoundsLoop.Ends true 2 (.ok (.bool false), (twoRoundsLoop.applied 4).2) := by
  have hTurns := twoRoundsLoop_applied
  injection hTurns with hFirst hTurns
  injection hTurns with hSecond hTurns
  injection hTurns with hThird hTurns
  injection hTurns with hFourth hTurns
  injection hTurns with hFifth _
  have hBefore : twoRoundsLoop.GoesOn true (2 * 2) := by
    intro turn hTurn
    obtain rfl | rfl | rfl | rfl : turn = 0 ∨ turn = 1 ∨ turn = 2 ∨ turn = 3 := by omega
    · exact ⟨_, hFirst, fun _ => rfl⟩
    · exact ⟨_, hSecond, by omega⟩
    · exact ⟨_, hThird, fun _ => rfl⟩
    · exact ⟨_, hFourth, by omega⟩
  exact .stopped hBefore (.some hFourth) (Prod.ext hFifth rfl) (by decide)

/-- The condition holds twice, although the limit on the depth is one. -/
theorem loops_take_turns_twice :
    let answer := ((Evaluator.ofFuel 5).runPrimitive .whileTrue (.function (.closure ⟨0⟩))
      [.function (.closure ⟨1⟩)]).runIn twoRounds
    twoRounds.maxDepth = 1 ∧ twoRoundsLoop.Ends true 2 answer ∧
      answer = (.ok (.bool false), (twoRoundsLoop.applied 4).2) ∧
      ∀ turn, (twoRoundsLoop.before turn).depth = 0 := by
  have hClosure : twoRounds.closures[0]? = some (block [.symbol default "go"]) := rfl
  obtain ⟨hDepth, -, hAnswer, -⟩ := loops_take_turns hClosure (.closure ⟨1⟩) true 5
  have hEnding := hAnswer 2 _ twoRoundsLoop_ends (by decide)
  refine ⟨rfl, ?_, hEnding, hDepth⟩
  exact hEnding ▸ twoRoundsLoop_ends

end MessageLisp
