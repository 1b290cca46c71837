import MessageLisp.Proofs.Number.Literal
import MessageLisp.Proofs.Semantics.Balance
import MessageLisp.Proofs.Semantics.Orderly
import MessageLisp.Proofs.Source.Derivation
import MessageLisp.Proofs.Source.Location

/-! Safety. Whatever a host does with a session, the machine never slips: it never relies on an
argument, a slot, a parameter, a class or a piece of the text that is not there. -/
namespace MessageLisp

open Source (Expr)

/-! ### Giving up at a slip -/

namespace Eval

variable {α : Type}

/-- A run that ended in a breakdown. -/
def brokeDown : Except Interruption α × Session → Bool
  | (.error (.panic _), _) => true
  | _ => false

/-- Runs `x`, but gives up if the run went wrong. No handler can make up for that. -/
def checking (wrong : Except Interruption α × Session → Bool) (x : Eval α) : Eval α := do
  let result ← outcome x
  if wrong (result, ← get) then throw (.outOfFuel .foreign) else MonadExcept.ofExcept result

theorem runIn_checking (wrong : Except Interruption α × Session → Bool) (x : Eval α)
    (session : Session) :
    (checking wrong x).runIn session =
      if wrong (x.runIn session) then (.error (.outOfFuel .foreign), (x.runIn session).2)
      else x.runIn session := by
  rw [checking, runIn_outcome_bind, runIn_get_bind]
  split
  · rfl
  · rcases x.runIn session with ⟨_ | _, later⟩ <;> rfl

theorem Follows.checking {L : Likeness} {program program' : Option SourceText} {R : α → α → Prop}
    {x x' : Eval α} (wrong : Except Interruption α × Session → Bool)
    (h : Follows L (· = .foreign) program program' R x x') :
    Follows L (· = .foreign) program program' R (Eval.checking wrong x) x' := by
  intro session session' hAlike hSource hSource'
  rw [runIn_checking]
  split
  · exact .inl ⟨.foreign, rfl, rfl⟩
  · exact h session session' hAlike hSource hSource'

/-- An orderly run is not given up if it did not go wrong. -/
theorem Proceeds.checking {R : Session → α → Prop} {x : Eval α} {session : Session}
    (h : x.Proceeds R session) {wrong : Except Interruption α × Session → Bool}
    (hRight : wrong (x.runIn session) = false) : (Eval.checking wrong x).Proceeds R session := by
  rw [Proceeds, runIn_checking, hRight]
  exact h

theorem Proceeds.brokeDown_eq {R : Session → α → Prop} {x : Eval α} {session : Session}
    (h : x.Proceeds R session) : brokeDown (x.runIn session) = false := by
  have hEnds := h.ends
  generalize x.runIn session = run at hEnds ⊢
  rcases run with ⟨(error | panic | fuel) | a, later⟩
  · rfl
  · exact hEnds.elim
  · rfl
  · rfl

end Eval

namespace Evaluator

/-- Evaluates like the plain evaluator, but gives up if an evaluation or the body of a function breaks
down, or if the depth cannot be counted down after the body of a function. -/
def unbroken : (fuel : Nat) → Evaluator :=
  instrumented (Eval.checking Eval.brokeDown) fun source? body =>
    Eval.enter source? (Eval.checking (fun run => Eval.brokeDown run || run.2.depth = 0) body)

theorem unbroken_follows (fuel : Nat) :
    Evaluator.Follows .equality (· = .foreign) (unbroken fuel) (ofFuel fuel) := by
  apply instrumented_follows
  · exact fun _ _ _ _ => id
  · exact .checking _
  · intro program program' inner inner' x x' hSource hBody
    exact .enter LevelLikeness.equality_fixed hSource (.checking _ hBody)

theorem Orderly.uniform {evaluate : Expr → ScopeId → Eval Value} (hEvaluate : Abides evaluate)
    {enter : Option SourceText → Eval Value → Eval Value}
    (hEnter : ∀ {source? : Option SourceText} {body : Eval Value} {session : Session},
      body.Proceeds Value.Lives (session.inside source?) →
        (enter source? body).Proceeds Value.Lives session) (rounds : Nat) :
    Orderly { Evaluator.uniform evaluate rounds with enter } where
  evaluate := hEvaluate
  adopt _ _ _ := .pure hEvaluate
  guarded := ⟨hEvaluate, fun _ _ _ => .pure hEvaluate⟩
  enter := hEnter

theorem unbroken_orderly (fuel : Nat) : (unbroken fuel).Orderly := by
  have hEnter : ∀ {source? : Option SourceText} {body : Eval Value} {session : Session},
      body.Proceeds Value.Lives (session.inside source?) →
        (Eval.enter source?
          (Eval.checking (fun run => Eval.brokeDown run || run.2.depth = 0) body)).Proceeds
            Value.Lives session := by
    intro source? body session hBody
    have hDepth : (body.runIn (session.inside source?)).2.depth ≠ 0 := by
      rw [hBody.depth]
      exact Nat.succ_ne_zero _
    refine .enter (hBody.checking ?_) fun hGrows hValue => hValue.mono hGrows
    rw [hBody.brokeDown_eq, Bool.false_or, decide_eq_false hDepth]
  induction fuel with
  | zero =>
      have hThrow : Abides fun _ _ => throw (.outOfFuel .nesting) := by
        intro _ _ session _
        have hKind : (Interruption.outOfFuel .nesting).Regular := nofun
        exact .throw hKind
      exact .uniform hThrow hEnter 0
  | succ fuel ih =>
      refine .uniform ?_ hEnter fuel
      intro expr scope session hSound
      have hExpr := ih.evaluateExpr expr scope session hSound
      exact hExpr.checking hExpr.brokeDown_eq

end Evaluator

/-! ### Steps of the host -/

/-- A run that is the same where slips are given up, and orderly. -/
structure Eval.Safe {α : Type} (R : Session → α → Prop) (x x' : Eval α) (session : Session) : Prop where
  same : x.runIn session = x'.runIn session
  orderly : x'.Proceeds R session

/-- What an evaluator that gives up at slips does in an orderly way, the plain one does as well. -/
theorem Computes.safe {P : Expr → Expr → Prop} {α : Type} {R : α → α → Prop} {S : Session → α → Prop}
    {x : Evaluator → Eval α} (hEq : ∀ a a', R a a' → a = a')
    (h : ∀ program, Computes .equality program program P R x x) {fuel : Nat} {session : Session}
    (hOrderly : (x (.unbroken fuel)).Proceeds S session) :
    Eval.Safe S (x (.unbroken fuel)) (x (.ofFuel fuel)) session := by
  have hSame : (x (.unbroken fuel)).runIn session = (x (.ofFuel fuel)).runIn session := by
    rcases (h session.source?).follows (Evaluator.unbroken_follows fuel) session session
      session.alike_equality rfl rfl with ⟨kind, rfl, hOut⟩ | hMatches
    · have hEnds := hOrderly.ends
      generalize (x (.unbroken fuel)).runIn session = run at hOut hEnds
      obtain ⟨result, later⟩ := run
      obtain rfl : result = _ := hOut
      exact absurd rfl hEnds
    · exact hMatches.eq Likeness.equality_strict hEq
  refine ⟨hSame, ?_⟩
  rw [Eval.Proceeds, ← hSame]
  exact hOrderly

namespace Evaluator

variable {session : Session}

theorem eq_of_alike (value value' : Value) (h : value.Alike .equality value') : value = value' :=
  h.eq Likeness.equality_strict.toLiteral

theorem evaluate_safe (hSound : session.Sound) (expr : Expr) (scope : ScopeId) (fuel : Nat) :
    Eval.Safe Value.Lives ((unbroken fuel).evaluate expr scope) ((ofFuel fuel).evaluate expr scope)
      session :=
  Computes.safe eq_of_alike (fun _ => .evaluate (P := fun _ _ => True) trivial rfl scope)
    ((unbroken_orderly fuel).evaluate expr scope session hSound)

theorem sequence_safe (hSound : session.Sound) (exprs : List Expr) (scope : ScopeId) (fuel : Nat) :
    Eval.Safe Value.Lives ((unbroken fuel).sequence exprs scope) ((ofFuel fuel).sequence exprs scope)
      session :=
  Computes.safe eq_of_alike
    (fun _ => .sequence (P := fun _ _ => True)
      (List.forall₂_same.mpr fun _ _ => ⟨trivial, rfl⟩) scope)
    ((unbroken_orderly fuel).sequence exprs scope hSound)

theorem evaluateSource_safe (hSound : session.Sound) (text label : String) (scope : ScopeId)
    (fuel : Nat) :
    Eval.Safe Value.Lives ((unbroken fuel).evaluateSource text label scope)
      ((ofFuel fuel).evaluateSource text label scope) session := by
  rw [evaluateSource, evaluateSource]
  cases Source.parse text label with
  | error error => exact ⟨rfl, .fail trivial⟩
  | ok program =>
      have hInside : (session.withSource (some ⟨label, text⟩)).Sound :=
        (Session.Evolves.of_change (.note session ..)).sound hSound
      obtain ⟨hSame, hOrderly⟩ := sequence_safe hInside program scope fuel
      refine ⟨?_, .within hOrderly fun hGrows hValue => hValue.mono hGrows⟩
      rw [Eval.runIn_within, Eval.runIn_within, hSame]

theorem apply_safe (hSound : session.Sound) {target : FunctionRef} (hTarget : target.Lives session)
    {arguments : List Value} (hLive : Value.AllLive session arguments) (scope : ScopeId) (fuel : Nat) :
    Eval.Safe Value.Lives ((unbroken fuel).apply target arguments scope)
      ((ofFuel fuel).apply target arguments scope) session :=
  Computes.safe eq_of_alike
    (fun _ => .apply (P := fun _ _ => False) target (Value.all_alike_self (fun _ => rfl) arguments)
      scope)
    ((unbroken_orderly fuel).apply hSound hTarget hLive scope)

theorem send_safe (hSound : session.Sound) {receiver : Value} (hReceiver : receiver.Lives session)
    {message : Message} (hLive : Value.AllLive session message.arguments) (start? : Option ClassId)
    (fuel : Nat) :
    Eval.Safe Value.Lives ((unbroken fuel).send receiver message start?)
      ((ofFuel fuel).send receiver message start?) session :=
  Computes.safe eq_of_alike
    (fun _ => .send (P := fun _ _ => False) (Value.alike_self (fun _ => rfl) receiver)
      ⟨rfl, Value.all_alike_self (fun _ => rfl) message.arguments⟩ start?)
    ((unbroken_orderly fuel).send hSound hReceiver hLive start?)

theorem extendClass_safe (hSound : session.Sound) (cls : ClassId) {definitions : ClosureId}
    (hDefinitions : definitions.index < session.closures.size) (fuel : Nat) :
    Eval.Safe
      (fun later count => ∃ ready methods, session.Evolves ready ∧
        Change (fun _ => False) ready [⟨cls, methods⟩] later ∧ methods.length = count)
      ((unbroken fuel).extendClass cls definitions) ((ofFuel fuel).extendClass cls definitions)
      session :=
  Computes.safe (fun _ _ => id) (fun _ => .extendClass (P := fun _ _ => False) cls definitions)
    ((unbroken_orderly fuel).extendClass hSound cls hDefinitions)

end Evaluator

/-- A program does not end in a breakdown. -/
def RunResult.Regular : RunResult → Prop
  | .value _ => True
  | .fault located => located.error.Regular
  | .outOfFuel fuel => fuel ≠ .foreign

namespace Evaluator

variable {session : Session}

theorem runProgram_safe (hSound : session.Sound) (source : SourceText) (program : List Expr)
    (last : Value) (fuel : Nat) :
    ((unbroken fuel).runProgram source program last).run session =
        ((ofFuel fuel).runProgram source program last).run session ∧
      session.Evolves (((ofFuel fuel).runProgram source program last).run session).2 ∧
      (((ofFuel fuel).runProgram source program last).run session).1.Regular := by
  induction program generalizing last session with
  | nil =>
      rw [runProgram, runProgram]
      exact ⟨rfl, .refl session, trivial⟩
  | cons expr rest ih =>
      have hClear : session.Evolves session.clearFaultSite := .of_change (.clearFaultSite session)
      obtain ⟨hSame, hEvolves, -, hEnds⟩ :=
        evaluate_safe (hClear.sound hSound) expr Environment.root fuel
      rw [runProgram_cons, runProgram_cons, hSame]
      generalize ((ofFuel fuel).evaluate expr Environment.root).runIn session.clearFaultSite = run
        at hEvolves hEnds ⊢
      have hLater : session.Evolves run.2 := hClear.trans hEvolves
      obtain ⟨(error | panic | kind) | value, later⟩ := run
      · rw [continueWith, continueWith]
        refine ⟨rfl, hLater.trans (.of_change (.clearFaultSite later)), ?_⟩
        rw [RunResult.Regular, locateFault_error]
        exact hEnds
      · exact hEnds.elim
      · rw [continueWith, continueWith]
        exact ⟨rfl, hLater, hEnds⟩
      · obtain ⟨hRest, hRestEvolves, hRegular⟩ := ih (hLater.sound hSound) value
        rw [continueWith, continueWith]
        exact ⟨hRest, hLater.trans hRestEvolves, hRegular⟩

theorem run_safe (hSound : session.Sound) (text label : String) (fuel : Nat) :
    ((unbroken fuel).run text label).run session = ((ofFuel fuel).run text label).run session ∧
      session.Evolves (((ofFuel fuel).run text label).run session).2 ∧
      (((ofFuel fuel).run text label).run session).1.Regular := by
  cases hParse : Source.parse text label with
  | error error =>
      rw [run_of_error hParse, run_of_error hParse]
      exact ⟨rfl, .refl session, trivial⟩
  | ok program =>
      have hInside : session.Evolves (session.withSource (some ⟨label, text⟩)) :=
        .of_change (.note session ..)
      obtain ⟨hSame, hEvolves, hRegular⟩ :=
        runProgram_safe (hInside.sound hSound) ⟨label, text⟩ program .null fuel
      rw [run_of_parse hParse, run_of_parse hParse, hSame]
      exact ⟨rfl, (hInside.trans hEvolves).trans (.of_change (.note _ ..)), hRegular⟩

end Evaluator

/-- An answer that is no sign of a breakdown. -/
def Answer.Regular : Answer → Prop
  | outcome (.error interruption) => interruption.Regular
  | installed (.error interruption) => interruption.Regular
  | result programResult => programResult.Regular
  | _ => True

theorem Eval.Safe.answered {α : Type} {R : Session → α → Prop} {x x' : Eval α} {session : Session}
    {free : String → Prop} (h : Eval.Safe R x x' session) {f : Except Interruption α → Answer}
    (hOk : ∀ a, (f (.ok a)).Regular)
    (hError : ∀ interruption, interruption.Regular → (f (.error interruption)).Regular) :
    (x.runIn session).map f id = (x'.runIn session).map f id ∧
      (∃ log, History free session log ((x'.runIn session).map f id).2) ∧
      ((x'.runIn session).map f id).1.Regular := by
  refine ⟨by rw [h.same], h.orderly.evolves.history, ?_⟩
  have hEnds := h.orderly.ends
  generalize x'.runIn session = run at hEnds ⊢
  rcases run with ⟨interruption | a, later⟩
  · exact hError interruption hEnds
  · exact hOk a

namespace HostStep

/-- What the host may do with the session: everything it hands in was handed out by the session, and
its functions do not break down. Calls from native code and changes of the classes behind the back of
the session are not among it. -/
def Proper (session : Session) : HostStep → Prop
  | apply target arguments _ => target.Lives session ∧ Value.AllLive session arguments
  | send receiver message _ => receiver.Lives session ∧ Value.AllLive session message.arguments
  | extendClass _ definitions => definitions.index < session.closures.size
  | addHost host => host.Steady
  | addClosure closure => closure.owner? = none
  | mapEnvironment f => ∃ scope name value, f = (·.define scope name value) ∧ value.Lives session
  | mapHierarchy _ => False
  | call .. => False
  | _ => True

/-- Every step is proper when its turn comes. -/
def AllProper (ev : Evaluator) : List HostStep → Session → Prop
  | [], _ => True
  | step :: steps, session => step.Proper session ∧ AllProper ev steps (step.perform ev session).2

/-- What the host may do, if only the given names are free for it to define. -/
def ProperFor (free : String → Prop) (session : Session) : HostStep → Prop
  | addClosure closure =>
    closure.owner? = none ∧ ∀ parameter ∈ closure.prototype.parameters, free parameter.name
  | mapEnvironment f =>
    ∃ scope name value, f = (·.define scope name value) ∧ value.Lives session ∧ free name
  | step => step.Proper session

@[inherit_doc AllProper]
def AllProperFor (free : String → Prop) (ev : Evaluator) : List HostStep → Session → Prop
  | [], _ => True
  | step :: steps, session =>
    step.ProperFor free session ∧ AllProperFor free ev steps (step.perform ev session).2

theorem Proper.properFor {session : Session} {step : HostStep} (h : step.Proper session) :
    step.ProperFor (fun _ => True) session := by
  cases step with
  | addClosure closure => exact ⟨h, fun _ _ => trivial⟩
  | mapEnvironment f =>
      obtain ⟨scope, name, value, hDefine, hValue⟩ := h
      exact ⟨scope, name, value, hDefine, hValue, trivial⟩
  | _ => exact h

theorem AllProper.allProperFor {ev : Evaluator} {steps : List HostStep} {session : Session}
    (h : AllProper ev steps session) : AllProperFor (fun _ => True) ev steps session := by
  induction steps generalizing session with
  | nil => trivial
  | cons step steps ih => exact ⟨h.1.properFor, ih h.2⟩

variable {free : String → Prop}

theorem perform_safe {session : Session} (hSound : session.Sound) {step : HostStep}
    (hProper : step.ProperFor free session) (fuel : Nat) :
    step.perform (.unbroken fuel) session = step.perform (.ofFuel fuel) session ∧
      (∃ log, History free session log (step.perform (.ofFuel fuel) session).2) ∧
      (step.perform (.ofFuel fuel) session).1.Regular := by
  cases step with
  | evaluate expr scope =>
      rw [perform, perform]
      exact (Evaluator.evaluate_safe hSound expr scope fuel).answered (fun _ => trivial) fun _ => id
  | evaluateSource text label scope =>
      rw [perform, perform]
      exact (Evaluator.evaluateSource_safe hSound text label scope fuel).answered (fun _ => trivial)
        fun _ => id
  | run text label =>
      obtain ⟨hSame, hEvolves, hRegular⟩ := Evaluator.run_safe hSound text label fuel
      rw [perform, perform, hSame]
      exact ⟨rfl, hEvolves.history, hRegular⟩
  | apply target arguments scope =>
      rw [perform, perform]
      exact (Evaluator.apply_safe hSound hProper.1 hProper.2 scope fuel).answered (fun _ => trivial)
        fun _ => id
  | send receiver message start? =>
      rw [perform, perform]
      exact (Evaluator.send_safe hSound hProper.1 hProper.2 start? fuel).answered (fun _ => trivial)
        fun _ => id
  | call signature target scope? arguments => exact hProper.elim
  | extendClass cls definitions =>
      rw [perform, perform]
      exact (Evaluator.extendClass_safe hSound cls hProper fuel).answered (fun _ => trivial)
        fun _ => id
  | addHost host =>
      rw [perform, perform]
      exact ⟨rfl, ⟨_, .next .start (.addHost session hProper)⟩, trivial⟩
  | addClosure closure =>
      rw [perform, perform]
      have hAdd : Change free session [] (session.addClosure closure).2 :=
        .addClosure session hProper.1 fun parameter hMem => .inl (hProper.2 parameter hMem)
      exact ⟨rfl, ⟨_, .next .start hAdd⟩, trivial⟩
  | mapEnvironment f =>
      obtain ⟨scope, name, value, rfl, hValue, hFree⟩ := hProper
      rw [perform, perform]
      exact ⟨rfl, ⟨_, .next .start (.define scope hValue (.inl hFree))⟩, trivial⟩
  | mapHierarchy f => exact hProper.elim
  | takeOutput =>
      rw [perform, perform]
      exact ⟨rfl, ⟨_, .next .start (.note session ..)⟩, trivial⟩
  | takeLastError =>
      rw [perform, perform]
      exact ⟨rfl, ⟨_, .next .start (.note session ..)⟩, trivial⟩
  | close =>
      rw [perform, perform]
      exact ⟨rfl, ⟨_, .next .start (.close session)⟩, trivial⟩

theorem performAll_safe_for {session : Session} (hSound : session.Sound) {steps : List HostStep}
    {fuel : Nat} (hProper : AllProperFor free (.ofFuel fuel) steps session) :
    performAll (.unbroken fuel) steps session = performAll (.ofFuel fuel) steps session ∧
      (∃ log, History free session log (performAll (.ofFuel fuel) steps session).2) ∧
      ∀ answer ∈ (performAll (.ofFuel fuel) steps session).1, answer.Regular := by
  induction steps generalizing session with
  | nil =>
      rw [performAll, performAll]
      exact ⟨rfl, ⟨[], .start⟩, fun _ hMem => absurd hMem List.not_mem_nil⟩
  | cons step steps ih =>
      obtain ⟨hSame, ⟨log, hHistory⟩, hRegular⟩ := perform_safe hSound hProper.1 fuel
      obtain ⟨hRest, ⟨log', hRestHistory⟩, hRestRegular⟩ := ih (hHistory.sound hSound) hProper.2
      simp only [performAll, hSame, hRest, true_and]
      exact ⟨⟨_, hHistory.trans hRestHistory⟩,
        List.forall_mem_cons.mpr ⟨hRegular, hRestRegular⟩⟩

theorem performAll_safe {session : Session} (hSound : session.Sound) {steps : List HostStep}
    {fuel : Nat} (hProper : AllProper (.ofFuel fuel) steps session) :
    performAll (.unbroken fuel) steps session = performAll (.ofFuel fuel) steps session ∧
      (∃ log, History (fun _ => True) session log (performAll (.ofFuel fuel) steps session).2) ∧
      ∀ answer ∈ (performAll (.ofFuel fuel) steps session).1, answer.Regular :=
  performAll_safe_for hSound hProper.allProperFor

end HostStep

/-! ### Integers -/

theorem remainderExact_eq_some_iff {a b c : Int64} :
    remainderExact a b = some c ↔
      b ≠ 0 ∧ (∃ q : Int64, a.toInt.tdiv b.toInt = q.toInt) ∧ a.toInt.tmod b.toInt = c.toInt := by
  rw [remainderExact]
  split
  · rename_i hZero
    simp [hZero]
  · rename_i hSome
    simp only [Option.bind_eq_some_iff, Number.checked_eq_some_iff, exists_and_right]
    exact (and_iff_right hSome).symm

theorem divideExact_eq_some_iff {a b c : Int64} :
    divideExact a b = some c ↔ b ≠ 0 ∧ b.toInt * c.toInt = a.toInt := by
  have hRest := Int.mul_tdiv_add_tmod a.toInt b.toInt
  constructor
  · intro hDivide
    rw [divideExact] at hDivide
    split at hDivide
    · rename_i hRemainder
      obtain ⟨hSome, -, hRemaining⟩ := remainderExact_eq_some_iff.mp hRemainder
      have hZero : a.toInt.tmod b.toInt = 0 := hRemaining
      rw [Number.checked_eq_some_iff.mp hDivide, hZero, Int.add_zero] at hRest
      exact ⟨hSome, hRest⟩
    · cases hDivide
  · rintro ⟨hSome, hProduct⟩
    have hDivisor : b.toInt ≠ 0 := fun hZero => hSome (Int64.toInt_inj.mp hZero)
    have hQuotient : a.toInt.tdiv b.toInt = c.toInt := by
      rw [← hProduct, Int.mul_tdiv_cancel_left _ hDivisor]
    have hZero : a.toInt.tmod b.toInt = (0 : Int64).toInt := by
      rw [← hProduct, Int.mul_tmod_right, Int64.toInt_zero]
    have hRemainder := remainderExact_eq_some_iff.mpr ⟨hSome, ⟨c, hQuotient⟩, hZero⟩
    rw [divideExact, hRemainder]
    exact Number.checked_eq_some_iff.mpr hQuotient

/-- A number that counts as zero. -/
def Value.IsZero : Value → Prop
  | .int n => n = 0
  | .float x => (x == 0.0) = true
  | _ => False

/-- A division by zero is an error of the language. -/
theorem runPrimitive_zero {primitive : Primitive} (hDivision : primitive = .divide ∨ primitive = .modulo)
    {divisor : Value} (hZero : divisor.IsZero) (ev : Evaluator) (receiver : Value) (session : Session) :
    (ev.runPrimitive primitive receiver [divisor]).runIn session =
      (.error (.error .divisionByZero), session) := by
  have hRequire : (requireNonzero divisor).runIn session =
      (.error (.error .divisionByZero), session) := by
    cases divisor with
    | int n =>
        have hFloat : (Number.floatOfInt n.toInt == 0.0) = true := by
          rw [show n = 0 from hZero]
          decide
        simp only [requireNonzero, numberOf, Value.float?, pure_bind, hFloat, if_true]
        rfl
    | float x =>
        simp only [requireNonzero, numberOf, Value.float?, pure_bind, show (x == 0.0) = true from hZero,
          if_true]
        rfl
    | _ => exact hZero.elim
  have hArgument : (Eval.argument [divisor] 0).runIn session = (.ok divisor, session) := rfl
  rcases hDivision with rfl | rfl
  all_goals
    simp only [Evaluator.runPrimitive]
    rw [Eval.runIn_bind_ok hArgument, Eval.runIn_bind, hRequire, Eval.continued]

/-! ### Pieces of the text -/

namespace Source

/-- The token is cut out of the text between two characters, and the body of a string between its
quotes. -/
structure Token.CutFrom (text : List Char) (token : Token) : Prop where
  start : IsBoundary text token.span.start
  stop : IsBoundary text token.span.stop
  ordered : token.span.start ≤ token.span.stop
  slice : slice text token.span = token.text
  body : token.kind = .string → ∃ body, token.text = '"' :: (body ++ ['"'])

theorem cutFrom_of_mem_scan {text : List Char} {token : Token} (hToken : token ∈ (scan text).tokens) :
    token.CutFrom text := by
  have hScans : Scans 0 text (scan text) := scans_scanFrom 0 text
  obtain ⟨hSlice, hStop⟩ := hScans.slice_token hToken
  obtain ⟨front, rest, hText, hSpan⟩ := hScans.token_at hToken
  rw [Nat.zero_add] at hSpan
  refine ⟨⟨front, token.text ++ rest, hText, by rw [hSpan]⟩,
    ⟨front ++ token.text, rest, by rw [hText, List.append_assoc], by rw [hSpan, byteLength_append]⟩,
    hStop ▸ Nat.le_add_right _ _, hSlice, ?_⟩
  intro hKind
  obtain ⟨body, hBody, -⟩ := (hScans.lexeme token hToken).string_body hKind
  exact ⟨body, hBody⟩

end Source

/-- The machine never slips. Whatever a host does with a new session, step after step, no evaluation
and no body of a function breaks down, not even where a failure would be caught, and the depth can be
counted down after every body; every answer is a result or an ordinary error. Every token of every
text is cut out of it between characters. Integer operations give the exact result or none, and a
division by zero is an error. -/
theorem host_steps_never_break {maxDepth fuel : Nat} {steps : List HostStep}
    (hProper : HostStep.AllProper (.ofFuel fuel) steps (Session.new maxDepth)) :
    HostStep.performAll (.unbroken fuel) steps (Session.new maxDepth) =
        HostStep.performAll (.ofFuel fuel) steps (Session.new maxDepth) ∧
      (∀ answer ∈ (HostStep.performAll (.ofFuel fuel) steps (Session.new maxDepth)).1,
        answer.Regular) ∧
      (∀ text, ∀ token ∈ (Source.scan text).tokens, token.CutFrom text) ∧
      (∀ a b c : Int64,
        (addExact a b = some c ↔ a.toInt + b.toInt = c.toInt) ∧
        (subtractExact a b = some c ↔ a.toInt - b.toInt = c.toInt) ∧
        (multiplyExact a b = some c ↔ a.toInt * b.toInt = c.toInt) ∧
        (divideExact a b = some c ↔ b ≠ 0 ∧ b.toInt * c.toInt = a.toInt) ∧
        (remainderExact a b = some c ↔
          b ≠ 0 ∧ (∃ q : Int64, a.toInt.tdiv b.toInt = q.toInt) ∧
            a.toInt.tmod b.toInt = c.toInt)) ∧
      (∀ primitive, primitive = .divide ∨ primitive = .modulo → ∀ divisor : Value, divisor.IsZero →
        ∀ ev receiver session,
          (Evaluator.runPrimitive ev primitive receiver [divisor]).runIn session =
            (.error (.error .divisionByZero), session)) := by
  obtain ⟨hSame, -, hRegular⟩ := HostStep.performAll_safe (Session.new_sound maxDepth) hProper
  refine ⟨hSame, hRegular, fun _ _ => Source.cutFrom_of_mem_scan, fun a b c => ?_,
    fun _ hDivision _ hZero ev => runPrimitive_zero hDivision hZero ev⟩
  exact ⟨Number.checked_eq_some_iff, Number.checked_eq_some_iff, Number.checked_eq_some_iff,
    divideExact_eq_some_iff, remainderExact_eq_some_iff⟩

/-- A function of the host that is applied, a program with a division by zero in a handled block, and a
message with an argument too few. -/
theorem host_steps_never_break_handled :
    HostStep.AllProper (.ofFuel 9)
        [.addHost ⟨"echo", none, false, .echo⟩, .apply (.host ⟨0⟩) [.int 1] Environment.root,
          .run "((lambda () (1 / 0)) onException: (lambda (m) (print m)))" "a",
          .send (.int 1) ⟨"+", []⟩ none] (Session.new 8) ∧
      ∀ answer ∈ (HostStep.performAll (.ofFuel 9)
        [.addHost ⟨"echo", none, false, .echo⟩, .apply (.host ⟨0⟩) [.int 1] Environment.root,
          .run "((lambda () (1 / 0)) onException: (lambda (m) (print m)))" "a",
          .send (.int 1) ⟨"+", []⟩ none] (Session.new 8)).1, answer.Regular := by
  have hProper : HostStep.AllProper (.ofFuel 9)
      [.addHost ⟨"echo", none, false, .echo⟩, .apply (.host ⟨0⟩) [.int 1] Environment.root,
        .run "((lambda () (1 / 0)) onException: (lambda (m) (print m)))" "a",
        .send (.int 1) ⟨"+", []⟩ none] (Session.new 8) := by
    refine ⟨nofun, ⟨?_, trivial, trivial⟩, trivial, ⟨trivial, trivial⟩, trivial⟩
    exact Nat.zero_lt_one
  exact ⟨hProper, (host_steps_never_break hProper).2.1⟩

end MessageLisp
