import MessageLisp.Proofs.Semantics.Safety

/-! Keywords as names. A program can neither assign a keyword nor take one for a parameter. It can
define a function or a class under a keyword, given as a string, and these are the only values that a
keyword ever has. All other keywords are unbound. -/
namespace MessageLisp

open Source (Expr)

/-- The name is not that of a part of a message. -/
def NotKeyword (name : String) : Prop :=
  Source.isKeyword name = false

/-! ### What a change binds -/

namespace Session

/-- No closure has a keyword for a parameter. -/
def PlainParameters (session : Session) : Prop :=
  ∀ (index : Nat) (closure : Closure), session.closures[index]? = some closure →
    ∀ parameter ∈ closure.prototype.parameters, NotKeyword parameter.name

theorem PlainParameters.modifyClosure {session : Session} (h : session.PlainParameters)
    (id : ClosureId) {f : Closure → Closure}
    (hPrototype : ∀ closure, (f closure).prototype = closure.prototype) :
    (session.modifyClosure id f).PlainParameters := by
  intro index closure hClosure
  simp only [Session.modifyClosure, Array.getElem?_modify] at hClosure
  split at hClosure
  · obtain ⟨old, hOld, rfl⟩ := Option.map_eq_some_iff.mp hClosure
    rw [hPrototype]
    exact h index old hOld
  · exact h index closure hClosure

theorem PlainParameters.collect {session : Session} (h : session.PlainParameters) (cls : ClassId)
    (scope : ScopeId) (names : List String) :
    (session.collect cls scope names).2.PlainParameters := by
  apply collect_induction (P := PlainParameters)
  · intro later name target _ hLater
    cases target with
    | closure id => exact hLater.modifyClosure id fun _ => rfl
    | builtin builtin => exact hLater
    | host id => exact hLater
  · exact h

/-- Making methods takes bindings away and adds none. -/
theorem getLocal?_of_collect {session : Session} {cls : ClassId} {scope other : ScopeId}
    {names : List String} {name : String} {value : Value}
    (h : (session.collect cls scope names).2.environment.getLocal? other name = some value) :
    session.environment.getLocal? other name = some value := by
  revert h
  apply collect_induction (P := fun later : Session =>
    later.environment.getLocal? other name = some value →
      session.environment.getLocal? other name = some value)
  · intro later taken target _ hLater hBound
    have hRemove : (later.takeMethod cls scope taken target).environment =
        later.environment.remove scope taken := by cases target <;> rfl
    rw [hRemove, Environment.getLocal?_remove] at hBound
    split at hBound
    · cases hBound
    · exact hLater hBound
  · exact id

end Session

theorem Change.plainParameters {session later : Session} {log : List Extension}
    (h : Change NotKeyword session log later) (hPlain : session.PlainParameters) :
    later.PlainParameters := by
  cases h with
  | note | pushFrame | define | assign | addInstance | setSlot | defineClass | addHost | close =>
      exact hPlain
  | addClosure _ hParameters =>
      intro index closure hClosure
      simp only [Session.addClosure, Array.getElem?_push] at hClosure
      split at hClosure
      · cases hClosure
        exact fun parameter hMem => (hParameters parameter hMem).elim id id
      · exact hPlain index closure hClosure
  | nameClosure id name => exact hPlain.modifyClosure id fun _ => rfl
  | extend cls scope names => exact hPlain.collect cls scope names

/-- The one way to bind a keyword is to define a function under it. -/
theorem Change.keyword_binding {session later : Session} {log : List Extension}
    (h : Change NotKeyword session log later) (hPlain : session.PlainParameters) {scope : ScopeId}
    {name : String} {value : Value} (hKeyword : Source.isKeyword name = true)
    (hBound : later.environment.getLocal? scope name = some value) :
    session.environment.getLocal? scope name = some value ∨ session.IsNamed name value := by
  have hReserved : ∀ {other}, NotKeyword other → name ≠ other := by
    rintro other hOther rfl
    exact absurd hKeyword (ne_true_of_eq_false hOther)
  cases h with
  | note | addClosure | nameClosure | addInstance | setSlot | defineClass | addHost =>
      exact .inl hBound
  | pushFrame hLive hNames =>
      simp only [Session.pushFrame, Session.mapEnvironment, Environment.getLocal?_pushFrame] at hBound
      split at hBound
      · rcases hNames name value hBound with hSelf | hSuper | ⟨id, closure, hClosure, parameter, hMem, rfl⟩
        · exact absurd hSelf (hReserved rfl)
        · exact absurd hSuper (hReserved rfl)
        · exact absurd rfl (hReserved (hPlain id.index closure hClosure parameter hMem))
      · exact .inl hBound
  | define other hLive hName =>
      simp only [Session.mapEnvironment, Environment.getLocal?_define] at hBound
      split at hBound
      · rename_i hHere
        obtain ⟨-, -, rfl⟩ := hHere
        cases hBound
        exact hName.elim (fun hFree => absurd rfl (hReserved hFree)) .inr
      · exact .inl hBound
  | assign other hName hLive =>
      simp only [Session.mapEnvironment, Environment.assign, Environment.getLocal?_define] at hBound
      split at hBound
      · rename_i hHere
        exact absurd hHere.2.2 (hReserved hName.1)
      · exact .inl hBound
  | extend cls other names => exact .inl (Session.getLocal?_of_collect hBound)
  | close =>
      simp only [Session.close, Environment.clear, Environment.getLocal?,
        Environment.bindings_modifyBindings] at hBound
      split at hBound
      · cases hBound
      · exact .inl hBound

/-! ### What a history binds -/

/-- At some time after the first session the value was a closure with the name, made by a definition:
no class owned it yet. -/
def Session.WasNamed (first session : Session) (name : String) (value : Value) : Prop :=
  ∃ middle log log', History NotKeyword first log middle ∧ History NotKeyword middle log' session ∧
    middle.IsNamed name value

theorem History.plainParameters {first last : Session} {log : List Extension}
    (h : History NotKeyword first log last) (hPlain : first.PlainParameters) :
    last.PlainParameters := by
  induction h with
  | start => exact hPlain
  | next _ hChange ih => exact hChange.plainParameters ih

theorem History.keyword_binding {first last : Session} {log : List Extension}
    (h : History NotKeyword first log last) (hPlain : first.PlainParameters) {name : String}
    (hKeyword : Source.isKeyword name = true)
    (hFirst : ∀ scope, first.environment.getLocal? scope name = none) {scope : ScopeId} {value : Value}
    (hBound : last.environment.getLocal? scope name = some value) :
    first.WasNamed last name value := by
  induction h with
  | start =>
      rw [hFirst] at hBound
      cases hBound
  | next hPast hChange ih =>
      rcases hChange.keyword_binding (hPast.plainParameters hPlain) hKeyword hBound with hOld | hNew
      · obtain ⟨middle, log, log', hBefore, hAfter, hNamed⟩ := ih hOld
        exact ⟨middle, log, _, hBefore, .next hAfter hChange, hNamed⟩
      · exact ⟨_, _, _, hPast, .next .start hChange, hNew⟩

theorem Session.new_keyword (maxDepth : Nat) {name : String} (hKeyword : Source.isKeyword name = true)
    (scope : ScopeId) : (Session.new maxDepth).environment.getLocal? scope name = none := by
  have hGlobals : ∀ entry ∈ globals, Source.isKeyword entry.1 = false := by decide
  cases hBound : (Session.new maxDepth).environment.getLocal? scope name with
  | none => rfl
  | some value =>
      have hPlain := hGlobals _ (Table.mem_of_get? (get?_globals hBound))
      exact absurd hKeyword (ne_true_of_eq_false hPlain)

/-! ### Evaluation of names -/

/-- The name is neither that of a variable nor that of a class. -/
def Session.Unbound (session : Session) (scope : ScopeId) (name : String) : Prop :=
  session.environment.lookup? scope name = none ∧ session.hierarchy.find? name = none

namespace Eval

variable {session : Session} {scope : ScopeId} {name : String}

theorem runIn_resolve_variable {value : Value}
    (hLookup : session.environment.lookup? scope name = some value) :
    (resolve name scope).runIn session = (.ok value, session) := by
  rw [resolve, runIn_get_bind, hLookup]
  rfl

theorem runIn_resolve_class {id : ClassId} (hLookup : session.environment.lookup? scope name = none)
    (hClass : session.hierarchy.find? name = some id) :
    (resolve name scope).runIn session = (.ok (.classRef id), session) := by
  rw [resolve, runIn_get_bind, hLookup, hClass]
  rfl

theorem runIn_resolve_unbound (h : session.Unbound scope name) :
    (resolve name scope).runIn session = (.error (.error (.unboundSymbol name)), session) := by
  rw [resolve, runIn_get_bind, h.1, h.2]
  rfl

/-- A list of computations fails with the first one that fails. -/
theorem runIn_mapM_error {α β : Type} {f : α → Eval β} {before after : List α} {a : α}
    {values : List β} {session later : Session} {interruption : Interruption}
    (hBefore : (before.mapM f).runIn session = (.ok values, later))
    (hFails : ((f a).runIn later).1 = .error interruption) :
    (((before ++ a :: after).mapM f).runIn session).1 = .error interruption := by
  rw [List.mapM_append, runIn_bind_ok hBefore]
  apply runIn_bind_error
  rw [List.mapM_cons]
  exact runIn_bind_error hFails _

end Eval

namespace Evaluator

open Eval

variable {session : Session} {scope : ScopeId} {name : String}

section Symbols

variable (fuel : Nat) (span : Source.Span)

theorem evaluate_symbol :
    ((ofFuel (fuel + 1)).evaluate (.symbol span name) scope).runIn session =
      located (.symbol span name) ((resolve name scope).runIn session) :=
  runIn_locating ..

theorem evaluate_variable {value : Value}
    (hLookup : session.environment.lookup? scope name = some value) :
    ((ofFuel (fuel + 1)).evaluate (.symbol span name) scope).runIn session = (.ok value, session) := by
  rw [evaluate_symbol, runIn_resolve_variable hLookup]
  rfl

theorem evaluate_class {id : ClassId} (hLookup : session.environment.lookup? scope name = none)
    (hClass : session.hierarchy.find? name = some id) :
    ((ofFuel (fuel + 1)).evaluate (.symbol span name) scope).runIn session =
      (.ok (.classRef id), session) := by
  rw [evaluate_symbol, runIn_resolve_class hLookup hClass]
  rfl

theorem evaluate_unbound (h : session.Unbound scope name) :
    ((ofFuel (fuel + 1)).evaluate (.symbol span name) scope).runIn session =
      (.error (.error (.unboundSymbol name)), session.noteFaultSite (.symbol span name)) := by
  rw [evaluate_symbol, runIn_resolve_unbound h, located]

end Symbols

/-- The head of a list is evaluated first, unless it is `super`. -/
theorem evaluate_head_error {fuel : Nat} {head : Expr} {error : Error}
    (hHead : head.symbol? ≠ some superName)
    (hFails : (((ofFuel fuel).evaluate head scope).runIn session).1 = .error (.error error))
    (span : Source.Span) (parts : List Expr) :
    (((ofFuel (fuel + 1)).evaluate (.list span (head :: parts)) scope).runIn session).1 =
      .error (.error error) := by
  have hList : (((ofFuel fuel).evaluateList (head :: parts) scope).runIn session).1 =
      .error (.error error) := by
    rw [evaluateList, runIn_get_bind, superStart?, if_neg hHead]
    exact runIn_bind_error hFails _
  have hLocating : ((ofFuel (fuel + 1)).evaluate (.list span (head :: parts)) scope).runIn session =
      located (.list span (head :: parts))
        (((ofFuel fuel).evaluateList (head :: parts) scope).runIn session) := runIn_locating ..
  rw [hLocating]
  generalize ((ofFuel fuel).evaluateList (head :: parts) scope).runIn session = run at hList
  obtain ⟨result, later⟩ := run
  obtain rfl : result = _ := hList
  rfl

end Evaluator

/-- Whatever programs run in a new session, and whatever else a host does that defines no keywords
itself, a keyword has a value only if a function was defined under it or a class has the name. Otherwise
it is unbound, and it fails as such wherever it is evaluated: alone, as the head of a list, and as an
argument. -/
theorem keyword_values_are_definitions {maxDepth : Nat} {log : List Extension} {session : Session}
    (hHistory : History NotKeyword (Session.new maxDepth) log session) {name : String}
    (hKeyword : Source.isKeyword name = true) (scope : ScopeId) :
    (∀ fuel span value later,
        ((Evaluator.ofFuel fuel).evaluate (.symbol span name) scope).runIn session =
          (.ok value, later) →
        later = session ∧
          ((Session.new maxDepth).WasNamed session name value ∨
            ∃ id, value = .classRef id ∧ session.hierarchy.find? name = some id)) ∧
      (session.Unbound scope name → ∀ fuel span,
        ((Evaluator.ofFuel (fuel + 1)).evaluate (.symbol span name) scope).runIn session =
            (.error (.error (.unboundSymbol name)), session.noteFaultSite (.symbol span name)) ∧
          ∀ around parts,
            (((Evaluator.ofFuel (fuel + 2)).evaluate (.list around (.symbol span name :: parts))
                scope).runIn session).1 = .error (.error (.unboundSymbol name))) ∧
      (∀ fuel target before values later span after, session.isForm target = false →
        (before.mapM fun part => (Evaluator.ofFuel (fuel + 1)).evaluate part scope).runIn session =
            (.ok values, later) →
          later.Unbound scope name →
            (((Evaluator.ofFuel (fuel + 1)).applyParts target (before ++ .symbol span name :: after)
                scope).runIn session).1 = .error (.error (.unboundSymbol name))) ∧
      (∀ fuel expr other, ∃ log', History NotKeyword (Session.new maxDepth) log'
        (((Evaluator.ofFuel fuel).evaluate expr other).runIn session).2) ∧
      ∀ fuel steps, HostStep.AllProperFor NotKeyword (.ofFuel fuel) steps (Session.new maxDepth) →
        ∃ log', History NotKeyword (Session.new maxDepth) log'
          (HostStep.performAll (.ofFuel fuel) steps (Session.new maxDepth)).2 := by
  have hNew := Session.new_sound maxDepth
  have hPlain : (Session.new maxDepth).PlainParameters := by
    intro index closure hClosure
    simp [Session.new] at hClosure
  refine ⟨?_, ?_, ?_, ?_, ?_⟩
  · intro fuel span value later hRun
    cases fuel with
    | zero => cases hRun
    | succ fuel =>
        cases hLookup : session.environment.lookup? scope name with
        | some bound =>
            rw [Evaluator.evaluate_variable fuel span hLookup] at hRun
            cases hRun
            obtain ⟨binder, -, hBound⟩ := Option.bind_eq_some_iff.mp hLookup
            exact ⟨rfl, .inl (hHistory.keyword_binding hPlain hKeyword
              (Session.new_keyword maxDepth hKeyword) hBound)⟩
        | none =>
            cases hClass : session.hierarchy.find? name with
            | some id =>
                rw [Evaluator.evaluate_class fuel span hLookup hClass] at hRun
                cases hRun
                exact ⟨rfl, .inr ⟨id, rfl, rfl⟩⟩
            | none =>
                rw [Evaluator.evaluate_unbound fuel span ⟨hLookup, hClass⟩] at hRun
                cases hRun
  · intro hUnbound fuel span
    have hAlone := Evaluator.evaluate_unbound fuel span hUnbound
    refine ⟨hAlone, fun around parts => Evaluator.evaluate_head_error ?_ (by rw [hAlone]) around parts⟩
    intro hSuper
    cases hSuper
    exact absurd hKeyword (by decide)
  · intro fuel target before values later span after hForm hBefore hUnbound
    have hFails := congrArg Prod.fst (Evaluator.evaluate_unbound fuel span hUnbound)
    rw [Evaluator.applyParts, Eval.runIn_get_bind, if_neg (ne_true_of_eq_false hForm)]
    exact Eval.runIn_bind_error (Eval.runIn_mapM_error hBefore hFails) _
  · intro fuel expr other
    have hSafe := Evaluator.evaluate_safe (hHistory.sound hNew) expr other fuel
    obtain ⟨log', hRest⟩ := hSafe.orderly.evolves.history
    exact ⟨_, hHistory.trans hRest⟩
  · intro fuel steps hProper
    exact (HostStep.performAll_safe_for hNew hProper).2.1

/-- A program that defines a function under a keyword and evaluates the keyword. -/
def keywordFunction : String :=
  "(function \"k:\" () 1) k:"

theorem run_keywordFunction :
    (fun session : Session =>
        (session.environment.lookup? Environment.root "k:",
          session.environment.lookup? Environment.root "j:", session.hierarchy.find? "j:"))
      (((Evaluator.ofFuel 4).run keywordFunction "test").run (Session.new 8)).2 =
      (some (.function (.closure ⟨0⟩)), none, none) := by
  cbv

/-- Afterwards the keyword stands for the function, and another one is unbound. -/
theorem keyword_values_are_definitions_function :
    ∃ log session, (((Evaluator.ofFuel 4).run keywordFunction "test").run (Session.new 8)).2 = session ∧
      History NotKeyword (Session.new 8) log session ∧
      Source.isKeyword "k:" = true ∧ Source.isKeyword "j:" = true ∧
      (Session.new 8).WasNamed session "k:" (.function (.closure ⟨0⟩)) ∧
      (((Evaluator.ofFuel 2).evaluate (.list ⟨0, 4⟩ [.symbol ⟨1, 3⟩ "j:"]) Environment.root).runIn
          session).1 = .error (.error (.unboundSymbol "j:")) := by
  have hProper : HostStep.AllProperFor NotKeyword (.ofFuel 4) [.run keywordFunction "test"]
      (Session.new 8) := ⟨trivial, trivial⟩
  obtain ⟨-, ⟨log, hHistory⟩, -⟩ := HostStep.performAll_safe_for (Session.new_sound 8) hProper
  obtain ⟨hDefined, hPair⟩ := Prod.mk.inj run_keywordFunction
  have hKeyword : Source.isKeyword "k:" = true := by decide
  have hOther : Source.isKeyword "j:" = true := by decide
  refine ⟨log, _, rfl, hHistory, hKeyword, hOther, ?_, ?_⟩
  · have hValue := (keyword_values_are_definitions hHistory hKeyword Environment.root).1 1 ⟨0, 2⟩
    have hRun := Evaluator.evaluate_variable 0 ⟨0, 2⟩ hDefined
    rcases (hValue _ _ hRun).2 with hNamed | ⟨id, hClass, -⟩
    · exact hNamed
    · cases hClass
  · have hUnbound := (keyword_values_are_definitions hHistory hOther Environment.root).2.1
    exact (hUnbound (Prod.mk.inj hPair) 0 ⟨1, 3⟩).2 ⟨0, 4⟩ []

/-- A keyword should never have a value, and this one does. -/
theorem keyword_function_has_value :
    Source.isKeyword "k:" = true ∧
      (((Evaluator.ofFuel 4).run keywordFunction "test").run (Session.new 8)).1 =
        .value (.function (.closure ⟨0⟩)) := by
  refine ⟨by decide, ?_⟩
  cbv

end MessageLisp
