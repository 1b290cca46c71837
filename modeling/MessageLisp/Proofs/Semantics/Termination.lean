import Mathlib
import MessageLisp.Proofs.Environment
import MessageLisp.Proofs.Semantics.Bounds
import MessageLisp.Proofs.Semantics.Running
import MessageLisp.Proofs.Semantics.Settling

/-! Termination. The limit on the depth of applications bounds every recursion through functions. It
does not bound the taking in of expressions from elsewhere: definitions that extend a class, and
expressions that reach a form as values. A program ends exactly if this, and the rounds of its loops,
stay bounded. -/
namespace MessageLisp

open Source (Expr)
open Eval

/-! ### Settling -/

theorem Source.Expr.sizeOf_part_lt {expr part : Expr} (h : part ∈ expr.parts) :
    sizeOf part < sizeOf expr := by
  cases expr with
  | list span items =>
      have hItem : sizeOf part < sizeOf items := List.sizeOf_lt_of_mem h
      simp only [Expr.list.sizeOf_spec]
      omega
  | _ => cases h

/-- Induction over expressions by their parts. -/
theorem Source.Expr.induction_parts {motive : Expr → Prop}
    (h : ∀ expr : Expr, (∀ part ∈ expr.parts, motive part) → motive expr) (expr : Expr) :
    motive expr := by
  induction hSize : sizeOf expr using Nat.strongRecOn generalizing expr with
  | ind size ih =>
      apply h expr
      intro part hPart
      exact ih (sizeOf part) (hSize ▸ Expr.sizeOf_part_lt hPart) part rfl

namespace Evaluator

variable {rounds foreign : Nat}

/-- At one depth, expressions settle if all those deeper down do. -/
theorem bounded_settles_of_inside {limit depth : Nat}
    (hInside : ∀ (expr : Expr) (scope : ScopeId) (session : Session), session.maxDepth = limit →
      depth < session.depth → session.depth ≤ limit → Settles Short fun nesting =>
        ((bounded rounds foreign nesting).evaluate expr scope).runIn session)
    (hAdopt : ∀ less, foreign = less + 1 → ∀ (expr : Expr) (scope : ScopeId) (session : Session),
      Settles Short fun nesting => ((bounded rounds less nesting).evaluate expr scope).runIn session)
    (expr : Expr) (scope : ScopeId) (session : Session) (hLimit : session.maxDepth = limit)
    (hDepth : session.depth = depth) :
    Settles Short fun nesting => ((bounded rounds foreign nesting).evaluate expr scope).runIn session := by
  induction expr using Source.Expr.induction_parts generalizing scope session with
  | h expr ih =>
      have hSettled : Settled limit depth fun nesting => (bounded rounds foreign nesting).toAccess :=
        { inside := hInside
          adopt := by
            cases foreign with
            | zero => exact .inl fun nesting exprs => bounded_adopt_zero rounds nesting exprs
            | succ less =>
                exact .inr ⟨fun nesting => (bounded rounds less nesting).evaluate,
                  fun nesting exprs => bounded_adopt_succ rounds less nesting exprs,
                  hAdopt less rfl⟩ }
      have hReady : Ready (fun part _ => part ∈ expr.parts) limit depth (bounded rounds foreign) :=
        { follows := fun nesting => bounded_follows (.inl rfl)
          rounds := fun nesting => by rw [bounded_rounds, bounded_rounds]
          enter := fun nesting => by rw [bounded_plain]; rfl
          evaluate := fun hPart scope session hLimit hDepth => ih _ hPart scope session hLimit hDepth
          settled := hSettled
          guarded := by
            have hSame : ∀ nesting, (bounded rounds foreign nesting).guarded =
                (bounded rounds foreign nesting).toAccess := fun nesting => by rw [bounded_plain]; rfl
            simpa only [hSame] using hSettled }
      apply Settles.of_succ
      simp only [bounded_evaluate_succ]
      have hParts : List.Forall₂ (fun part _ => part ∈ expr.parts) expr.parts expr.parts :=
        List.forall₂_same.mpr fun part hPart => hPart
      exact Settles.locating expr
        ((Computes.interpret rfl hParts scope).settles rfl hReady rfl hLimit hDepth)

theorem bounded_settles_of_adopt
    (hAdopt : ∀ less, foreign = less + 1 → ∀ (expr : Expr) (scope : ScopeId) (session : Session),
      Settles Short fun nesting => ((bounded rounds less nesting).evaluate expr scope).runIn session)
    (remaining : Nat) (expr : Expr) (scope : ScopeId) (session : Session)
    (hRemaining : session.maxDepth - session.depth ≤ remaining) :
    Settles Short fun nesting => ((bounded rounds foreign nesting).evaluate expr scope).runIn session := by
  induction remaining generalizing expr scope session with
  | zero =>
      refine bounded_settles_of_inside ?_ hAdopt expr scope session rfl rfl
      intro inner innerScope later hLimit hDeeper hBelow
      omega
  | succ remaining ih =>
      refine bounded_settles_of_inside ?_ hAdopt expr scope session rfl rfl
      intro inner innerScope later hLimit hDeeper hBelow
      exact ih inner innerScope later (by omega)

/-- If expressions from elsewhere are taken in only so deep and loops have a fixed number of rounds,
evaluation comes to an end. -/
theorem bounded_settles (expr : Expr) (scope : ScopeId) (session : Session) :
    Settles Short fun nesting => ((bounded rounds foreign nesting).evaluate expr scope).runIn session := by
  induction foreign generalizing expr scope session with
  | zero =>
      refine bounded_settles_of_adopt ?_ _ expr scope session (Nat.le_refl _)
      intro less hLess
      cases hLess
  | succ foreign ih =>
      refine bounded_settles_of_adopt ?_ _ expr scope session (Nat.le_refl _)
      intro less hLess
      cases hLess
      exact ih

end Evaluator

/-! ### Programs -/

namespace Evaluator

/-- Runs that end for want of allowance. -/
def ShortRun (run : RunResult × Session) : Prop :=
  run.1 = .outOfFuel .nesting

theorem runProgram_settles {rounds foreign : Nat} (source : SourceText) (program : List Expr)
    (last : Value) (session : Session) :
    Settles ShortRun fun nesting =>
      ((bounded rounds foreign nesting).runProgram source program last).run session := by
  induction program generalizing last session with
  | nil => exact Settles.const nofun
  | cons expr rest ih =>
      simp only [runProgram_cons]
      refine Settles.bind (fun nesting => (bounded rounds foreign nesting).continueWith source expr rest)
        (bounded_settles expr Environment.root session.clearFaultSite) ?_
      rintro ⟨(error | panic | fuel) | value, later⟩ hShort _
      · exact Settles.const nofun
      · exact Settles.const nofun
      · refine Settles.const fun hOut => hShort ?_
        cases hOut
        rfl
      · exact ih value later

theorem run_settles (rounds foreign : Nat) (text label : String) (session : Session) :
    Settles ShortRun fun nesting => ((bounded rounds foreign nesting).run text label).run session := by
  cases hParse : Source.parse text label with
  | error error =>
      simp only [run_of_error hParse]
      exact Settles.const nofun
  | ok program =>
      simp only [run_of_parse hParse]
      apply Settles.map (fun run => (run.1, run.2.withSource session.source?))
        (runProgram_settles ⟨label, text⟩ program .null
          (session.withSource (some ⟨label, text⟩)))
      exact fun outcome hShort hOut => hShort hOut

theorem finished_of_not_short {result : RunResult} (hNesting : result ≠ .outOfFuel .nesting)
    (hRounds : result ≠ .outOfFuel .rounds) (hForeign : result ≠ .outOfFuel .foreign) :
    result.Finished := by
  rcases result with value | fault | (_ | _ | _)
  · trivial
  · trivial
  · exact hNesting rfl
  · exact hRounds rfl
  · exact hForeign rfl

/-- A program comes to an end exactly if there is a bound on the rounds of its loops and on how deep
it takes in expressions from elsewhere, one inside another. All other recursion is stopped by the
limit on the depth of applications. -/
theorem run_finishes_iff_bounded (session : Session) (text label : String) :
    (∃ fuel, (((ofFuel fuel).run text label).run session).1.Finished) ↔
      ∃ rounds foreign, ∀ nesting,
        (((bounded rounds foreign nesting).run text label).run session).1 ≠ .outOfFuel .rounds ∧
        (((bounded rounds foreign nesting).run text label).run session).1 ≠ .outOfFuel .foreign := by
  constructor
  · rintro ⟨fuel, hFinished⟩
    refine ⟨fuel, fuel, fun nesting => ?_⟩
    have hLarge : (((bounded fuel fuel (max nesting fuel)).run text label).run session).1.Finished :=
      (ofFuel_tracks_bounded (Nat.le_refl fuel) (by omega) (by omega)).finished hFinished
    have hTracks : Tracks .equality (Eq .nesting) (bounded fuel fuel nesting).evaluate
        (bounded fuel fuel (max nesting fuel)).evaluate := by
      apply bounded_tracks
      exact .inr ⟨Nat.le_max_left nesting fuel, rfl⟩
    rcases hTracks.run_eq text label session with ⟨_, rfl, hOut⟩ | hEq
    · rw [hOut]
      exact ⟨nofun, nofun⟩
    · rw [hEq]
      constructor
      · intro hOut
        rw [hOut] at hLarge
        exact hLarge
      · intro hOut
        rw [hOut] at hLarge
        exact hLarge
  · rintro ⟨rounds, foreign, hBounded⟩
    obtain ⟨outcome, enough, hSame, hShort⟩ := run_settles rounds foreign text label session
    have hEnough : ((bounded rounds foreign enough).run text label).run session = outcome :=
      hSame enough (Nat.le_refl _)
    have hFinished : (((bounded rounds foreign enough).run text label).run session).1.Finished := by
      apply finished_of_not_short _ (hBounded enough).1 (hBounded enough).2
      rw [hEnough]
      exact hShort
    exact ⟨enough + rounds + 1, (bounded_tracks_ofFuel (by omega) foreign).finished hFinished⟩

end Evaluator

/-! ### A class extended by its own definitions -/

/-- `(Object extend: d)`. -/
def extension (span first second third : Source.Span) : Expr :=
  .list span [.symbol first "Object", .symbol second "extend:", .symbol third "d"]

/-- What `d` is bound to: definitions that extend a class by themselves. -/
def definitions : Closure where
  name? := none
  owner? := none
  prototype := ⟨[], none⟩
  body := [extension ⟨18, 36⟩ ⟨19, 25⟩ ⟨26, 33⟩ ⟨34, 35⟩]
  scope := Environment.root
  source? := some ⟨"test", "(set d (lambda () (Object extend: d)))"⟩
  signature? := none

/-- A place where `d` and `Object` mean what they mean in the root scope. -/
structure Extending (session : Session) (scope : ScopeId) : Prop where
  closure : session.closures[0]? = some definitions
  hierarchy : session.hierarchy = Hierarchy.initial
  root : Environment.root.index < session.environment.frames.size
  names : ∀ name, session.environment.lookup? scope name =
    session.environment.lookup? Environment.root name
  cls : session.environment.lookup? Environment.root "Object" = none
  block : session.environment.lookup? Environment.root "d" = some (.function (.closure ⟨0⟩))

theorem find?_object : Hierarchy.initial.find? "Object" = some ⟨0⟩ := by
  cbv

theorem resolve?_extend :
    Hierarchy.initial.resolve? ⟨8⟩ "extend:" = some (.primitive .extend) := by
  cbv

namespace Extending

variable {session : Session} {scope : ScopeId}

/-- A fresh scope for the definitions is such a place too. -/
theorem newScope (h : Extending session scope) :
    Extending (session.newScope (some Environment.root)).2
      (session.newScope (some Environment.root)).1 where
  closure := h.closure
  hierarchy := h.hierarchy
  root := by
    change _ < (session.environment.frames.push _).size
    rw [Array.size_push]
    exact Nat.lt_succ_of_lt h.root
  names name := (Environment.lookup?_push_self h.root name).trans
    (Environment.lookup?_push_of_lt _ h.root name).symm
  cls := (Environment.lookup?_push_of_lt _ h.root _).trans h.cls
  block := (Environment.lookup?_push_of_lt _ h.root _).trans h.block

theorem resolve_cls (h : Extending session scope) :
    (resolve "Object" scope).runIn session = (.ok (.classRef ⟨0⟩), session) := by
  rw [resolve, runIn_get_bind, h.names, h.cls, h.hierarchy, find?_object]
  rfl

theorem resolve_block (h : Extending session scope) :
    (resolve "d" scope).runIn session = (.ok (.function (.closure ⟨0⟩)), session) := by
  rw [resolve, runIn_get_bind, h.names, h.block]
  rfl

end Extending

namespace Extending

variable {session : Session} {scope : ScopeId}

/-- Sending the message runs the definitions, which send it again. -/
theorem runIn_send {fuel : Nat} (h : Extending session scope)
    (ih : ∀ {later : Session} {inner : ScopeId}, Extending later inner →
      (((Evaluator.ofFuel fuel).sequence definitions.body inner).runIn later).1 =
        .error (.outOfFuel .nesting)) :
    (((Evaluator.ofFuel fuel).send (.classRef ⟨0⟩) ⟨"extend:", [.function (.closure ⟨0⟩)]⟩ none).runIn
      session).1 = .error (.outOfFuel .nesting) := by
  have hFound : (closureOf ⟨0⟩).runIn session = (.ok definitions, session) := by
    rw [closureOf, runIn_get_bind, h.closure]
    rfl
  rw [Evaluator.send, runIn_get_bind, h.hierarchy]
  have hClass : (none : Option ClassId).getD (session.classOf (.classRef ⟨0⟩)) = ⟨8⟩ := rfl
  simp only [hClass, resolve?_extend]
  have hArity : selectorArity "extend:" = 1 := by cbv
  simp only [hArity, List.length_cons, List.length_nil, ne_eq, not_true, if_false, Nat.zero_add,
    Evaluator.runMethod]
  change (((Evaluator.ofFuel fuel).extendClass ⟨0⟩ ⟨0⟩ >>= fun _ =>
    pure (Value.classRef ⟨0⟩)).runIn session).1 = _
  apply runIn_bind_error
  rw [Evaluator.extendClass, runIn_bind_ok hFound]
  change ((((Evaluator.ofFuel fuel).adopting definitions.body) >>= _).runIn
    (session.newScope (some Environment.root)).2).1 = _
  rw [definitions, Evaluator.adopting_bind, Evaluator.ofFuel_adopt, pure_bind]
  exact runIn_bind_error (ih h.newScope) _

/-- However far it is followed, the extension does not come to an end. -/
theorem outOfFuel (fuel : Nat) {session : Session} {scope : ScopeId} (h : Extending session scope)
    (span first second third : Source.Span) :
    (((Evaluator.ofFuel fuel).evaluate (extension span first second third) scope).runIn session).1 =
      .error (.outOfFuel .nesting) := by
  induction fuel using Nat.strongRecOn generalizing session scope span first second third with
  | ind fuel ih =>
      match fuel, ih with
      | 0, _ => rfl
      | 1, _ => rfl
      | fuel + 2, ih =>
          have hHead : ((Evaluator.ofFuel (fuel + 1)).evaluate (.symbol first "Object") scope).runIn
              session = (.ok (.classRef ⟨0⟩), session) := by
            change (locating _ (resolve "Object" scope)).runIn session = _
            rw [runIn_locating, h.resolve_cls]
            rfl
          have hBlock : ((Evaluator.ofFuel (fuel + 1)).evaluate (.symbol third "d") scope).runIn
              session = (.ok (.function (.closure ⟨0⟩)), session) := by
            change (locating _ (resolve "d" scope)).runIn session = _
            rw [runIn_locating, h.resolve_block]
            rfl
          have hKeyword : (Expr.symbol second "extend:").isKeyword = true := by cbv
          have hDecode : ((Evaluator.ofFuel (fuel + 1)).decodeMessage (.classRef ⟨0⟩)
              [.symbol second "extend:", .symbol third "d"] scope).runIn session =
                (.ok ⟨"extend:", [.function (.closure ⟨0⟩)]⟩, session) := by
            rw [Evaluator.decodeMessage, if_pos hKeyword, Evaluator.decodeKeywords, hKeyword]
            change ((Evaluator.ofFuel (fuel + 1)).evaluate (.symbol third "d") scope >>= _).runIn
              session = _
            rw [runIn_bind_ok hBlock]
            rfl
          change ((locating _ ((Evaluator.ofFuel (fuel + 1)).interpret _ scope)).runIn session).1 = _
          rw [runIn_locating]
          apply located_outOfFuel
          rw [extension, Evaluator.interpret, Evaluator.evaluateList, runIn_get_bind]
          change (((Evaluator.ofFuel (fuel + 1)).evaluate (.symbol first "Object") scope >>= _).runIn
            session).1 = _
          rw [runIn_bind_ok hHead, List.head?_cons, Option.any_some, hKeyword]
          change ((Evaluator.sendParts _ _ _ scope none).runIn session).1 = _
          rw [Evaluator.sendParts, runIn_bind_ok hDecode]
          apply h.runIn_send
          intro later inner hInner
          exact runIn_bind_error (ih (fuel + 1) (by omega) hInner _ _ _ _) _

end Extending

/-- The session in which `d` is bound to its definitions. -/
def selfExtending : Session :=
  { Session.new 16 with
    environment :=
      (Session.new 16).environment.define Environment.root "d" (.function (.closure ⟨0⟩))
    closures := #[definitions] }

theorem selfExtending_extending (source? : Option SourceText) :
    Extending (selfExtending.withSource source?).clearFaultSite Environment.root where
  closure := rfl
  hierarchy := rfl
  root := by cbv
  names _ := rfl
  cls := by
    change selfExtending.environment.lookup? Environment.root "Object" = none
    cbv
  block := by
    change selfExtending.environment.lookup? Environment.root "d" = _
    cbv

/-- The limit on the depth of applications does not stop definitions that extend a class by
themselves: with a limit of 16, the second of these programs has no end. -/
theorem extension_never_finishes :
    ¬∃ fuel, (((Evaluator.ofFuel fuel).run "(Object extend: d)" "test").run
      (((Evaluator.ofFuel 3).run "(set d (lambda () (Object extend: d)))" "test").run
        (Session.new 16)).2).1.Finished := by
  rintro ⟨fuel, hFinished⟩
  have hFirst : (((Evaluator.ofFuel 3).run "(set d (lambda () (Object extend: d)))" "test").run
      (Session.new 16)).2 = selfExtending := by
    cbv
  have hParse : Source.parse "(Object extend: d)" "test" =
      .ok [extension ⟨0, 18⟩ ⟨1, 7⟩ ⟨8, 15⟩ ⟨16, 17⟩] := by
    cbv
  have hOut := (selfExtending_extending (some ⟨"test", "(Object extend: d)"⟩)).outOfFuel fuel
    ⟨0, 18⟩ ⟨1, 7⟩ ⟨8, 15⟩ ⟨16, 17⟩
  rw [hFirst, Evaluator.run_of_parse hParse, Evaluator.runProgram_cons,
    Evaluator.continueWith_outOfFuel hOut] at hFinished
  exact hFinished

end MessageLisp
