import MessageLisp.Proofs.Semantics.Simulation
import MessageLisp.Semantics.Running

/-! Runs of programs. A run follows another one as evaluation does: from alike sessions alike programs
go the same way, unless the first gives up for want of fuel. -/
namespace MessageLisp

open Source (Expr)

theorem locateFault_error (error : Error) (label : String) (site : FaultSite) :
    (locateFault error label site).error = error := by
  simp only [locateFault]
  split <;> rfl

/-- A run that was followed to its end. -/
def RunResult.Finished : RunResult → Prop
  | .outOfFuel _ => False
  | _ => True

/-- Results that differ in what the likeness leaves open only. Faults have the same error and alike
sites, each located from its own running program. -/
inductive RunResult.Alike (L : Likeness) (label label' : String) : RunResult → RunResult → Prop where
  | value {value value' : Value} (hValue : value.Alike L value') :
      Alike L label label' (.value value) (.value value')
  | fault (error : Error) {site site' : FaultSite} (hSite : site.Alike L site') :
      Alike L label label' (.fault (locateFault error label site))
        (.fault (locateFault error label' site'))
  | outOfFuel (fuel : Fuel) : Alike L label label' (.outOfFuel fuel) (.outOfFuel fuel)

/-- Runs that went the same way. -/
structure RunsAlike (L : Likeness) (label label' : String) (run run' : RunResult × Session) : Prop where
  result : run.1.Alike L label label' run'.1
  session : run.2.Alike L run'.2

/-- If only equal expressions and programs are alike, runs that went the same way differ in the limit
only. -/
theorem RunsAlike.eq_withLimit {L : Likeness} {label : String} {run run' : RunResult × Session}
    (hLiteral : L.Literal) (h : RunsAlike L label label run run') :
    run' = (run.1, run.2.withLimit run'.2.maxDepth) := by
  obtain ⟨result, later⟩ := run
  obtain ⟨result', later'⟩ := run'
  obtain ⟨hResult, hLater⟩ := h
  rw [hLater.withLimit_eq hLiteral]
  cases hResult with
  | value hValue => rw [hValue.eq hLiteral]
  | fault error hSite => rw [hSite.eq hLiteral]
  | outOfFuel fuel => rfl

/-- Under a strict likeness, runs that went the same way are equal. -/
theorem RunsAlike.eq {L : Likeness} {label : String} {run run' : RunResult × Session}
    (hStrict : L.Strict) (h : RunsAlike L label label run run') : run = run' := by
  have hLimit : run.2.maxDepth = run'.2.maxDepth :=
    congrArg Level.limit (hStrict.level_eq h.session.level)
  rw [h.eq_withLimit hStrict.toLiteral, ← hLimit]
  rfl

namespace Evaluator

variable {L : Likeness} {ev ev' : Evaluator} {excused : Fuel → Prop}

/-- How a program goes on after the outcome of one of its expressions. -/
def continueWith (ev : Evaluator) (source : SourceText) (expr : Expr) (rest : List Expr) :
    Except Interruption Value × Session → RunResult × Session
  | (.ok value, later) => (ev.runProgram source rest value).run later
  | (.error (.error error), later) =>
    (.fault (locateFault error source.label (later.faultSite?.getD ⟨expr, some source⟩)),
      later.clearFaultSite)
  | (.error (.panic panic), later) =>
    (.fault (locateFault panic.toError source.label (later.faultSite?.getD ⟨expr, some source⟩)),
      later.clearFaultSite)
  | (.error (.outOfFuel fuel), later) => (.outOfFuel fuel, later)

theorem runProgram_cons (source : SourceText) (expr : Expr) (rest : List Expr) (last : Value)
    (session : Session) :
    (ev.runProgram source (expr :: rest) last).run session =
      ev.continueWith source expr rest
        ((ev.evaluate expr Environment.root).runIn session.clearFaultSite) := by
  have hRun : (ExceptT.run (ev.evaluate expr Environment.root)).run session.clearFaultSite =
      (ev.evaluate expr Environment.root).runIn session.clearFaultSite := rfl
  simp only [runProgram, StateT.run_bind, StateT.run_modify, pure_bind, hRun]
  rcases (ev.evaluate expr Environment.root).runIn session.clearFaultSite with
    ⟨(error | panic | fuel) | value, later⟩ <;> rfl

theorem continueWith_outOfFuel {source : SourceText} {expr : Expr} {rest : List Expr}
    {outcome : Except Interruption Value × Session} {fuel : Fuel}
    (h : outcome.1 = .error (.outOfFuel fuel)) :
    (ev.continueWith source expr rest outcome).1 = .outOfFuel fuel := by
  obtain ⟨result, later⟩ := outcome
  obtain rfl : result = _ := h
  rfl

theorem Tracks.runProgram (h : Tracks L excused ev.evaluate ev'.evaluate) {source source' : SourceText}
    (hSource : L.source (some source) (some source')) {program program' : List Expr}
    (hProgram : List.Forall₂ (L.code (some source) (some source')) program program')
    {last last' : Value} (hLast : last.Alike L last') {session session' : Session}
    (hAlike : session.Alike L session') (hCurrent : session.source? = some source)
    (hCurrent' : session'.source? = some source') :
    (∃ fuel, excused fuel ∧
        ((ev.runProgram source program last).run session).1 = .outOfFuel fuel) ∨
      RunsAlike L source.label source'.label ((ev.runProgram source program last).run session)
        ((ev'.runProgram source' program' last').run session') := by
  induction hProgram generalizing last last' session session' with
  | nil => exact .inr ⟨.value hLast, hAlike⟩
  | @cons expr expr' rest rest' hExpr _ ih =>
      rw [runProgram_cons, runProgram_cons]
      rcases h hExpr Environment.root session.clearFaultSite session'.clearFaultSite
        hAlike.clearFaultSite hCurrent hCurrent' with ⟨fuel, hFuel, hOut⟩ | hMatches
      · exact .inl ⟨fuel, hFuel, continueWith_outOfFuel hOut⟩
      · generalize (ev.evaluate expr Environment.root).runIn session.clearFaultSite = run
          at hMatches ⊢
        generalize (ev'.evaluate expr' Environment.root).runIn session'.clearFaultSite = run'
          at hMatches ⊢
        obtain ⟨result, later⟩ := run
        obtain ⟨result', later'⟩ := run'
        obtain ⟨hResult, hLater, hBalanced, hBalanced'⟩ := hMatches
        have hSite : (later.faultSite?.getD ⟨expr, some source⟩).Alike L
            (later'.faultSite?.getD ⟨expr', some source'⟩) := by
          have hRecorded := hLater.faultSite
          generalize later.faultSite? = site? at hRecorded ⊢
          generalize later'.faultSite? = site?' at hRecorded ⊢
          cases hRecorded with
          | none => exact ⟨hExpr, hSource⟩
          | some hSite => exact hSite
        cases hResult with
        | ok hValue =>
            exact ih hValue hLater (hBalanced.source.trans hCurrent)
              (hBalanced'.source.trans hCurrent')
        | error interruption =>
            right
            cases interruption with
            | error error => exact ⟨.fault error hSite, hLater.clearFaultSite⟩
            | panic panic => exact ⟨.fault panic.toError hSite, hLater.clearFaultSite⟩
            | outOfFuel fuel => exact ⟨.outOfFuel fuel, hLater⟩

theorem run_of_parse {text label : String} {program : List Expr}
    (h : Source.parse text label = .ok program) (session : Session) :
    (ev.run text label).run session =
      (((ev.runProgram ⟨label, text⟩ program .null).run
          (session.withSource (some ⟨label, text⟩))).1,
        ((ev.runProgram ⟨label, text⟩ program .null).run
          (session.withSource (some ⟨label, text⟩))).2.withSource session.source?) := by
  rw [run, h]
  rfl

theorem run_of_error {text label : String} {error : Source.SyntaxError}
    (h : Source.parse text label = .error error) (session : Session) :
    (ev.run text label).run session = (.fault (.ofSyntax error), session) := by
  rw [run, h]
  rfl

theorem Tracks.run (h : Tracks L excused ev.evaluate ev'.evaluate) {text label text' label' : String}
    {program program' : List Expr} (hParse : Source.parse text label = .ok program)
    (hParse' : Source.parse text' label' = .ok program')
    (hSource : L.source (some ⟨label, text⟩) (some ⟨label', text'⟩))
    (hProgram : List.Forall₂ (L.code (some ⟨label, text⟩) (some ⟨label', text'⟩)) program program')
    {session session' : Session} (hAlike : session.Alike L session') :
    (∃ fuel, excused fuel ∧ ((ev.run text label).run session).1 = .outOfFuel fuel) ∨
      RunsAlike L label label' ((ev.run text label).run session)
        ((ev'.run text' label').run session') := by
  have hInside : (session.withSource (some ⟨label, text⟩)).Alike L
      (session'.withSource (some ⟨label', text'⟩)) := { hAlike with source := hSource }
  rw [run_of_parse hParse, run_of_parse hParse']
  rcases h.runProgram hSource hProgram .null hInside rfl rfl with hOut | hRuns
  · exact .inl hOut
  · exact .inr ⟨hRuns.result, { hRuns.session with source := hAlike.source }⟩

theorem Tracks.run_eq (h : Tracks .equality excused ev.evaluate ev'.evaluate) (text label : String)
    (session : Session) :
    (∃ fuel, excused fuel ∧ ((ev.run text label).run session).1 = .outOfFuel fuel) ∨
      (ev.run text label).run session = (ev'.run text label).run session := by
  cases hParse : Source.parse text label with
  | error error =>
      rw [run_of_error hParse, run_of_error hParse]
      exact .inr rfl
  | ok program =>
      have hProgram : List.Forall₂ Eq program program := List.forall₂_same.mpr fun _ _ => rfl
      exact (h.run hParse hParse rfl hProgram session.alike_equality).imp_right
        (RunsAlike.eq Likeness.equality_strict)

/-- A finished run stays the same under an evaluator that it tracks. -/
theorem Tracks.finished (h : Tracks .equality excused ev.evaluate ev'.evaluate) {text label : String}
    {session : Session} (hFinished : ((ev.run text label).run session).1.Finished) :
    ((ev'.run text label).run session).1.Finished := by
  rcases h.run_eq text label session with ⟨fuel, _, hOut⟩ | hEq
  · rw [hOut] at hFinished
    exact hFinished.elim
  · rwa [← hEq]

end Evaluator

end MessageLisp
