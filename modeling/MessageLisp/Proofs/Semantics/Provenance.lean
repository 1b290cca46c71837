import MessageLisp.Proofs.Semantics.Running
import MessageLisp.Proofs.Source.Location

/-! Where code comes from. As long as evaluation takes in only expressions of the program that is
current, every expression is evaluated as part of the program it was read from, and faults are located
there. -/
namespace MessageLisp

open Source (Expr Position Span)

/-- The expressions of a program, at any depth. There are none if the text is no program. -/
def SourceText.nodes (source : SourceText) : List Expr :=
  match Source.parse source.text source.label with
  | .ok program => Expr.nodesAll program
  | .error _ => []

theorem SourceText.nodes_of_parse {source : SourceText} {program : List Expr}
    (h : Source.parse source.text source.label = .ok program) :
    source.nodes = Expr.nodesAll program := by
  rw [nodes, h]

theorem SourceText.mem_nodes_of_item {source : SourceText} {span : Span} {items : List Expr}
    {item : Expr} (h : .list span items ∈ source.nodes) (hItem : item ∈ items) :
    item ∈ source.nodes := by
  cases hParse : Source.parse source.text source.label with
  | error error =>
      rw [nodes, hParse] at h
      cases h
  | ok program =>
      rw [nodes_of_parse hParse] at h ⊢
      exact Expr.mem_nodesAll_of_item h hItem

/-- What stands in a program at a span is one expression with the given text. -/
def SourceText.Shows (source : SourceText) (span : Span) (text : String) : Prop :=
  ∃ expr, Source.parse (String.ofList (Source.slice source.text.toList span)) source.label =
    .ok [expr] ∧ expr.text = text

theorem SourceText.shows_of_mem_nodes {source : SourceText} {expr : Expr}
    (h : expr ∈ source.nodes) : source.Shows expr.span expr.text := by
  cases hParse : Source.parse source.text source.label with
  | error error =>
      rw [nodes, hParse] at h
      cases h
  | ok program =>
      rw [nodes_of_parse hParse] at h
      obtain ⟨own, hOwn, hMoved⟩ := Source.readProgram_slice (Source.parse_eq_ok_iff.mp hParse) h
      refine ⟨own, Source.parse_eq_ok_iff.mpr ?_, ?_⟩
      · rwa [String.toList_ofList]
      · rw [← Expr.text_bare, ← Expr.bare_shift, hMoved, Expr.text_bare]

/-- Sessions whose expressions were all read from the given programs. If `loyal`, every expression to
be evaluated was read from the program that goes with it. -/
def Likeness.readFrom (programs : List SourceText) (loyal : Prop) : Likeness where
  expr e e' := e = e' ∧ ∃ origin ∈ programs, e ∈ origin.nodes
  code program _ e e' :=
    e = e' ∧ ∃ origin ∈ programs, e ∈ origin.nodes ∧ (loyal → program = some origin)
  source program program' := program = program' ∧ ∀ source ∈ program, source ∈ programs
  expr_of_code := by
    rintro program _ e _ ⟨rfl, origin, hOrigin, hMem, _⟩
    exact ⟨rfl, origin, hOrigin, hMem⟩
  bare_eq h := congrArg Expr.bare h.1
  code_items := by
    rintro program _ span _ items _ ⟨hEq, origin, hOrigin, hMem, hLoyal⟩
    cases hEq
    exact List.forall₂_same.mpr fun item hItem =>
      ⟨rfl, origin, hOrigin, SourceText.mem_nodes_of_item hMem hItem, hLoyal⟩
  levels := .equality

theorem Likeness.readFrom_strict (programs : List SourceText) (loyal : Prop) :
    (Likeness.readFrom programs loyal).Strict :=
  ⟨⟨And.left, And.left⟩, id⟩

theorem Likeness.readFrom_implies {programs programs' : List SourceText} {loyal loyal' : Prop}
    (hPrograms : programs ⊆ programs') (hLoyal : loyal' → loyal) :
    (Likeness.readFrom programs loyal).Implies (Likeness.readFrom programs' loyal') where
  expr := by
    rintro e e' ⟨hEq, origin, hOrigin, hMem⟩
    exact ⟨hEq, origin, hPrograms hOrigin, hMem⟩
  code := by
    rintro program program' e e' ⟨hEq, origin, hOrigin, hMem, hCurrent⟩
    exact ⟨hEq, origin, hPrograms hOrigin, hMem, fun h => hCurrent (hLoyal h)⟩
  source := by
    rintro program program' ⟨hEq, hHanded⟩
    exact ⟨hEq, fun source hSource => hPrograms (hHanded source hSource)⟩
  level := id

/-- Everything in the session that can be evaluated was read from one of the programs, and the body
of a closure from the program that goes with it. -/
def Session.ReadFrom (session : Session) (programs : List SourceText) : Prop :=
  session.Alike (Likeness.readFrom programs True) session

/-- Nothing in a new session has been read from anywhere. -/
theorem Session.new_readFrom (maxDepth : Nat) (programs : List SourceText) :
    (Session.new maxDepth).ReadFrom programs where
  environment := by
    apply ArrayAlike.self
    intro frame hFrame
    obtain rfl : frame = ⟨Session.globals, none⟩ := by
      simpa [Session.new, Environment.modifyBindings, Environment.initial, Environment.root]
        using hFrame
    refine ⟨List.forall₂_same.mpr ?_, rfl⟩
    rintro ⟨name, value⟩ hEntry
    refine ⟨rfl, ?_⟩
    simp only [Session.globals, List.cons_append, List.nil_append, List.mem_cons, List.mem_map,
      Prod.mk.injEq] at hEntry
    rcases hEntry with ⟨_, rfl⟩ | ⟨_, rfl⟩ | ⟨_, rfl⟩ | ⟨builtin, _, _, rfl⟩
    · exact .bool true
    · exact .bool false
    · exact .null
    · exact .function _
  hierarchy := rfl
  instances := ArrayAlike.self fun _ hMem => absurd hMem (by simp [Session.new])
  closures := ArrayAlike.self fun _ hMem => absurd hMem (by simp [Session.new])
  hosts := rfl
  level := rfl
  source := ⟨rfl, fun _ hNone => absurd hNone (by simp [Session.new])⟩
  faultSite := Option.Rel.none
  output := rfl
  lastError := rfl
  isOpen := rfl

/-! ### Staying with the current program -/

/-- Takes in expressions only if they are part of the current program. -/
def Access.reserved (evaluate : Expr → ScopeId → Eval Value) : Access where
  evaluate
  adopt := fun exprs => do
    if (← get).source?.any fun source => exprs.all (· ∈ source.nodes) then pure evaluate
    else throw (.outOfFuel .foreign)

theorem Access.runIn_reserved_adopt (evaluate : Expr → ScopeId → Eval Value) (exprs : List Expr)
    (session : Session) :
    ((Access.reserved evaluate).adopt exprs).runIn session =
      if session.source?.any fun source => exprs.all (· ∈ source.nodes) then (.ok evaluate, session)
      else (.error (.outOfFuel .foreign), session) := by
  simp only [Access.reserved]
  rw [Eval.runIn_get_bind]
  split <;> rfl

namespace Evaluator

/-- The evaluator that takes in expressions only if they are part of the current program. -/
def reserved (evaluate : Expr → ScopeId → Eval Value) (rounds : Nat) : Evaluator :=
  .ofAccess (.reserved evaluate) rounds

/-- Evaluates like the plain evaluator, but gives up when it is to take in an expression that is not
part of the current program. -/
def loyal : (fuel : Nat) → Evaluator
  | 0 => .reserved (fun _ _ => throw (.outOfFuel .nesting)) 0
  | fuel + 1 => .reserved (fun expr scope => (loyal fuel).evaluateExpr expr scope) fuel

variable {programs : List SourceText}

/-- What the evaluator takes in is code of the current program. -/
theorem reserved_follows {evaluate evaluate' : Expr → ScopeId → Eval Value}
    (h : Tracks (.readFrom programs True) (· = .foreign) evaluate evaluate') (rounds : Nat) :
    Evaluator.Follows (.readFrom programs True) (· = .foreign) (.reserved evaluate rounds)
      (.uniform evaluate' rounds) := by
  refine Follows.ofAccess LevelLikeness.equality_fixed { evaluate := h, adopt := ?_ } (.inl rfl)
  · intro program program' exprs exprs' hExprs session session' hAlike hSource hSource'
    rw [Access.runIn_reserved_adopt]
    split
    · rename_i hCurrent
      obtain ⟨source, hSome, hAll⟩ : ∃ source, session.source? = some source ∧
          ∀ expr ∈ exprs, expr ∈ source.nodes := by
        cases hSome : session.source? with
        | none => simp [hSome] at hCurrent
        | some source => exact ⟨source, rfl, by simpa [hSome] using hCurrent⟩
      have hHanded : source ∈ programs := hAlike.source.2 source hSome
      have hCode : List.Forall₂ ((Likeness.readFrom programs True).code program program')
          exprs exprs' := by
        have hEq : exprs = exprs' := eq_of_forall₂ hExprs fun _ _ => And.left
        subst hEq
        exact List.forall₂_same.mpr fun expr hExpr =>
          ⟨rfl, source, hHanded, hAll expr hExpr, fun _ => hSource.symm.trans hSome⟩
      exact .inr ⟨.ok ⟨hCode, h⟩, hAlike, .refl session, .refl session'⟩
    · exact .inl ⟨.foreign, rfl, rfl⟩

theorem loyal_follows (fuel : Nat) :
    Evaluator.Follows (.readFrom programs True) (· = .foreign) (loyal fuel) (ofFuel fuel) := by
  induction fuel with
  | zero => exact reserved_follows (fun _ _ _ _ _ _ => .throw _) 0
  | succ fuel ih => exact reserved_follows ih.evaluateExpr fuel

/-- Without regard for the current program, expressions still come from one of the programs. -/
theorem ofFuel_follows_readFrom (fuel : Nat) :
    Evaluator.Follows (.readFrom programs False) (fun _ => False) (ofFuel fuel) (ofFuel fuel) := by
  apply Evaluator.Follows.ofFuel LevelLikeness.equality_fixed
  rintro program program' expr _ ⟨rfl, origin, hOrigin, hMem⟩
  exact ⟨rfl, origin, hOrigin, hMem, False.elim⟩

end Evaluator

/-! ### Faults -/

/-- A span that a fault reports is told of one of the programs: the label is that of the program, and
the position is that of the span in its text. The expression reported stands at this span in one of
the programs; if `loyal`, in the same. -/
def Fault.Traced (fault : Fault) (programs : List SourceText) (loyal : Prop) : Prop :=
  ∀ span, fault.span? = some span →
    ∃ current ∈ programs, fault.label = current.label ∧
      fault.position? = some (Position.locate current.text.toList span.start) ∧
      ∃ origin ∈ programs, (∃ text, fault.expression? = some text ∧ origin.Shows span text) ∧
        (loyal → origin = current)

theorem Fault.Traced.imp {fault : Fault} {programs : List SourceText} {loyal loyal' : Prop}
    (h : fault.Traced programs loyal) (hLoyal : loyal' → loyal) : fault.Traced programs loyal' := by
  intro span hSpan
  obtain ⟨current, hCurrent, hLabel, hPosition, origin, hOrigin, hShows, hSame⟩ := h span hSpan
  exact ⟨current, hCurrent, hLabel, hPosition, origin, hOrigin, hShows, fun h => hSame (hLoyal h)⟩

theorem locateFault_traced {programs : List SourceText} {loyal : Prop} {site : FaultSite}
    (h : site.Alike (.readFrom programs loyal) site) (error : Error) (label : String) :
    (locateFault error label site).Traced programs loyal := by
  intro span hSpan
  simp only [locateFault] at hSpan ⊢
  split at hSpan
  · rename_i current hFits
    have hCurrent : site.source? = some current := (Option.filter_eq_some_iff.mp hFits).1
    obtain ⟨-, origin, hOrigin, hMem, hLoyal⟩ := h.expr
    cases hSpan
    refine ⟨current, h.source.2 current hCurrent, rfl, rfl, origin, hOrigin, ⟨_, rfl, ?_⟩, ?_⟩
    · exact SourceText.shows_of_mem_nodes hMem
    · intro hStays
      exact Option.some.inj ((hLoyal hStays).symm.trans hCurrent)
  · cases hSpan

theorem RunResult.Alike.exists_site {L : Likeness} {label label' : String} {result : RunResult}
    {fault : Fault} (h : result.Alike L label label' (.fault fault)) :
    ∃ error site site', FaultSite.Alike L site site' ∧ fault = locateFault error label' site' := by
  cases h with
  | fault error hSite => exact ⟨error, _, _, hSite, rfl⟩

/-- A run that ended with its code still from the programs, and its fault traced to them. -/
structure TracedRun (programs : List SourceText) (loyal : Prop) (run : RunResult × Session) : Prop where
  session : run.2.Alike (.readFrom programs loyal) run.2
  fault {fault : Fault} (hFault : run.1 = .fault fault)
    (hEvaluation : ∀ error, fault.error ≠ .malformedSource error) : fault.Traced programs loyal

namespace Evaluator

variable {programs : List SourceText} {loyal : Prop} {ev ev' : Evaluator} {excused : Fuel → Prop}

theorem Tracks.run_traced
    (h : Tracks (.readFrom programs loyal) excused ev.evaluate ev'.evaluate) {source : SourceText}
    (hSource : source ∈ programs) {session : Session}
    (hSession : session.Alike (.readFrom programs loyal) session) :
    (∃ fuel, excused fuel ∧
        ((ev.run source.text source.label).run session).1 = .outOfFuel fuel) ∨
      (ev.run source.text source.label).run session =
          (ev'.run source.text source.label).run session ∧
        TracedRun programs loyal ((ev'.run source.text source.label).run session) := by
  cases hParse : Source.parse source.text source.label with
  | error error =>
      rw [run_of_error hParse, run_of_error hParse]
      refine .inr ⟨rfl, hSession, ?_⟩
      rintro fault ⟨⟩ hEvaluation
      exact absurd rfl (hEvaluation error)
  | ok program =>
      have hCurrent : (Likeness.readFrom programs loyal).source (some source) (some source) :=
        ⟨rfl, by rintro _ ⟨⟩; exact hSource⟩
      have hProgram : List.Forall₂ ((Likeness.readFrom programs loyal).code (some source) (some source))
          program program := by
        refine List.forall₂_same.mpr fun expr hExpr => ⟨rfl, source, hSource, ?_, fun _ => rfl⟩
        rw [SourceText.nodes_of_parse hParse]
        exact Expr.nodes_subset hExpr expr.mem_nodes_self
      rcases h.run hParse hParse hCurrent hProgram hSession with hOut | hRuns
      · exact .inl hOut
      · have hEq := hRuns.eq (Likeness.readFrom_strict programs loyal)
        rw [hEq] at hRuns ⊢
        refine .inr ⟨rfl, hRuns.session, ?_⟩
        intro fault hFault _
        have hResult := hRuns.result
        rw [hFault] at hResult
        obtain ⟨error, site, site', hSite, rfl⟩ := hResult.exists_site
        obtain rfl : site = site' := hSite.eq (Likeness.readFrom_strict programs loyal).toLiteral
        exact locateFault_traced hSite error source.label

end Evaluator

/-! ### Runs one after the other -/

namespace Evaluator

/-- Runs programs one after the other: how each one ended, and the session after the last. -/
def runAll (ev : Evaluator) : List SourceText → Session → List RunResult × Session
  | [], session => ([], session)
  | source :: rest, session =>
    let run := (ev.run source.text source.label).run session
    let later := ev.runAll rest run.2
    (run.1 :: later.1, later.2)

theorem runAll_append (ev : Evaluator) (earlier rest : List SourceText) (session : Session) :
    ev.runAll (earlier ++ rest) session =
      ((ev.runAll earlier session).1 ++ (ev.runAll rest (ev.runAll earlier session).2).1,
        (ev.runAll rest (ev.runAll earlier session).2).2) := by
  induction earlier generalizing session with
  | nil => rfl
  | cons source earlier ih =>
      simp only [List.cons_append, runAll, ih]

variable {programs : List SourceText}

/-- As long as the loyal evaluator does not give up, it does what the plain one does. -/
theorem runAll_loyal {fuel : Nat} {earlier : List SourceText} (hHanded : earlier ⊆ programs)
    {session : Session} (hSession : session.ReadFrom programs)
    (hLoyal : .outOfFuel .foreign ∉ ((loyal fuel).runAll earlier session).1) :
    (loyal fuel).runAll earlier session = (ofFuel fuel).runAll earlier session ∧
      ((ofFuel fuel).runAll earlier session).2.ReadFrom programs := by
  induction earlier generalizing session with
  | nil => exact ⟨rfl, hSession⟩
  | cons source earlier ih =>
      have hSource : source ∈ programs := hHanded List.mem_cons_self
      simp only [runAll, List.mem_cons, not_or] at hLoyal ⊢
      rcases (loyal_follows fuel).evaluate.run_traced hSource hSession with ⟨_, rfl, hOut⟩ | ⟨hEq, hTraced⟩
      · exact absurd hOut.symm hLoyal.1
      · rw [hEq] at hLoyal ⊢
        obtain ⟨hRest, hAfter⟩ :=
          ih (List.subset_of_cons_subset hHanded) hTraced.session hLoyal.2
        exact ⟨by rw [hRest], hAfter⟩

/-- Whatever is taken in, what is evaluated was read from the programs. -/
theorem runAll_readFrom (fuel : Nat) {earlier : List SourceText} (hHanded : earlier ⊆ programs)
    {session : Session} (hSession : session.Alike (.readFrom programs False) session) :
    ((ofFuel fuel).runAll earlier session).2.Alike (.readFrom programs False)
      ((ofFuel fuel).runAll earlier session).2 := by
  induction earlier generalizing session with
  | nil => exact hSession
  | cons source earlier ih =>
      have hSource : source ∈ programs := hHanded List.mem_cons_self
      rcases (ofFuel_follows_readFrom fuel).evaluate.run_traced hSource hSession with
        ⟨_, hNever, _⟩ | ⟨_, hTraced⟩
      · exact hNever.elim
      · exact ih (List.subset_of_cons_subset hHanded) hTraced.session

/-- A span that a fault reports after any runs is told of a program that was handed in, and the
expression reported was read at this span from a program that was handed in. It is the same program
unless some run took in an expression from outside the program that was current. -/
theorem run_fault_traced {handed : List SourceText} {session : Session}
    (hSession : session.ReadFrom handed) (fuel : Nat) (earlier : List SourceText) (last : SourceText)
    {fault : Fault}
    (hFault : (((ofFuel fuel).run last.text last.label).run
      ((ofFuel fuel).runAll earlier session).2).1 = .fault fault)
    (hEvaluation : ∀ error, fault.error ≠ .malformedSource error) :
    fault.Traced (handed ++ (earlier ++ [last]))
      (.outOfFuel .foreign ∉ ((loyal fuel).runAll (earlier ++ [last]) session).1) := by
  have hEarlier : earlier ⊆ handed ++ (earlier ++ [last]) := by
    intro source hMem
    simp [hMem]
  have hLast : last ∈ handed ++ (earlier ++ [last]) := by simp
  have hHanded : handed ⊆ handed ++ (earlier ++ [last]) := List.subset_append_left _ _
  by_cases hLoyal : .outOfFuel .foreign ∉ ((loyal fuel).runAll (earlier ++ [last]) session).1
  · have hStart : session.ReadFrom (handed ++ (earlier ++ [last])) :=
      Session.Alike.imp hSession (Likeness.readFrom_implies hHanded id)
    rw [runAll_append, List.mem_append, not_or] at hLoyal
    obtain ⟨hSame, hAfter⟩ := runAll_loyal hEarlier hStart hLoyal.1
    have hStays : .outOfFuel .foreign ∉
        ((loyal fuel).runAll [last] ((ofFuel fuel).runAll earlier session).2).1 := hSame ▸ hLoyal.2
    rcases (loyal_follows fuel).evaluate.run_traced hLast hAfter with ⟨_, rfl, hOut⟩ | ⟨_, hTraced⟩
    · exact absurd (List.mem_singleton.mpr hOut.symm) hStays
    · exact (hTraced.fault hFault hEvaluation).imp fun _ => trivial
  · have hStart := Session.Alike.imp hSession
      (Likeness.readFrom_implies hHanded (False.elim : False → True))
    have hAfter := runAll_readFrom fuel hEarlier hStart
    rcases (ofFuel_follows_readFrom fuel).evaluate.run_traced hLast hAfter with
      ⟨_, hNever, _⟩ | ⟨_, hTraced⟩
    · exact hNever.elim
    · exact (hTraced.fault hFault hEvaluation).imp hLoyal

/-- A function that is applied by the definitions of a later program fails in its own program. -/
theorem run_fault_traced_extension :
    ∃ fault : Fault,
      (((ofFuel 8).run "(Object extend: (lambda () (f)))" "b").run
        ((ofFuel 8).runAll [⟨"a", "(set f (lambda () (g)))"⟩] (Session.new 256)).2).1 =
          .fault fault ∧
      fault.label = "a" ∧
      fault.Traced
        [⟨"a", "(set f (lambda () (g)))"⟩, ⟨"b", "(Object extend: (lambda () (f)))"⟩] True := by
  have hResults : ((loyal 8).runAll
      [⟨"a", "(set f (lambda () (g)))"⟩, ⟨"b", "(Object extend: (lambda () (f)))"⟩]
      (Session.new 256)).1 = [.value (.function (.closure ⟨0⟩)),
        .fault ⟨.unboundSymbol "g", "a", some "g", some ⟨19, 20⟩, some ⟨19, 1, 20⟩⟩] := by
    cbv
  have hLoyal : .outOfFuel .foreign ∉ ((loyal 8).runAll
      [⟨"a", "(set f (lambda () (g)))"⟩, ⟨"b", "(Object extend: (lambda () (f)))"⟩]
      (Session.new 256)).1 := by
    rw [hResults]
    simp
  obtain ⟨hSame, -⟩ := runAll_loyal (List.Subset.refl _) (Session.new_readFrom 256 _) hLoyal
  rw [hSame] at hResults
  simp only [runAll, List.cons.injEq, and_true] at hResults
  refine ⟨_, hResults.2, rfl, ?_⟩
  exact (run_fault_traced (Session.new_readFrom 256 []) 8 [⟨"a", "(set f (lambda () (g)))"⟩]
    ⟨"b", "(Object extend: (lambda () (f)))"⟩ hResults.2 (by simp)).imp fun _ => hLoyal

/-- Definitions read from one program that fail while another one extends a class by them are
reported in that other program, where something else stands at their span. -/
theorem extension_fault_misplaced :
    ∃ fault : Fault,
      (((ofFuel 8).run "(set x 1) (Object extend: d) (set y 2)" "b").run
        ((ofFuel 8).runAll [⟨"a", "(set d (lambda () (missing)))"⟩] (Session.new 256)).2).1 =
          .fault fault ∧
      fault.label = "b" ∧ fault.span? = some ⟨19, 26⟩ ∧ fault.expression? = some "missing" ∧
      ¬SourceText.Shows ⟨"b", "(set x 1) (Object extend: d) (set y 2)"⟩ ⟨19, 26⟩ "missing" := by
  have hFault : (((ofFuel 8).run "(set x 1) (Object extend: d) (set y 2)" "b").run
      ((ofFuel 8).runAll [⟨"a", "(set d (lambda () (missing)))"⟩] (Session.new 256)).2).1 =
        .fault ⟨.unboundSymbol "missing", "b", some "missing", some ⟨19, 26⟩, some ⟨19, 1, 20⟩⟩ := by
    cbv
  have hSlice : Source.parse (String.ofList
      (Source.slice "(set x 1) (Object extend: d) (set y 2)".toList ⟨19, 26⟩)) "b" =
        .ok [.symbol ⟨0, 6⟩ "xtend:"] := by
    cbv
  refine ⟨_, hFault, rfl, rfl, rfl, ?_⟩
  rintro ⟨expr, hParse, hText⟩
  rw [hSlice] at hParse
  cases hParse
  have hOwn : (Expr.symbol ⟨0, 6⟩ "xtend:").text = "xtend:" := by cbv
  rw [hOwn] at hText
  exact absurd hText (by decide)

end Evaluator

end MessageLisp
