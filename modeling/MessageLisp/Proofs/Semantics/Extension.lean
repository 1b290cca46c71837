import MessageLisp.Proofs.Semantics.Dispatch
import MessageLisp.Proofs.Semantics.Installation
import MessageLisp.Proofs.Text.ByteOrder

/-! Extension of classes. The functions that the body of the definitions leaves in its scope become
methods, all of them and nothing else, in the order of their names. A body that fails makes no
methods. -/
namespace MessageLisp

open Eval

/-! ### Tables -/

namespace Table

variable {α : Type}

theorem mem_names_iff {table : Table α} {name : String} :
    name ∈ table.names ↔ ∃ entry, table.get? name = some entry := by
  induction table with
  | nil => simp [names, get?]
  | cons head rest ih =>
      obtain ⟨other, old⟩ := head
      simp only [names, List.map_cons, List.mem_cons, get?] at ih ⊢
      by_cases hName : other = name
      · simp [hName]
      · simp [hName, Ne.symm hName, ih]

theorem get?_eq_some_iff {entries : Table α} (hNodup : entries.names.Nodup) {name : String}
    {entry : α} : entries.get? name = some entry ↔ (name, entry) ∈ entries := by
  refine ⟨mem_of_get?, fun hMem => ?_⟩
  induction entries with
  | nil => cases hMem
  | cons head rest ih =>
      obtain ⟨other, old⟩ := head
      obtain ⟨hFresh, hRest⟩ := List.nodup_cons.mp hNodup
      rw [get?]
      rcases List.mem_cons.mp hMem with hHead | hMem
      · cases hHead
        rw [if_pos rfl]
      · have hOther : other ≠ name := by
          rintro rfl
          exact hFresh (List.mem_map.mpr ⟨_, hMem, rfl⟩)
        rw [if_neg hOther]
        exact ih hRest hMem

/-- The table with the entries put in: the names that were there keep their places, the new ones
follow in the order of the entries, and the entries take precedence over what was there. -/
structure PutsIn (before : Table α) (entries : List (String × α)) (after : Table α) : Prop where
  names : after.names = before.names ++ (names entries).filter (· ∉ before.names)
  get? (name : String) : after.get? name = (get? entries name).or (before.get? name)

theorem names_setAll (table : Table α) {entries : Table α} (hNodup : entries.names.Nodup) :
    (table.setAll entries).names =
      table.names ++ entries.names.filter (· ∉ table.names) := by
  induction entries generalizing table with
  | nil => exact (List.append_nil _).symm
  | cons entry entries ih =>
      obtain ⟨name, value⟩ := entry
      obtain ⟨hFresh, hRest⟩ := List.nodup_cons.mp hNodup
      have hSet : (table.setAll ((name, value) :: entries)).names =
          (table.set name value).names ++
            (names entries).filter (· ∉ (table.set name value).names) := ih _ hRest
      have hNames : names ((name, value) :: entries) = name :: names entries := rfl
      rw [hSet, names_set, hNames]
      by_cases hOld : name ∈ table.names
      · simp [hOld]
      · -- The name is new, and no later entry has it.
        have hOthers : (names entries).filter (· ∉ table.names ++ [name]) =
            (names entries).filter (· ∉ table.names) := by
          apply List.filter_congr
          intro other hMem
          have hOther : other ≠ name := fun hSame => hFresh (hSame ▸ hMem)
          simp [hOther]
        simp only [hOld, if_false, hOthers, List.append_assoc]
        simp [hOld]

theorem putsIn_setAll (table : Table α) {entries : Table α} (hNodup : entries.names.Nodup) :
    table.PutsIn entries (table.setAll entries) where
  names := names_setAll table hNodup
  get? name := by
    have hReverse : (names entries.reverse).Nodup := by
      rw [names, List.map_reverse]
      exact List.nodup_reverse.mpr hNodup
    have hSame : get? entries.reverse name = get? entries name := by
      apply Option.ext
      intro entry
      rw [get?_eq_some_iff hReverse, get?_eq_some_iff hNodup, List.mem_reverse]
    rw [get?_setAll, hSame]

end Table

/-! ### Collecting -/

/-- The functions among the bindings of a scope, as methods, in the order of the bytes of their
names. -/
structure FunctionsOf (bindings : Table Value) (methods : List (String × Method)) : Prop where
  sorted : methods.Pairwise fun first second => Text.bytes first.1 < Text.bytes second.1
  mem_iff (name : String) (method : Method) : (name, method) ∈ methods ↔
    ∃ target, bindings.get? name = some (.function target) ∧ method = .function target

/-- What is left of a binding when functions are taken away. -/
def withoutFunction : Option Value → Option Value
  | some (.function _) => none
  | value? => value?

namespace Session

variable (cls : ClassId) (scope : ScopeId)

theorem getLocal?_takeMethod (session : Session) (name : String) (target : FunctionRef)
    (other : ScopeId) (name' : String) :
    (session.takeMethod cls scope name target).environment.getLocal? other name' =
      if other = scope ∧ name' = name then none else session.environment.getLocal? other name' := by
  rw [← Environment.getLocal?_remove]
  cases target <;> rfl

theorem mem_collect (session : Session) (names : List String) (name : String) (method : Method) :
    (name, method) ∈ (session.collect cls scope names).1 ↔ name ∈ names ∧
      ∃ target, session.environment.getLocal? scope name = some (.function target) ∧
        method = .function target := by
  induction names generalizing session with
  | nil => simp [collect]
  | cons first names ih =>
      rw [collect]
      split
      · rename_i target hFirst
        rw [List.mem_cons, ih, getLocal?_takeMethod]
        by_cases hName : name = first
        · subst hName
          simp [hFirst]
        · simp [hName]
      · rename_i hOther
        rw [ih, List.mem_cons]
        by_cases hName : name = first
        · subst hName
          have hNone : ¬∃ target, session.environment.getLocal? scope name =
              some (.function target) ∧ method = .function target := by
            rintro ⟨target, hTarget, -⟩
            exact hOther target hTarget
          simp [hNone]
        · simp [hName]

theorem collect_names_sublist (session : Session) (names : List String) :
    (Table.names (session.collect cls scope names).1).Sublist names := by
  induction names generalizing session with
  | nil => exact .slnil
  | cons first names ih =>
      rw [collect]
      split
      · exact .cons_cons first (ih _)
      · exact .cons first (ih _)

/-- A name is taken once, since it is bound no longer after that. -/
theorem collect_names_nodup (session : Session) (names : List String) :
    (Table.names (session.collect cls scope names).1).Nodup := by
  induction names generalizing session with
  | nil => exact List.nodup_nil
  | cons first names ih =>
      rw [collect]
      split
      · rename_i target _
        refine List.nodup_cons.mpr ⟨?_, ih _⟩
        intro hMem
        obtain ⟨⟨_, method⟩, hEntry, rfl⟩ := List.mem_map.mp hMem
        obtain ⟨-, other, hBound, -⟩ := (mem_collect cls scope _ names _ method).mp hEntry
        rw [getLocal?_takeMethod, if_pos ⟨rfl, rfl⟩] at hBound
        cases hBound
      · exact ih _

theorem getLocal?_collect (session : Session) (names : List String) (name : String) :
    (session.collect cls scope names).2.environment.getLocal? scope name =
      if name ∈ names then withoutFunction (session.environment.getLocal? scope name)
      else session.environment.getLocal? scope name := by
  induction names generalizing session with
  | nil => rfl
  | cons first names ih =>
      rw [collect]
      split
      · rename_i target hFirst
        rw [ih, getLocal?_takeMethod]
        by_cases hName : name = first
        · subst hName
          simp [hFirst, withoutFunction]
        · simp [hName]
      · rename_i hOther
        rw [ih]
        by_cases hName : name = first
        · subst hName
          have hKept : withoutFunction (session.environment.getLocal? scope name) =
              session.environment.getLocal? scope name := by
            rw [withoutFunction]
            exact hOther
          simp [hKept]
        · simp [hName]

theorem bindings_collect (session : Session) (names : List String) {other : ScopeId}
    (hOther : other ≠ scope) :
    (session.collect cls scope names).2.environment.bindings other =
      session.environment.bindings other := by
  apply collect_induction (P := (·.environment.bindings other = session.environment.bindings other))
  · intro later name target _ hLater
    rw [← hLater]
    have hRemove : (later.environment.remove scope name).bindings other =
        later.environment.bindings other := by
      rw [Environment.remove, Environment.bindings_modifyBindings, if_neg fun h => hOther h.1]
    cases target <;> exact hRemove
  · rfl

end Session

theorem Environment.mem_names_iff {env : Environment Value} {scope : ScopeId} {name : String} :
    name ∈ env.names scope ↔ ∃ value, env.getLocal? scope name = some value := by
  rw [names, List.mem_mergeSort, Table.mem_names_iff, getLocal?]

theorem Environment.names_sorted (env : Environment Value) (scope : ScopeId) :
    (env.names scope).Pairwise (· ≤ ·) := by
  have hTrans : ∀ a b c : String, decide (a ≤ b) = true → decide (b ≤ c) = true →
      decide (a ≤ c) = true := by
    intro a b c hFirst hSecond
    exact decide_eq_true ((of_decide_eq_true hFirst).trans (of_decide_eq_true hSecond))
  have hTotal : ∀ a b : String, (decide (a ≤ b) || decide (b ≤ a)) = true := by
    intro a b
    rw [Bool.or_eq_true, decide_eq_true_eq, decide_eq_true_eq]
    exact le_total a b
  exact (List.pairwise_mergeSort hTrans hTotal (env.bindings scope).names).imp of_decide_eq_true

/-- What is collected from a scope are its functions, in the order of their names. -/
theorem Session.collect_functions (session : Session) (cls : ClassId) (scope : ScopeId) :
    FunctionsOf (session.environment.bindings scope)
      (session.collect cls scope (session.environment.names scope)).1 where
  sorted := by
    have hSorted := (session.environment.names_sorted scope).sublist
      (session.collect_names_sublist cls scope _)
    have hNodup := session.collect_names_nodup cls scope (session.environment.names scope)
    have hStrict : (Table.names (session.collect cls scope
        (session.environment.names scope)).1).Pairwise (· < ·) :=
      (hSorted.and hNodup).imp fun ⟨hLe, hNe⟩ => lt_of_le_of_ne hLe hNe
    exact (List.pairwise_map.mp hStrict).imp Text.bytes_lt_of_lt
  mem_iff name method := by
    rw [mem_collect, Environment.mem_names_iff]
    constructor
    · exact fun ⟨_, hFunction⟩ => hFunction
    · rintro ⟨target, hBound, hMethod⟩
      exact ⟨⟨_, hBound⟩, target, hBound, hMethod⟩

/-- All functions are taken out of the scope. -/
theorem Session.getLocal?_collect_names (session : Session) (cls : ClassId) (scope : ScopeId)
    (name : String) :
    (session.collect cls scope (session.environment.names scope)).2.environment.getLocal? scope name =
      withoutFunction (session.environment.getLocal? scope name) := by
  rw [getLocal?_collect]
  split
  · rfl
  · rename_i hUnbound
    rw [Environment.mem_names_iff, not_exists] at hUnbound
    rw [Option.eq_none_iff_forall_ne_some.mpr hUnbound]
    rfl

theorem Session.methodsOf_install_collect {session : Session} {cls : ClassId}
    (hClass : cls.index < session.hierarchy.classes.size) (scope : ScopeId) (names : List String)
    (methods : List (String × Method)) (other : ClassId) :
    ((session.collect cls scope names).2.install ⟨cls, methods⟩).hierarchy.methodsOf other =
      if other = cls then (session.hierarchy.methodsOf cls).setAll methods
      else session.hierarchy.methodsOf other := by
  rw [← Hierarchy.methodsOf_installAll hClass, install, mapHierarchy, collect_hierarchy]

/-! ### Extending -/

theorem Evaluator.ofFuel_adopting (fuel : Nat) (exprs : List Source.Expr) :
    (ofFuel fuel).adopting exprs = pure (ofFuel fuel) := by
  cases exprs with
  | nil => rfl
  | cons expr exprs =>
      rw [adopting, ofFuel_adopt]
      rfl

section Extending

variable {session : Session} {definitions : ClosureId} {closure : Closure}

/-- The session in which the definitions are evaluated: it has a fresh scope inside the one that the
closure captured. -/
def Session.opened (session : Session) (closure : Closure) : Session :=
  (session.newScope (some closure.scope)).2

/-- The fresh scope. -/
def Session.fresh (session : Session) : ScopeId :=
  ⟨session.environment.frames.size⟩

theorem runIn_extendClass (hClosure : session.closures[definitions.index]? = some closure)
    (fuel : Nat) (cls : ClassId) :
    ((Evaluator.ofFuel fuel).extendClass cls definitions).runIn session =
      match ((Evaluator.ofFuel fuel).sequence closure.body session.fresh).runIn
        (session.opened closure) with
      | (.ok _, after) =>
        let collected := after.collect cls session.fresh (after.environment.names session.fresh)
        (.ok collected.1.length, collected.2.install ⟨cls, collected.1⟩)
      | (.error interruption, after) => (.error interruption, after) := by
  have hScope : (newScope (some closure.scope)).runIn session =
      (.ok session.fresh, session.opened closure) := rfl
  rw [Evaluator.extendClass, runIn_bind_ok (runIn_closureOf hClosure), runIn_bind_ok hScope,
    Evaluator.ofFuel_adopting, pure_bind, runIn_bind]
  rcases ((Evaluator.ofFuel fuel).sequence closure.body session.fresh).runIn
    (session.opened closure) with ⟨interruption | value, after⟩
  · rfl
  · rw [continued, runIn_get_bind, runIn_bind_ok (runIn_collectMethods ..)]
    rfl

theorem balanced_definitions (fuel : Nat) :
    session.Balanced (((Evaluator.ofFuel fuel).sequence closure.body session.fresh).runIn
      (session.opened closure)).2 :=
  (Session.Quiet.newScope session (some closure.scope)).toBalanced.trans
    ((Computes.sequence (P := fun _ _ => True)
      (List.forall₂_same.mpr fun _ _ => ⟨trivial, rfl⟩) session.fresh).balanced fuel rfl)

theorem runIn_extend (ev : Evaluator) (session : Session) (cls : ClassId) :
    (ev.runPrimitive .extend (.classRef cls) [.function (.closure definitions)]).runIn session =
      continued (fun _ => pure (.classRef cls)) ((ev.extendClass cls definitions).runIn session) := by
  have hReceiver : (classIdOf (.classRef cls)).runIn session = (.ok cls, session) := rfl
  have hArgument : (argument [.function (.closure definitions)] 0).runIn session =
      (.ok (.function (.closure definitions)), session) := rfl
  have hDefinitions : (closureIdOf (.function (.closure definitions))).runIn session =
      (.ok definitions, session) := rfl
  simp only [Evaluator.runPrimitive]
  rw [runIn_bind_ok hReceiver, runIn_bind_ok hArgument, runIn_bind_ok hDefinitions, runIn_bind]

/-- The body of the definitions is evaluated in a fresh scope. If it succeeds, the functions that it
left in that scope become methods of the class: they are put into the table of the class as the body
left it, in the order of the bytes of their names, and their number is the result. They are gone from
the scope then, in which all other bindings remain, and no other scope and no other class is changed.
If it fails, the failure is the result and nothing else is done. Sending the message to a class that
answers it by the primitive comes to the same, and the answer is the class. -/
theorem extension_installs_functions
    (hClosure : session.closures[definitions.index]? = some closure) {cls : ClassId}
    (hClass : cls.index < session.hierarchy.classes.size) (fuel : Nat) :
    let ev := Evaluator.ofFuel fuel
    let scope := session.fresh
    let body := (ev.sequence closure.body scope).runIn (session.opened closure)
    let run := (ev.extendClass cls definitions).runIn session
    let answer := (ev.runPrimitive .extend (.classRef cls) [.function (.closure definitions)]).runIn
      session
    (∀ value after, body = (.ok value, after) →
        ∃ methods last, run = (.ok methods.length, last) ∧
          FunctionsOf (after.environment.bindings scope) methods ∧
          (after.hierarchy.methodsOf cls).PutsIn methods (last.hierarchy.methodsOf cls) ∧
          (∀ other, other ≠ cls → last.hierarchy.methodsOf other = after.hierarchy.methodsOf other) ∧
          (∀ name, last.environment.getLocal? scope name =
            withoutFunction (after.environment.getLocal? scope name)) ∧
          (∀ other, other ≠ scope →
            last.environment.bindings other = after.environment.bindings other) ∧
          answer = (.ok (.classRef cls), last)) ∧
      (∀ interruption after, body = (.error interruption, after) →
        run = (.error interruption, after) ∧ answer = (.error interruption, after)) ∧
      (session.Answers (.classRef cls) .extend →
        (ev.send (.classRef cls) ⟨"extend:", [.function (.closure definitions)]⟩ none).runIn session =
          answer) := by
  intro ev scope body run answer
  have hRun : run = _ := runIn_extendClass hClosure fuel cls
  have hAnswer : answer = continued (fun _ => pure (.classRef cls)) run :=
    runIn_extend ev session cls
  have hBalanced : session.Balanced body.2 := balanced_definitions fuel
  refine ⟨?_, ?_, ?_⟩
  · intro value after hBody
    rw [hBody] at hBalanced
    have hThere : cls.index < after.hierarchy.classes.size :=
      Nat.lt_of_lt_of_le hClass hBalanced.retains.classes
    let collected := after.collect cls scope (after.environment.names scope)
    have hDone : run = (.ok collected.1.length, collected.2.install ⟨cls, collected.1⟩) := by
      rw [hRun]
      simp only [body, scope, ev] at hBody
      rw [hBody]
    refine ⟨collected.1, _, hDone, after.collect_functions cls scope, ?_, ?_, ?_, ?_, ?_⟩
    · rw [Session.methodsOf_install_collect hThere, if_pos rfl]
      exact Table.putsIn_setAll _ (after.collect_names_nodup cls scope _)
    · intro other hOther
      rw [Session.methodsOf_install_collect hThere, if_neg hOther]
    · intro name
      exact after.getLocal?_collect_names cls scope name
    · intro other hOther
      exact after.bindings_collect cls scope _ hOther
    · rw [hAnswer, hDone]
      rfl
  · intro interruption after hBody
    have hDone : run = (.error interruption, after) := by
      rw [hRun]
      simp only [body, scope, ev] at hBody
      rw [hBody]
    refine ⟨hDone, ?_⟩
    rw [hAnswer, hDone]
    rfl
  · intro hAnswers
    have hArity : selectorArity Primitive.extend.selector = 1 := by decide
    exact Evaluator.runIn_send_unary hAnswers hArity (.function (.closure definitions)) ev

end Extending

/-- Definitions that bind two functions and a number. -/
def twoFunctions : Closure where
  name? := none
  owner? := none
  prototype := .empty
  body :=
    [("b", Source.Expr.symbol ⟨0, 0⟩ "print"), ("a", .symbol ⟨0, 0⟩ "list"),
      ("n", .int ⟨0, 0⟩ 3)].map fun (name, value) =>
        .list ⟨0, 0⟩ [.symbol ⟨0, 0⟩ "set", .symbol ⟨0, 0⟩ name, value]
  scope := Environment.root
  source? := none
  signature? := none

def twoFunctionsSession : Session :=
  { Session.new 8 with closures := #[twoFunctions] }

/-- What the definitions come to in the fresh scope. -/
def twoFunctionsBody : Except Interruption Value × Session :=
  ((Evaluator.ofFuel 3).sequence twoFunctions.body twoFunctionsSession.fresh).runIn
    (twoFunctionsSession.opened twoFunctions)

theorem run_twoFunctions :
    (twoFunctionsBody.1,
        twoFunctionsBody.2.environment.getLocal? twoFunctionsSession.fresh "n",
        (((Evaluator.ofFuel 3).extendClass BuiltinClass.object.id ⟨0⟩).runIn
          twoFunctionsSession).1) =
      (.ok (.int 3), some (.int 3), .ok 2) := by
  cbv

/-- The two functions become methods of the class of all objects, and the number stays where it is. -/
theorem extension_installs_functions_two :
    ∃ methods last,
      ((Evaluator.ofFuel 3).extendClass BuiltinClass.object.id ⟨0⟩).runIn twoFunctionsSession =
        (.ok methods.length, last) ∧
      methods.length = 2 ∧
      FunctionsOf (twoFunctionsBody.2.environment.bindings twoFunctionsSession.fresh) methods ∧
      (twoFunctionsBody.2.hierarchy.methodsOf BuiltinClass.object.id).PutsIn methods
        (last.hierarchy.methodsOf BuiltinClass.object.id) ∧
      last.environment.getLocal? twoFunctionsSession.fresh "n" = some (.int 3) := by
  obtain ⟨hValue, hOthers⟩ := Prod.mk.inj run_twoFunctions
  obtain ⟨hNumber, hCount⟩ := Prod.mk.inj hOthers
  have hClosure : twoFunctionsSession.closures[0]? = some twoFunctions := rfl
  have hClass : BuiltinClass.object.id.index < twoFunctionsSession.hierarchy.classes.size := by
    decide
  have hSuccess := (extension_installs_functions hClosure hClass 3).1
  obtain ⟨methods, last, hRun, hFunctions, hTable, -, hScope, -, -⟩ :=
    hSuccess (.int 3) twoFunctionsBody.2 (Prod.ext hValue rfl)
  refine ⟨methods, last, hRun, ?_, hFunctions, hTable, ?_⟩
  · rw [hRun] at hCount
    exact Except.ok.inj hCount
  · rw [hScope, hNumber]
    rfl

end MessageLisp
