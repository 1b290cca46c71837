import Mathlib
import MessageLisp.Proofs.Semantics.Safety

/-! Owners of methods. Only an extension of a class puts functions into a method table, and it makes
the class the owner of every closure among them. A closure can be installed in several classes; the
last extension that took it decides whose superclass `super` stands for. -/
namespace MessageLisp

namespace Session

/-- The class that owns a closure. -/
def ownerOf? (session : Session) (id : ClosureId) : Option ClassId :=
  session.closures[id.index]?.bind Closure.owner?

/-- No methods were added, and closures have the owners that they had. -/
structure KeepsMethods (before after : Session) : Prop where
  methods {cls : ClassId} {selector : String} {method : Method}
    (hMethod : after.hierarchy.localMethod? cls selector = some method) :
    before.hierarchy.localMethod? cls selector = some method
  owners (id : ClosureId) : after.ownerOf? id = before.ownerOf? id

/-- Methods were added to one class, and the closures among them belong to it now. All others have
the owners that they had. -/
structure Extends (before : Session) (extension : Extension) (after : Session) : Prop where
  methods {cls : ClassId} {selector : String} {method : Method}
    (hMethod : after.hierarchy.localMethod? cls selector = some method) :
    before.hierarchy.localMethod? cls selector = some method ∨
      extension.cls = cls ∧ (selector, method) ∈ extension.methods
  owners (id : ClosureId) :
    after.ownerOf? id = if extension.takes id then some extension.cls else before.ownerOf? id

end Session

/-- How the methods of a session came about: by extensions, the last one first, and nothing else. -/
inductive Extensions (first : Session) : List Extension → Session → Prop where
  | start : Extensions first [] first
  | other {log : List Extension} {session later : Session} (hPast : Extensions first log session)
      (hKeeps : session.KeepsMethods later) : Extensions first log later
  | extend {log : List Extension} {session later : Session} {extension : Extension}
      (hPast : Extensions first log session) (hExtends : session.Extends extension later) :
      Extensions first (extension :: log) later

/-! ### Changes and methods -/

theorem Extension.takes_cons (cls : ClassId) (name : String) (target : FunctionRef)
    (methods : List (String × Method)) (id : ClosureId) :
    (Extension.mk cls ((name, .function target) :: methods)).takes id =
      (decide (target = .closure id) || (Extension.mk cls methods).takes id) := by
  simp [takes]

namespace Session

theorem KeepsMethods.of_same {before after : Session} (hHierarchy : after.hierarchy = before.hierarchy)
    (hOwners : ∀ id, after.ownerOf? id = before.ownerOf? id) : before.KeepsMethods after where
  methods hMethod := hHierarchy ▸ hMethod
  owners := hOwners

theorem ownerOf?_modifyClosure (session : Session) (id other : ClosureId) (f : Closure → Closure) :
    (session.modifyClosure id f).ownerOf? other =
      if other = id then session.closures[id.index]?.bind fun closure => (f closure).owner?
      else session.ownerOf? other := by
  rw [ownerOf?, modifyClosure, Array.getElem?_modify, ownerOf?]
  by_cases hSame : other = id
  · subst hSame
    simp [Option.bind_map]
  · have hIndex : id.index ≠ other.index := by
      intro hIndex
      apply hSame
      cases id
      cases other
      simp_all
    rw [if_neg hIndex, if_neg hSame]

theorem ownerOf?_addClosure (session : Session) {closure : Closure} (hOwner : closure.owner? = none)
    (id : ClosureId) : (session.addClosure closure).2.ownerOf? id = session.ownerOf? id := by
  rw [ownerOf?, addClosure, Array.getElem?_push, ownerOf?]
  split
  · rename_i hNew
    simp [hNew, hOwner]
  · rfl

/-- A closure that exists belongs to the class once it is taken. -/
theorem ownerOf?_takeMethod (session : Session) (cls : ClassId) (scope : ScopeId) (name : String)
    {target : FunctionRef} (hLive : target.Lives session) (id : ClosureId) :
    (session.takeMethod cls scope name target).ownerOf? id =
      if target = .closure id then some cls else session.ownerOf? id := by
  cases target with
  | closure taken =>
      have hClosure : session.closures[taken.index]? = some session.closures[taken.index] :=
        Array.getElem?_eq_getElem hLive
      rw [takeMethod, ownerOf?_modifyClosure]
      by_cases hSame : id = taken
      · subst hSame
        rw [if_pos rfl, if_pos rfl]
        exact congrArg (Option.bind · _) hClosure
      · have hOther : FunctionRef.closure taken ≠ .closure id := by
          intro hEq
          exact hSame (FunctionRef.closure.inj hEq).symm
        rw [if_neg hSame, if_neg hOther]
        rfl
  | builtin builtin => rfl
  | host host => rfl

theorem ownerOf?_collect {session : Session} (hSound : session.Sound) (cls : ClassId)
    (scope : ScopeId) (names : List String) (id : ClosureId) :
    (session.collect cls scope names).2.ownerOf? id =
      if (Extension.mk cls (session.collect cls scope names).1).takes id then some cls
      else session.ownerOf? id := by
  induction names generalizing session with
  | nil => rfl
  | cons name names ih =>
      rw [collect]
      split
      · rename_i target hBound
        have hTarget : target.Lives session := hSound.bindings hBound
        have hRest := ih (takeMethod_sound hSound cls scope name target)
        simp only [hRest, ownerOf?_takeMethod session cls scope name hTarget, Extension.takes_cons]
        by_cases hFirst : target = .closure id
        · simp [hFirst]
        · rw [if_neg hFirst, decide_eq_false hFirst, Bool.false_or]
      · exact ih hSound

/-- The functions of a scope, taken out of it and installed in a class. -/
theorem extends_install {session : Session} (hSound : session.Sound) (cls : ClassId)
    (scope : ScopeId) (names : List String) :
    session.Extends ⟨cls, (session.collect cls scope names).1⟩
      ((session.collect cls scope names).2.install ⟨cls, (session.collect cls scope names).1⟩) where
  methods := by
    intro other selector method hMethod
    have hEntry : (session.collect cls scope names).2.hierarchy = session.hierarchy :=
      session.collect_hierarchy cls scope names
    simp only [install, mapHierarchy, hEntry, Hierarchy.localMethod?_installAll] at hMethod
    split at hMethod
    · rename_i hHere
      rcases Option.or_eq_some_iff.mp hMethod with hNew | ⟨-, hOld⟩
      · exact .inr ⟨hHere.1.symm, List.mem_reverse.mp (Table.mem_of_get? hNew)⟩
      · exact .inl hOld
    · exact .inl hMethod
  owners := ownerOf?_collect hSound cls scope names

end Session

theorem Change.extends {free : String → Prop} {session later : Session} {extension : Extension}
    (h : Change free session [extension] later) (hSound : session.Sound) :
    session.Extends extension later := by
  cases h with
  | extend cls scope names => exact Session.extends_install hSound cls scope names

/-- An extension is the only change that has to do with methods. -/
theorem Change.extensions {free : String → Prop} {first session later : Session}
    {log log' : List Extension} (h : Change free session log' later) (hSound : session.Sound)
    (hPast : Extensions first log session) :
    Extensions first (log' ++ log) later := by
  cases h with
  | note | pushFrame _ | define _ _ _ | assign _ _ _ | addInstance _ | setSlot _ _ _ | addHost _ =>
      exact .other hPast (.of_same rfl fun _ => rfl)
  | addClosure hOwner _ =>
      exact .other hPast (.of_same rfl (session.ownerOf?_addClosure hOwner))
  | nameClosure id name =>
      refine .other hPast (.of_same rfl fun other => ?_)
      rw [Session.ownerOf?_modifyClosure]
      split
      · rename_i hSame
        rw [hSame, Session.ownerOf?]
      · rfl
  | defineClass hSuperclass hDefine =>
      obtain ⟨-, -, rfl⟩ := Hierarchy.define_eq_ok_iff.mp hDefine
      refine .other hPast ⟨?_, fun _ => rfl⟩
      intro cls selector method hMethod
      simp only [Hierarchy.localMethod?, Hierarchy.get?_push] at hMethod
      split at hMethod
      · cases hMethod
      · exact hMethod
  | extend cls scope names =>
      exact .extend hPast (Session.extends_install hSound cls scope names)
  | close =>
      refine .other hPast ⟨?_, fun _ => rfl⟩
      intro cls selector method hMethod
      simp only [Session.close, Hierarchy.localMethod?, Hierarchy.get?_clearMethods] at hMethod
      cases hClass : session.hierarchy.get? cls <;> simp [hClass, Table.get?] at hMethod

theorem History.extensions {free : String → Prop} {first session later : Session}
    {log log' : List Extension} (h : History free session log' later) (hSound : session.Sound)
    (hPast : Extensions first log session) :
    Extensions first (log' ++ log) later := by
  induction h with
  | start => exact hPast
  | next hHistory hChange ih =>
      rw [List.append_assoc]
      exact hChange.extensions (hHistory.sound hSound) ih

/-! ### Who owns a method -/

/-- The owner is the class of the last extension that took the closure. -/
theorem Extensions.ownerOf?_eq {first last : Session} {log : List Extension}
    (h : Extensions first log last) {id : ClosureId} (hFirst : first.ownerOf? id = none) :
    last.ownerOf? id = (log.find? (·.takes id)).map Extension.cls := by
  induction h with
  | start => exact hFirst
  | other _ hKeeps ih => rw [hKeeps.owners, ih]
  | @extend log session later extension _ hExtends ih =>
      rw [hExtends.owners, ih, List.find?_cons]
      split <;> simp [*]

/-- A function in a method table was put there by an extension of the class. -/
theorem Extensions.exists_of_method {first last : Session} {log : List Extension}
    (h : Extensions first log last) {cls : ClassId} {selector : String} {target : FunctionRef}
    (hFirst : first.hierarchy.localMethod? cls selector ≠ some (.function target))
    (hMethod : last.hierarchy.localMethod? cls selector = some (.function target)) :
    ∃ extension ∈ log, extension.cls = cls ∧ (selector, .function target) ∈ extension.methods := by
  induction h with
  | start => exact absurd hMethod hFirst
  | other _ hKeeps ih => exact ih (hKeeps.methods hMethod)
  | @extend log session later extension _ hExtends ih =>
      rcases hExtends.methods hMethod with hOld | hNew
      · obtain ⟨earlier, hMem, hInstalled⟩ := ih hOld
        exact ⟨earlier, List.mem_cons_of_mem _ hMem, hInstalled⟩
      · exact ⟨extension, List.mem_cons_self, hNew⟩

/-- Extending a class goes down in the log, behind what the body of the closure did. -/
theorem Extensions.extendClass {first session later : Session} {log : List Extension}
    (h : Extensions first log session) (hSound : session.Sound) {fuel count : Nat} {cls : ClassId}
    {definitions : ClosureId} (hDefinitions : definitions.index < session.closures.size)
    (hRun : ((Evaluator.ofFuel fuel).extendClass cls definitions).runIn session = (.ok count, later)) :
    ∃ methods inner, methods.length = count ∧
      Extensions first (⟨cls, methods⟩ :: (inner ++ log)) later ∧
      ∀ id, (Extension.mk cls methods).takes id → later.ownerOf? id = some cls := by
  have hEnds := (Evaluator.extendClass_safe hSound cls hDefinitions fuel).orderly.ends
  rw [hRun] at hEnds
  obtain ⟨ready, methods, ⟨inner, hInner⟩, hChange, hCount⟩ := hEnds
  have hReady := hInner.sound hSound
  refine ⟨methods, inner, hCount, hChange.extensions hReady (hInner.extensions hSound h), ?_⟩
  intro id hTakes
  rw [(hChange.extends hReady).owners, if_pos hTakes]

/-- A new session has no methods but the primitive ones. -/
theorem Session.new_method {maxDepth : Nat} {cls : ClassId} {selector : String} {target : FunctionRef} :
    (Session.new maxDepth).hierarchy.localMethod? cls selector ≠ some (.function target) := by
  intro hMethod
  obtain ⟨entry, hClass, hEntry⟩ := Option.bind_eq_some_iff.mp hMethod
  obtain ⟨builtin, rfl⟩ := Hierarchy.exists_builtin hClass
  obtain ⟨primitive, -, hPair⟩ := List.mem_map.mp (Table.mem_of_get? hEntry)
  cases hPair

/-- Whatever the closure is applied to, `super` stands for the class in the scope of its body. -/
def Session.BindsSuper (session : Session) (closure : Closure) (cls : ClassId) : Prop :=
  ∀ arguments, Value.AllLive session arguments → ∀ scope later,
    (bindArguments closure arguments).runIn session = (.ok scope, later) →
      later.environment.getLocal? scope superName = some (.classRef cls)

/-- In the body of a method, `super` stands for the superclass of the owner. -/
theorem Session.bindsSuper_superclass {session : Session} {closure : Closure}
    {owner superclass : ClassId} (hOwner : closure.owner? = some owner)
    (hSuperclass : session.hierarchy.superclass? owner = some superclass) :
    session.BindsSuper closure superclass := by
  intro arguments hLive scope later hBind
  by_cases hLength : arguments.length = closure.prototype.arity
  · cases Eval.Inspects.coerceArguments hLength hLive with
    | error hRun hRegular =>
        simp only [bindArguments, hLength, ne_eq, not_true_eq_false, if_false] at hBind
        rw [Eval.runIn_bind, hRun, Eval.continued] at hBind
        cases hBind
    | ok hRun hValues =>
        rw [Eval.runIn_bindArguments hLength hRun] at hBind
        cases hBind
        have hAbove : closure.owner?.bind session.hierarchy.superclass? = some superclass := by
          rw [hOwner, Option.bind_some, hSuperclass]
        simp only [pushFrame, mapEnvironment, Environment.getLocal?_pushFrame, if_true,
          Closure.frame, hAbove, Table.get?_set]
  · simp only [bindArguments, hLength, ne_eq, not_false_eq_true, if_true] at hBind
    cases hBind

/-- One closure, made a method of lists first and of closures then, and sent to a list. -/
def sharedMethod : String :=
  "(set f (lambda () (super name))) (List extend: (lambda () (set m f))) " ++
    "(Closure extend: (lambda () (set m f))) ((list) m)"

def RunResult.error? : RunResult → Option Error
  | .fault located => some located.error
  | _ => none

set_option maxRecDepth 10000 in
theorem run_sharedMethod :
    (fun run : RunResult × Session =>
        (run.1.error?, run.2.hierarchy.localMethod? BuiltinClass.list.id "m", run.2.ownerOf? ⟨0⟩))
      (((Evaluator.ofFuel 6).run sharedMethod "test").run (Session.new 8)) =
      (some (.typeCoercion "Function" "List"), some (.function (.closure ⟨0⟩)),
        some BuiltinClass.closure.id) := by
  cbv

/-- Whatever a host does with a new session, the methods of its classes come from extensions only. A
closure in the method table of a class was put there by an extension of the class, and it is owned by
the class of the last extension that took it: by the class itself if no extension of another class
did. In its body `super` stands for the superclass of the owner. A class that is extended next owns
all closures that it takes. -/
theorem method_owner_is_last_extender {maxDepth fuel : Nat} {steps : List HostStep} {last : Session}
    (hProper : HostStep.AllProper (.ofFuel fuel) steps (Session.new maxDepth))
    (hLast : (HostStep.performAll (.ofFuel fuel) steps (Session.new maxDepth)).2 = last) :
    ∃ log, Extensions (Session.new maxDepth) log last ∧
      (∀ cls selector id, last.hierarchy.localMethod? cls selector = some (.function (.closure id)) →
        (∃ extension ∈ log, extension.cls = cls ∧
          (selector, .function (.closure id)) ∈ extension.methods) ∧
        ∃ closure owner, last.closures[id.index]? = some closure ∧ closure.owner? = some owner ∧
          (log.find? (·.takes id)).map Extension.cls = some owner ∧
          ((∀ extension ∈ log, extension.takes id → extension.cls = cls) → owner = cls) ∧
          ∀ superclass, last.hierarchy.superclass? owner = some superclass →
            last.BindsSuper closure superclass) ∧
      ∀ cls definitions count later, definitions.index < last.closures.size →
        ((Evaluator.ofFuel fuel).extendClass cls definitions).runIn last = (.ok count, later) →
          ∃ methods inner, methods.length = count ∧
            Extensions (Session.new maxDepth) (⟨cls, methods⟩ :: (inner ++ log)) later ∧
            ∀ id, (Extension.mk cls methods).takes id → later.ownerOf? id = some cls := by
  have hNew := Session.new_sound maxDepth
  obtain ⟨-, ⟨log, hHistory⟩, -⟩ := HostStep.performAll_safe hNew hProper
  rw [hLast] at hHistory
  have hExtensions : Extensions (Session.new maxDepth) log last := by
    rw [← List.append_nil log]
    exact hHistory.extensions hNew .start
  refine ⟨log, hExtensions, ?_, ?_⟩
  · intro cls selector id hMethod
    obtain ⟨extension, hMem, hClass, hEntry⟩ :=
      hExtensions.exists_of_method Session.new_method hMethod
    have hTakes : extension.takes id = true :=
      List.any_eq_true.mpr ⟨_, hEntry, decide_eq_true rfl⟩
    -- The extension that put the closure there took it, so some extension was the last to take it.
    obtain ⟨taker, hTaker⟩ : ∃ taker, log.find? (·.takes id) = some taker :=
      Option.isSome_iff_exists.mp (List.find?_isSome.mpr ⟨extension, hMem, hTakes⟩)
    have hOwner : last.ownerOf? id = some taker.cls := by
      rw [hExtensions.ownerOf?_eq rfl, hTaker, Option.map_some]
    obtain ⟨closure, hClosure, hOwned⟩ := Option.bind_eq_some_iff.mp hOwner
    refine ⟨⟨extension, hMem, hClass, hEntry⟩, closure, taker.cls, hClosure, hOwned,
      by rw [hTaker, Option.map_some], ?_, fun _ => Session.bindsSuper_superclass hOwned⟩
    intro hAll
    exact hAll taker (List.mem_of_find?_eq_some hTaker)
      (List.find?_some (p := fun other : Extension => other.takes id) hTaker)
  · intro cls definitions count later hDefinitions hRun
    exact hExtensions.extendClass (hHistory.sound hNew) hDefinitions hRun

theorem method_owner_is_last_extender_shared :
    HostStep.AllProper (.ofFuel 6) [.run sharedMethod "test"] (Session.new 8) ∧
      ∃ log,
        Extensions (Session.new 8) log
          (((Evaluator.ofFuel 6).run sharedMethod "test").run (Session.new 8)).2 ∧
        (∃ extension ∈ log, extension.cls = BuiltinClass.list.id ∧
          ("m", .function (.closure ⟨0⟩)) ∈ extension.methods) ∧
        (log.find? (·.takes ⟨0⟩)).map Extension.cls = some BuiltinClass.closure.id := by
  have hProper : HostStep.AllProper (.ofFuel 6) [.run sharedMethod "test"] (Session.new 8) :=
    ⟨trivial, trivial⟩
  obtain ⟨-, hPair⟩ := Prod.mk.inj run_sharedMethod
  obtain ⟨hMethod, hOwner⟩ := Prod.mk.inj hPair
  have hLast : (HostStep.performAll (.ofFuel 6) [.run sharedMethod "test"] (Session.new 8)).2 =
      (((Evaluator.ofFuel 6).run sharedMethod "test").run (Session.new 8)).2 := rfl
  obtain ⟨log, hExtensions, hMethods, -⟩ := method_owner_is_last_extender hProper hLast
  obtain ⟨hInstalled, closure, owner, hClosure, hOwned, hTaker, -⟩ :=
    hMethods BuiltinClass.list.id "m" ⟨0⟩ hMethod
  have hSame : some owner = some BuiltinClass.closure.id := by
    rw [← hOwner, Session.ownerOf?, hClosure, Option.bind_some, hOwned]
  exact ⟨hProper, log, hExtensions, hInstalled, hTaker.trans hSame⟩

/-- The list finds the method in its own class. There `super` should stand for `Object`, which has no
method `name`; it stands for the superclass of `Closure`, whose method `name` does not like lists. -/
theorem shared_method_has_other_owner :
    ¬ (∀ cls selector id,
        (((Evaluator.ofFuel 6).run sharedMethod "test").run (Session.new 8)).2.hierarchy.localMethod?
            cls selector = some (.function (.closure id)) →
          (((Evaluator.ofFuel 6).run sharedMethod "test").run (Session.new 8)).2.ownerOf? id =
            some cls) ∧
      (((Evaluator.ofFuel 6).run sharedMethod "test").run (Session.new 8)).1.error? =
        some (.typeCoercion "Function" "List") := by
  obtain ⟨hError, hPair⟩ := Prod.mk.inj run_sharedMethod
  obtain ⟨hMethod, hOwner⟩ := Prod.mk.inj hPair
  refine ⟨?_, hError⟩
  intro hOwned
  have hList := hOwned BuiltinClass.list.id "m" ⟨0⟩ hMethod
  rw [hOwner] at hList
  cases hList

end MessageLisp
