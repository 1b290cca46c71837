import MessageLisp.Proofs.Inheritance
import MessageLisp.Proofs.Semantics.Safety

/-! Methods and the classes that inherit them. A method that is installed in a class is found from all
classes below that do not come across another method on the way, and from nowhere else. The table of a
class holds what was installed in it, in the order of the first installations, with the last ones. -/
namespace MessageLisp

/-! ### Tables -/

namespace Table

variable {α : Type}

/-- The last of the entries under a name. -/
def last? (entries : List (String × α)) (name : String) : Option α :=
  get? entries.reverse name

/-- The table holds each name of the entries once, in the order of their first appearance, and under it
the last entry. -/
structure Records (table : Table α) (entries : List (String × α)) : Prop where
  names : table.names = (entries.map Prod.fst).eraseDups
  get? (name : String) : table.get? name = last? entries name

theorem records_nil : Records ([] : Table α) [] where
  names := rfl
  get? _ := rfl

theorem eraseDups_concat (names : List String) (name : String) :
    (names ++ [name]).eraseDups =
      if name ∈ names then names.eraseDups else names.eraseDups ++ [name] := by
  rw [List.eraseDups_append, List.removeAll]
  by_cases hMem : name ∈ names
  · simp [hMem]
  · simp [hMem, List.eraseDups_cons]

theorem Records.set {table : Table α} {entries : List (String × α)} (h : table.Records entries)
    (name : String) (entry : α) : (table.set name entry).Records (entries ++ [(name, entry)]) where
  names := by
    rw [names_set, h.names, List.map_append, List.map_singleton, eraseDups_concat]
    simp only [List.mem_eraseDups]
  get? other := by
    rw [get?_set, h.get?, last?, last?, List.reverse_append, List.reverse_singleton, get?_append]
    by_cases hName : other = name
    · simp [Table.get?, hName]
    · simp [Table.get?, hName, Ne.symm hName]

theorem Records.setAll {table : Table α} {earlier : List (String × α)} (h : table.Records earlier)
    (entries : List (String × α)) : (table.setAll entries).Records (earlier ++ entries) := by
  induction entries generalizing table earlier with
  | nil =>
      rw [List.append_nil]
      exact h
  | cons entry entries ih =>
      have hRest := ih (h.set entry.1 entry.2)
      rw [List.append_assoc, List.singleton_append] at hRest
      exact hRest

end Table

/-! ### Method tables -/

/-- The methods that extensions brought to a class, in order. The log has the last extension first. -/
def installed (log : List Extension) (cls : ClassId) : List (String × Method) :=
  (log.reverse.filter (·.cls = cls)).flatMap Extension.methods

theorem installed_cons (extension : Extension) (log : List Extension) (cls : ClassId) :
    installed (extension :: log) cls =
      installed log cls ++ if extension.cls = cls then extension.methods else [] := by
  rw [installed, List.reverse_cons, List.filter_append, List.flatMap_append]
  by_cases hClass : extension.cls = cls
  · simp [installed, hClass]
  · simp [installed, hClass]

namespace Hierarchy

/-- The method table of a class. -/
def methodsOf (h : Hierarchy) (cls : ClassId) : Table Method :=
  ((h.get? cls).map Class.methods).getD []

/-- The selectors of the methods of a class, in the order of its table. -/
def selectors (h : Hierarchy) (cls : ClassId) : List String :=
  (h.methodsOf cls).names

theorem methodsOf_installAll {h : Hierarchy} {cls : ClassId} (hClass : cls.index < h.classes.size)
    (methods : List (String × Method)) (other : ClassId) :
    (h.installAll cls methods).methodsOf other =
      if other = cls then (h.methodsOf cls).setAll methods else h.methodsOf other := by
  rw [methodsOf, installAll, get?_modifyMethods]
  by_cases hSame : other = cls
  · subst hSame
    obtain ⟨entry, hEntry⟩ := get?_of_lt hClass
    simp [methodsOf, hEntry]
  · simp only [methodsOf, hSame, if_false, Option.map_id']

theorem methodsOf_define {h h' : Hierarchy} {name : String} {superclass? : Option ClassId}
    {fields : List String} {id : ClassId} (hDefine : h.define name superclass? fields = .ok (id, h'))
    (cls : ClassId) : h'.methodsOf cls = h.methodsOf cls := by
  obtain ⟨-, -, rfl⟩ := define_eq_ok_iff.mp hDefine
  rw [methodsOf, get?_push, methodsOf]
  split
  · rename_i hLast
    rw [get?, Array.getElem?_eq_none (Nat.le_of_eq hLast.symm)]
    rfl
  · rfl

theorem methodsOf_clearMethods (h : Hierarchy) (cls : ClassId) : h.clearMethods.methodsOf cls = [] := by
  rw [methodsOf, get?_clearMethods]
  cases h.get? cls with
  | none => rfl
  | some entry => rfl

/-- The hierarchy came about from the builtin classes by definitions of classes and extensions. The
extensions are those since all methods were last taken away, the last one first. -/
inductive Built : List Extension → Hierarchy → Prop where
  | bare : Built [] bare
  | define {log : List Extension} {h h' : Hierarchy} {name : String} {superclass? : Option ClassId}
      {fields : List String} {id : ClassId} (hPast : Built log h)
      (hSuperclass : ∀ superclass, superclass? = some superclass →
        superclass.index < h.classes.size)
      (hDefine : h.define name superclass? fields = .ok (id, h')) : Built log h'
  | extend {log : List Extension} {h : Hierarchy} {cls : ClassId} (hPast : Built log h)
      (hClass : cls.index < h.classes.size) (methods : List (String × Method)) :
      Built (⟨cls, methods⟩ :: log) (h.installAll cls methods)
  | clear {log : List Extension} {h : Hierarchy} (hPast : Built log h) : Built [] h.clearMethods

namespace Built

variable {log : List Extension} {h : Hierarchy}

theorem declared (hBuilt : Built log h) : ∃ declarations, h.Declared declarations := by
  induction hBuilt with
  | bare => exact ⟨_, declared_ofMethods _⟩
  | define _ hSuperclass hDefine ih =>
      obtain ⟨declarations, hDeclared⟩ := ih
      exact ⟨_, hDeclared.define hSuperclass hDefine⟩
  | extend _ _ methods ih =>
      obtain ⟨declarations, hDeclared⟩ := ih
      exact ⟨declarations, hDeclared.of_sameClasses (sameClasses_installAll ..)⟩
  | clear _ ih =>
      obtain ⟨declarations, hDeclared⟩ := ih
      exact ⟨declarations, hDeclared.of_sameClasses (sameClasses_clearMethods _)⟩

/-- The table of a class holds what was installed in it. -/
theorem records (hBuilt : Built log h) (cls : ClassId) :
    (h.methodsOf cls).Records (installed log cls) := by
  induction hBuilt with
  | bare =>
      have hNone : Hierarchy.bare.methodsOf cls = [] := by
        rw [methodsOf, Hierarchy.bare, get?_ofMethods]
        cases BuiltinClass.all[cls.index]? <;> rfl
      rw [hNone]
      exact Table.records_nil
  | define _ _ hDefine ih =>
      rw [methodsOf_define hDefine]
      exact ih
  | @extend log h extended _ hClass methods ih =>
      rw [methodsOf_installAll hClass, installed_cons]
      by_cases hSame : cls = extended
      · subst hSame
        rw [if_pos rfl, if_pos rfl]
        exact ih.setAll methods
      · rw [if_neg hSame, if_neg (Ne.symm hSame), List.append_nil]
        exact ih
  | clear _ _ =>
      rw [methodsOf_clearMethods]
      exact Table.records_nil

theorem extendBuiltins (hBuilt : Built log h) (methods : BuiltinClass → List (String × Method))
    (builtins : List BuiltinClass) (hSize : BuiltinClass.all.length ≤ h.classes.size) :
    ∃ log, Built log (builtins.foldl (fun h builtin => h.installAll builtin.id (methods builtin)) h) := by
  induction builtins generalizing h log with
  | nil => exact ⟨log, hBuilt⟩
  | cons builtin builtins ih =>
      apply ih (hBuilt.extend (Nat.lt_of_lt_of_le builtin.id_lt hSize) _)
      rw [(sameClasses_installAll ..).size]
      exact hSize

/-- The methods that are part of the language are installed in the builtin classes. -/
theorem initial : ∃ log, Built log Hierarchy.initial := by
  have hInitial : Hierarchy.initial = BuiltinClass.all.foldl (fun h builtin =>
      h.installAll builtin.id (builtin.primitives.map fun p => (p.selector, .primitive p)))
        Hierarchy.bare := rfl
  rw [hInitial]
  exact Built.bare.extendBuiltins _ BuiltinClass.all (Nat.le_refl _)

end Built

/-! ### Who finds a method -/

/-- For a method of the selector one looks into the class `cls` before any other class that has one. -/
def LooksInto (h : Hierarchy) (id : ClassId) (selector : String) (cls : ClassId) : Prop :=
  ReachesFirst (h.localMethod? · selector) (h.chain id) cls

/-- What the installation of a method does: the classes that inherit it find it, and that is all. Of the
selectors only those of the class itself change, by one more at the end if it is new. -/
structure Gains (h : Hierarchy) (cls : ClassId) (selector : String) (method : Method)
    (h' : Hierarchy) : Prop where
  found {id : ClassId} (hLooks : h.LooksInto id selector cls) :
    h'.resolve? id selector = some method
  hidden {id : ClassId} (hLooks : ¬h.LooksInto id selector cls) :
    h'.resolve? id selector = h.resolve? id selector
  others {other : String} (hOther : other ≠ selector) (id : ClassId) :
    h'.resolve? id other = h.resolve? id other
  selectors : h'.selectors cls =
    if selector ∈ h.selectors cls then h.selectors cls else h.selectors cls ++ [selector]
  elsewhere {id : ClassId} (hElsewhere : id ≠ cls) : h'.selectors id = h.selectors id

theorem eq_of_get? {h h' : Hierarchy} (hSame : ∀ id, h.get? id = h'.get? id) : h = h' := by
  obtain ⟨classes⟩ := h
  obtain ⟨classes'⟩ := h'
  exact congrArg Hierarchy.mk (Array.ext_getElem? fun index => hSame ⟨index⟩)

section Extending

variable (h : Hierarchy) (cls : ClassId) (methods : List (String × Method))

theorem installAll_of_le (hNone : h.classes.size ≤ cls.index) : h.installAll cls methods = h := by
  apply eq_of_get?
  intro id
  rw [installAll, get?_modifyMethods]
  by_cases hSame : id = cls
  · rw [hSame, get?, Array.getElem?_eq_none hNone, Option.map_none]
  · simp only [hSame, if_false, Option.map_id']

theorem installAll_nil : h.installAll cls [] = h := by
  apply eq_of_get?
  intro id
  rw [installAll, get?_modifyMethods]
  simp only [Table.setAll, List.foldl_nil, ite_self, Option.map_id']

theorem installAll_cons (entry : String × Method) :
    h.installAll cls (entry :: methods) = (h.install cls entry.1 entry.2).installAll cls methods := by
  apply eq_of_get?
  intro id
  rw [installAll, installAll, install, get?_modifyMethods, get?_modifyMethods, get?_modifyMethods,
    Option.map_map]
  congr
  funext entry
  by_cases hSame : id = cls
  · simp [hSame, Table.setAll]
  · simp [hSame]

/-- An extension installs one method after the other. -/
theorem installAll_eq_foldl :
    h.installAll cls methods = methods.foldl (fun h entry => h.install cls entry.1 entry.2) h := by
  induction methods generalizing h with
  | nil => exact h.installAll_nil cls
  | cons entry methods ih => rw [installAll_cons, ih, List.foldl_cons]

theorem localMethod?_elsewhere (selector : String) (other : ClassId) (hOther : other ≠ cls) :
    (h.installAll cls methods).localMethod? other selector = h.localMethod? other selector := by
  rw [localMethod?_installAll, if_neg fun hSame => hOther hSame.1]

variable {h cls methods} {id : ClassId} {selector : String}

theorem resolve?_found (hClass : cls.index < h.classes.size) {method : Method}
    (hMethod : Table.last? methods selector = some method)
    (hLooks : h.LooksInto id selector cls) :
    (h.installAll cls methods).resolve? id selector = some method := by
  obtain ⟨entry, hEntry⟩ := get?_of_lt hClass
  rw [resolve?, (sameClasses_installAll ..).chain]
  apply ReachesFirst.findSome?
  · exact (ReachesFirst.congr (localMethod?_elsewhere h cls methods selector)).mpr hLooks
  · rw [localMethod?_installAll, if_pos ⟨rfl, by rw [hEntry, Option.isSome_some]⟩, ← Table.last?,
      hMethod, Option.some_or]

theorem resolve?_hidden (hLooks : ¬h.LooksInto id selector cls) :
    (h.installAll cls methods).resolve? id selector = h.resolve? id selector := by
  rw [resolve?, (sameClasses_installAll ..).chain]
  exact findSome?_congr hLooks (localMethod?_elsewhere h cls methods selector)

theorem resolve?_other (hMethod : Table.last? methods selector = none) :
    (h.installAll cls methods).resolve? id selector = h.resolve? id selector := by
  rw [resolve?, (sameClasses_installAll ..).chain, resolve?]
  congr
  funext other
  rw [localMethod?_installAll, ← Table.last?, hMethod, Option.none_or, ite_self]

end Extending

theorem gains_install {h : Hierarchy} {cls : ClassId} (hClass : cls.index < h.classes.size)
    (selector : String) (method : Method) :
    h.Gains cls selector method (h.install cls selector method) := by
  have hInstall : h.install cls selector method = h.installAll cls [(selector, method)] := rfl
  have hMethods := methodsOf_installAll hClass [(selector, method)]
  rw [hInstall]
  refine ⟨resolve?_found hClass (by simp [Table.last?, Table.get?]), resolve?_hidden, ?_, ?_, ?_⟩
  · intro other hOther id
    exact resolve?_other (by simp [Table.last?, Table.get?, hOther.symm])
  · rw [selectors, hMethods, if_pos rfl]
    exact Table.names_set ..
  · intro id hElsewhere
    rw [selectors, hMethods, if_neg hElsewhere, selectors]

end Hierarchy

/-! ### Sessions -/

namespace Session

/-- The classes of the session came about by definitions and extensions. -/
def IsBuilt (session : Session) : Prop :=
  ∃ log, session.hierarchy.Built log

end Session

theorem Change.isBuilt {free : String → Prop} {session later : Session} {log : List Extension}
    (h : Change free session log later) (hBuilt : session.IsBuilt) : later.IsBuilt := by
  cases h with
  | note | pushFrame | define | assign | addClosure | nameClosure | addInstance | setSlot | addHost =>
      exact hBuilt
  | defineClass hSuperclass hDefine =>
      obtain ⟨log, hPast⟩ := hBuilt
      refine ⟨log, hPast.define ?_ hDefine⟩
      intro superclass hSome
      cases hSome
      exact hSuperclass
  | extend cls scope names =>
      obtain ⟨log, hPast⟩ := hBuilt
      rw [← session.collect_hierarchy cls scope names] at hPast
      rcases Nat.lt_or_ge cls.index (session.collect cls scope names).2.hierarchy.classes.size with
        hClass | hNone
      · exact ⟨_, hPast.extend hClass _⟩
      · refine ⟨log, ?_⟩
        rw [Session.install, Session.mapHierarchy, Hierarchy.installAll_of_le _ _ _ hNone]
        exact hPast
  | close =>
      obtain ⟨log, hPast⟩ := hBuilt
      exact ⟨[], hPast.clear⟩

theorem History.isBuilt {free : String → Prop} {first last : Session} {log : List Extension}
    (h : History free first log last) (hBuilt : first.IsBuilt) : last.IsBuilt := by
  induction h with
  | start => exact hBuilt
  | next _ hChange ih => exact hChange.isBuilt ih

namespace Session

variable {session : Session}

theorem new_isBuilt (maxDepth : Nat) : (Session.new maxDepth).IsBuilt :=
  Hierarchy.Built.initial

/-- A change with an extension extends the class. -/
theorem hierarchy_of_change {free : String → Prop} {later : Session} {extension : Extension}
    (h : Change free session [extension] later) :
    later.hierarchy = session.hierarchy.installAll extension.cls extension.methods := by
  cases h with
  | extend cls scope names => rw [install, mapHierarchy, collect_hierarchy]

end Session

/-- What extending a class in a session does: after the body of the closure has run, its functions are
installed. -/
theorem extendClass_installs {session later : Session} (hSound : session.Sound)
    (hBuilt : session.IsBuilt) {fuel count : Nat} {cls : ClassId} {definitions : ClosureId}
    (hDefinitions : definitions.index < session.closures.size)
    (hRun : ((Evaluator.ofFuel fuel).extendClass cls definitions).runIn session =
      (.ok count, later)) :
    ∃ (ready : Session) (methods : List (String × Method)), ready.IsBuilt ∧ methods.length = count ∧
      later.hierarchy = ready.hierarchy.installAll cls methods := by
  have hEnds := (Evaluator.extendClass_safe hSound cls hDefinitions fuel).orderly.ends
  rw [hRun] at hEnds
  obtain ⟨ready, methods, ⟨log, hReady⟩, hChange, hCount⟩ := hEnds
  exact ⟨ready, methods, hReady.isBuilt hBuilt, hCount, Session.hierarchy_of_change hChange⟩

/-- However a hierarchy came about, a method that is installed in a class is found from the class and
from those below it that do not come across a nearer method of the selector. Other classes and other
selectors find what they found before. An extension installs one method after the other. The table of
a class holds all that was ever installed in it, each selector once, in the order of the first
installations, with the last method. All this holds of the classes of a session, whatever a host does
with it, and extending a class there is such an extension. -/
theorem install_reaches_inheriting_classes {log : List Extension} {h : Hierarchy}
    (hBuilt : h.Built log) :
    (∀ id, Lineage h.superclass? id (h.chain id)) ∧
      (∀ cls, (h.methodsOf cls).Records (installed log cls)) ∧
      (∀ cls, cls.index < h.classes.size →
        (∀ selector method, h.Gains cls selector method (h.install cls selector method)) ∧
        ∀ methods,
          h.installAll cls methods =
            methods.foldl (fun h entry => h.install cls entry.1 entry.2) h ∧
          ∀ id selector,
            (∀ method, Table.last? methods selector = some method → h.LooksInto id selector cls →
              (h.installAll cls methods).resolve? id selector = some method) ∧
            (Table.last? methods selector = none ∨ ¬h.LooksInto id selector cls →
              (h.installAll cls methods).resolve? id selector = h.resolve? id selector)) ∧
      ∀ maxDepth fuel steps last, HostStep.AllProper (.ofFuel fuel) steps (Session.new maxDepth) →
        (HostStep.performAll (.ofFuel fuel) steps (Session.new maxDepth)).2 = last →
          last.IsBuilt ∧
          ∀ cls definitions count later, definitions.index < last.closures.size →
            ((Evaluator.ofFuel fuel).extendClass cls definitions).runIn last = (.ok count, later) →
              ∃ (ready : Session) (methods : List (String × Method)),
                ready.IsBuilt ∧ methods.length = count ∧
                  later.hierarchy = ready.hierarchy.installAll cls methods := by
  obtain ⟨declarations, hDeclared⟩ := hBuilt.declared
  refine ⟨hDeclared.lineage, hBuilt.records, ?_, ?_⟩
  · intro cls hClass
    refine ⟨Hierarchy.gains_install hClass, fun methods => ⟨h.installAll_eq_foldl cls methods, ?_⟩⟩
    intro id selector
    refine ⟨fun method => Hierarchy.resolve?_found hClass, ?_⟩
    rintro (hNone | hLooks)
    · exact Hierarchy.resolve?_other hNone
    · exact Hierarchy.resolve?_hidden hLooks
  · rintro maxDepth fuel steps last hProper rfl
    have hNew := Session.new_sound maxDepth
    obtain ⟨-, ⟨log, hHistory⟩, -⟩ := HostStep.performAll_safe hNew hProper
    have hLast := hHistory.isBuilt (Session.new_isBuilt maxDepth)
    exact ⟨hLast, fun _ _ _ _ => extendClass_installs (hHistory.sound hNew) hLast⟩

/-- A method `name` of `Object` is found from `Number`. From `Closure` one comes across the method of
`Function` before. -/
theorem install_reaches_inheriting_classes_name :
    ∃ log, Hierarchy.initial.Built log ∧
      (Hierarchy.initial.install BuiltinClass.object.id "name" (.primitive .description)).resolve?
          BuiltinClass.number.id "name" = some (.primitive .description) ∧
      (Hierarchy.initial.install BuiltinClass.object.id "name" (.primitive .description)).resolve?
          BuiltinClass.closure.id "name" = some (.primitive .functionName) ∧
      (Hierarchy.initial.install BuiltinClass.object.id "name"
          (.primitive .description)).selectors BuiltinClass.object.id =
        Hierarchy.initial.selectors BuiltinClass.object.id ++ ["name"] := by
  obtain ⟨log, hBuilt⟩ := Hierarchy.Built.initial
  obtain ⟨-, -, hInstall, -⟩ := install_reaches_inheriting_classes hBuilt
  have hGains := (hInstall BuiltinClass.object.id (by decide)).1 "name" (.primitive .description)
  have hNumber : Hierarchy.initial.chain BuiltinClass.number.id =
      [BuiltinClass.number.id, BuiltinClass.object.id] := by cbv
  have hClosure : Hierarchy.initial.chain BuiltinClass.closure.id =
      [BuiltinClass.closure.id, BuiltinClass.function.id, BuiltinClass.object.id] := by cbv
  refine ⟨log, hBuilt, hGains.found ?_, ?_, ?_⟩
  · rw [Hierarchy.LooksInto, hNumber, reachesFirst_cons, reachesFirst_cons]
    exact .inr ⟨by decide, .inl rfl⟩
  · rw [hGains.hidden]
    · rw [Hierarchy.resolve?, hClosure]
      decide
    · rw [Hierarchy.LooksInto, hClosure, reachesFirst_cons, reachesFirst_cons]
      rintro (hSame | ⟨-, hSame | ⟨hNone, -⟩⟩)
      · exact absurd hSame (by decide)
      · exact absurd hSame (by decide)
      · exact absurd hNone (by decide)
  · rw [hGains.selectors]
    decide

end MessageLisp
