import MessageLisp.Proofs.Environment
import MessageLisp.Proofs.Hierarchy
import MessageLisp.Session

/-! References. Functions, classes and instances are known by number. In a sound session everything
that a value or a method table refers to exists, and instances have the slots that their class says.
What exists once exists for good: sessions only grow. -/
namespace MessageLisp

/-! ### Things that exist -/

/-- The function exists. -/
def FunctionRef.Lives (session : Session) : FunctionRef → Prop
  | .builtin _ => True
  | .host id => id.index < session.hosts.size
  | .closure id => id.index < session.closures.size

namespace Value

mutual

/-- All that the value refers to exists. -/
def Lives (session : Session) : Value → Prop
  | list items => AllLive session items
  | function target => target.Lives session
  | classRef id => id.index < session.hierarchy.classes.size
  | object id => id.index < session.instances.size
  | _ => True

@[inherit_doc Lives]
def AllLive (session : Session) : List Value → Prop
  | [] => True
  | item :: items => Lives session item ∧ AllLive session items

end

theorem allLive_nil (session : Session) : AllLive session [] :=
  trivial

theorem allLive_iff {session : Session} {items : List Value} :
    AllLive session items ↔ ∀ item ∈ items, item.Lives session := by
  induction items with
  | nil => simp [AllLive]
  | cons item items ih => simp [AllLive, ih]

end Value

/-- What becomes more and never less: no reference to anything is lost. -/
structure Session.Grows (before after : Session) : Prop where
  hosts : before.hosts.size ≤ after.hosts.size
  closures : before.closures.size ≤ after.closures.size
  instances : before.instances.size ≤ after.instances.size
  classes {id : ClassId} {cls : Class} (hClass : before.hierarchy.get? id = some cls) :
    ∃ cls', after.hierarchy.get? id = some cls' ∧ cls'.fields = cls.fields

namespace Session.Grows

variable {before after later : Session}

theorem refl (session : Session) : session.Grows session :=
  ⟨Nat.le_refl _, Nat.le_refl _, Nat.le_refl _, fun hClass => ⟨_, hClass, rfl⟩⟩

theorem trans (h : before.Grows after) (h' : after.Grows later) : before.Grows later where
  hosts := Nat.le_trans h.hosts h'.hosts
  closures := Nat.le_trans h.closures h'.closures
  instances := Nat.le_trans h.instances h'.instances
  classes hClass := by
    obtain ⟨cls', hClass', hFields'⟩ := h.classes hClass
    obtain ⟨cls'', hClass'', hFields''⟩ := h'.classes hClass'
    exact ⟨cls'', hClass'', hFields''.trans hFields'⟩

theorem index_lt (h : before.Grows after) {id : ClassId}
    (hIndex : id.index < before.hierarchy.classes.size) :
    id.index < after.hierarchy.classes.size := by
  obtain ⟨cls, hClass⟩ := Hierarchy.get?_of_lt hIndex
  obtain ⟨cls', hClass', -⟩ := h.classes hClass
  exact Hierarchy.index_lt_of_get? hClass'

theorem classes_size (h : before.Grows after) :
    before.hierarchy.classes.size ≤ after.hierarchy.classes.size := by
  rcases Nat.lt_or_ge after.hierarchy.classes.size before.hierarchy.classes.size with hLess | hMore
  · have hLast : (⟨after.hierarchy.classes.size⟩ : ClassId).index < after.hierarchy.classes.size :=
      h.index_lt hLess
    exact absurd hLast (Nat.lt_irrefl _)
  · exact hMore

end Session.Grows

theorem FunctionRef.Lives.mono {before after : Session} (hGrows : before.Grows after)
    {target : FunctionRef} (h : target.Lives before) : target.Lives after := by
  cases target with
  | builtin _ => trivial
  | host id => exact Nat.lt_of_lt_of_le h hGrows.hosts
  | closure id => exact Nat.lt_of_lt_of_le h hGrows.closures

namespace Value

mutual

theorem Lives.mono {before after : Session} (hGrows : before.Grows after) {value : Value}
    (h : value.Lives before) : value.Lives after := by
  match value with
  | .list items => exact AllLive.mono hGrows h
  | .function target => exact FunctionRef.Lives.mono hGrows h
  | .classRef id => exact hGrows.index_lt h
  | .object id => exact Nat.lt_of_lt_of_le h hGrows.instances
  | .null | .bool _ | .int _ | .float _ | .string _ | .expr _ | .pointer _ => trivial

theorem AllLive.mono {before after : Session} (hGrows : before.Grows after) {items : List Value}
    (h : AllLive before items) : AllLive after items := by
  match items with
  | [] => trivial
  | item :: items => exact ⟨Lives.mono hGrows h.1, AllLive.mono hGrows h.2⟩

end

end Value

/-! ### Sound sessions -/

/-- The method can stand under the selector: a primitive stands under its own one only. -/
def Method.Fits (session : Session) (selector : String) : Method → Prop
  | .primitive p => p.selector = selector
  | .function target => target.Lives session

/-- The instance has the slots of its class. -/
structure Instance.Fits (session : Session) (object : Instance) : Prop where
  cls : ∃ cls, session.hierarchy.get? object.cls = some cls ∧ object.slots.size = cls.fields.length
  slots : ∀ value ∈ object.slots, value.Lives session

/-- A function of the host that does not break down. -/
def HostFunction.Steady (host : HostFunction) : Prop :=
  ∀ panic, host.action ≠ .panic panic

/-- Everything that the session refers to exists. -/
structure Session.Sound (session : Session) : Prop where
  bindings {scope : ScopeId} {name : String} {value : Value}
    (hBound : session.environment.getLocal? scope name = some value) : value.Lives session
  methods {id : ClassId} {selector : String} {method : Method}
    (hMethod : session.hierarchy.localMethod? id selector = some method) :
    method.Fits session selector
  superclasses {id parent : ClassId} (hParent : session.hierarchy.superclass? id = some parent) :
    parent.index < session.hierarchy.classes.size
  builtins : BuiltinClass.all.length ≤ session.hierarchy.classes.size
  instances {index : Nat} {object : Instance} (hObject : session.instances[index]? = some object) :
    object.Fits session
  hosts {index : Nat} {host : HostFunction} (hHost : session.hosts[index]? = some host) : host.Steady

theorem Method.Fits.mono {before after : Session} (hGrows : before.Grows after) {selector : String}
    {method : Method} (h : method.Fits before selector) : method.Fits after selector := by
  cases method with
  | primitive primitive => exact h
  | function target => exact FunctionRef.Lives.mono hGrows h

theorem Instance.Fits.mono {before after : Session} (hGrows : before.Grows after) {object : Instance}
    (h : object.Fits before) : object.Fits after where
  cls := by
    obtain ⟨cls, hClass, hSize⟩ := h.cls
    obtain ⟨cls', hClass', hFields⟩ := hGrows.classes hClass
    exact ⟨cls', hClass', by rw [hSize, hFields]⟩
  slots value hValue := (h.slots value hValue).mono hGrows

theorem BuiltinClass.id_lt (builtin : BuiltinClass) : builtin.id.index < BuiltinClass.all.length := by
  cases builtin <;> decide

namespace Session.Sound

/-- A session that has grown is sound again if all that is new in it is. -/
theorem update {before after : Session} (h : before.Sound) (hGrows : before.Grows after)
    (hBindings : ∀ scope name value, after.environment.getLocal? scope name = some value →
      before.environment.getLocal? scope name = some value ∨ value.Lives after)
    (hMethods : ∀ id selector method, after.hierarchy.localMethod? id selector = some method →
      before.hierarchy.localMethod? id selector = some method ∨ method.Fits after selector)
    (hSuperclasses : ∀ id parent, after.hierarchy.superclass? id = some parent →
      before.hierarchy.superclass? id = some parent ∨
        parent.index < after.hierarchy.classes.size)
    (hInstances : ∀ (index : Nat) (object : Instance), after.instances[index]? = some object →
      before.instances[index]? = some object ∨ object.Fits after)
    (hHosts : ∀ (index : Nat) (host : HostFunction), after.hosts[index]? = some host →
      before.hosts[index]? = some host ∨ host.Steady) : after.Sound where
  bindings hBound := by
    rcases hBindings _ _ _ hBound with hOld | hNew
    · exact (h.bindings hOld).mono hGrows
    · exact hNew
  methods hMethod := by
    rcases hMethods _ _ _ hMethod with hOld | hNew
    · exact (h.methods hOld).mono hGrows
    · exact hNew
  superclasses hParent := by
    rcases hSuperclasses _ _ hParent with hOld | hNew
    · exact hGrows.index_lt (h.superclasses hOld)
    · exact hNew
  builtins := Nat.le_trans h.builtins hGrows.classes_size
  instances hObject := by
    rcases hInstances _ _ hObject with hOld | hNew
    · exact (h.instances hOld).mono hGrows
    · exact hNew
  hosts hHost := by
    rcases hHosts _ _ hHost with hOld | hNew
    · exact h.hosts hOld
    · exact hNew

theorem lookup? {session : Session} (h : session.Sound) {scope : ScopeId} {name : String}
    {value : Value} (hBound : session.environment.lookup? scope name = some value) :
    value.Lives session := by
  obtain ⟨binder, -, hLocal⟩ := Option.bind_eq_some_iff.mp hBound
  exact h.bindings hLocal

theorem resolve? {session : Session} (h : session.Sound) {id : ClassId} {selector : String}
    {method : Method} (hMethod : session.hierarchy.resolve? id selector = some method) :
    method.Fits session selector := by
  obtain ⟨owner, -, hLocal⟩ := List.exists_of_findSome?_eq_some hMethod
  exact h.methods hLocal

theorem builtin_lt {session : Session} (h : session.Sound) (builtin : BuiltinClass) :
    builtin.id.index < session.hierarchy.classes.size :=
  Nat.lt_of_lt_of_le builtin.id_lt h.builtins

theorem classOf {session : Session} (h : session.Sound) {value : Value} :
    (session.classOf value).index < session.hierarchy.classes.size := by
  cases value with
  | object id =>
      rw [Session.classOf]
      cases hObject : session.instances[id.index]? with
      | none => exact h.builtin_lt .object
      | some object =>
          obtain ⟨cls, hClass, -⟩ := (h.instances hObject).cls
          exact Hierarchy.index_lt_of_get? hClass
  | _ => exact h.builtin_lt _

theorem find? {session : Session} {name : String} {id : ClassId}
    (hName : session.hierarchy.find? name = some id) :
    id.index < session.hierarchy.classes.size := by
  obtain ⟨index, hIndex, rfl⟩ := Option.map_eq_some_iff.mp hName
  exact (Array.findIdx?_eq_some_iff_findIdx_eq.mp hIndex).1

end Session.Sound

/-! ### New sessions -/

theorem Hierarchy.exists_builtin {methods : BuiltinClass → Table Method} {id : ClassId} {cls : Class}
    (h : (Hierarchy.ofMethods methods).get? id = some cls) :
    ∃ builtin : BuiltinClass,
      cls = ⟨builtin.name, builtin.superclass?.map BuiltinClass.id, methods builtin, []⟩ := by
  obtain ⟨hIndex, rfl⟩ := Array.getElem?_eq_some_iff.mp h
  simp only [Hierarchy.ofMethods, List.getElem_toArray, List.getElem_map]
  exact ⟨_, rfl⟩

theorem Session.lives_of_globals {session : Session} {name : String} {value : Value}
    (h : globals.get? name = some value) : value.Lives session := by
  have hMem := Table.mem_of_get? h
  simp only [globals, List.mem_append, List.mem_cons, List.mem_map, List.not_mem_nil] at hMem
  rcases hMem with (hMem | hMem | hMem | hMem) | ⟨builtin, -, hMem⟩ <;> cases hMem <;> trivial

theorem Session.get?_globals {maxDepth : Nat} {scope : ScopeId} {name : String} {value : Value}
    (h : (Session.new maxDepth).environment.getLocal? scope name = some value) :
    globals.get? name = some value := by
  simp only [Environment.getLocal?, Session.new, Environment.bindings_modifyBindings] at h
  split at h
  · exact h
  · obtain ⟨index⟩ := scope
    cases index <;> cases h

theorem Session.new_sound (maxDepth : Nat) : (Session.new maxDepth).Sound where
  bindings hBound := lives_of_globals (get?_globals hBound)
  methods {id selector method} hMethod := by
    obtain ⟨cls, hClass, hEntry⟩ := Option.bind_eq_some_iff.mp hMethod
    obtain ⟨builtin, rfl⟩ := Hierarchy.exists_builtin hClass
    obtain ⟨p, -, hPair⟩ := List.mem_map.mp (Table.mem_of_get? hEntry)
    cases hPair
    rfl
  superclasses {id parent} hParent := by
    obtain ⟨cls, hClass, hAbove⟩ := Option.bind_eq_some_iff.mp hParent
    obtain ⟨builtin, rfl⟩ := Hierarchy.exists_builtin hClass
    obtain ⟨above, -, rfl⟩ := Option.map_eq_some_iff.mp hAbove
    exact above.id_lt
  builtins := Nat.le_refl _
  instances hObject := by simp [Session.new] at hObject
  hosts hHost := by simp [Session.new] at hHost

end MessageLisp
