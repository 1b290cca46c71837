import MessageLisp.Proofs.Inheritance
import MessageLisp.Proofs.Semantics.Safety

/-! Fields of instances. However classes are defined, instances made and fields written, an instance
has a slot for each field that its class or a class above was declared with, and for nothing else. So
a field of an instance is like a variable of its own: what was written to it is read from it, and no
other field of any instance changes. -/
namespace MessageLisp

/-! ### Single steps -/

/-- The session with another value in a slot of an instance. -/
def Session.writeSlot (session : Session) (id : InstanceId) {object : Instance} {slot : Nat}
    (hSlot : slot < object.slots.size) (value : Value) : Session :=
  { session with
    instances := session.instances.modify id.index
      ({ · with slots := object.slots.set slot value hSlot }) }

namespace Eval

variable {session : Session} {id : InstanceId} {object : Instance} {cls : Class}

theorem runIn_bind_of_error {α β : Type} {x : Eval α} {interruption : Interruption} {later : Session}
    (h : x.runIn session = (.error interruption, later)) (f : α → Eval β) :
    (x >>= f).runIn session = (.error interruption, later) := by
  rw [runIn_bind, h, continued]

theorem runIn_instanceOf (hObject : session.instances[id.index]? = some object) :
    (instanceOf id).runIn session = (.ok object, session) := by
  rw [instanceOf, runIn_get_bind, hObject]
  rfl

theorem runIn_instanceOf_of_none (hObject : session.instances[id.index]? = none) :
    (instanceOf id).runIn session = (.error (.panic ⟨some "no such instance"⟩), session) := by
  rw [instanceOf, runIn_get_bind, hObject]
  rfl

theorem runIn_classOf {id : ClassId} (hClass : session.hierarchy.get? id = some cls) :
    (classOf id).runIn session = (.ok cls, session) := by
  rw [classOf, runIn_get_bind, hClass]
  rfl

theorem runIn_classOf_of_none {id : ClassId} (hClass : session.hierarchy.get? id = none) :
    (classOf id).runIn session = (.error (.panic ⟨some "no such class"⟩), session) := by
  rw [classOf, runIn_get_bind, hClass]
  rfl

section Located

variable (hObject : session.instances[id.index]? = some object)
  (hClass : session.hierarchy.get? object.cls = some cls) {field : String}

include hObject hClass

theorem runIn_slotOf_of_some {slot : Nat} (hSlot : cls.slot? field = some slot) :
    (slotOf (.object id) field).runIn session = (.ok (id, object, slot), session) := by
  simp only [slotOf]
  rw [runIn_bind_ok (runIn_instanceOf hObject), runIn_bind_ok (runIn_classOf hClass), hSlot]
  rfl

theorem runIn_slotOf_of_none (hSlot : cls.slot? field = none) :
    (slotOf (.object id) field).runIn session =
      (.error (.error (.noSuchField cls.name field)), session) := by
  simp only [slotOf]
  rw [runIn_bind_ok (runIn_instanceOf hObject), runIn_bind_ok (runIn_classOf hClass), hSlot]
  rfl

theorem runIn_getField {slot : Nat} {value : Value} (hSlot : cls.slot? field = some slot)
    (hValue : object.slots[slot]? = some value) :
    (getField (.object id) field).runIn session = (.ok value, session) := by
  rw [getField, runIn_bind_ok (runIn_slotOf_of_some hObject hClass hSlot)]
  simp only [hValue]
  rfl

theorem runIn_getField_of_none (hSlot : cls.slot? field = none) :
    (getField (.object id) field).runIn session =
      (.error (.error (.noSuchField cls.name field)), session) :=
  runIn_bind_of_error (runIn_slotOf_of_none hObject hClass hSlot) _

theorem runIn_setField {slot : Nat} (hSlot : cls.slot? field = some slot)
    (hBound : slot < object.slots.size) (value : Value) :
    (setField (.object id) field value).runIn session =
      (.ok (), session.writeSlot id hBound value) := by
  rw [setField, runIn_bind_ok (runIn_slotOf_of_some hObject hClass hSlot)]
  simp only [dif_pos hBound]
  rfl

theorem runIn_setField_of_none (hSlot : cls.slot? field = none) (value : Value) :
    (setField (.object id) field value).runIn session =
      (.error (.error (.noSuchField cls.name field)), session) :=
  runIn_bind_of_error (runIn_slotOf_of_none hObject hClass hSlot) _

end Located

/-- A field is looked for without a change. -/
theorem runIn_slotOf_cases (receiver : Value) (field : String) (session : Session) :
    (∃ interruption, (slotOf receiver field).runIn session = (.error interruption, session)) ∨
      ∃ id object cls slot, receiver = .object id ∧ session.instances[id.index]? = some object ∧
        session.hierarchy.get? object.cls = some cls ∧ cls.slot? field = some slot := by
  cases receiver with
  | object id =>
      cases hObject : session.instances[id.index]? with
      | none => exact .inl ⟨_, runIn_bind_of_error (runIn_instanceOf_of_none hObject) _⟩
      | some object =>
          cases hClass : session.hierarchy.get? object.cls with
          | none =>
              exact .inl ⟨_, (runIn_bind_ok (runIn_instanceOf hObject) _).trans
                (runIn_bind_of_error (runIn_classOf_of_none hClass) _)⟩
          | some cls =>
              cases hSlot : cls.slot? field with
              | none => exact .inl ⟨_, runIn_slotOf_of_none hObject hClass hSlot⟩
              | some slot => exact .inr ⟨id, object, cls, slot, rfl, hObject, hClass, hSlot⟩
  | _ => exact .inl ⟨_, rfl⟩

/-- Reading changes nothing. -/
theorem runIn_getField_session (receiver : Value) (field : String) (session : Session) :
    ((getField receiver field).runIn session).2 = session := by
  rcases runIn_slotOf_cases receiver field session with
    ⟨interruption, hRun⟩ | ⟨id, object, cls, slot, rfl, hObject, hClass, hSlot⟩
  · rw [getField, runIn_bind_of_error hRun]
  · rw [getField, runIn_bind_ok (runIn_slotOf_of_some hObject hClass hSlot)]
    cases hValue : object.slots[slot]? <;> simp only [hValue] <;> rfl

/-- A write either fails and changes nothing, or changes the slot of the field. -/
theorem runIn_setField_cases (receiver : Value) (field : String) (value : Value) (session : Session) :
    (∃ interruption, (setField receiver field value).runIn session = (.error interruption, session)) ∨
      ∃ (id : InstanceId) (object : Instance) (cls : Class) (slot : Nat)
        (hBound : slot < object.slots.size), session.instances[id.index]? = some object ∧
        session.hierarchy.get? object.cls = some cls ∧ cls.slot? field = some slot ∧
        (setField receiver field value).runIn session =
          (.ok (), session.writeSlot id hBound value) := by
  rcases runIn_slotOf_cases receiver field session with
    ⟨interruption, hRun⟩ | ⟨id, object, cls, slot, rfl, hObject, hClass, hSlot⟩
  · exact .inl ⟨interruption, runIn_bind_of_error hRun _⟩
  · by_cases hBound : slot < object.slots.size
    · exact .inr ⟨id, object, cls, slot, hBound, hObject, hClass, hSlot,
        runIn_setField hObject hClass hSlot hBound value⟩
    · refine .inl ⟨.panic ⟨some "slot out of range"⟩, ?_⟩
      rw [setField, runIn_bind_ok (runIn_slotOf_of_some hObject hClass hSlot)]
      simp only [dif_neg hBound]
      rfl

theorem runIn_newInstance {id : ClassId} (hClass : session.hierarchy.get? id = some cls) :
    (newInstance id).runIn session =
      (.ok (.object ⟨session.instances.size⟩),
        (session.addInstance ⟨id, Array.replicate cls.fields.length .null⟩).2) := by
  rw [newInstance, runIn_bind_ok (runIn_classOf hClass)]
  rfl

theorem runIn_newInstance_cases (id : ClassId) (session : Session) :
    (∃ interruption, (newInstance id).runIn session = (.error interruption, session)) ∨
      ∃ cls, session.hierarchy.get? id = some cls := by
  cases hClass : session.hierarchy.get? id with
  | none => exact .inl ⟨_, runIn_bind_of_error (runIn_classOf_of_none hClass) _⟩
  | some cls => exact .inr ⟨cls, rfl⟩

theorem runIn_defineClass (superclass : ClassId) (name : String) (fields : List String)
    (session : Session) :
    (∃ error, (defineClass superclass name fields).runIn session = (.error error, session)) ∨
      ∃ id hierarchy, session.hierarchy.define name (some superclass) fields = .ok (id, hierarchy) ∧
        (defineClass superclass name fields).runIn session =
          (.ok (.classRef id), { session with hierarchy }) := by
  rw [defineClass, runIn_get_bind]
  cases hDefine : session.hierarchy.define name (some superclass) fields with
  | error error => exact .inl ⟨_, rfl⟩
  | ok pair => exact .inr ⟨pair.1, pair.2, rfl, rfl⟩

end Eval

/-! ### Reachable sessions -/

namespace Session

/-- The session came about from a new one by definitions of classes, new instances, writes to fields,
and steps that leave the classes and the instances as they are. -/
inductive Laid : List Declaration → Session → Prop where
  | new (maxDepth : Nat) :
      Laid (BuiltinClass.all.map BuiltinClass.declaration) (Session.new maxDepth)
  | define {declarations : List Declaration} {session : Session} {name : String}
      {superclass? : Option ClassId} {fields : List String} {id : ClassId} {hierarchy : Hierarchy}
      (hPast : Laid declarations session)
      (hSuperclass : ∀ superclass, superclass? = some superclass →
        superclass.index < session.hierarchy.classes.size)
      (hDefine : session.hierarchy.define name superclass? fields = .ok (id, hierarchy)) :
      Laid (declarations ++ [⟨name, some (superclass?.getD BuiltinClass.object.id), fields⟩])
        { session with hierarchy }
  | create {declarations : List Declaration} {session later : Session} {id : ClassId} {value : Value}
      (hPast : Laid declarations session)
      (hRun : (newInstance id).runIn session = (.ok value, later)) : Laid declarations later
  | write {declarations : List Declaration} {session later : Session} {receiver value : Value}
      {field : String} (hPast : Laid declarations session)
      (hRun : (setField receiver field value).runIn session = (.ok (), later)) :
      Laid declarations later
  | other {declarations : List Declaration} {session later : Session}
      (hPast : Laid declarations session) (hClasses : session.hierarchy.SameClasses later.hierarchy)
      (hInstances : later.instances = session.instances) : Laid declarations later

/-- The classes are those declared, and every instance has as many slots as its class has fields. -/
structure WellLaid (declarations : List Declaration) (session : Session) : Prop where
  declared : session.hierarchy.Declared declarations
  instances {index : Nat} {object : Instance} (hObject : session.instances[index]? = some object) :
    ∃ cls, session.hierarchy.get? object.cls = some cls ∧ object.slots.size = cls.fields.length

namespace WellLaid

variable {declarations : List Declaration} {session later : Session}

theorem new (maxDepth : Nat) :
    (Session.new maxDepth).WellLaid (BuiltinClass.all.map BuiltinClass.declaration) where
  declared := Hierarchy.declared_ofMethods _
  instances hObject := by simp [Session.new] at hObject

theorem define (h : session.WellLaid declarations) {name : String} {superclass? : Option ClassId}
    {fields : List String} {id : ClassId} {hierarchy : Hierarchy}
    (hSuperclass : ∀ superclass, superclass? = some superclass →
      superclass.index < session.hierarchy.classes.size)
    (hDefine : session.hierarchy.define name superclass? fields = .ok (id, hierarchy)) :
    WellLaid (declarations ++ [⟨name, some (superclass?.getD BuiltinClass.object.id), fields⟩])
      { session with hierarchy } where
  declared := h.declared.define hSuperclass hDefine
  instances hObject := by
    obtain ⟨cls, hClass, hSize⟩ := h.instances hObject
    obtain ⟨-, -, rfl⟩ := Hierarchy.define_eq_ok_iff.mp hDefine
    refine ⟨cls, ?_, hSize⟩
    rw [Hierarchy.get?_push, if_neg (Nat.ne_of_lt (Hierarchy.index_lt_of_get? hClass)), hClass]

theorem create (h : session.WellLaid declarations) {id : ClassId} {value : Value}
    (hRun : (newInstance id).runIn session = (.ok value, later)) : later.WellLaid declarations := by
  rcases Eval.runIn_newInstance_cases id session with ⟨interruption, hFailed⟩ | ⟨cls, hClass⟩
  · rw [hFailed] at hRun
    cases hRun
  · rw [Eval.runIn_newInstance hClass] at hRun
    cases hRun
    refine ⟨h.declared, ?_⟩
    intro index object hObject
    simp only [addInstance, Array.getElem?_push] at hObject
    split at hObject
    · cases hObject
      exact ⟨cls, hClass, Array.size_replicate⟩
    · exact h.instances hObject

theorem write (h : session.WellLaid declarations) {receiver value : Value} {field : String}
    (hRun : (setField receiver field value).runIn session = (.ok (), later)) :
    later.WellLaid declarations := by
  rcases Eval.runIn_setField_cases receiver field value session with
    ⟨interruption, hFailed⟩ | ⟨id, object, cls, slot, hBound, hObject, -, -, hWritten⟩
  · rw [hFailed] at hRun
    cases hRun
  · rw [hWritten] at hRun
    cases hRun
    refine ⟨h.declared, ?_⟩
    intro index object' hObject'
    simp only [writeSlot, Array.getElem?_modify] at hObject'
    split at hObject'
    · rename_i hIndex
      rw [← hIndex, hObject] at hObject'
      cases hObject'
      obtain ⟨cls, hClass, hSize⟩ := h.instances hObject
      exact ⟨cls, hClass, by rw [Array.size_set, hSize]⟩
    · exact h.instances hObject'

theorem other (h : session.WellLaid declarations)
    (hClasses : session.hierarchy.SameClasses later.hierarchy)
    (hInstances : later.instances = session.instances) : later.WellLaid declarations where
  declared := h.declared.of_sameClasses hClasses
  instances hObject := by
    rw [hInstances] at hObject
    obtain ⟨cls, hClass, hSize⟩ := h.instances hObject
    obtain ⟨cls', hClass', hSame⟩ := hClasses.symm.get? hClass
    exact ⟨cls', hClass', by rw [hSize, hSame]⟩

end WellLaid

theorem Laid.wellLaid {declarations : List Declaration} {session : Session}
    (h : session.Laid declarations) : session.WellLaid declarations := by
  induction h with
  | new maxDepth => exact .new maxDepth
  | define _ hSuperclass hDefine ih => exact ih.define hSuperclass hDefine
  | create _ hRun ih => exact ih.create hRun
  | write _ hRun ih => exact ih.write hRun
  | other _ hClasses hInstances ih => exact ih.other hClasses hInstances

theorem collect_instances (session : Session) (cls : ClassId) (scope : ScopeId) (names : List String) :
    (session.collect cls scope names).2.instances = session.instances := by
  apply collect_induction (P := (·.instances = session.instances))
  · intro later name target _ hInstances
    rw [← hInstances]
    cases target <;> rfl
  · rfl

end Session

/-- Whatever happens to a session, its classes and instances change by definitions, creations and
writes. -/
theorem Change.laid {free : String → Prop} {session later : Session} {log : List Extension}
    (h : Change free session log later)
    (hLaid : ∃ declarations, session.Laid declarations) : ∃ declarations, later.Laid declarations := by
  obtain ⟨declarations, hLaid⟩ := hLaid
  cases h with
  | note | pushFrame | define | assign | addClosure | nameClosure | addHost =>
      exact ⟨declarations, hLaid.other rfl rfl⟩
  | addInstance hClass => exact ⟨declarations, hLaid.create (Eval.runIn_newInstance hClass)⟩
  | @setSlot id object slot value hObject hSlot _ =>
      -- the slot belongs to some field, and the field is found there
      obtain ⟨cls, hClass, hSize⟩ := hLaid.wellLaid.instances hObject
      have hFields := hLaid.wellLaid.declared.nodup_fieldsOf object.cls
      rw [Hierarchy.fieldsOf_eq hClass] at hFields
      have hField : cls.fields[slot]? = some cls.fields[slot] := List.getElem?_eq_getElem (hSize ▸ hSlot)
      exact ⟨declarations, hLaid.write
        (Eval.runIn_setField hObject hClass ((Class.slot?_eq_some_iff hFields).mpr hField) hSlot value)⟩
  | @defineClass name superclass id fields hierarchy hSuperclass hDefine =>
      refine ⟨_, hLaid.define ?_ hDefine⟩
      intro other hOther
      cases hOther
      exact hSuperclass
  | extend cls scope names =>
      refine ⟨declarations, hLaid.other ?_ (session.collect_instances cls scope names)⟩
      rw [Session.install, Session.mapHierarchy, Session.collect_hierarchy]
      exact Hierarchy.sameClasses_installAll ..
  | close => exact ⟨declarations, hLaid.other (Hierarchy.sameClasses_clearMethods _) rfl⟩

theorem History.laid {free : String → Prop} {first last : Session} {log : List Extension}
    (h : History free first log last) (hLaid : ∃ declarations, first.Laid declarations) :
    ∃ declarations, last.Laid declarations := by
  induction h with
  | start => exact hLaid
  | next _ hChange ih => exact hChange.laid ih

/-! ### Reading and writing -/

/-- What is read depends on the slot of the field only. -/
theorem Eval.runIn_getField_congr {session later : Session} {id : InstanceId}
    {object object' : Instance} {cls : Class} {field : String}
    (hObject : session.instances[id.index]? = some object)
    (hClass : session.hierarchy.get? object.cls = some cls)
    (hObject' : later.instances[id.index]? = some object')
    (hClass' : later.hierarchy.get? object'.cls = some cls)
    (hSlots : ∀ slot, cls.slot? field = some slot → object'.slots[slot]? = object.slots[slot]?) :
    ((getField (.object id) field).runIn later).1 =
      ((getField (.object id) field).runIn session).1 := by
  cases hSlot : cls.slot? field with
  | none =>
      rw [runIn_getField_of_none hObject hClass hSlot, runIn_getField_of_none hObject' hClass' hSlot]
  | some slot =>
      rw [getField, runIn_bind_ok (runIn_slotOf_of_some hObject hClass hSlot),
        runIn_bind_ok (runIn_slotOf_of_some hObject' hClass' hSlot)]
      simp only [hSlots slot hSlot]
      cases object.slots[slot]? with
      | none => rfl
      | some value => rfl

namespace Session

variable {declarations : List Declaration} {session : Session} {id : InstanceId} {object : Instance}

theorem writeSlot_self {slot : Nat} {hSlot : slot < object.slots.size} {value : Value}
    (hObject : session.instances[id.index]? = some object) :
    (session.writeSlot id hSlot value).instances[id.index]? =
      some { object with slots := object.slots.set slot value hSlot } := by
  simp [writeSlot, Array.getElem?_modify, hObject]

theorem writeSlot_of_ne {slot : Nat} {hSlot : slot < object.slots.size} {value : Value}
    {other : InstanceId} (hOther : other ≠ id) :
    (session.writeSlot id hSlot value).instances[other.index]? =
      session.instances[other.index]? := by
  have hIndex : id.index ≠ other.index := by
    intro hIndex
    apply hOther
    cases id
    cases other
    simp_all
  simp [writeSlot, Array.getElem?_modify, hIndex]

/-- What it means that a write goes to a field of an instance: it is read from there, everything else
is read as before, and nothing but instances changes. -/
structure Writes (session : Session) (id : InstanceId) (field : String) (value : Value)
    (later : Session) : Prop where
  same : (getField (.object id) field).runIn later = (.ok value, later)
  other {other : InstanceId} {field' : String} (hExists : other.index < session.instances.size)
    (hOther : other ≠ id ∨ field' ≠ field) :
    ((getField (.object other) field').runIn later).1 =
      ((getField (.object other) field').runIn session).1
  rest : later = { session with instances := later.instances }
  size : later.instances.size = session.instances.size

theorem WellLaid.writes (h : session.WellLaid declarations) {cls : Class} {field : String} {slot : Nat}
    (hObject : session.instances[id.index]? = some object)
    (hClass : session.hierarchy.get? object.cls = some cls) (hSlot : cls.slot? field = some slot)
    (hBound : slot < object.slots.size) (value : Value) :
    session.Writes id field value (session.writeSlot id hBound value) where
  same := Eval.runIn_getField (writeSlot_self hObject) hClass hSlot (by simp)
  other := by
    intro other field' hExists hOther
    by_cases hSame : other = id
    · subst hSame
      apply Eval.runIn_getField_congr hObject hClass (writeSlot_self hObject) hClass
      intro slot' hSlot'
      have hFields := h.declared.nodup_fieldsOf object.cls
      rw [Hierarchy.fieldsOf_eq hClass] at hFields
      -- two fields in one slot would be the same field
      have hNe : slot ≠ slot' := by
        rintro rfl
        rw [Class.slot?_eq_some_iff hFields] at hSlot hSlot'
        rw [hSlot] at hSlot'
        exact hOther.elim (· rfl) (· (Option.some.inj hSlot').symm)
      exact Array.getElem?_set_ne hBound hNe
    · have hObject' : session.instances[other.index]? = some session.instances[other.index] :=
        Array.getElem?_eq_getElem hExists
      obtain ⟨cls', hClass', -⟩ := h.instances hObject'
      exact Eval.runIn_getField_congr hObject' hClass' ((writeSlot_of_ne hSame).trans hObject') hClass'
        fun _ _ => rfl
  rest := rfl
  size := Array.size_modify ..

/-- The fields of an instance are those that its class or a class above was declared with. Reading and
writing any other field fails and changes nothing. -/
structure Accesses (declarations : List Declaration) (session : Session) (id : InstanceId)
    (object : Instance) (cls : Class) : Prop where
  reads {field : String} (hField : session.hierarchy.HasField declarations object.cls field) :
    ∃ value, (getField (.object id) field).runIn session = (.ok value, session)
  writes {field : String} (hField : session.hierarchy.HasField declarations object.cls field)
    (value : Value) :
    ∃ later, (setField (.object id) field value).runIn session = (.ok (), later) ∧
      session.Writes id field value later
  readFails {field : String} (hField : ¬session.hierarchy.HasField declarations object.cls field) :
    (getField (.object id) field).runIn session =
      (.error (.error (.noSuchField cls.name field)), session)
  writeFails {field : String} (hField : ¬session.hierarchy.HasField declarations object.cls field)
    (value : Value) :
    (setField (.object id) field value).runIn session =
      (.error (.error (.noSuchField cls.name field)), session)

theorem WellLaid.accesses (h : session.WellLaid declarations) {cls : Class}
    (hObject : session.instances[id.index]? = some object)
    (hClass : session.hierarchy.get? object.cls = some cls)
    (hSize : object.slots.size = cls.fields.length) : session.Accesses declarations id object cls := by
  have hFields : ∀ field, session.hierarchy.HasField declarations object.cls field ↔
      field ∈ cls.fields := by
    intro field
    rw [← h.declared.mem_fieldsOf_iff, Hierarchy.fieldsOf_eq hClass]
  have hSome : ∀ {field}, session.hierarchy.HasField declarations object.cls field →
      ∃ slot, cls.slot? field = some slot ∧ slot < object.slots.size := by
    intro field hField
    cases hSlot : cls.slot? field with
    | none => exact absurd ((hFields field).mp hField) (Class.slot?_eq_none_iff.mp hSlot)
    | some slot => exact ⟨slot, rfl, hSize ▸ Class.slot?_lt hSlot⟩
  have hNone : ∀ {field}, ¬session.hierarchy.HasField declarations object.cls field →
      cls.slot? field = none := by
    intro field hField
    exact Class.slot?_eq_none_iff.mpr fun hMem => hField ((hFields field).mpr hMem)
  refine ⟨?_, ?_, ?_, ?_⟩
  · intro field hField
    obtain ⟨slot, hSlot, hBound⟩ := hSome hField
    exact ⟨_, Eval.runIn_getField hObject hClass hSlot (Array.getElem?_eq_getElem hBound)⟩
  · intro field hField value
    obtain ⟨slot, hSlot, hBound⟩ := hSome hField
    exact ⟨_, Eval.runIn_setField hObject hClass hSlot hBound value,
      h.writes hObject hClass hSlot hBound value⟩
  · intro field hField
    exact Eval.runIn_getField_of_none hObject hClass (hNone hField)
  · intro field hField value
    exact Eval.runIn_setField_of_none hObject hClass (hNone hField) value

end Session

/-! ### Layout of classes -/

/-- What the classes and their tables of fields look like. -/
structure Hierarchy.LaidOut (declarations : List Declaration) (h : Hierarchy) : Prop where
  names : h.names.Nodup
  registered {id : ClassId} {cls : Class} (hClass : h.get? id = some cls) : h.find? cls.name = some id
  lineage (id : ClassId) : Lineage h.superclass? id (h.chain id)
  earlier {id superclass : ClassId} (hAbove : h.superclass? id = some superclass) :
    superclass.index < id.index
  top {id : ClassId} {cls : Class} (hClass : h.get? id = some cls) :
    (h.chain id).getLast? = some BuiltinClass.object.id
  distinct {id : ClassId} {cls : Class} (hClass : h.get? id = some cls) : cls.fields.Nodup
  slots {id : ClassId} {cls : Class} (hClass : h.get? id = some cls) (field : String) (slot : Nat) :
    cls.slot? field = some slot ↔ cls.fields[slot]? = some field
  inherited {id superclass : ClassId} {cls above : Class} (hClass : h.get? id = some cls)
    (hAbove : h.superclass? id = some superclass) (hSuperclass : h.get? superclass = some above) :
    above.fields <+: cls.fields ∧
      ∀ field slot, above.slot? field = some slot → cls.slot? field = some slot
  fields {id : ClassId} {cls : Class} (hClass : h.get? id = some cls) (field : String) :
    field ∈ cls.fields ↔ h.HasField declarations id field

theorem Hierarchy.Declared.laidOut {declarations : List Declaration} {h : Hierarchy}
    (hDeclared : h.Declared declarations) : h.LaidOut declarations := by
  have hNodup : ∀ {id cls}, h.get? id = some cls → cls.fields.Nodup := by
    intro id cls hClass
    rw [← fieldsOf_eq hClass]
    exact hDeclared.nodup_fieldsOf id
  refine ⟨hDeclared.names_eq ▸ hDeclared.names, ?_, hDeclared.lineage, hDeclared.superclass?_lt,
    hDeclared.getLast?_chain, hNodup, fun hClass _ _ => Class.slot?_eq_some_iff (hNodup hClass), ?_, ?_⟩
  · intro id cls hClass
    exact hDeclared.find?_eq_some_iff.mpr ⟨cls, hClass, rfl⟩
  · intro id superclass cls above hClass hAbove hSuperclass
    have hPrefix := hDeclared.fieldsOf_superclass hAbove
    rw [fieldsOf_eq hClass, fieldsOf_eq hSuperclass] at hPrefix
    refine ⟨hPrefix, fun field slot => ?_⟩
    rw [Class.slot?_eq_some_iff (hNodup hClass), Class.slot?_eq_some_iff (hNodup hSuperclass)]
    intro hField
    obtain ⟨rest, hRest⟩ := hPrefix
    rw [← hRest, List.getElem?_append_left (List.getElem?_eq_some_iff.mp hField).1, hField]
  · intro id cls hClass field
    rw [← hDeclared.mem_fieldsOf_iff, fieldsOf_eq hClass]

/-- A session with two classes of points. The second one repeats a field of the first. -/
def Session.points : Session :=
  { Session.new 8 with
    hierarchy := ⟨(Hierarchy.initial.classes.push
      ⟨"Point", some BuiltinClass.object.id, [], ["x", "y"]⟩).push
        ⟨"Space", some ⟨11⟩, [], ["x", "y", "z"]⟩⟩ }

theorem Session.points_laid :
    Session.points.Laid (BuiltinClass.all.map BuiltinClass.declaration ++
      [⟨"Point", some BuiltinClass.object.id, ["x", "y", "x"]⟩] ++
      [⟨"Space", some ⟨11⟩, ["y", "z"]⟩]) := by
  have hPoint : Hierarchy.initial.define "Point" none ["x", "y", "x"] =
      .ok (⟨11⟩, ⟨Hierarchy.initial.classes.push
        ⟨"Point", some BuiltinClass.object.id, [], ["x", "y"]⟩⟩) :=
    Hierarchy.define_eq_ok_iff.mpr ⟨by decide, rfl, rfl⟩
  have hSpace : Hierarchy.define ⟨Hierarchy.initial.classes.push
        ⟨"Point", some BuiltinClass.object.id, [], ["x", "y"]⟩⟩ "Space" (some ⟨11⟩) ["y", "z"] =
      .ok (⟨12⟩, Session.points.hierarchy) :=
    Hierarchy.define_eq_ok_iff.mpr ⟨by decide, rfl, rfl⟩
  refine Laid.define (Laid.define (Laid.new 8) ?_ hPoint) ?_ hSpace
  · intro superclass hSome
    cases hSome
  · intro superclass hSome
    cases hSome
    decide

end MessageLisp
