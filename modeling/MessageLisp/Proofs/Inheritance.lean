import MessageLisp.Proofs.Hierarchy
import MessageLisp.Proofs.Lineage

/-! Classes and what they were declared with. A class is declared below one that was declared before
it, so that all classes are below `Object`. Its table of fields starts with the table of the class
above and goes on with the fields of its own declaration that are not yet there. -/
namespace MessageLisp

/-- What a class was declared with. The fields are the ones given, repeated or inherited names
included. -/
structure Declaration where
  name : String
  superclass? : Option ClassId
  fields : List String

/-- The class of a place among declarations was declared with the field. -/
def Declares (declarations : List Declaration) (id : ClassId) (field : String) : Prop :=
  ∃ declaration, declarations[id.index]? = some declaration ∧ field ∈ declaration.fields

/-- How the builtin classes are declared. -/
def BuiltinClass.declaration (builtin : BuiltinClass) : Declaration :=
  ⟨builtin.name, builtin.superclass?.map BuiltinClass.id, []⟩

theorem BuiltinClass.id_of_getElem? {builtin : BuiltinClass} {id : ClassId}
    (h : BuiltinClass.all[id.index]? = some builtin) : builtin.id = id := by
  have hIds : BuiltinClass.all.map BuiltinClass.id = (List.range 11).map ClassId.mk := rfl
  have hPlace : (BuiltinClass.all.map BuiltinClass.id)[id.index]? = some builtin.id := by
    rw [List.getElem?_map, h, Option.map_some]
  rw [hIds, List.getElem?_map] at hPlace
  obtain ⟨index, hIndex, hId⟩ := Option.map_eq_some_iff.mp hPlace
  obtain ⟨hRange, hSame⟩ := List.getElem?_eq_some_iff.mp hIndex
  rw [← hId, ← hSame, List.getElem_range]

/-! ### Tables of fields -/

theorem addFields_cons (inherited : List String) (field : String) (fields : List String) :
    addFields inherited (field :: fields) =
      addFields (if field ∈ inherited then inherited else inherited ++ [field]) fields :=
  rfl

theorem mem_addFields {inherited fields : List String} {field : String} :
    field ∈ addFields inherited fields ↔ field ∈ inherited ∨ field ∈ fields := by
  induction fields generalizing inherited with
  | nil => simp [addFields]
  | cons first fields ih =>
      rw [addFields_cons, ih]
      split
      · grind
      · grind

theorem nodup_addFields {inherited : List String} (h : inherited.Nodup) (fields : List String) :
    (addFields inherited fields).Nodup := by
  induction fields generalizing inherited with
  | nil => exact h
  | cons first fields ih =>
      rw [addFields_cons]
      split
      · exact ih h
      · rename_i hNew
        apply ih
        rw [List.nodup_append]
        refine ⟨h, List.pairwise_singleton .., ?_⟩
        intro a hOld b hLast
        rw [List.mem_singleton.mp hLast]
        exact fun hSame => hNew (hSame ▸ hOld)

theorem prefix_addFields (inherited fields : List String) :
    inherited <+: addFields inherited fields := by
  induction fields generalizing inherited with
  | nil => exact List.prefix_refl inherited
  | cons first fields ih =>
      rw [addFields_cons]
      split
      · exact ih inherited
      · exact (List.prefix_append inherited [first]).trans (ih _)

namespace Class

variable {cls : Class} {field : String} {slot : Nat}

/-- Distinct fields have distinct slots, in the order of the table. -/
theorem slot?_eq_some_iff (h : cls.fields.Nodup) :
    cls.slot? field = some slot ↔ cls.fields[slot]? = some field := by
  rw [slot?, List.findIdx?_eq_some_iff_getElem]
  constructor
  · rintro ⟨hSlot, hField, -⟩
    rw [List.getElem?_eq_getElem hSlot, of_decide_eq_true hField]
  · intro hField
    obtain ⟨hSlot, rfl⟩ := List.getElem?_eq_some_iff.mp hField
    refine ⟨hSlot, decide_eq_true rfl, ?_⟩
    intro earlier hEarlier hSame
    have hIndex := (List.getElem_inj h).mp (of_decide_eq_true hSame)
    omega

theorem slot?_eq_none_iff : cls.slot? field = none ↔ field ∉ cls.fields := by
  simp only [slot?, List.findIdx?_eq_none_iff, decide_eq_false_iff_not]
  exact ⟨fun hNone hMem => hNone field hMem rfl, fun hNone other hMem hSame => hNone (hSame ▸ hMem)⟩

theorem slot?_lt (h : cls.slot? field = some slot) : slot < cls.fields.length := by
  rw [slot?, List.findIdx?_eq_some_iff_getElem] at h
  exact h.1

end Class

/-! ### Declared classes -/

namespace Hierarchy

/-- The table of fields that a declaration starts from. -/
def tableAbove (h : Hierarchy) (declaration : Declaration) : List String :=
  (declaration.superclass?.map h.fieldsOf).getD []

/-- The class is as declared. -/
structure Matches (h : Hierarchy) (declaration : Declaration) (cls : Class) : Prop where
  name : cls.name = declaration.name
  superclass? : cls.superclass? = declaration.superclass?
  fields : cls.fields = addFields (h.tableAbove declaration) declaration.fields

/-- The class or one above it was declared with the field. -/
def HasField (declarations : List Declaration) (h : Hierarchy) (id : ClassId) (field : String) : Prop :=
  ∃ above ∈ h.chain id, Declares declarations above field

/-- The classes of the hierarchy are those declared, in this order. Only the first one has no class
above it, and the class above any other one was declared before. -/
structure Declared (declarations : List Declaration) (h : Hierarchy) : Prop where
  size : h.classes.size = declarations.length
  nonempty : 0 < declarations.length
  names : (declarations.map Declaration.name).Nodup
  classes {id : ClassId} {cls : Class} (hClass : h.get? id = some cls) :
    ∃ declaration, declarations[id.index]? = some declaration ∧ h.Matches declaration cls
  superclasses {id : ClassId} {declaration : Declaration}
    (hDeclared : declarations[id.index]? = some declaration) :
    declaration.superclass? = none ∧ id = BuiltinClass.object.id ∨
      ∃ superclass, declaration.superclass? = some superclass ∧ superclass.index < id.index

/-- The hierarchies differ in methods only. -/
def SameClasses (h h' : Hierarchy) : Prop :=
  h'.clearMethods = h.clearMethods

theorem fieldsOf_eq {h : Hierarchy} {id : ClassId} {cls : Class} (hClass : h.get? id = some cls) :
    h.fieldsOf id = cls.fields := by
  rw [fieldsOf, hClass, Option.map_some, Option.getD_some]

theorem superclass?_eq {h : Hierarchy} {id : ClassId} {cls : Class} (hClass : h.get? id = some cls) :
    h.superclass? id = cls.superclass? := by
  rw [Hierarchy.superclass?, hClass, Option.bind_some]

theorem exists_of_find? {h : Hierarchy} {name : String} {id : ClassId}
    (hFound : h.find? name = some id) :
    ∃ cls, h.get? id = some cls ∧ cls.name = name := by
  obtain ⟨index, hIndex, rfl⟩ := Option.map_eq_some_iff.mp hFound
  obtain ⟨hBound, hName, -⟩ := Array.findIdx?_eq_some_iff_getElem.mp hIndex
  exact ⟨_, Array.getElem?_eq_getElem hBound, of_decide_eq_true hName⟩

theorem getElem?_names {h : Hierarchy} {id : ClassId} {cls : Class} (hClass : h.get? id = some cls) :
    h.names[id.index]? = some cls.name := by
  rw [Hierarchy.names, List.getElem?_map, Array.getElem?_toList]
  exact congrArg (Option.map Class.name) hClass

theorem get?_ofMethods (methods : BuiltinClass → Table Method) (id : ClassId) :
    (ofMethods methods).get? id = BuiltinClass.all[id.index]?.map fun builtin =>
      ⟨builtin.name, builtin.superclass?.map BuiltinClass.id, methods builtin, []⟩ := by
  simp [get?, ofMethods]

theorem declared_ofMethods (methods : BuiltinClass → Table Method) :
    Declared (BuiltinClass.all.map BuiltinClass.declaration) (ofMethods methods) where
  size := rfl
  nonempty := by decide
  names := by decide
  classes := by
    intro id cls hClass
    rw [get?_ofMethods] at hClass
    obtain ⟨builtin, hBuiltin, rfl⟩ := Option.map_eq_some_iff.mp hClass
    refine ⟨builtin.declaration, by rw [List.getElem?_map, hBuiltin, Option.map_some], rfl, rfl, ?_⟩
    -- no builtin class has fields
    have hAbove : ∀ id, (ofMethods methods).fieldsOf id = [] := by
      intro id
      rw [fieldsOf, get?_ofMethods]
      cases BuiltinClass.all[id.index]? <;> rfl
    rw [tableAbove]
    cases builtin.declaration.superclass? with
    | none => rfl
    | some superclass =>
        rw [Option.map_some, hAbove]
        rfl
  superclasses := by
    intro id declaration hDeclared
    rw [List.getElem?_map] at hDeclared
    obtain ⟨builtin, hBuiltin, rfl⟩ := Option.map_eq_some_iff.mp hDeclared
    rw [← BuiltinClass.id_of_getElem? hBuiltin]
    cases builtin <;> simp [BuiltinClass.declaration, BuiltinClass.superclass?, BuiltinClass.id]

/-! ### Changes of methods -/

namespace SameClasses

variable {h h' : Hierarchy}

theorem map_get? (hSame : h.SameClasses h') (id : ClassId) :
    (h'.get? id).map ({ · with methods := [] }) = (h.get? id).map ({ · with methods := [] }) := by
  rw [← get?_clearMethods, ← get?_clearMethods, hSame]

/-- A class is still there, with other methods. -/
theorem get? (hSame : h.SameClasses h') {id : ClassId} {cls' : Class}
    (hClass : h'.get? id = some cls') :
    ∃ cls, h.get? id = some cls ∧ cls' = { cls with methods := cls'.methods } := by
  have hMap := hSame.map_get? id
  rw [hClass, Option.map_some] at hMap
  obtain ⟨cls, hOld, hEq⟩ := Option.map_eq_some_iff.mp hMap.symm
  refine ⟨cls, hOld, ?_⟩
  cases cls
  cases cls'
  simp_all

theorem symm (hSame : h.SameClasses h') : h'.SameClasses h :=
  Eq.symm hSame

theorem size (hSame : h.SameClasses h') : h'.classes.size = h.classes.size := by
  have hSize := congrArg (·.classes.size) hSame
  simpa [clearMethods] using hSize

theorem fieldsOf (hSame : h.SameClasses h') (id : ClassId) : h'.fieldsOf id = h.fieldsOf id := by
  have hFields := congrArg (Option.map Class.fields) (hSame.map_get? id)
  rw [Option.map_map, Option.map_map] at hFields
  exact congrArg (·.getD []) hFields

theorem tableAbove (hSame : h.SameClasses h') (declaration : Declaration) :
    h'.tableAbove declaration = h.tableAbove declaration := by
  rw [Hierarchy.tableAbove, Hierarchy.tableAbove, funext hSame.fieldsOf]

theorem superclass? (hSame : h.SameClasses h') (id : ClassId) :
    h'.superclass? id = h.superclass? id := by
  have hAbove := congrArg (·.bind Class.superclass?) (hSame.map_get? id)
  simp only [Option.bind_map] at hAbove
  exact hAbove

theorem chain (hSame : h.SameClasses h') (id : ClassId) : h'.chain id = h.chain id := by
  induction hIndex : id.index using Nat.strongRecOn generalizing id with
  | ind n ih =>
      rw [Hierarchy.chain, Hierarchy.chain, hSame.superclass?]
      cases h.superclass? id with
      | none => rfl
      | some parent =>
          simp only
          split
          · rename_i hBelow
            rw [ih parent.index (hIndex ▸ hBelow) parent rfl]
          · rfl

end SameClasses

theorem sameClasses_modifyMethods (h : Hierarchy) (id : ClassId) (f : Table Method → Table Method) :
    h.SameClasses (h.modifyMethods id f) := by
  rw [SameClasses, clearMethods, clearMethods, modifyMethods, Hierarchy.mk.injEq]
  apply Array.ext_getElem?
  intro index
  rw [Array.getElem?_map, Array.getElem?_map, Array.getElem?_modify]
  split
  · rw [Option.map_map]
    rfl
  · rfl

theorem sameClasses_installAll (h : Hierarchy) (cls : ClassId) (methods : List (String × Method)) :
    h.SameClasses (h.installAll cls methods) :=
  sameClasses_modifyMethods ..

theorem sameClasses_clearMethods (h : Hierarchy) : h.SameClasses h.clearMethods := by
  rw [SameClasses, clearMethods, clearMethods, Hierarchy.mk.injEq, Array.map_map]
  rfl

/-! ### Definitions -/

theorem fieldsOf_push (h : Hierarchy) (cls : Class) {id : ClassId} (hOld : id.index < h.classes.size) :
    (Hierarchy.mk (h.classes.push cls)).fieldsOf id = h.fieldsOf id := by
  rw [fieldsOf, fieldsOf, get?_push, if_neg (Nat.ne_of_lt hOld)]

theorem tableAbove_push (h : Hierarchy) (cls : Class) {declaration : Declaration}
    (hAbove : ∀ superclass, declaration.superclass? = some superclass →
      superclass.index < h.classes.size) :
    (Hierarchy.mk (h.classes.push cls)).tableAbove declaration = h.tableAbove declaration := by
  rw [tableAbove, tableAbove]
  cases hSome : declaration.superclass? with
  | none => rfl
  | some superclass =>
      rw [Option.map_some, Option.map_some, fieldsOf_push h cls (hAbove superclass hSome)]

namespace Declared

variable {declarations : List Declaration} {h h' : Hierarchy} {id : ClassId} {cls : Class}

theorem names_eq (hDeclared : h.Declared declarations) :
    h.names = declarations.map Declaration.name := by
  rw [Hierarchy.names]
  apply List.ext_getElem?
  intro index
  rw [List.getElem?_map, List.getElem?_map, Array.getElem?_toList]
  cases hClass : h.classes[index]? with
  | none =>
      have hSize := Array.getElem?_eq_none_iff.mp hClass
      rw [hDeclared.size] at hSize
      rw [List.getElem?_eq_none hSize, Option.map_none, Option.map_none]
  | some cls =>
      have hHere : h.get? ⟨index⟩ = some cls := hClass
      obtain ⟨declaration, hDeclaration, hMatches⟩ := hDeclared.classes hHere
      rw [hDeclaration, Option.map_some, Option.map_some, hMatches.name]

/-- Methods do not matter. -/
theorem of_sameClasses (hDeclared : h.Declared declarations) (hSame : h.SameClasses h') :
    h'.Declared declarations where
  size := by rw [hSame.size, hDeclared.size]
  nonempty := hDeclared.nonempty
  names := hDeclared.names
  classes := by
    intro id cls' hClass
    obtain ⟨cls, hOld, hEq⟩ := hSame.get? hClass
    obtain ⟨declaration, hDeclaration, hMatches⟩ := hDeclared.classes hOld
    refine ⟨declaration, hDeclaration, ?_, ?_, ?_⟩
    · rw [hEq, hMatches.name]
    · rw [hEq, hMatches.superclass?]
    · rw [hEq, hSame.tableAbove, hMatches.fields]
  superclasses := hDeclared.superclasses

/-- The class above a declared one was declared before it. -/
theorem index_lt (hDeclared : h.Declared declarations) {declaration : Declaration}
    (hDeclaration : declarations[id.index]? = some declaration) {superclass : ClassId}
    (hAbove : declaration.superclass? = some superclass) : superclass.index < id.index := by
  rcases hDeclared.superclasses hDeclaration with ⟨hNone, -⟩ | ⟨other, hSome, hBelow⟩
  · rw [hNone] at hAbove
    cases hAbove
  · rw [hSome] at hAbove
    cases hAbove
    exact hBelow

/-- One more class, below one that is there. -/
theorem push (hDeclared : h.Declared declarations) {name : String} (hNew : name ∉ h.names)
    {superclass : ClassId} (hAbove : superclass.index < h.classes.size) (fields : List String) :
    Declared (declarations ++ [⟨name, some superclass, fields⟩])
      ⟨h.classes.push ⟨name, some superclass, [], addFields (h.fieldsOf superclass) fields⟩⟩ where
  size := by
    rw [Array.size_push, List.length_append, hDeclared.size, List.length_singleton]
  nonempty := by
    rw [List.length_append, List.length_singleton]
    exact Nat.succ_pos _
  names := by
    rw [hDeclared.names_eq] at hNew
    rw [List.map_append, List.nodup_append]
    refine ⟨hDeclared.names, List.pairwise_singleton .., ?_⟩
    intro other hOther last hLast hSame
    rw [hSame, List.mem_singleton.mp hLast] at hOther
    exact hNew hOther
  classes := by
    intro id cls hClass
    rw [get?_push] at hClass
    split at hClass
    · rename_i hLast
      cases hClass
      refine ⟨_, by rw [hLast, hDeclared.size, List.getElem?_concat_length], rfl, rfl, ?_⟩
      rw [tableAbove, Option.map_some, Option.getD_some, fieldsOf_push h _ hAbove]
    · obtain ⟨declaration, hDeclaration, hMatches⟩ := hDeclared.classes hClass
      have hOld := index_lt_of_get? hClass
      refine ⟨declaration, ?_, hMatches.name, hMatches.superclass?, ?_⟩
      · rw [List.getElem?_append_left (hDeclared.size ▸ hOld), hDeclaration]
      · rw [hMatches.fields, tableAbove_push]
        intro parent hParent
        exact Nat.lt_trans (hDeclared.index_lt hDeclaration hParent) hOld
  superclasses := by
    intro id declaration hDeclaration
    rcases Nat.lt_or_ge id.index declarations.length with hOld | hLast
    · rw [List.getElem?_append_left hOld] at hDeclaration
      exact hDeclared.superclasses hDeclaration
    · rw [List.getElem?_append_right hLast, List.getElem?_singleton] at hDeclaration
      split at hDeclaration
      · cases hDeclaration
        exact .inr ⟨superclass, rfl, Nat.lt_of_lt_of_le (hDeclared.size ▸ hAbove) hLast⟩
      · cases hDeclaration

/-- A definition declares a class with the name and the fields that are given. -/
theorem define (hDeclared : h.Declared declarations) {name : String} {superclass? : Option ClassId}
    {fields : List String}
    (hSuperclass : ∀ superclass, superclass? = some superclass → superclass.index < h.classes.size)
    (hDefine : h.define name superclass? fields = .ok (id, h')) :
    h'.Declared
      (declarations ++ [⟨name, some (superclass?.getD BuiltinClass.object.id), fields⟩]) := by
  obtain ⟨hNew, -, rfl⟩ := define_eq_ok_iff.mp hDefine
  apply hDeclared.push hNew
  cases superclass? with
  | none =>
      rw [hDeclared.size]
      exact hDeclared.nonempty
  | some superclass => exact hSuperclass superclass rfl

/-! ### Names -/

/-- A class is found under its name, and nothing else is. -/
theorem find?_eq_some_iff (hDeclared : h.Declared declarations) {name : String} :
    h.find? name = some id ↔ ∃ cls, h.get? id = some cls ∧ cls.name = name := by
  constructor
  · exact exists_of_find?
  · rintro ⟨cls, hClass, rfl⟩
    have hHere := getElem?_names hClass
    cases hFound : h.find? cls.name with
    | none => exact absurd (List.mem_of_getElem? hHere) (find?_eq_none_iff.mp hFound)
    | some other =>
        obtain ⟨cls', hClass', hName⟩ := exists_of_find? hFound
        have hThere := getElem?_names hClass'
        rw [hName, ← hHere] at hThere
        have hNames : h.names.Nodup := hDeclared.names_eq ▸ hDeclared.names
        have hBound : other.index < h.names.length := by
          rw [Hierarchy.names, List.length_map, Array.length_toList]
          exact index_lt_of_get? hClass'
        have hIndex := (List.getElem?_inj hBound hNames).mp hThere
        cases other
        cases id
        cases hIndex
        rfl

/-! ### The classes above -/

theorem superclass?_lt (hDeclared : h.Declared declarations) {superclass : ClassId}
    (hAbove : h.superclass? id = some superclass) : superclass.index < id.index := by
  obtain ⟨cls, hClass, hSome⟩ := Option.bind_eq_some_iff.mp hAbove
  obtain ⟨declaration, hDeclaration, hMatches⟩ := hDeclared.classes hClass
  exact hDeclared.index_lt hDeclaration (hMatches.superclass? ▸ hSome)

theorem lineage (hDeclared : h.Declared declarations) (id : ClassId) :
    Lineage h.superclass? id (h.chain id) := by
  apply Lineage.of_index ClassId.index
  · intro id hNone
    rw [Hierarchy.chain, hNone]
  · intro id superclass hSome
    have hBelow := hDeclared.superclass?_lt hSome
    refine ⟨hBelow, ?_⟩
    rw [Hierarchy.chain, hSome]
    exact congrArg (id :: ·) (if_pos hBelow)

/-- All that is above a class was declared before it. -/
theorem le_of_mem_chain (hDeclared : h.Declared declarations) {above : ClassId}
    (hMem : above ∈ h.chain id) : above.index ≤ id.index :=
  (hDeclared.lineage id).forall_mem (P := (·.index ≤ id.index)) (Nat.le_refl _)
    (fun _ _ hAbove hLe => Nat.le_of_lt (Nat.lt_of_lt_of_le (hDeclared.superclass?_lt hAbove) hLe))
    above hMem

theorem getLast?_chain (hDeclared : h.Declared declarations) (hClass : h.get? id = some cls) :
    (h.chain id).getLast? = some BuiltinClass.object.id := by
  obtain ⟨last, hLast, hNone⟩ := (hDeclared.lineage id).exists_last
  have hIndex : last.index < h.classes.size :=
    Nat.lt_of_le_of_lt (hDeclared.le_of_mem_chain (List.mem_of_getLast? hLast))
      (index_lt_of_get? hClass)
  obtain ⟨top, hTop⟩ := get?_of_lt hIndex
  obtain ⟨declaration, hDeclaration, hMatches⟩ := hDeclared.classes hTop
  rw [superclass?_eq hTop, hMatches.superclass?] at hNone
  rcases hDeclared.superclasses hDeclaration with ⟨-, hObject⟩ | ⟨superclass, hSome, -⟩
  · rw [hLast, hObject]
  · rw [hSome] at hNone
    cases hNone

/-! ### Fields -/

/-- The table of a class starts with the one above. -/
theorem fieldsOf_superclass (hDeclared : h.Declared declarations) {superclass : ClassId}
    (hAbove : h.superclass? id = some superclass) : h.fieldsOf superclass <+: h.fieldsOf id := by
  obtain ⟨cls, hClass, hSome⟩ := Option.bind_eq_some_iff.mp hAbove
  obtain ⟨declaration, -, hMatches⟩ := hDeclared.classes hClass
  rw [fieldsOf_eq hClass, hMatches.fields, tableAbove, ← hMatches.superclass?, hSome]
  exact prefix_addFields ..

theorem nodup_fieldsOf (hDeclared : h.Declared declarations) (id : ClassId) :
    (h.fieldsOf id).Nodup := by
  induction hIndex : id.index using Nat.strongRecOn generalizing id with
  | ind n ih =>
      rw [fieldsOf]
      cases hClass : h.get? id with
      | none => exact .nil
      | some cls =>
          obtain ⟨declaration, hDeclaration, hMatches⟩ := hDeclared.classes hClass
          rw [Option.map_some, Option.getD_some, hMatches.fields]
          apply nodup_addFields
          rw [tableAbove]
          cases hSome : declaration.superclass? with
          | none => exact .nil
          | some superclass =>
              exact ih superclass.index (hIndex ▸ hDeclared.index_lt hDeclaration hSome) superclass rfl

/-- A field is inherited or declared anew. -/
theorem mem_fieldsOf (hDeclared : h.Declared declarations) (id : ClassId) (field : String) :
    field ∈ h.fieldsOf id ↔
      (∃ superclass, h.superclass? id = some superclass ∧ field ∈ h.fieldsOf superclass) ∨
        Declares declarations id field := by
  cases hClass : h.get? id with
  | none =>
      have hSize := Array.getElem?_eq_none_iff.mp hClass
      rw [hDeclared.size] at hSize
      simp [fieldsOf, Hierarchy.superclass?, hClass, Declares, List.getElem?_eq_none hSize]
  | some cls =>
      obtain ⟨declaration, hDeclaration, hMatches⟩ := hDeclared.classes hClass
      rw [fieldsOf_eq hClass, hMatches.fields, mem_addFields, superclass?_eq hClass,
        hMatches.superclass?, tableAbove]
      cases declaration.superclass? <;> simp [Declares, hDeclaration]

/-- A class has the fields that it or a class above it was declared with. -/
theorem mem_fieldsOf_iff (hDeclared : h.Declared declarations) (id : ClassId) (field : String) :
    field ∈ h.fieldsOf id ↔ h.HasField declarations id field := by
  rw [HasField]
  have hLineage := hDeclared.lineage id
  generalize h.chain id = chain at hLineage
  induction hLineage with
  | outermost hNone =>
      rw [hDeclared.mem_fieldsOf, hNone]
      simp
  | inside hSome _ ih =>
      rw [hDeclared.mem_fieldsOf, hSome]
      simp [ih, or_comm]

end Declared

end Hierarchy

end MessageLisp
