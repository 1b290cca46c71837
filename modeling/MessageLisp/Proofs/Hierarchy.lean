import MessageLisp.Hierarchy

/-! Changes of the class hierarchy. Installing methods changes the table of one class and nothing
else, and a new class leaves the others as they are. -/
namespace MessageLisp

namespace Table

variable {α : Type}

theorem mem_of_get? {table : Table α} {name : String} {entry : α} (h : table.get? name = some entry) :
    (name, entry) ∈ table := by
  induction table with
  | nil => cases h
  | cons head rest ih =>
      obtain ⟨other, old⟩ := head
      rw [get?] at h
      by_cases hName : other = name
      · rw [if_pos hName] at h
        cases h
        rw [hName]
        exact List.mem_cons_self
      · rw [if_neg hName] at h
        exact List.mem_cons_of_mem _ (ih h)

theorem get?_append (table table' : Table α) (name : String) :
    get? (table ++ table') name = (table.get? name).or (table'.get? name) := by
  induction table with
  | nil => rfl
  | cons head rest ih =>
      obtain ⟨other, old⟩ := head
      by_cases hName : other = name
      · simp [get?, hName]
      · simp [get?, hName, ih]

/-- Of several entries under one name the last one counts. -/
theorem get?_setAll (table : Table α) (entries : List (String × α)) (name : String) :
    (table.setAll entries).get? name = (get? entries.reverse name).or (table.get? name) := by
  induction entries generalizing table with
  | nil => rfl
  | cons entry entries ih =>
      obtain ⟨first, value⟩ := entry
      have hRest := ih (table.set first value)
      rw [setAll] at hRest ⊢
      rw [List.foldl_cons, hRest, List.reverse_cons, get?_append, Option.or_assoc, get?_set]
      by_cases hName : name = first
      · simp [get?, hName]
      · simp [get?, hName, Ne.symm hName]

end Table

namespace Hierarchy

theorem get?_modifyMethods (h : Hierarchy) (id other : ClassId) (f : Table Method → Table Method) :
    (h.modifyMethods id f).get? other =
      (h.get? other).map fun cls =>
        if other = id then { cls with methods := f cls.methods } else cls := by
  rw [get?, modifyMethods, get?, Array.getElem?_modify]
  by_cases hSame : other = id
  · simp [hSame]
  · have hIndex : id.index ≠ other.index := by
      intro hIndex
      apply hSame
      cases id
      cases other
      simp_all
    simp [hSame, hIndex]

theorem superclass?_modifyMethods (h : Hierarchy) (id other : ClassId)
    (f : Table Method → Table Method) :
    (h.modifyMethods id f).superclass? other = h.superclass? other := by
  rw [superclass?, superclass?, get?_modifyMethods]
  cases h.get? other with
  | none => rfl
  | some cls =>
      simp only [Option.map_some, Option.bind_some]
      split <;> rfl

theorem names_modifyMethods (h : Hierarchy) (id : ClassId) (f : Table Method → Table Method) :
    (h.modifyMethods id f).names = h.names := by
  apply List.ext_getElem?
  intro index
  rw [names, names, modifyMethods, List.getElem?_map, List.getElem?_map, Array.getElem?_toList,
    Array.getElem?_toList, Array.getElem?_modify]
  split
  · rw [Option.map_map]
    rfl
  · rfl

/-- A class finds a method in its own table if it was installed there, or had been there before. -/
theorem localMethod?_installAll (h : Hierarchy) (id other : ClassId)
    (methods : List (String × Method)) (selector : String) :
    (h.installAll id methods).localMethod? other selector =
      if other = id ∧ (h.get? id).isSome then
        (Table.get? methods.reverse selector).or (h.localMethod? other selector)
      else h.localMethod? other selector := by
  rw [localMethod?, installAll, get?_modifyMethods, localMethod?]
  cases hClass : h.get? other with
  | none =>
      simp only [Option.map_none, Option.bind_none, Option.or_none]
      by_cases hSame : other = id
      · subst hSame
        simp [hClass]
      · simp [hSame]
  | some cls =>
      by_cases hSame : other = id
      · subst hSame
        simp [hClass, Table.get?_setAll]
      · simp [hSame]

theorem get?_clearMethods (h : Hierarchy) (id : ClassId) :
    h.clearMethods.get? id = (h.get? id).map ({ · with methods := [] }) :=
  Array.getElem?_map ..

/-- The table of fields of a class. -/
def fieldsOf (h : Hierarchy) (id : ClassId) : List String :=
  ((h.get? id).map Class.fields).getD []

theorem find?_eq_names (h : Hierarchy) (name : String) :
    h.find? name = (h.names.findIdx? (· = name)).map ClassId.mk := by
  rw [find?, names, List.findIdx?_map, ← List.findIdx?_toArray, Array.toArray_toList]
  rfl

theorem find?_eq_none_iff {h : Hierarchy} {name : String} : h.find? name = none ↔ name ∉ h.names := by
  simp only [find?, Option.map_eq_none_iff, Array.findIdx?_eq_none_iff, decide_eq_false_iff_not,
    names, List.mem_map, Array.mem_toList_iff, not_exists, not_and]

/-- What a definition that succeeds does. -/
theorem define_eq_ok_iff {h h' : Hierarchy} {name : String} {superclass? : Option ClassId}
    {fields : List String} {id : ClassId} :
    h.define name superclass? fields = .ok (id, h') ↔
      name ∉ h.names ∧ id = ⟨h.classes.size⟩ ∧
        h' = ⟨h.classes.push ⟨name, some (superclass?.getD BuiltinClass.object.id), [],
          addFields (h.fieldsOf (superclass?.getD BuiltinClass.object.id)) fields⟩⟩ := by
  rw [define, ← find?_eq_none_iff]
  cases h.find? name with
  | some other => simp
  | none =>
      simp only [Option.isSome_none, Bool.false_eq_true, if_false, Except.ok.injEq, Prod.mk.injEq,
        true_and]
      exact and_congr eq_comm eq_comm

theorem get?_push (h : Hierarchy) (cls : Class) (id : ClassId) :
    (Hierarchy.mk (h.classes.push cls)).get? id =
      if id.index = h.classes.size then some cls else h.get? id :=
  Array.getElem?_push ..

theorem index_lt_of_get? {h : Hierarchy} {id : ClassId} {cls : Class} (hClass : h.get? id = some cls) :
    id.index < h.classes.size :=
  (Array.getElem?_eq_some_iff.mp hClass).1

theorem get?_of_lt {h : Hierarchy} {id : ClassId} (hIndex : id.index < h.classes.size) :
    ∃ cls, h.get? id = some cls :=
  ⟨_, Array.getElem?_eq_getElem hIndex⟩

end Hierarchy

end MessageLisp
