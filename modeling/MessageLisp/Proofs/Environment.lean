import MessageLisp.Environment

/-! Lookup in nested scopes. What a name means depends on the scope itself and the scopes around it,
and new scopes do not change what it means in old ones. -/
namespace MessageLisp

namespace Environment

variable {α : Type} {env : Environment α} {scope : ScopeId}

/-- A name means what it is bound to in the scope itself, or else what it means in the scope around
it. -/
theorem lookup?_eq (env : Environment α) (scope : ScopeId) (name : String) :
    env.lookup? scope name = (env.getLocal? scope name).or
      (match env.parent? scope with
      | some parent => if parent.index < scope.index then env.lookup? parent name else none
      | none => none) := by
  rw [lookup?, binder?, chain, List.find?_cons, Table.contains]
  cases hLocal : (env.bindings scope).get? name with
  | some value =>
      rw [getLocal?, hLocal]
      exact hLocal
  | none =>
      rw [getLocal?, hLocal]
      cases env.parent? scope with
      | none => rfl
      | some parent =>
          by_cases hBelow : parent.index < scope.index
          · simp only [if_pos hBelow]
            rfl
          · simp only [if_neg hBelow]
            rfl

theorem frames_push_of_lt (parent : Option ScopeId) (h : scope.index < env.frames.size) :
    (env.push parent).2.frames[scope.index]? = env.frames[scope.index]? := by
  rw [push, Array.getElem?_push, if_neg (by omega)]

/-- A new scope hides nothing from the old ones. -/
theorem lookup?_push_of_lt (parent : Option ScopeId) (h : scope.index < env.frames.size)
    (name : String) : (env.push parent).2.lookup? scope name = env.lookup? scope name := by
  induction hIndex : scope.index using Nat.strongRecOn generalizing scope with
  | ind index ih =>
      have hLocal : (env.push parent).2.getLocal? scope name = env.getLocal? scope name := by
        rw [getLocal?, getLocal?, bindings, bindings, frames_push_of_lt parent h]
      have hParent : (env.push parent).2.parent? scope = env.parent? scope := by
        rw [parent?, parent?, frames_push_of_lt parent h]
      rw [lookup?_eq, lookup?_eq, hLocal, hParent]
      cases env.parent? scope with
      | none => rfl
      | some outer =>
          by_cases hBelow : outer.index < scope.index
          · simp only [if_pos hBelow]
            rw [ih outer.index (hIndex ▸ hBelow) (by omega) rfl]
          · simp only [if_neg hBelow]

/-- A new scope sees what the scope around it sees. -/
theorem lookup?_push_self (h : scope.index < env.frames.size) (name : String) :
    (env.push (some scope)).2.lookup? (env.push (some scope)).1 name = env.lookup? scope name := by
  have hFrame : (env.push (some scope)).2.frames[(env.push (some scope)).1.index]? =
      some ⟨[], some scope⟩ := Array.getElem?_push_size
  rw [lookup?_eq, getLocal?, bindings, parent?, hFrame, ← lookup?_push_of_lt (some scope) h name]
  exact if_pos h

/-! ### Single changes -/

theorem bindings_of_le {other : ScopeId} (h : env.frames.size ≤ other.index) :
    env.bindings other = [] := by
  simp [bindings, h]

theorem bindings_modifyBindings (env : Environment α) (scope other : ScopeId)
    (f : Table α → Table α) :
    (env.modifyBindings scope f).bindings other =
      if other = scope ∧ scope.index < env.frames.size then f (env.bindings other)
      else env.bindings other := by
  by_cases hSame : other = scope
  · subst hSame
    by_cases hExists : other.index < env.frames.size
    · simp [bindings, modifyBindings, Array.getElem_modify, hExists]
    · simp [bindings, modifyBindings, hExists]
  · have hIndex : scope.index ≠ other.index := by
      intro hIndex
      apply hSame
      cases scope
      cases other
      simp_all
    simp [bindings, modifyBindings, Array.getElem?_modify, hSame, hIndex]

/-- A definition changes what one name is bound to in one scope. -/
theorem getLocal?_define (env : Environment α) (scope other : ScopeId) (name name' : String)
    (value : α) :
    (env.define scope name value).getLocal? other name' =
      if other = scope ∧ scope.index < env.frames.size ∧ name' = name then some value
      else env.getLocal? other name' := by
  rw [getLocal?, define, bindings_modifyBindings, getLocal?]
  by_cases hHere : other = scope ∧ scope.index < env.frames.size
  · simp [hHere, Table.get?_set]
  · simp [hHere, ← and_assoc]

theorem getLocal?_remove (env : Environment α) (scope other : ScopeId) (name name' : String) :
    (env.remove scope name).getLocal? other name' =
      if other = scope ∧ name' = name then none else env.getLocal? other name' := by
  rw [getLocal?, remove, bindings_modifyBindings, getLocal?]
  by_cases hExists : scope.index < env.frames.size
  · by_cases hSame : other = scope
    · simp [hExists, hSame, Table.get?_erase]
    · simp [hSame]
  · by_cases hSame : other = scope
    · simp [hExists, hSame, bindings_of_le (Nat.le_of_not_lt hExists), Table.get?]
    · simp [hSame]

/-- The environment with one more scope. -/
def pushFrame (env : Environment α) (frame : Frame α) : Environment α :=
  ⟨env.frames.push frame⟩

theorem getLocal?_pushFrame (env : Environment α) (frame : Frame α) (other : ScopeId)
    (name : String) :
    (env.pushFrame frame).getLocal? other name =
      if other.index = env.frames.size then frame.bindings.get? name
      else env.getLocal? other name := by
  by_cases hNew : other.index = env.frames.size
  · simp [getLocal?, bindings, pushFrame, hNew]
  · simp [getLocal?, bindings, pushFrame, Array.getElem?_push, hNew]

theorem define_pushFrame (env : Environment α) (frame : Frame α) (name : String) (value : α) :
    (env.pushFrame frame).define ⟨env.frames.size⟩ name value =
      env.pushFrame { frame with bindings := frame.bindings.set name value } := by
  simp only [define, modifyBindings, pushFrame, mk.injEq]
  apply Array.ext_getElem?
  intro index
  rw [Array.getElem?_modify, Array.getElem?_push, Array.getElem?_push]
  by_cases hNew : index = env.frames.size
  · simp [hNew]
  · simp [hNew, Ne.symm hNew]

/-- Definitions in the newest scope. -/
theorem defineAll_pushFrame (env : Environment α) (frame : Frame α) (entries : List (String × α)) :
    (env.pushFrame frame).defineAll ⟨env.frames.size⟩ entries =
      env.pushFrame { frame with bindings := frame.bindings.setAll entries } := by
  induction entries generalizing frame with
  | nil => rfl
  | cons entry entries ih =>
      obtain ⟨name, value⟩ := entry
      have hFirst := define_pushFrame env frame name value
      simp only [defineAll, List.foldl_cons, hFirst] at ih ⊢
      exact ih _

end Environment

end MessageLisp
