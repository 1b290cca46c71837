import Mathlib
import MessageLisp.Proofs.Environment
import MessageLisp.Proofs.Lineage
import MessageLisp.Value

/-! Assignment in nested scopes. Scopes share the scopes around them, so that a change made through
one of them can be seen through others. An assignment changes the one binding that a lookup in the
same scope reads, and every scope sees the change that has no nearer binding of the name. -/
namespace MessageLisp

namespace Environment

variable {α : Type}

/-- The environments that come about by making scopes and changing their bindings. -/
inductive Reachable : Environment α → Prop where
  | initial : Reachable initial
  | root {env : Environment α} (h : Reachable env) : Reachable (env.push none).2
  | child {env : Environment α} {scope : ScopeId} (h : Reachable env)
      (hScope : scope.index < env.frames.size) : Reachable (env.push (some scope)).2
  | define {env : Environment α} (h : Reachable env) (scope : ScopeId) (name : String) (value : α) :
      Reachable (env.define scope name value)
  | assign {env : Environment α} (h : Reachable env) (scope : ScopeId) (name : String) (value : α) :
      Reachable (env.assign scope name value)
  | remove {env : Environment α} (h : Reachable env) (scope : ScopeId) (name : String) :
      Reachable (env.remove scope name)
  | clear {env : Environment α} (h : Reachable env) (scope : ScopeId) : Reachable (env.clear scope)

/-- Every scope lies inside one that was made before it. -/
def Nested (env : Environment α) : Prop :=
  ∀ scope parent, env.parent? scope = some parent → parent.index < scope.index

/-- The target lies on the way out of the scope, and nothing nearer binds the name. -/
def Sees (env : Environment α) (name : String) (scope target : ScopeId) : Prop :=
  ReachesFirst (env.getLocal? · name) (env.chain scope) target

/-- The target is the nearest scope that binds the name. -/
def Resolves (env : Environment α) (name : String) (scope target : ScopeId) : Prop :=
  env.Sees name scope target ∧ (env.getLocal? target name).isSome

/-- Where an assignment goes: to the nearest scope that binds the name, and to the scope itself if
there is none. -/
def AssignsTo (env : Environment α) (scope : ScopeId) (name : String) (target : ScopeId) : Prop :=
  env.Resolves name scope target ∨
    target = scope ∧ ∀ other ∈ env.chain scope, env.getLocal? other name = none

/-- The second environment is the first one, but for what one name is bound to in one scope. -/
structure Rebinds (before : Environment α) (scope : ScopeId) (name : String) (value? : Option α)
    (after : Environment α) : Prop where
  size : after.frames.size = before.frames.size
  parent? (other : ScopeId) : after.parent? other = before.parent? other
  getLocal? (other : ScopeId) (name' : String) :
    after.getLocal? other name' =
      if other = scope ∧ name' = name then value? else before.getLocal? other name'

/-! ### Scopes around scopes -/

theorem parent?_modifyBindings (env : Environment α) (scope other : ScopeId)
    (f : Table α → Table α) : (env.modifyBindings scope f).parent? other = env.parent? other := by
  rw [parent?, modifyBindings, Array.getElem?_modify, parent?]
  split
  · cases env.frames[other.index]? <;> rfl
  · rfl

theorem parent?_push (env : Environment α) (around : Option ScopeId) (other : ScopeId) :
    (env.push around).2.parent? other =
      if other.index = env.frames.size then around else env.parent? other := by
  rw [parent?, push, Array.getElem?_push, parent?]
  split
  · rfl
  · rfl

theorem Nested.modifyBindings {env : Environment α} (h : env.Nested) (scope : ScopeId)
    (f : Table α → Table α) : (env.modifyBindings scope f).Nested := by
  intro other parent hParent
  rw [parent?_modifyBindings] at hParent
  exact h other parent hParent

theorem Nested.push {env : Environment α} (h : env.Nested) {around : Option ScopeId}
    (hAround : ∀ parent ∈ around, parent.index < env.frames.size) : (env.push around).2.Nested := by
  intro other parent hParent
  rw [parent?_push] at hParent
  split at hParent
  · rename_i hNew
    rw [hNew]
    exact hAround parent hParent
  · exact h other parent hParent

theorem Reachable.nested {env : Environment α} (h : env.Reachable) : env.Nested := by
  induction h with
  | initial =>
      intro scope parent hParent
      obtain ⟨index⟩ := scope
      cases index <;> cases hParent
  | root _ ih => exact ih.push nofun
  | child _ hScope ih =>
      apply ih.push
      rintro parent ⟨⟩
      exact hScope
  | define _ _ _ _ ih | assign _ _ _ _ ih | remove _ _ _ ih | clear _ _ ih =>
      exact ih.modifyBindings _ _

/-- The chain of a scope goes all the way out. -/
theorem Nested.lineage {env : Environment α} (h : env.Nested) (scope : ScopeId) :
    Lineage env.parent? scope (env.chain scope) := by
  apply Lineage.of_index ScopeId.index
  · intro scope hParent
    rw [chain, hParent]
  · intro scope parent hParent
    have hBelow := h scope parent hParent
    refine ⟨hBelow, ?_⟩
    rw [chain, hParent]
    exact congrArg _ (if_pos hBelow)

theorem mem_chain_iff {env : Environment α} {scope around : ScopeId} :
    around ∈ env.chain scope ↔ around = scope ∨ ∃ parent, env.parent? scope = some parent ∧
      parent.index < scope.index ∧ around ∈ env.chain parent := by
  rw [chain, List.mem_cons]
  cases env.parent? scope with
  | none => simp
  | some parent =>
      by_cases hBelow : parent.index < scope.index
      · simp [hBelow]
      · simp [hBelow]

theorem mem_chain_self (env : Environment α) (scope : ScopeId) : scope ∈ env.chain scope :=
  mem_chain_iff.mpr (.inl rfl)

theorem index_le_of_mem_chain {env : Environment α} {scope around : ScopeId}
    (h : around ∈ env.chain scope) : around.index ≤ scope.index := by
  induction hIndex : scope.index using Nat.strongRecOn generalizing scope with
  | ind index ih =>
      rcases mem_chain_iff.mp h with rfl | ⟨parent, -, hBelow, hMem⟩
      · exact Nat.le_of_eq hIndex
      · have hParent := ih parent.index (hIndex ▸ hBelow) hMem rfl
        omega

/-- What lies around a scope that lies around another one lies around that, too. -/
theorem mem_chain_trans {env : Environment α} {scope around outer : ScopeId}
    (h : around ∈ env.chain scope) (h' : outer ∈ env.chain around) : outer ∈ env.chain scope := by
  induction hIndex : scope.index using Nat.strongRecOn generalizing scope with
  | ind index ih =>
      rcases mem_chain_iff.mp h with rfl | ⟨parent, hParent, hBelow, hMem⟩
      · exact h'
      · have hOuter := ih parent.index (hIndex ▸ hBelow) hMem rfl
        exact mem_chain_iff.mpr (.inr ⟨parent, hParent, hBelow, hOuter⟩)

/-! ### Lookup -/

theorem lookup?_eq_findSome? (env : Environment α) (scope : ScopeId) (name : String) :
    env.lookup? scope name = (env.chain scope).findSome? (env.getLocal? · name) := by
  rw [lookup?, binder?]
  induction env.chain scope with
  | nil => rfl
  | cons first rest ih =>
      have hContains : (env.bindings first).contains name = (env.getLocal? first name).isSome := rfl
      rw [List.find?_cons, List.findSome?_cons, hContains]
      cases hLocal : env.getLocal? first name with
      | some value => exact hLocal
      | none => exact ih

/-- A lookup reads the nearest binding. -/
theorem lookup?_eq_some_iff {env : Environment α} {scope : ScopeId} {name : String} {value : α} :
    env.lookup? scope name = some value ↔
      ∃ target, env.Resolves name scope target ∧ env.getLocal? target name = some value := by
  rw [lookup?_eq_findSome?, findSome?_eq_some_iff]
  constructor
  · rintro ⟨target, hSees, hLocal⟩
    exact ⟨target, ⟨hSees, by rw [hLocal, Option.isSome_some]⟩, hLocal⟩
  · rintro ⟨target, hResolves, hLocal⟩
    exact ⟨target, hResolves.1, hLocal⟩

/-- A scope is seen from everywhere inside it, if nothing but the scope itself binds the name there. -/
theorem sees_of_mem_chain {env : Environment α} {name : String} {scope target : ScopeId}
    (hInside : target ∈ env.chain scope)
    (hNone : ∀ other, target ∈ env.chain other → other ≠ target → env.getLocal? other name = none) :
    env.Sees name scope target := by
  induction hIndex : scope.index using Nat.strongRecOn generalizing scope with
  | ind index ih =>
      rw [Sees, chain, reachesFirst_cons]
      by_cases hHere : scope = target
      · exact .inl hHere
      · rcases mem_chain_iff.mp hInside with hSame | ⟨parent, hParent, hBelow, hMem⟩
        · exact absurd hSame.symm hHere
        · refine .inr ⟨hNone scope hInside hHere, ?_⟩
          simp only [hParent, if_pos hBelow]
          exact ih parent.index (hIndex ▸ hBelow) hMem rfl

theorem resolves_of_binder? {env : Environment α} {scope target : ScopeId} {name : String}
    (h : env.binder? scope name = some target) : env.Resolves name scope target :=
  reachesFirst_of_find? h

/-- An assignment is a definition in the scope that it goes to. -/
theorem exists_assignsTo (env : Environment α) (scope : ScopeId) (name : String) :
    ∃ target, env.AssignsTo scope name target ∧
      ∀ value, env.assign scope name value = env.define target name value := by
  cases hBinder : env.binder? scope name with
  | some target =>
      refine ⟨target, .inl (resolves_of_binder? hBinder), fun value => ?_⟩
      rw [assign, hBinder, Option.getD_some]
  | none =>
      refine ⟨scope, .inr ⟨rfl, ?_⟩, fun value => ?_⟩
      · intro other hMem
        have hNot := List.find?_eq_none.mp hBinder other hMem
        exact Option.not_isSome_iff_eq_none.mp hNot
      · rw [assign, hBinder, Option.getD_none]

/-! ### Single bindings -/

theorem index_lt_of_getLocal? {env : Environment α} {scope : ScopeId} {name : String}
    (h : (env.getLocal? scope name).isSome) : scope.index < env.frames.size := by
  rcases Nat.lt_or_ge scope.index env.frames.size with hLess | hBeyond
  · exact hLess
  · rw [getLocal?, bindings_of_le hBeyond] at h
    cases h

theorem rebinds_define {env : Environment α} {scope : ScopeId} (hScope : scope.index < env.frames.size)
    (name : String) (value : α) : env.Rebinds scope name (some value) (env.define scope name value) where
  size := Array.size_modify ..
  parent? other := env.parent?_modifyBindings scope other _
  getLocal? other name' := by simp only [getLocal?_define, hScope, true_and]

theorem rebinds_remove (env : Environment α) (scope : ScopeId) (name : String) :
    env.Rebinds scope name none (env.remove scope name) where
  size := Array.size_modify ..
  parent? other := env.parent?_modifyBindings scope other _
  getLocal? other name' := env.getLocal?_remove scope other name name'

namespace Rebinds

variable {before after : Environment α} {scope : ScopeId} {name : String} {value? : Option α}

theorem chain_eq (h : before.Rebinds scope name value? after) (other : ScopeId) :
    after.chain other = before.chain other := by
  induction hIndex : other.index using Nat.strongRecOn generalizing other with
  | ind index ih =>
      rw [chain, chain, h.parent? other]
      cases before.parent? other with
      | none => rfl
      | some parent =>
          by_cases hBelow : parent.index < other.index
          · simp only [if_pos hBelow, ih parent.index (hIndex ▸ hBelow) parent rfl]
          · simp only [if_neg hBelow]

/-- The binding that changes is not in its own way. -/
theorem sees_iff (h : before.Rebinds scope name value? after) (other : ScopeId) :
    after.Sees name other scope ↔ before.Sees name other scope := by
  rw [Sees, Sees, h.chain_eq]
  apply ReachesFirst.congr
  intro elsewhere hElsewhere
  rw [h.getLocal?, if_neg fun hHere => hElsewhere hHere.1]

theorem lookup?_of_sees {value : α} (h : before.Rebinds scope name (some value) after)
    {other : ScopeId} (hSees : after.Sees name other scope) :
    after.lookup? other name = some value := by
  rw [lookup?_eq_findSome?]
  exact hSees.findSome? (by rw [h.getLocal?, if_pos ⟨rfl, rfl⟩])

/-- All other names, and all scopes that do not get as far, are not affected. -/
theorem lookup?_eq (h : before.Rebinds scope name value? after) {other : ScopeId} {name' : String}
    (hHidden : name' = name → ¬before.Sees name other scope) :
    after.lookup? other name' = before.lookup? other name' := by
  rw [lookup?_eq_findSome?, lookup?_eq_findSome?, h.chain_eq]
  by_cases hName : name' = name
  · subst hName
    apply findSome?_congr (hHidden rfl)
    intro elsewhere hElsewhere
    rw [h.getLocal?, if_neg fun hHere => hElsewhere hHere.1]
  · have hSame : (after.getLocal? · name') = (before.getLocal? · name') := by
      funext elsewhere
      rw [h.getLocal?, if_neg fun hHere => hName hHere.2]
    rw [hSame]

/-- A lookup has the new value if it resolves to the scope of the new binding now. -/
theorem lookup?_of_some {value : α} (h : before.Rebinds scope name (some value) after)
    (other : ScopeId) (name' : String) :
    (name' = name ∧ after.Resolves name other scope → after.lookup? other name' = some value) ∧
      (¬(name' = name ∧ after.Resolves name other scope) →
        after.lookup? other name' = before.lookup? other name') := by
  constructor
  · rintro ⟨rfl, hResolves⟩
    exact h.lookup?_of_sees hResolves.1
  · intro hElsewhere
    apply h.lookup?_eq
    rintro hName hSees
    have hBinds : (after.getLocal? scope name).isSome := by
      rw [h.getLocal?, if_pos ⟨rfl, rfl⟩, Option.isSome_some]
    exact hElsewhere ⟨hName, (h.sees_iff other).mpr hSees, hBinds⟩

theorem sees_of_ne (h : before.Rebinds scope name value? after) {other : ScopeId} {name' : String}
    (hChanged : after.lookup? other name' ≠ before.lookup? other name') :
    name' = name ∧ before.Sees name other scope := by
  apply Classical.byContradiction
  intro hNot
  exact hChanged (h.lookup?_eq fun hName hSees => hNot ⟨hName, hSees⟩)

end Rebinds

/-! ### Assignments -/

/-- In every environment a lookup reads the nearest binding of a name, and an assignment writes it.
The assignment changes this one binding, or makes one in the scope itself; all scopes that resolve the
name to it now see the new value, and no other scope and no other name are affected. Definitions and
removals change one binding of the scope itself, seen by the scopes that find nothing nearer. The way
out of a scope ends at a scope with none around it. -/
theorem assign_changes_binding_read {env : Environment α} (hEnv : env.Reachable) {scope : ScopeId}
    (hScope : scope.index < env.frames.size) (name : String) (value : α) :
    (∀ other name' value', env.lookup? other name' = some value' ↔
      ∃ target, env.Resolves name' other target ∧ env.getLocal? target name' = some value') ∧
    (∃ target, env.AssignsTo scope name target ∧
      env.Rebinds target name (some value) (env.assign scope name value) ∧
      ∀ other name',
        (name' = name ∧ (env.assign scope name value).Resolves name other target →
          (env.assign scope name value).lookup? other name' = some value) ∧
        (¬(name' = name ∧ (env.assign scope name value).Resolves name other target) →
          (env.assign scope name value).lookup? other name' = env.lookup? other name')) ∧
    (env.Rebinds scope name (some value) (env.define scope name value) ∧
      ∀ other name',
        (env.define scope name value).lookup? other name' ≠ env.lookup? other name' →
          name' = name ∧ env.Sees name other scope) ∧
    (env.Rebinds scope name none (env.remove scope name) ∧
      ∀ other name', (env.remove scope name).lookup? other name' ≠ env.lookup? other name' →
        name' = name ∧ env.Sees name other scope) ∧
    ∀ other, Lineage env.parent? other (env.chain other) := by
  have hNested := hEnv.nested
  obtain ⟨target, hTarget, hAssign⟩ := env.exists_assignsTo scope name
  have hExists : target.index < env.frames.size := by
    rcases hTarget with hResolves | ⟨rfl, -⟩
    · exact index_lt_of_getLocal? hResolves.2
    · exact hScope
  have hDefine := rebinds_define hScope name value
  have hRemove := env.rebinds_remove scope name
  have hWritten : env.Rebinds target name (some value) (env.assign scope name value) := by
    rw [hAssign]
    exact rebinds_define hExists name value
  exact ⟨fun _ _ _ => lookup?_eq_some_iff,
    ⟨target, hTarget, hWritten, hWritten.lookup?_of_some⟩,
    ⟨hDefine, fun _ _ => hDefine.sees_of_ne⟩, ⟨hRemove, fun _ _ => hRemove.sees_of_ne⟩,
    hNested.lineage⟩

/-- A root with a binding, and two scopes inside it of which the second hides the binding. -/
def shadowed : Environment Value :=
  let outer := initial.define root "x" (.int 1)
  ((outer.push (some root)).2.push (some root)).2.define ⟨2⟩ "x" (.int 2)

theorem shadowed_reachable : shadowed.Reachable := by
  apply Reachable.define
  apply Reachable.child _ (by decide)
  apply Reachable.child _ (by decide)
  exact Reachable.define .initial root "x" (Value.int 1)

/-- An assignment in the first inner scope is seen in the root, and not in the second inner scope. -/
theorem assign_changes_binding_read_shadowed :
    shadowed.Reachable ∧ (⟨1⟩ : ScopeId).index < shadowed.frames.size ∧
      (shadowed.assign ⟨1⟩ "x" (.int 3)).lookup? root "x" = some (.int 3) ∧
      (shadowed.assign ⟨1⟩ "x" (.int 3)).lookup? ⟨2⟩ "x" = shadowed.lookup? ⟨2⟩ "x" := by
  have hScope : (⟨1⟩ : ScopeId).index < shadowed.frames.size := by decide
  obtain ⟨-, ⟨target, hTarget, hWritten, hLookup⟩, -⟩ :=
    assign_changes_binding_read shadowed_reachable hScope "x" (.int 3)
  have hRoot : target = root := by
    have hChain : shadowed.chain ⟨1⟩ = [⟨1⟩, root] := by cbv
    rcases hTarget with ⟨hSees, hBinds⟩ | ⟨-, hNone⟩
    · have hMem := hSees.1
      rw [hChain, List.mem_cons, List.mem_singleton] at hMem
      rcases hMem with rfl | hRoot
      · cases hBinds
      · exact hRoot
    · cases hNone root (by rw [hChain]; decide)
  subst hRoot
  refine ⟨shadowed_reachable, hScope, (hLookup root "x").1 ⟨rfl, ?_, ?_⟩, (hLookup ⟨2⟩ "x").2 ?_⟩
  · have hChain : shadowed.chain root = [root] := by cbv
    rw [hWritten.sees_iff, Sees, hChain]
    exact reachesFirst_cons.mpr (.inl rfl)
  · rw [hWritten.getLocal?, if_pos ⟨rfl, rfl⟩, Option.isSome_some]
  · rintro ⟨-, hSees, -⟩
    have hChain : shadowed.chain ⟨2⟩ = [⟨2⟩, root] := by cbv
    rw [hWritten.sees_iff, Sees, hChain] at hSees
    rcases reachesFirst_cons.mp hSees with hHere | ⟨hNone, -⟩
    · cases hHere
    · cases hNone

end Environment

end MessageLisp
