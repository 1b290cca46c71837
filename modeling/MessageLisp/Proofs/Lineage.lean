/-! Chains of things around or above one another. A scope lies inside another one and a class below
another one; what a name or a selector means is decided by the nearest of them that has an entry for
it. A change of a single entry is seen from everywhere that nothing nearer hides it, and from nowhere
else. -/
namespace MessageLisp

variable {ι β : Type}

/-- The list leads from one thing to the next around it, until there is none around the last. -/
inductive Lineage (parent? : ι → Option ι) : ι → List ι → Prop where
  | outermost {a : ι} (hParent : parent? a = none) : Lineage parent? a [a]
  | inside {a parent : ι} {rest : List ι} (hParent : parent? a = some parent)
      (hRest : Lineage parent? parent rest) : Lineage parent? a (a :: rest)

/-- The list comes to the target before it comes to anything else that has an entry. -/
def ReachesFirst [DecidableEq ι] (value? : ι → Option β) (chain : List ι) (target : ι) : Prop :=
  target ∈ chain ∧ ∀ a ∈ chain.takeWhile (· ≠ target), value? a = none

namespace Lineage

variable {parent? : ι → Option ι} {a : ι} {chain : List ι}

/-- A list that goes on as long as there is something around, and gets to smaller numbers only. -/
theorem of_index {chain : ι → List ι} (index : ι → Nat)
    (hOutermost : ∀ a, parent? a = none → chain a = [a])
    (hInside : ∀ a parent, parent? a = some parent →
      index parent < index a ∧ chain a = a :: chain parent) (a : ι) :
    Lineage parent? a (chain a) := by
  induction hIndex : index a using Nat.strongRecOn generalizing a with
  | ind n ih =>
      cases hParent : parent? a with
      | none =>
          rw [hOutermost a hParent]
          exact .outermost hParent
      | some parent =>
          obtain ⟨hBelow, hChain⟩ := hInside a parent hParent
          rw [hChain]
          exact .inside hParent (ih (index parent) (hIndex ▸ hBelow) parent rfl)

/-- What goes over from each thing to the one around it holds all along. -/
theorem forall_mem {P : ι → Prop} (h : Lineage parent? a chain) (hStart : P a)
    (hStep : ∀ b parent, parent? b = some parent → P b → P parent) : ∀ b ∈ chain, P b := by
  induction h with
  | outermost _ => exact fun b hMem => List.mem_singleton.mp hMem ▸ hStart
  | inside hParent _ ih =>
      intro b hMem
      rcases List.mem_cons.mp hMem with rfl | hRest
      · exact hStart
      · exact ih (hStep _ _ hParent hStart) b hRest

theorem exists_last (h : Lineage parent? a chain) :
    ∃ last, chain.getLast? = some last ∧ parent? last = none := by
  induction h with
  | outermost hParent => exact ⟨_, rfl, hParent⟩
  | @inside a parent rest _ _ ih =>
      obtain ⟨last, hLast, hNone⟩ := ih
      exact ⟨last, by rw [List.getLast?_cons, hLast, Option.getD_some], hNone⟩

end Lineage

/-! ### The nearest entry -/

section Entries

variable [DecidableEq ι] {value? value?' : ι → Option β} {chain : List ι} {target : ι}

theorem reachesFirst_nil : ¬ReachesFirst value? [] target :=
  fun h => List.not_mem_nil h.1

theorem reachesFirst_cons {a : ι} :
    ReachesFirst value? (a :: chain) target ↔
      a = target ∨ value? a = none ∧ ReachesFirst value? chain target := by
  by_cases hHere : a = target
  · simp [ReachesFirst, hHere]
  · simp [ReachesFirst, hHere, Ne.symm hHere, and_left_comm]

/-- Whether something is reached first does not depend on its own entry. -/
theorem ReachesFirst.congr (hElsewhere : ∀ a, a ≠ target → value?' a = value? a) :
    ReachesFirst value?' chain target ↔ ReachesFirst value? chain target := by
  induction chain with
  | nil => exact iff_of_false reachesFirst_nil reachesFirst_nil
  | cons a chain ih =>
      rw [reachesFirst_cons, reachesFirst_cons, ih]
      by_cases hHere : a = target
      · simp [hHere]
      · rw [hElsewhere a hHere]

/-- The entry of what is reached first is the nearest one. -/
theorem ReachesFirst.findSome? {entry : β} (h : ReachesFirst value? chain target)
    (hEntry : value? target = some entry) : chain.findSome? value? = some entry := by
  induction chain with
  | nil => exact absurd h reachesFirst_nil
  | cons a chain ih =>
      rcases reachesFirst_cons.mp h with rfl | ⟨hNone, hRest⟩
      · rw [List.findSome?_cons, hEntry]
      · rw [List.findSome?_cons, hNone]
        exact ih hRest

/-- What is not reached first can change its entry without anyone noticing. -/
theorem findSome?_congr (h : ¬ReachesFirst value? chain target)
    (hElsewhere : ∀ a, a ≠ target → value?' a = value? a) :
    chain.findSome? value?' = chain.findSome? value? := by
  induction chain with
  | nil => rfl
  | cons a chain ih =>
      rw [reachesFirst_cons, not_or] at h
      obtain ⟨hHere, hRest⟩ := h
      rw [List.findSome?_cons, List.findSome?_cons, hElsewhere a hHere]
      cases hEntry : value? a with
      | some entry => rfl
      | none => exact ih fun hReaches => hRest ⟨hEntry, hReaches⟩

/-- The nearest entry is that of something reached first. -/
theorem findSome?_eq_some_iff {entry : β} :
    chain.findSome? value? = some entry ↔
      ∃ a, ReachesFirst value? chain a ∧ value? a = some entry := by
  constructor
  · intro h
    induction chain with
    | nil => cases h
    | cons a chain ih =>
        rw [List.findSome?_cons] at h
        cases hEntry : value? a with
        | some other =>
            rw [hEntry] at h
            cases h
            exact ⟨a, reachesFirst_cons.mpr (.inl rfl), hEntry⟩
        | none =>
            rw [hEntry] at h
            obtain ⟨b, hReaches, hFound⟩ := ih h
            exact ⟨b, reachesFirst_cons.mpr (.inr ⟨hEntry, hReaches⟩), hFound⟩
  · rintro ⟨a, hReaches, hEntry⟩
    exact hReaches.findSome? hEntry

theorem reachesFirst_of_find? (h : chain.find? (fun a => (value? a).isSome) = some target) :
    ReachesFirst value? chain target ∧ (value? target).isSome := by
  induction chain with
  | nil => cases h
  | cons a chain ih =>
      rw [List.find?_cons] at h
      rw [reachesFirst_cons]
      cases hEntry : value? a with
      | some entry =>
          rw [hEntry] at h
          cases h
          exact ⟨.inl rfl, by rw [hEntry, Option.isSome_some]⟩
      | none =>
          rw [hEntry] at h
          obtain ⟨hReaches, hFound⟩ := ih h
          exact ⟨.inr ⟨rfl, hReaches⟩, hFound⟩

end Entries

end MessageLisp
