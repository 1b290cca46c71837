/-! Tables: association lists from names to entries in which every name occurs at most once. A new
name goes to the end and a replaced entry keeps its place, so that the names of a table are in the
order in which they were first set. -/
namespace MessageLisp

abbrev Table (α : Type) := List (String × α)

namespace Table

variable {α : Type}

/-- The entry under a name. -/
def get? : Table α → String → Option α
  | [], _ => none
  | (other, entry) :: rest, name => if other = name then some entry else get? rest name

/-- The names, in order of their first appearance. -/
def names (table : Table α) : List String :=
  table.map Prod.fst

def contains (table : Table α) (name : String) : Bool :=
  (table.get? name).isSome

/-- Replaces the entry under a name, or adds one at the end. -/
def set (table : Table α) (name : String) (entry : α) : Table α :=
  match table with
  | [] => [(name, entry)]
  | (other, old) :: rest =>
    if other = name then (name, entry) :: rest else (other, old) :: set rest name entry

/-- Drops the entry under a name. -/
def erase (table : Table α) (name : String) : Table α :=
  table.filter fun (other, _) => other ≠ name

/-- Sets several entries, one after the other. -/
def setAll (table : Table α) (entries : List (String × α)) : Table α :=
  entries.foldl (fun table (name, entry) => table.set name entry) table

theorem get?_set (table : Table α) (name : String) (entry : α) (other : String) :
    (table.set name entry).get? other = if other = name then some entry else table.get? other := by
  induction table with
  | nil => grind [set, get?]
  | cons head rest ih => grind [set, get?]

theorem get?_erase (table : Table α) (name other : String) :
    (table.erase name).get? other = if other = name then none else table.get? other := by
  induction table with
  | nil => simp [erase, get?]
  | cons head rest ih =>
    obtain ⟨first, old⟩ := head
    by_cases hFirst : first = name
    · simp only [erase, hFirst, ne_eq, not_true_eq_false, decide_false, List.filter_cons_of_neg,
        Bool.false_eq_true, not_false_eq_true]
      grind [erase, get?]
    · simp only [erase, hFirst, ne_eq, not_false_eq_true, decide_true, List.filter_cons_of_pos]
      grind [erase, get?]

theorem names_set (table : Table α) (name : String) (entry : α) :
    (table.set name entry).names =
      if name ∈ table.names then table.names else table.names ++ [name] := by
  induction table with
  | nil => simp [set, names]
  | cons head rest ih =>
    obtain ⟨first, old⟩ := head
    by_cases hFirst : first = name
    · simp [set, names, hFirst]
    · simp only [set, hFirst, if_false, names, List.map_cons, List.mem_cons] at ih ⊢
      grind

end Table

end MessageLisp
