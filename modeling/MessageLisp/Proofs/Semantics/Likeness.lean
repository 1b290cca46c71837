import Mathlib.Data.List.Forall2
import Mathlib.Data.Option.Basic
import MessageLisp.Proofs.Source.Places
import MessageLisp.Session

/-! Likeness of sessions. Two sessions are alike if they agree on everything except what a likeness
leaves open: the expressions inside values, the bodies of closures, the programs these were read from
and the limit on the depth of applications. Operations on values, tables and scopes do not tell alike
ones apart. -/
namespace MessageLisp

open Native (NativeType)
open Source (Expr)

/-- How deep a session is in applications, and how deep it may get. -/
structure Level where
  limit : Nat
  depth : Nat

def Session.level (session : Session) : Level :=
  ⟨session.maxDepth, session.depth⟩

/-- Which levels count as alike. Alike levels are equally deep. One application deeper they are alike
again, if the limits allow it. -/
structure LevelLikeness where
  alike : Level → Level → Prop
  depth_eq {level level' : Level} : alike level level' → level.depth = level'.depth
  deeper {level level' : Level} : alike level level' → level.depth < level.limit →
    level'.depth < level'.limit →
      alike ⟨level.limit, level.depth + 1⟩ ⟨level'.limit, level'.depth + 1⟩

/-- Only equal levels are alike. -/
def LevelLikeness.equality : LevelLikeness where
  alike := Eq
  depth_eq := congrArg Level.depth
  deeper h _ _ := by rw [h]

/-- Alike levels have the same limit. -/
def LevelLikeness.Fixed (levels : LevelLikeness) : Prop :=
  ∀ ⦃level level' : Level⦄, levels.alike level level' → level.limit = level'.limit

theorem LevelLikeness.equality_fixed : LevelLikeness.equality.Fixed :=
  fun _ _ => congrArg Level.limit

/-- Which expressions, programs and levels count as alike. -/
structure Likeness where
  /-- Expressions as data. -/
  expr : Expr → Expr → Prop
  /-- Expressions to be evaluated, each as part of the program that goes with it. -/
  code : Option SourceText → Option SourceText → Expr → Expr → Prop
  /-- Current programs. -/
  source : Option SourceText → Option SourceText → Prop
  expr_of_code {program program' : Option SourceText} {e e' : Expr} :
    code program program' e e' → expr e e'
  bare_eq {e e' : Expr} : expr e e' → e.bare = e'.bare
  /-- The items of a list are evaluated as part of the same program. -/
  code_items {program program' : Option SourceText} {span span' : Source.Span}
    {items items' : List Expr} :
    code program program' (.list span items) (.list span' items') →
      List.Forall₂ (code program program') items items'
  levels : LevelLikeness

/-- Values that differ in the expressions inside them only. -/
inductive Value.Alike (L : Likeness) : Value → Value → Prop where
  | null : Alike L .null .null
  | bool (value : Bool) : Alike L (.bool value) (.bool value)
  | int (value : Int64) : Alike L (.int value) (.int value)
  | float (value : Float) : Alike L (.float value) (.float value)
  | string (text : String) : Alike L (.string text) (.string text)
  | list {items items' : List Value} (hItems : List.Forall₂ (Alike L) items items') :
      Alike L (.list items) (.list items')
  | expr {tree tree' : Expr} (hTree : L.expr tree tree') : Alike L (.expr tree) (.expr tree')
  | function (target : FunctionRef) : Alike L (.function target) (.function target)
  | classRef (id : ClassId) : Alike L (.classRef id) (.classRef id)
  | object (id : InstanceId) : Alike L (.object id) (.object id)
  | pointer (address : UInt64) : Alike L (.pointer address) (.pointer address)

/-- Tables with the same names and related entries. -/
def Table.Alike {α : Type} (R : α → α → Prop) (table table' : Table α) : Prop :=
  List.Forall₂ (fun entry entry' => entry.1 = entry'.1 ∧ R entry.2 entry'.2) table table'

/-- Arrays that are related place by place. -/
def ArrayAlike {α : Type} (R : α → α → Prop) (array array' : Array α) : Prop :=
  ∀ index : Nat, Option.Rel R array[index]? array'[index]?

structure Frame.Alike (L : Likeness) (frame frame' : Frame Value) : Prop where
  bindings : Table.Alike (Value.Alike L) frame.bindings frame'.bindings
  parent : frame.parent = frame'.parent

def Environment.Alike (L : Likeness) (env env' : Environment Value) : Prop :=
  ArrayAlike (Frame.Alike L) env.frames env'.frames

structure Closure.Alike (L : Likeness) (closure closure' : Closure) : Prop where
  name : closure.name? = closure'.name?
  owner : closure.owner? = closure'.owner?
  prototype : closure.prototype = closure'.prototype
  body : List.Forall₂ (L.code closure.source? closure'.source?) closure.body closure'.body
  scope : closure.scope = closure'.scope
  source : L.source closure.source? closure'.source?
  signature : closure.signature? = closure'.signature?

structure Instance.Alike (L : Likeness) (object object' : Instance) : Prop where
  cls : object.cls = object'.cls
  slots : ArrayAlike (Value.Alike L) object.slots object'.slots

structure FaultSite.Alike (L : Likeness) (site site' : FaultSite) : Prop where
  expr : L.code site.source? site'.source? site.expr site'.expr
  source : L.source site.source? site'.source?

/-- Sessions that agree on all that the likeness does not leave open. -/
structure Session.Alike (L : Likeness) (session session' : Session) : Prop where
  environment : session.environment.Alike L session'.environment
  hierarchy : session.hierarchy = session'.hierarchy
  instances : ArrayAlike (Instance.Alike L) session.instances session'.instances
  closures : ArrayAlike (Closure.Alike L) session.closures session'.closures
  hosts : session.hosts = session'.hosts
  level : L.levels.alike session.level session'.level
  source : L.source session.source? session'.source?
  faultSite : Option.Rel (FaultSite.Alike L) session.faultSite? session'.faultSite?
  output : session.output = session'.output
  lastError : session.lastError? = session'.lastError?
  isOpen : session.isOpen = session'.isOpen

variable {L : Likeness}

/-! ### Expressions -/

namespace Likeness

variable {expr expr' : Expr}

theorem symbol?_eq (h : L.expr expr expr') : expr.symbol? = expr'.symbol? := by
  rw [← Expr.symbol?_bare, L.bare_eq h, Expr.symbol?_bare]

theorem isKeyword_eq (h : L.expr expr expr') : expr.isKeyword = expr'.isKeyword := by
  rw [← Expr.isKeyword_bare, L.bare_eq h, Expr.isKeyword_bare]

theorem text_eq (h : L.expr expr expr') : expr.text = expr'.text := by
  rw [← Expr.text_bare, L.bare_eq h, Expr.text_bare]

theorem prototype_eq (h : L.expr expr expr') : Prototype.ofExpr expr = Prototype.ofExpr expr' := by
  rw [← Prototype.ofExpr_bare, L.bare_eq h, Prototype.ofExpr_bare]

theorem textOfAll_eq {exprs exprs' : List Expr} (h : List.Forall₂ L.expr exprs exprs') :
    Source.textOfAll exprs = Source.textOfAll exprs' := by
  have hBare : Expr.bareAll exprs = Expr.bareAll exprs' := by
    induction h with
    | nil => rfl
    | cons hHead _ ih => rw [Expr.bareAll, Expr.bareAll, L.bare_eq hHead, ih]
  rw [Source.textOfAll, Source.textOfAll, ← Expr.printAll_bareAll, hBare, Expr.printAll_bareAll]

end Likeness

/-! ### Values -/

namespace Value.Alike

theorem isTrue_eq {value value' : Value} (h : value.Alike L value') :
    value.isTrue = value'.isTrue := by
  cases h <;> rfl

theorem expr? {value value' : Value} (h : value.Alike L value') :
    Option.Rel L.expr value.expr? value'.expr? := by
  cases h with
  | expr hTree => exact Option.Rel.some hTree
  | _ => exact Option.Rel.none

theorem float?_eq {value value' : Value} (h : value.Alike L value') :
    value.float? = value'.float? := by
  cases h <;> rfl

theorem string?_eq {value value' : Value} (h : value.Alike L value') :
    value.string? = value'.string? := by
  cases h <;> rfl

theorem function?_eq {value value' : Value} (h : value.Alike L value') :
    value.function? = value'.function? := by
  cases h <;> rfl

theorem getD_null {value? value?' : Option Value}
    (h : Option.Rel (Value.Alike L) value? value?') :
    (value?.getD .null).Alike L (value?'.getD .null) := by
  cases h with
  | none => exact .null
  | some hValue => exact hValue

theorem integerOf?_eq {value value' : Value} (h : value.Alike L value') :
    Native.integerOf? value = Native.integerOf? value' := by
  cases h <;> rfl

theorem coerce? {value value' : Value} (h : value.Alike L value')
    (type : NativeType) : Option.Rel (Value.Alike L) (type.coerce? value) (type.coerce? value') := by
  -- All but handles and unknown types are built anew from what alike values share.
  have hNumber : ∀ f : Float → Float, Option.Rel (Value.Alike L)
      (value.float?.map fun x => .float (f x)) (value'.float?.map fun x => .float (f x)) := by
    intro f
    rw [h.float?_eq]
    cases value'.float? with
    | none => exact Option.Rel.none
    | some x => exact Option.Rel.some (.float (f x))
  have hInteger : ∀ f : Int64 → Int64, Option.Rel (Value.Alike L)
      ((Native.integerOf? value).map fun n => .int (f n))
      ((Native.integerOf? value').map fun n => .int (f n)) := by
    intro f
    rw [h.integerOf?_eq]
    cases Native.integerOf? value' with
    | none => exact Option.Rel.none
    | some n => exact Option.Rel.some (.int (f n))
  cases type with
  | void => exact Option.Rel.some .null
  | bool =>
      rw [NativeType.coerce?, NativeType.coerce?, h.isTrue_eq]
      exact Option.Rel.some (.bool _)
  | float32 => exact hNumber Number.single
  | float64 => exact hNumber id
  | pointer =>
      cases h with
      | null => exact Option.Rel.some (.pointer 0)
      | pointer address => exact Option.Rel.some (.pointer address)
      | _ => exact Option.Rel.none
  | cString =>
      cases h with
      | null => exact Option.Rel.some .null
      | string text => exact Option.Rel.some (.string text)
      | _ => exact Option.Rel.none
  | object => exact Option.Rel.some h
  | unsupported name => exact Option.Rel.some h
  | _ => exact hInteger _

end Value.Alike

theorem filterMap_expr?_alike {values values' : List Value}
    (h : List.Forall₂ (Value.Alike L) values values') :
    List.Forall₂ L.expr (values.filterMap Value.expr?) (values'.filterMap Value.expr?) := by
  induction h with
  | nil => exact List.Forall₂.nil
  | cons hHead _ ih =>
      cases hHead with
      | expr hTree => exact List.Forall₂.cons hTree ih
      | _ => exact ih

theorem filterMap_expr?_map (exprs : List Expr) :
    (exprs.map Value.expr).filterMap Value.expr? = exprs := by
  rw [List.filterMap_map]
  exact List.filterMap_some

mutual

/-- Equality of the language does not tell alike values apart. -/
theorem Value.same_eq {a a' b b' : Value} (hLeft : a.Alike L a') (hRight : b.Alike L b') :
    a.same b = a'.same b' := by
  match a, a', hLeft with
  | .list items, .list items', .list hItems =>
      cases hRight with
      | list hOthers => exact Value.sameAll_eq hItems hOthers
      | _ => rfl
  | .expr tree, .expr tree', .expr hTree =>
      cases hRight with
      | expr hOther =>
          change tree.same _ = tree'.same _
          rw [← Expr.same_bare, L.bare_eq hTree, L.bare_eq hOther, Expr.same_bare]
      | _ => rfl
  | .null, _, .null | .bool _, _, .bool _ | .int _, _, .int _ | .float _, _, .float _
  | .string _, _, .string _ | .function _, _, .function _ | .classRef _, _, .classRef _
  | .object _, _, .object _ | .pointer _, _, .pointer _ => cases hRight <;> rfl

theorem Value.sameAll_eq {as as' bs bs' : List Value} (hLeft : List.Forall₂ (Value.Alike L) as as')
    (hRight : List.Forall₂ (Value.Alike L) bs bs') : Value.sameAll as bs = Value.sameAll as' bs' := by
  match as, as', hLeft with
  | [], [], .nil => cases hRight <;> rfl
  | a :: as, a' :: as', .cons hHead hTail =>
      cases hRight with
      | nil => rfl
      | cons hOther hOthers =>
          rw [Value.sameAll, Value.sameAll, Value.same_eq hHead hOther,
            Value.sameAll_eq hTail hOthers]

end

/-! ### Tables and arrays -/

theorem isSome_eq_of_rel {α β : Type} {R : α → β → Prop} {a : Option α} {b : Option β}
    (h : Option.Rel R a b) : a.isSome = b.isSome := by
  cases h <;> rfl

theorem rel_getElem? {α β : Type} {R : α → β → Prop} {as : List α} {bs : List β}
    (h : List.Forall₂ R as bs) (index : Nat) : Option.Rel R as[index]? bs[index]? := by
  induction h generalizing index with
  | nil => exact Option.Rel.none
  | cons hHead _ ih =>
      cases index with
      | zero => exact Option.Rel.some hHead
      | succ index => exact ih index

namespace Table.Alike

variable {α : Type} {R : α → α → Prop} {table table' : Table α}

theorem get? (h : Table.Alike R table table') (name : String) :
    Option.Rel R (table.get? name) (table'.get? name) := by
  induction h with
  | nil => exact Option.Rel.none
  | @cons entry entry' rest rest' hHead _ ih =>
      obtain ⟨hName, hEntry⟩ := hHead
      rw [Table.get?, Table.get?, ← hName]
      split
      · exact Option.Rel.some hEntry
      · exact ih

theorem names_eq (h : Table.Alike R table table') : table.names = table'.names := by
  induction h with
  | nil => rfl
  | cons hHead _ ih =>
      rw [Table.names, Table.names] at ih ⊢
      rw [List.map_cons, List.map_cons, hHead.1, ih]

theorem contains_eq (h : Table.Alike R table table') (name : String) :
    table.contains name = table'.contains name := by
  rw [Table.contains, Table.contains, isSome_eq_of_rel (h.get? name)]

theorem set (h : Table.Alike R table table') (name : String) {entry entry' : α}
    (hEntry : R entry entry') : Table.Alike R (table.set name entry) (table'.set name entry') := by
  induction h with
  | nil => exact List.Forall₂.cons ⟨rfl, hEntry⟩ List.Forall₂.nil
  | @cons first first' rest rest' hHead hTail ih =>
      obtain ⟨hName, hFirst⟩ := hHead
      rw [Table.set, Table.set, ← hName]
      split
      · exact List.Forall₂.cons ⟨rfl, hEntry⟩ hTail
      · exact List.Forall₂.cons ⟨rfl, hFirst⟩ ih

theorem erase (h : Table.Alike R table table') (name : String) :
    Table.Alike R (table.erase name) (table'.erase name) := by
  induction h with
  | nil => exact List.Forall₂.nil
  | @cons first first' rest rest' hHead hTail ih =>
      obtain ⟨entryName, entry⟩ := first
      obtain ⟨entryName', entry'⟩ := first'
      obtain ⟨rfl, hEntry⟩ : entryName = entryName' ∧ R entry entry' := hHead
      by_cases hSame : entryName = name
      · simpa [Table.erase, hSame] using ih
      · have hKept : Table.Alike R ((entryName, entry) :: Table.erase rest name)
            ((entryName, entry') :: Table.erase rest' name) :=
          List.Forall₂.cons ⟨rfl, hEntry⟩ ih
        simpa [Table.erase, hSame] using hKept

end Table.Alike

namespace ArrayAlike

variable {α : Type} {R : α → α → Prop} {array array' : Array α}

theorem size_eq (h : ArrayAlike R array array') : array.size = array'.size := by
  rcases Nat.lt_trichotomy array.size array'.size with hLt | hEq | hGt
  · have hRel := h array.size
    rw [Array.getElem?_eq_none (Nat.le_refl _), Array.getElem?_eq_getElem hLt] at hRel
    cases hRel
  · exact hEq
  · have hRel := h array'.size
    rw [Array.getElem?_eq_none (Nat.le_refl array'.size), Array.getElem?_eq_getElem hGt] at hRel
    cases hRel

theorem push (h : ArrayAlike R array array') {a a' : α} (hLast : R a a') :
    ArrayAlike R (array.push a) (array'.push a') := by
  intro index
  rw [Array.getElem?_push, Array.getElem?_push, h.size_eq]
  split
  · exact Option.Rel.some hLast
  · exact h index

theorem set (h : ArrayAlike R array array') {index : Nat} (hIndex : index < array.size)
    (hIndex' : index < array'.size) {a a' : α} (hPlace : R a a') :
    ArrayAlike R (array.set index a hIndex) (array'.set index a' hIndex') := by
  intro other
  rw [Array.getElem?_set, Array.getElem?_set]
  split
  · exact Option.Rel.some hPlace
  · exact h other

theorem modify (h : ArrayAlike R array array') (index : Nat) {f f' : α → α}
    (hChange : ∀ a a', R a a' → R (f a) (f' a')) :
    ArrayAlike R (array.modify index f) (array'.modify index f') := by
  intro other
  rw [Array.getElem?_modify, Array.getElem?_modify]
  have hOther := h other
  generalize array[other]? = place at hOther ⊢
  generalize array'[other]? = place' at hOther ⊢
  split
  · cases hOther with
    | none => exact Option.Rel.none
    | some hPlace => exact Option.Rel.some (hChange _ _ hPlace)
  · exact hOther

end ArrayAlike

/-! ### Scopes -/

namespace Environment.Alike

variable {env env' : Environment Value}

theorem parent?_eq (h : env.Alike L env') (scope : ScopeId) :
    env.parent? scope = env'.parent? scope := by
  have hFrame := h scope.index
  rw [Environment.parent?, Environment.parent?]
  generalize env.frames[scope.index]? = frame? at hFrame ⊢
  generalize env'.frames[scope.index]? = frame?' at hFrame ⊢
  cases hFrame with
  | none => rfl
  | some hFrame => exact hFrame.parent

theorem bindings (h : env.Alike L env') (scope : ScopeId) :
    Table.Alike (Value.Alike L) (env.bindings scope) (env'.bindings scope) := by
  have hFrame := h scope.index
  rw [Environment.bindings, Environment.bindings]
  generalize env.frames[scope.index]? = frame? at hFrame ⊢
  generalize env'.frames[scope.index]? = frame?' at hFrame ⊢
  cases hFrame with
  | none => exact List.Forall₂.nil
  | some hFrame => exact hFrame.bindings

theorem chain_eq (h : env.Alike L env') (scope : ScopeId) : env.chain scope = env'.chain scope := by
  fun_induction Environment.chain env scope with
  | case1 scope ih =>
      rw [Environment.chain, ← h.parent?_eq scope]
      congr 1
      cases hParent : env.parent? scope with
      | none => rfl
      | some parent =>
          by_cases hBelow : parent.index < scope.index
          · simp only [if_pos hBelow]
            exact ih parent hBelow
          · simp only [if_neg hBelow]

theorem getLocal? (h : env.Alike L env') (scope : ScopeId) (name : String) :
    Option.Rel (Value.Alike L) (env.getLocal? scope name) (env'.getLocal? scope name) :=
  (h.bindings scope).get? name

theorem binder?_eq (h : env.Alike L env') (scope : ScopeId) (name : String) :
    env.binder? scope name = env'.binder? scope name := by
  have hContains : (fun s => (env.bindings s).contains name) =
      fun s => (env'.bindings s).contains name := by
    funext s
    exact (h.bindings s).contains_eq name
  rw [Environment.binder?, Environment.binder?, h.chain_eq scope, hContains]

theorem lookup? (h : env.Alike L env') (scope : ScopeId) (name : String) :
    Option.Rel (Value.Alike L) (env.lookup? scope name) (env'.lookup? scope name) := by
  rw [Environment.lookup?, Environment.lookup?, h.binder?_eq scope name]
  cases env'.binder? scope name with
  | none => exact Option.Rel.none
  | some binder => exact h.getLocal? binder name

theorem names_eq (h : env.Alike L env') (scope : ScopeId) : env.names scope = env'.names scope := by
  rw [Environment.names, Environment.names, (h.bindings scope).names_eq]

theorem isOutermost_eq (h : env.Alike L env') (scope : ScopeId) :
    env.isOutermost scope = env'.isOutermost scope := by
  rw [Environment.isOutermost, Environment.isOutermost, h.parent?_eq scope]

theorem push_scope_eq (h : env.Alike L env') (parent : Option ScopeId) :
    (env.push parent).1 = (env'.push parent).1 := by
  rw [Environment.push, Environment.push, ArrayAlike.size_eq h]

theorem push (h : env.Alike L env') (parent : Option ScopeId) :
    (env.push parent).2.Alike L (env'.push parent).2 :=
  ArrayAlike.push h ⟨List.Forall₂.nil, rfl⟩

theorem modifyBindings (h : env.Alike L env') (scope : ScopeId) {f f' : Table Value → Table Value}
    (hChange : ∀ table table', Table.Alike (Value.Alike L) table table' →
      Table.Alike (Value.Alike L) (f table) (f' table')) :
    (env.modifyBindings scope f).Alike L (env'.modifyBindings scope f') :=
  ArrayAlike.modify h scope.index fun frame frame' hFrame =>
    ⟨hChange frame.bindings frame'.bindings hFrame.bindings, hFrame.parent⟩

theorem define (h : env.Alike L env') (scope : ScopeId) (name : String) {value value' : Value}
    (hValue : value.Alike L value') :
    (env.define scope name value).Alike L (env'.define scope name value') :=
  h.modifyBindings scope fun _ _ hTable => hTable.set name hValue

theorem defineAll (h : env.Alike L env') (scope : ScopeId) {bindings bindings' : List (String × Value)}
    (hBindings : Table.Alike (Value.Alike L) bindings bindings') :
    (env.defineAll scope bindings).Alike L (env'.defineAll scope bindings') := by
  induction hBindings generalizing env env' with
  | nil => exact h
  | @cons entry entry' rest rest' hHead _ ih =>
      obtain ⟨name, value⟩ := entry
      obtain ⟨name', value'⟩ := entry'
      obtain ⟨rfl, hValue⟩ : name = name' ∧ value.Alike L value' := hHead
      exact ih (h.define scope name hValue)

theorem assign (h : env.Alike L env') (scope : ScopeId) (name : String) {value value' : Value}
    (hValue : value.Alike L value') :
    (env.assign scope name value).Alike L (env'.assign scope name value') := by
  rw [Environment.assign, Environment.assign, h.binder?_eq scope name]
  exact h.define _ name hValue

theorem remove (h : env.Alike L env') (scope : ScopeId) (name : String) :
    (env.remove scope name).Alike L (env'.remove scope name) :=
  h.modifyBindings scope fun _ _ hTable => hTable.erase name

end Environment.Alike

end MessageLisp
