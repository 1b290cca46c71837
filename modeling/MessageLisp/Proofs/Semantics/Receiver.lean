import Mathlib
import MessageLisp.Proofs.Semantics.Traversal

/-! What `self` stands for. Neither a variable nor a parameter can have the name, so whatever is evaluated
in the body of a method, the method keeps its receiver. There is one way around this: a definition whose
name is given as a string is not asked for its name, and binds `self` like any other. -/
namespace MessageLisp

open Source (Expr)

/-! ### The bindings of a scope -/

theorem Session.MadeIn.since {first second third : Session} {scope : ScopeId} {name : String}
    {value : Value} (h : second.MadeIn third scope name value) (hContinues : first.Continues second) :
    first.MadeIn third scope name value := by
  obtain ⟨id, closure, hValue, hNew, hRest⟩ := h
  exact ⟨id, closure, hValue, Nat.le_trans hContinues.closures hNew, hRest⟩

/-- In a scope that has been there from the start, `self` stays as it is or is given to a new function. -/
theorem Course.getLocal?_self {kept? : Option ScopeId} {first last : Session}
    (h : Course kept? first last) {scope : ScopeId}
    (hScope : scope.index < first.environment.frames.size) :
    last.environment.getLocal? scope selfName = first.environment.getLocal? scope selfName ∨
      ∃ value, last.environment.getLocal? scope selfName = some value ∧
        first.MadeIn last scope selfName value := by
  induction h with
  | start => exact .inl rfl
  | next hPast hMove ih =>
      have hPresent := Nat.lt_of_lt_of_le hScope hPast.continues.frames
      cases hMove.binds hPresent selfName with
      | same hSame =>
          rcases ih with hOld | ⟨value, hLocal, hMade⟩
          · exact .inl (hSame.trans hOld)
          · exact .inr ⟨value, hSame.trans hLocal, hMade.continues hMove.continues⟩
      | made hMade _ hLocal => exact .inr ⟨_, hLocal, hMade.since hPast.continues⟩
      | set hSelf => exact absurd rfl hSelf
      | taken hFresh => exact absurd hScope (Nat.not_lt.mpr hFresh)

/-! ### The meaning of a name -/

theorem findSome?_eq_or {α β : Type} {f g : α → Option β} {P : α → β → Prop} {list : List α}
    (h : ∀ a ∈ list, g a = f a ∨ ∃ b, g a = some b ∧ P a b) :
    list.findSome? g = list.findSome? f ∨ ∃ a ∈ list, ∃ b, list.findSome? g = some b ∧ P a b := by
  induction list with
  | nil => exact .inl rfl
  | cons a list ih =>
      rw [List.findSome?_cons, List.findSome?_cons]
      rcases h a List.mem_cons_self with hSame | ⟨b, hFound, hHolds⟩
      · rw [hSame]
        cases f a with
        | some b => exact .inl rfl
        | none =>
            rcases ih fun other hMem => h other (List.mem_cons_of_mem a hMem) with
              hRest | ⟨other, hMem, hRest⟩
            · exact .inl hRest
            · exact .inr ⟨other, List.mem_cons_of_mem a hMem, hRest⟩
      · rw [hFound]
        exact .inr ⟨a, List.mem_cons_self, b, rfl, hHolds⟩

/-- A class keeps its name, and only a name that no class had can become that of a new class. -/
theorem Session.Continues.find?_cases {first last : Session} (h : first.Continues last)
    (name : String) :
    last.hierarchy.find? name = first.hierarchy.find? name ∨
      first.hierarchy.find? name = none ∧
        ∃ id : ClassId, last.hierarchy.find? name = some id ∧
          first.hierarchy.classes.size ≤ id.index := by
  obtain ⟨more, hNames⟩ := h.names
  have hSize : first.hierarchy.names.length = first.hierarchy.classes.size := by
    simp [Hierarchy.names]
  rw [Hierarchy.find?_eq_names, Hierarchy.find?_eq_names, ← hNames, List.findIdx?_append, hSize]
  cases first.hierarchy.names.findIdx? (· = name) with
  | some index => exact .inl rfl
  | none =>
      cases more.findIdx? (· = name) with
      | none => exact .inl rfl
      | some index => exact .inr ⟨rfl, _, rfl, Nat.le_add_left ..⟩

/-- What a name stands for in a scope, or the failure to find out. -/
def Session.meaning (session : Session) (name : String) (scope : ScopeId) : Except Interruption Value :=
  ((resolve name scope).runIn session).1

/-- A name stands for what it stood for before. Or it stands for a function that has been defined under
the name since, in the scope or in one around it. Or it stood for nothing, and now for a new class. -/
inductive Session.Keeps (first last : Session) (name : String) (scope : ScopeId) : Prop where
  | same (h : last.meaning name scope = first.meaning name scope)
  | function {around : ScopeId} {value : Value} (hAround : around ∈ first.environment.chain scope)
      (hMade : first.MadeIn last around name value) (h : last.meaning name scope = .ok value)
  | cls {id : ClassId} (hUnbound : first.Unbound scope name)
      (hNew : first.hierarchy.classes.size ≤ id.index) (h : last.meaning name scope = .ok (.classRef id))

theorem Course.keeps_self {kept? : Option ScopeId} {first last : Session} (h : Course kept? first last)
    {scope : ScopeId} (hScope : scope.index < first.environment.frames.size) :
    first.Keeps last selfName scope := by
  have hLocal : ∀ around ∈ first.environment.chain scope,
      last.environment.getLocal? around selfName = first.environment.getLocal? around selfName ∨
        ∃ value, last.environment.getLocal? around selfName = some value ∧
          first.MadeIn last around selfName value := by
    intro around hMem
    exact h.getLocal?_self (Nat.lt_of_le_of_lt (Environment.index_le_of_mem_chain hMem) hScope)
  have hLookup := findSome?_eq_or hLocal
  rw [← Environment.lookup?_eq_findSome?, ← h.continues.chain_eq hScope,
    ← Environment.lookup?_eq_findSome?] at hLookup
  rcases hLookup with hSame | ⟨around, hAround, value, hFound, hMade⟩
  · cases hFirst : first.environment.lookup? scope selfName with
    | some value =>
        apply Session.Keeps.same
        rw [Session.meaning, Session.meaning, Eval.runIn_resolve_variable (hSame.trans hFirst),
          Eval.runIn_resolve_variable hFirst]
    | none =>
        have hLast := hSame.trans hFirst
        rcases h.continues.find?_cases selfName with hClass | ⟨hNone, id, hClass, hNew⟩
        · apply Session.Keeps.same
          cases hId : first.hierarchy.find? selfName with
          | some id =>
              rw [Session.meaning, Session.meaning,
                Eval.runIn_resolve_class hLast (hClass.trans hId), Eval.runIn_resolve_class hFirst hId]
          | none =>
              rw [Session.meaning, Session.meaning,
                Eval.runIn_resolve_unbound ⟨hLast, hClass.trans hId⟩,
                Eval.runIn_resolve_unbound ⟨hFirst, hId⟩]
        · refine .cls ⟨hFirst, hNone⟩ hNew ?_
          rw [Session.meaning, Eval.runIn_resolve_class hLast hClass]
  · rw [h.continues.chain_eq hScope] at hAround
    refine .function hAround hMade ?_
    rw [Session.meaning, Eval.runIn_resolve_variable hFound]

/-! ### Bodies of methods -/

/-- The plain evaluator takes a course, whatever the session is. -/
theorem Evaluator.ofFuel_goes (fuel : Nat) : (Evaluator.ofFuel fuel).Goes none := by
  induction fuel with
  | zero =>
      refine .uniform 0 ?_ fun hKept => absurd rfl hKept
      exact fun _ _ _ => .start
  | succ fuel ih =>
      refine .uniform fuel ?_ fun hKept => absurd rfl hKept
      intro expr scope session
      apply ih.evaluateExpr
      intro _ _ _ _ _ _ _ _ _ _ hNone
      cases hNone

/-- The receiver is what `self` stands for when a body starts. -/
theorem lookup?_self_of_bindArguments {closure : Closure} {arguments : List Value}
    {session bound : Session} {scope : ScopeId}
    (hBind : (bindArguments closure arguments).runIn session = (.ok scope, bound)) (receiver : Value) :
    scope.index < (bound.withReceiver scope (some receiver)).environment.frames.size ∧
      (bound.withReceiver scope (some receiver)).environment.lookup? scope selfName = some receiver := by
  obtain ⟨values, -, -, rfl, rfl⟩ := Eval.exists_of_runIn_bindArguments hBind
  rw [Session.withReceiver_pushFrame]
  have hLocal : (session.pushFrame ((closure.frame session.hierarchy values).withReceiver
      (some receiver))).environment.getLocal? ⟨session.environment.frames.size⟩ selfName =
        some receiver := by
    rw [Session.pushFrame, Session.mapEnvironment, Environment.getLocal?_pushFrame, if_pos rfl,
      Frame.withReceiver, Table.get?_set, if_pos rfl]
  refine ⟨by simp [Session.pushFrame, Session.mapEnvironment, Environment.pushFrame], ?_⟩
  rw [Environment.lookup?_eq, hLocal, Option.some_or]

/-- A method cannot lose its receiver, unless to a function that is called `self`. Whatever is evaluated in
a scope that exists, and however it ends, `self` stands for the same as before, with two exceptions: a
function may have been defined under this name in the scope or in one around it, and if `self` stood for
nothing, a class may have been defined under the name. So between any two expressions of the body of a
method `self` is the receiver, or a function that was defined under this name after the method started. -/
theorem receiver_lost_to_namesake_only (fuel : Nat) (session : Session) :
    (∀ (scope : ScopeId) (expr : Expr), scope.index < session.environment.frames.size →
      session.Keeps (((Evaluator.ofFuel fuel).evaluate expr scope).runIn session).2 selfName scope) ∧
    ∀ (id : ClosureId) (closure : Closure) (receiver : Value) (arguments : List Value)
      (scope : ScopeId) (bound : Session), session.isOpen = true →
      session.closures[id.index]? = some closure →
      (bindArguments closure arguments).runIn session = (.ok scope, bound) →
        let start := bound.withReceiver scope (some receiver)
        ((Evaluator.ofFuel fuel).applyClosure id (some receiver) arguments).runIn session =
            ((Evaluator.ofFuel fuel).runBody closure scope).runIn start ∧
          ∀ count : Nat,
            let later := (((Evaluator.ofFuel fuel).sequence (closure.body.take count) scope).runIn
              (start.inside closure.source?)).2
            later.meaning selfName scope = .ok receiver ∨
              ∃ around ∈ start.environment.chain scope, ∃ value,
                start.MadeIn later around selfName value ∧ later.meaning selfName scope = .ok value := by
  constructor
  · intro scope expr hScope
    have hCourse : Course none session _ := (Evaluator.ofFuel_goes fuel).evaluate expr scope session
    exact hCourse.keeps_self hScope
  · intro id closure receiver arguments scope bound hOpen hClosure hBind
    obtain ⟨hScope, hReceiver⟩ := lookup?_self_of_bindArguments hBind receiver
    refine ⟨?_, ?_⟩
    · rw [Evaluator.runIn_applyClosure_open hOpen hClosure, hBind]
    · intro count
      generalize bound.withReceiver scope (some receiver) = start at hScope hReceiver
      have hLookup : (start.inside closure.source?).environment.lookup? scope selfName = some receiver :=
        hReceiver
      have hInside : (start.inside closure.source?).meaning selfName scope = .ok receiver := by
        rw [Session.meaning, Eval.runIn_resolve_variable hLookup]
      have hCourse : Course none (start.inside closure.source?) _ :=
        (Evaluator.ofFuel_goes fuel).sequence (closure.body.take count) scope
      cases hCourse.keeps_self hScope with
      | same hSame => exact .inl (hSame.trans hInside)
      | function hAround hMade hMeaning => exact .inr ⟨_, hAround, _, hMade, hMeaning⟩
      | cls hUnbound =>
          rw [Session.meaning, Eval.runIn_resolve_unbound hUnbound] at hInside
          cases hInside

/-- A method that sets a variable, and then defines a function under the name of its receiver. -/
def namesake : Closure where
  name? := some "m"
  owner? := some BuiltinClass.list.id
  prototype := ⟨[], none⟩
  body := [.list ⟨1, 10⟩ [.symbol ⟨2, 5⟩ "set", .symbol ⟨6, 7⟩ "x", .int ⟨8, 9⟩ 1],
    .list ⟨11, 33⟩ [.symbol ⟨12, 20⟩ "function", .string ⟨21, 27⟩ "self", .list ⟨28, 30⟩ [],
      .int ⟨31, 32⟩ 1]]
  scope := Environment.root
  source? := none
  signature? := none

def namesakeSession : Session :=
  { Session.new 8 with closures := #[namesake] }

/-- The session with the arguments of the method bound, none. -/
def namesakeBound : Session :=
  ((bindArguments namesake []).runIn namesakeSession).2

/-- The session in the body of the method, applied to 7, after some of its expressions. -/
def namesakeAfter (count : Nat) : Session :=
  (((Evaluator.ofFuel 3).sequence (namesake.body.take count) ⟨1⟩).runIn
    ((namesakeBound.withReceiver ⟨1⟩ (some (.int 7))).inside none)).2

theorem namesakeAfter_meaning :
    (namesakeAfter 1).meaning selfName ⟨1⟩ = .ok (.int 7) ∧
      (namesakeAfter 2).meaning selfName ⟨1⟩ = .ok (.function (.closure ⟨1⟩)) := by
  constructor
  · cbv
  · cbv

/-- After the first expression of the body `self` is 7, after the second one it is the function that was
made in the meantime. -/
theorem receiver_lost_to_namesake_only_defined :
    namesakeSession.Keeps (((Evaluator.ofFuel 3).evaluate (.symbol ⟨0, 1⟩ "x")
        Environment.root).runIn namesakeSession).2 selfName Environment.root ∧
      (bindArguments namesake []).runIn namesakeSession = (.ok ⟨1⟩, namesakeBound) ∧
      (namesakeAfter 1).meaning selfName ⟨1⟩ = .ok (.int 7) ∧
      ∃ value, (namesakeAfter 2).meaning selfName ⟨1⟩ = .ok value ∧
        ∃ around, (namesakeBound.withReceiver ⟨1⟩ (some (.int 7))).MadeIn (namesakeAfter 2) around
          selfName value := by
  obtain ⟨hKeeps, hMethod⟩ := receiver_lost_to_namesake_only 3 namesakeSession
  have hBind : (bindArguments namesake []).runIn namesakeSession = (.ok ⟨1⟩, namesakeBound) := rfl
  refine ⟨hKeeps Environment.root _ (by decide), hBind, namesakeAfter_meaning.1, ?_⟩
  obtain ⟨-, hBody⟩ := hMethod ⟨0⟩ namesake (.int 7) [] ⟨1⟩ namesakeBound rfl rfl hBind
  rcases hBody 2 with hReceiver | ⟨around, -, value, hMade, hMeaning⟩
  · cases namesakeAfter_meaning.2.symm.trans hReceiver
  · exact ⟨value, hMeaning, around, hMade⟩

/-- A method of lists that defines a function called `self` and then gives `self`, sent to a list. -/
def lostReceiver : String :=
  "(List extend: (lambda () (function m () (function \"self\" () 1) self))) ((list) m)"

set_option maxRecDepth 10000 in
/-- The method should give its receiver, the empty list, and it gives the function. -/
theorem function_takes_place_of_receiver :
    (((Evaluator.ofFuel 6).run lostReceiver "test").run (Session.new 8)).1 =
      .value (.function (.closure ⟨2⟩)) := by
  cbv

end MessageLisp
