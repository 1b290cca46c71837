import Mathlib
import MessageLisp.Proofs.Assignment
import MessageLisp.Proofs.Semantics.Extension
import MessageLisp.Proofs.Semantics.Keywords
import MessageLisp.Proofs.Semantics.Parameters

/-! The course of an evaluation. Whatever is evaluated, a session changes by a few kinds of moves only,
and a move says in which scope a name gets its value: forms bind names in the scope that they are
evaluated in, a body starts in a scope of its own, and an extension takes functions out of the scope that
was opened for it. Scopes keep their places meanwhile, closures their code, and classes the class above
them. -/
namespace MessageLisp

open Source (Expr)

/-! ### Moves -/

/-- The scope is the root, or it exists and does not lie inside the other one. -/
def Session.Outside (session : Session) (body scope : ScopeId) : Prop :=
  scope = Environment.root ∨
    scope.index < session.environment.frames.size ∧ body ∉ session.environment.chain scope

/-- A form may bind the name in the scope: it is not one of the two names that a method sees its receiver
and the class above under, or the scope is outside the one whose names are kept. -/
def Session.MayBind (session : Session) (kept? : Option ScopeId) (scope : ScopeId) (name : String) : Prop :=
  ∀ kept, kept? = some kept → session.Outside kept scope ∨ name ≠ selfName ∧ name ≠ superName

/-- Some class has the method in its table. -/
def Session.HasMethod (session : Session) (method : Method) : Prop :=
  ∃ cls selector, session.hierarchy.localMethod? cls selector = some method

/-- One move of an evaluation. Functions are taken out of scopes from `fresh` on only. If there is a scope
whose names are kept, then nothing but functions that exist is taken. -/
inductive Move (kept? : Option ScopeId) (fresh : Nat) : Session → Session → Prop where
  /-- The books are kept, and instances come and change. -/
  | note (session : Session) (instances : Array Instance) (depth : Nat) (source? : Option SourceText)
      (faultSite? : Option FaultSite) (output : String) (lastError? : Option Error) :
      Move kept? fresh session { session with instances, depth, source?, faultSite?, output, lastError? }
  /-- The scope of a body. Only methods have a receiver. -/
  | body {session : Session} {id : ClosureId} {closure : Closure}
      (hClosure : session.closures[id.index]? = some closure) (values : List Value)
      {receiver? : Option Value}
      (hMethod : receiver?.isSome → session.HasMethod (.function (.closure id))) :
      Move kept? fresh session
        (session.pushFrame ((closure.frame session.hierarchy values).withReceiver receiver?))
  /-- The scope of the definitions that extend a class. -/
  | definitions {session : Session} {id : ClosureId} {closure : Closure}
      (hClosure : session.closures[id.index]? = some closure) :
      Move kept? fresh session (session.pushFrame ⟨[], some closure.scope⟩)
  | lambda {session : Session} {closure : Closure} (hOwner : closure.owner? = none) :
      Move kept? fresh session (session.addClosure closure).2
  | function {session : Session} {closure : Closure} {name : String}
      (hOwner : closure.owner? = none) (hName : closure.name? = some name)
      (hBind : session.MayBind kept? closure.scope name) :
      Move kept? fresh session ((session.addClosure closure).2.mapEnvironment
        (·.define closure.scope name (.function (.closure ⟨session.closures.size⟩))))
  | set {session : Session} {scope : ScopeId} {name : String} (hSelf : name ≠ selfName)
      (hBind : session.MayBind kept? scope name) (value : Value) :
      Move kept? fresh session (session.mapEnvironment (·.assign scope name value))
  | define {session : Session} {name : String} {superclass? : Option ClassId} {fields : List String}
      {id : ClassId} {hierarchy : Hierarchy}
      (hDefine : session.hierarchy.define name superclass? fields = .ok (id, hierarchy)) :
      Move kept? fresh session { session with hierarchy }
  | extend {session : Session} (cls : ClassId) {scope : ScopeId} (hFresh : fresh ≤ scope.index)
      {names : List String} (hSound : kept? ≠ none → names = [] ∨ session.Sound) :
      Move kept? fresh session
        ((session.collect cls scope names).2.install ⟨cls, (session.collect cls scope names).1⟩)

/-- Moves one after the other. Functions are only taken out of scopes that were opened on the way. -/
inductive Course (kept? : Option ScopeId) (first : Session) : Session → Prop where
  | start : Course kept? first first
  | next {session later : Session} (hPast : Course kept? first session)
      (hMove : Move kept? first.environment.frames.size session later) : Course kept? first later

variable {kept? : Option ScopeId}

theorem Move.mono {fresh fresh' : Nat} (hFresh : fresh' ≤ fresh) {session later : Session}
    (h : Move kept? fresh session later) : Move kept? fresh' session later := by
  cases h with
  | note => exact .note ..
  | body hClosure values hMethod => exact .body hClosure values hMethod
  | definitions hClosure => exact .definitions hClosure
  | lambda hOwner => exact .lambda hOwner
  | function hOwner hName hBind => exact .function hOwner hName hBind
  | set hSelf hBind value => exact .set hSelf hBind value
  | define hDefine => exact .define hDefine
  | extend cls hScope hSound => exact .extend cls (Nat.le_trans hFresh hScope) hSound

theorem Move.noteFaultSite (fresh : Nat) (session : Session) (expr : Expr) :
    Move kept? fresh session (session.noteFaultSite expr) := by
  rw [Session.noteFaultSite]
  split
  · exact .note session ..
  · exact .note session ..

/-! ### What continues -/

/-- The same closure later on. If it has got a name or an owner since, then it has been made a method. -/
def Closure.Later (closure closure' : Closure) : Prop :=
  closure' = closure ∨ closure'.owner?.isSome = true ∧
    closure' = { closure with name? := closure'.name?, owner? := closure'.owner? }

theorem Closure.Later.trans {closure closure' closure'' : Closure} (h : closure.Later closure')
    (h' : closure'.Later closure'') : closure.Later closure'' := by
  rcases h' with rfl | ⟨hOwner', hSame'⟩
  · exact h
  · rcases h with rfl | ⟨hOwner, hSame⟩
    · exact .inr ⟨hOwner', hSame'⟩
    · refine .inr ⟨hOwner', ?_⟩
      rw [hSame', hSame]

theorem Closure.Later.prototype_eq {closure closure' : Closure} (h : closure.Later closure') :
    closure'.prototype = closure.prototype := by
  rcases h with rfl | ⟨-, hSame⟩
  · rfl
  · rw [hSame]

theorem Closure.Later.scope_eq {closure closure' : Closure} (h : closure.Later closure') :
    closure'.scope = closure.scope := by
  rcases h with rfl | ⟨-, hSame⟩
  · rfl
  · rw [hSame]

/-- What stays as it is while a session goes on. -/
structure Session.Continues (first last : Session) : Prop where
  frames : first.environment.frames.size ≤ last.environment.frames.size
  parent? (scope : ScopeId) (hScope : scope.index < first.environment.frames.size) :
    last.environment.parent? scope = first.environment.parent? scope
  closures : first.closures.size ≤ last.closures.size
  closure {id : ClosureId} {closure : Closure} (hClosure : first.closures[id.index]? = some closure) :
    ∃ closure', last.closures[id.index]? = some closure' ∧ closure.Later closure'
  names : first.hierarchy.names <+: last.hierarchy.names
  superclass? (id : ClassId) (hClass : id.index < first.hierarchy.classes.size) :
    last.hierarchy.superclass? id = first.hierarchy.superclass? id

namespace Session.Continues

variable {first second third : Session}

theorem classes (h : first.Continues second) :
    first.hierarchy.classes.size ≤ second.hierarchy.classes.size := by
  simpa [Hierarchy.names] using h.names.length_le

theorem refl (session : Session) : session.Continues session where
  frames := Nat.le_refl _
  parent? _ _ := rfl
  closures := Nat.le_refl _
  closure hClosure := ⟨_, hClosure, .inl rfl⟩
  names := List.prefix_rfl
  superclass? _ _ := rfl

theorem trans (h : first.Continues second) (h' : second.Continues third) : first.Continues third where
  frames := Nat.le_trans h.frames h'.frames
  parent? scope hScope := by
    rw [h'.parent? scope (Nat.lt_of_lt_of_le hScope h.frames), h.parent? scope hScope]
  closures := Nat.le_trans h.closures h'.closures
  closure hClosure := by
    obtain ⟨closure', hClosure', hLater⟩ := h.closure hClosure
    obtain ⟨closure'', hClosure'', hLater'⟩ := h'.closure hClosure'
    exact ⟨closure'', hClosure'', hLater.trans hLater'⟩
  names := h.names.trans h'.names
  superclass? id hClass := by
    rw [h'.superclass? id (Nat.lt_of_lt_of_le hClass h.classes), h.superclass? id hClass]

/-- A scope that exists stays where it is. -/
theorem chain_eq (h : first.Continues second) {scope : ScopeId}
    (hScope : scope.index < first.environment.frames.size) :
    second.environment.chain scope = first.environment.chain scope := by
  induction hIndex : scope.index using Nat.strongRecOn generalizing scope with
  | ind index ih =>
      rw [Environment.chain, Environment.chain, h.parent? scope hScope]
      cases first.environment.parent? scope with
      | none => rfl
      | some parent =>
          by_cases hBelow : parent.index < scope.index
          · simp only [if_pos hBelow, ih parent.index (hIndex ▸ hBelow) (by omega) rfl]
          · simp only [if_neg hBelow]

/-- A class that exists keeps the classes above it. -/
theorem classChain_eq (h : first.Continues second) {cls : ClassId}
    (hClass : cls.index < first.hierarchy.classes.size) :
    second.hierarchy.chain cls = first.hierarchy.chain cls := by
  induction hIndex : cls.index using Nat.strongRecOn generalizing cls with
  | ind index ih =>
      rw [Hierarchy.chain, Hierarchy.chain, h.superclass? cls hClass]
      cases first.hierarchy.superclass? cls with
      | none => rfl
      | some parent =>
          by_cases hBelow : parent.index < cls.index
          · simp only [if_pos hBelow, ih parent.index (hIndex ▸ hBelow) (by omega) rfl]
          · simp only [if_neg hBelow]

/-- What changes no closure and no class. -/
theorem of_environment (session : Session) {f : Environment Value → Environment Value}
    (hSize : session.environment.frames.size ≤ (f session.environment).frames.size)
    (hParent : ∀ scope : ScopeId, scope.index < session.environment.frames.size →
      (f session.environment).parent? scope = session.environment.parent? scope) :
    session.Continues (session.mapEnvironment f) :=
  { refl session with
    frames := hSize
    parent? := hParent }

theorem modifyBindings (session : Session) (scope : ScopeId) (f : Table Value → Table Value) :
    session.Continues (session.mapEnvironment (·.modifyBindings scope f)) :=
  of_environment session (Nat.le_of_eq (Array.size_modify ..).symm)
    fun other _ => Environment.parent?_modifyBindings _ scope other f

theorem assign (session : Session) (scope : ScopeId) (name : String) (value : Value) :
    session.Continues (session.mapEnvironment (·.assign scope name value)) :=
  modifyBindings session ((session.environment.binder? scope name).getD scope) (·.set name value)

theorem pushFrame (session : Session) (frame : Frame Value) :
    session.Continues (session.pushFrame frame) := by
  apply of_environment session
  · simp [Environment.pushFrame]
  · intro scope hScope
    rw [Environment.parent?, Environment.pushFrame, Array.getElem?_push, if_neg (Nat.ne_of_lt hScope),
      Environment.parent?]

theorem addClosure (session : Session) (closure : Closure) :
    session.Continues (session.addClosure closure).2 :=
  { refl session with
    closures := by simp [Session.addClosure]
    closure := by
      intro id old hOld
      have hIndex := (Array.getElem?_eq_some_iff.mp hOld).1
      refine ⟨old, ?_, .inl rfl⟩
      rw [Session.addClosure, Array.getElem?_push, if_neg (Nat.ne_of_lt hIndex), hOld] }

theorem takeMethod (session : Session) (cls : ClassId) (scope : ScopeId) (name : String)
    (target : FunctionRef) : session.Continues (session.takeMethod cls scope name target) := by
  have hRemove : session.Continues (session.mapEnvironment (·.remove scope name)) :=
    modifyBindings session scope (·.erase name)
  cases target with
  | builtin builtin => exact hRemove
  | host id => exact hRemove
  | closure id =>
      refine hRemove.trans { refl _ with closures := ?_, closure := ?_ }
      · exact Nat.le_of_eq (Array.size_modify ..).symm
      · intro other closure hClosure
        rw [Session.takeMethod, Session.modifyClosure, Array.getElem?_modify]
        split
        · exact ⟨_, by rw [hClosure, Option.map_some], .inr ⟨rfl, rfl⟩⟩
        · exact ⟨closure, hClosure, .inl rfl⟩

theorem collect (session : Session) (cls : ClassId) (scope : ScopeId) (names : List String) :
    session.Continues (session.collect cls scope names).2 := by
  apply Session.collect_induction (P := session.Continues) cls scope _ names (refl session)
  intro later name target _ hPast
  exact hPast.trans (takeMethod later cls scope name target)

theorem install (session : Session) (extension : Extension) :
    session.Continues (session.install extension) :=
  { refl session with
    names := by
      rw [Session.install, Session.mapHierarchy, Hierarchy.installAll, Hierarchy.names_modifyMethods]
    superclass? := fun _ _ => Hierarchy.superclass?_modifyMethods _ _ _ _ }

end Session.Continues

theorem Move.continues {fresh : Nat} {session later : Session} (h : Move kept? fresh session later) :
    session.Continues later := by
  cases h with
  | note => exact { Session.Continues.refl session with }
  | body _ values _ => exact .pushFrame session _
  | definitions _ => exact .pushFrame session _
  | lambda _ => exact .addClosure session _
  | function _ _ _ => exact (Session.Continues.addClosure session _).trans (.modifyBindings _ _ _)
  | set _ _ value => exact .assign session _ _ value
  | define hDefine =>
      obtain ⟨-, -, rfl⟩ := Hierarchy.define_eq_ok_iff.mp hDefine
      refine { Session.Continues.refl session with names := ?_, superclass? := ?_ }
      · simp [Hierarchy.names]
      · intro id hClass
        rw [Hierarchy.superclass?, Hierarchy.get?_push, if_neg (Nat.ne_of_lt hClass),
          Hierarchy.superclass?]
  | extend cls _ _ => exact (Session.Continues.collect session cls _ _).trans (.install _ _)

/-! ### Bindings -/

/-- The value is a function that has been made in the scope since, under the name. If it has become a
method on the way, it may go by the name of the method. -/
def Session.MadeIn (first last : Session) (scope : ScopeId) (name : String) (value : Value) : Prop :=
  ∃ (id : ClosureId) (closure : Closure), value = .function (.closure id) ∧
    first.closures.size ≤ id.index ∧ last.closures[id.index]? = some closure ∧
    closure.scope = scope ∧ (closure.owner? = none → closure.name? = some name)

theorem Session.MadeIn.continues {first second third : Session} {scope : ScopeId} {name : String}
    {value : Value} (h : first.MadeIn second scope name value) (hContinues : second.Continues third) :
    first.MadeIn third scope name value := by
  obtain ⟨id, closure, hValue, hNew, hClosure, hScope, hName⟩ := h
  obtain ⟨closure', hClosure', hLater⟩ := hContinues.closure hClosure
  refine ⟨id, closure', hValue, hNew, hClosure', hLater.scope_eq.trans hScope, ?_⟩
  intro hOwner
  rcases hLater with rfl | ⟨hOwned, -⟩
  · exact hName hOwner
  · rw [hOwner] at hOwned
    cases hOwned

/-- What a name is bound to in a scope after one move: what it was bound to, a function that the move has
made there, a value that the name was set to from the scope or from inside, or nothing any more. -/
inductive Move.Binds (kept? : Option ScopeId) (fresh : Nat) (session later : Session) (scope : ScopeId)
    (name : String) : Prop where
  | same (h : later.environment.getLocal? scope name = session.environment.getLocal? scope name)
  | made {value : Value} (hMade : session.MadeIn later scope name value)
      (hBind : session.MayBind kept? scope name)
      (h : later.environment.getLocal? scope name = some value)
  | set {inner : ScopeId} (hSelf : name ≠ selfName) (hBind : session.MayBind kept? inner name)
      (hTarget : session.environment.AssignsTo inner name scope)
  | taken (hFresh : fresh ≤ scope.index) (h : later.environment.getLocal? scope name = none)

theorem Move.binds {fresh : Nat} {session later : Session} (h : Move kept? fresh session later)
    {scope : ScopeId} (hScope : scope.index < session.environment.frames.size) (name : String) :
    Move.Binds kept? fresh session later scope name := by
  cases h with
  | note | lambda | define => exact .same rfl
  | body | definitions =>
      apply Binds.same
      rw [Session.pushFrame, Session.mapEnvironment, Environment.getLocal?_pushFrame,
        if_neg (Nat.ne_of_lt hScope)]
  | @function closure given hOwner hName hBind =>
      have hLocal := Environment.getLocal?_define session.environment closure.scope scope given name
        (.function (.closure ⟨session.closures.size⟩))
      by_cases hHere : scope = closure.scope ∧ closure.scope.index < session.environment.frames.size ∧
          name = given
      · rw [if_pos hHere] at hLocal
        obtain ⟨rfl, -, rfl⟩ := hHere
        refine .made ⟨_, closure, rfl, Nat.le_refl _, ?_, rfl, fun _ => hName⟩ hBind hLocal
        exact Array.getElem?_push_size
      · rw [if_neg hHere] at hLocal
        exact .same hLocal
  | @set inner given hSelf hBind value =>
      obtain ⟨target, hTarget, hAssign⟩ := session.environment.exists_assignsTo inner given
      have hLocal := session.environment.getLocal?_define target scope given name value
      by_cases hHere : scope = target ∧ target.index < session.environment.frames.size ∧ name = given
      · obtain ⟨rfl, -, rfl⟩ := hHere
        exact .set hSelf hBind hTarget
      · rw [if_neg hHere] at hLocal
        apply Binds.same
        rw [Session.mapEnvironment, hAssign, hLocal]
  | @extend cls source hFresh names hSound =>
      have hBindings : ((session.collect cls source names).2.install
          ⟨cls, (session.collect cls source names).1⟩).environment =
            (session.collect cls source names).2.environment := rfl
      by_cases hHere : scope = source
      · subst hHere
        cases hLocal : (session.collect cls scope names).2.environment.getLocal? scope name with
        | none => exact .taken hFresh (hBindings ▸ hLocal)
        | some value =>
            apply Binds.same
            rw [hBindings, hLocal, Session.getLocal?_of_collect hLocal]
      · apply Binds.same
        rw [hBindings, Environment.getLocal?, Environment.getLocal?,
          Session.bindings_collect cls source session names hHere]

/-- What is bound in a new scope is what a body starts with. -/
theorem Move.binds_new {fresh : Nat} {session later : Session} (h : Move kept? fresh session later)
    {scope : ScopeId} (hNew : session.environment.frames.size ≤ scope.index) {name : String}
    {value : Value} (hBound : later.environment.getLocal? scope name = some value) :
    ∃ (id : ClosureId) (closure : Closure) (values : List Value) (receiver? : Option Value),
      session.closures[id.index]? = some closure ∧
        (receiver?.isSome → session.HasMethod (.function (.closure id))) ∧
        later.environment.parent? scope = some closure.scope ∧
        ((closure.frame session.hierarchy values).withReceiver receiver?).bindings.get? name =
          some value := by
  have hBefore : session.environment.getLocal? scope name ≠ some value := by
    intro hLocal
    rw [Environment.getLocal?, Environment.bindings_of_le hNew] at hLocal
    cases hLocal
  have hDefine : ∀ target given other,
      (session.environment.define target given other).getLocal? scope name ≠ some value := by
    intro target given other
    rw [Environment.getLocal?_define, if_neg]
    · exact hBefore
    · rintro ⟨rfl, hExists, -⟩
      exact Nat.not_lt.mpr hNew hExists
  cases h with
  | note | lambda | define => exact absurd hBound hBefore
  | @body id closure hClosure values receiver? hMethod =>
      rw [Session.pushFrame, Session.mapEnvironment, Environment.getLocal?_pushFrame] at hBound
      split at hBound
      · rename_i hHere
        refine ⟨id, closure, values, receiver?, hClosure, hMethod, ?_, hBound⟩
        have hFrame : (session.pushFrame ((closure.frame session.hierarchy values).withReceiver
            receiver?)).environment.frames[scope.index]? =
              some ((closure.frame session.hierarchy values).withReceiver receiver?) := by
          rw [hHere]
          exact Array.getElem?_push_size
        rw [Environment.parent?, hFrame]
        cases receiver? <;> rfl
      · exact absurd hBound hBefore
  | definitions _ =>
      rw [Session.pushFrame, Session.mapEnvironment, Environment.getLocal?_pushFrame] at hBound
      split at hBound
      · cases hBound
      · exact absurd hBound hBefore
  | function _ _ _ => exact absurd hBound (hDefine _ _ _)
  | set _ _ value => exact absurd hBound (hDefine _ _ _)
  | extend _ _ _ => exact absurd (Session.getLocal?_of_collect hBound) hBefore

namespace Course

variable {first second third : Session}

theorem continues (h : Course kept? first second) : first.Continues second := by
  induction h with
  | start => exact .refl first
  | next _ hMove ih => exact ih.trans hMove.continues

theorem trans (h : Course kept? first second) (h' : Course kept? second third) :
    Course kept? first third := by
  induction h' with
  | start => exact h
  | next _ hMove ih => exact .next ih (hMove.mono h.continues.frames)

theorem of_move (h : Move kept? first.environment.frames.size first second) :
    Course kept? first second :=
  .next .start h

end Course

end MessageLisp
