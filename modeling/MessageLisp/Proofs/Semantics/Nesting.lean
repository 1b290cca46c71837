import Mathlib
import MessageLisp.Proofs.Semantics.Ownership
import MessageLisp.Proofs.Semantics.Course

/-! Functions nested in the body of a method. On a course that keeps the scope of the body, the receiver and
the class above stay bound there. They are seen from every scope inside, as long as none of the functions
there is a method itself or has a parameter of one of the two names. -/
namespace MessageLisp

/-! ### The scope of a body -/

/-- The functions nested in a body are plain ones: none of them has been made a method, and none of them has
a parameter that hides the receiver or the class above. -/
def Session.PlainInside (session : Session) (body : ScopeId) : Prop :=
  ∀ (id : ClosureId) (closure : Closure), session.closures[id.index]? = some closure →
    body ∈ session.environment.chain closure.scope →
      closure.owner? = none ∧
        ∀ parameter ∈ closure.prototype.parameters, parameter.name ≠ selfName ∧ parameter.name ≠ superName

/-- Every closure in a method table belongs to some class. -/
def Session.MethodsOwned (session : Session) : Prop :=
  ∀ {id : ClosureId}, session.HasMethod (.function (.closure id)) → (session.ownerOf? id).isSome = true

/-- A closure that belongs to no class has never belonged to one. -/
theorem Closure.Later.owner?_eq_none {closure closure' : Closure} (h : closure.Later closure')
    (hOwner : closure'.owner? = none) : closure.owner? = none := by
  rcases h with rfl | ⟨hSome, -⟩
  · exact hOwner
  · rw [hOwner] at hSome
    cases hSome

namespace Session

variable {first last session : Session} {body scope : ScopeId} {name : String}

theorem Continues.mem_chain (h : first.Continues last) (hInside : body ∈ first.environment.chain scope) :
    body ∈ last.environment.chain scope := by
  by_cases hScope : scope.index < first.environment.frames.size
  · rwa [h.chain_eq hScope]
  · rcases Environment.mem_chain_iff.mp hInside with rfl | ⟨parent, hParent, -⟩
    · exact Environment.mem_chain_self ..
    · rw [Environment.parent?, Array.getElem?_eq_none (Nat.not_lt.mp hScope)] at hParent
      cases hParent

theorem Continues.isSome_ownerOf? (h : first.Continues last) {id : ClosureId}
    (hOwner : (first.ownerOf? id).isSome = true) : (last.ownerOf? id).isSome = true := by
  obtain ⟨owner, hSome⟩ := Option.isSome_iff_exists.mp hOwner
  obtain ⟨closure, hClosure, hOwned⟩ := Option.bind_eq_some_iff.mp hSome
  obtain ⟨closure', hClosure', hLater⟩ := h.closure hClosure
  rw [ownerOf?, hClosure', Option.bind_some]
  rcases hLater with rfl | ⟨hOwner', -⟩
  · rw [hOwned, Option.isSome_some]
  · exact hOwner'

/-- Functions that are plain have been so before. -/
theorem PlainInside.before (h : last.PlainInside body) (hContinues : first.Continues last) :
    first.PlainInside body := by
  intro id closure hClosure hInside
  obtain ⟨closure', hClosure', hLater⟩ := hContinues.closure hClosure
  have hPlain := h id closure' hClosure' (by
    rw [hLater.scope_eq]
    exact hContinues.mem_chain hInside)
  rw [hLater.prototype_eq] at hPlain
  exact ⟨hLater.owner?_eq_none hPlain.1, hPlain.2⟩

/-- Inside the body no form may bind the two names. -/
theorem not_mayBind (hBody : body ≠ Environment.root) (hInside : body ∈ session.environment.chain scope)
    (hName : name = selfName ∨ name = superName) : ¬session.MayBind (some body) scope name := by
  intro hMay
  rcases hMay body rfl with (rfl | ⟨-, hOutside⟩) | ⟨hSelf, hSuper⟩
  · have hIndex := Environment.index_le_of_mem_chain hInside
    apply hBody
    cases body
    rw [Environment.root, ScopeId.mk.injEq]
    exact Nat.le_zero.mp hIndex
  · exact hOutside hInside
  · exact hName.elim hSelf hSuper

end Session

variable {first last session later : Session} {body scope : ScopeId} {name : String}

/-- In a scope inside the body, a move leaves the two names as they are or takes them away. -/
theorem Move.getLocal?_inside {fresh : Nat} (h : Move (some body) fresh session later)
    (hBody : body ≠ Environment.root) (hScope : scope.index < session.environment.frames.size)
    (hInside : body ∈ session.environment.chain scope) (hName : name = selfName ∨ name = superName) :
    later.environment.getLocal? scope name = session.environment.getLocal? scope name ∨
      fresh ≤ scope.index ∧ later.environment.getLocal? scope name = none := by
  cases h.binds hScope name with
  | same hSame => exact .inl hSame
  | made _ hBind => exact absurd hBind (Session.not_mayBind hBody hInside hName)
  | @set inner _ hBind hTarget =>
      have hAround : scope ∈ session.environment.chain inner := by
        rcases hTarget with hResolves | ⟨rfl, -⟩
        · exact hResolves.1.1
        · exact Environment.mem_chain_self ..
      exact absurd hBind
        (Session.not_mayBind hBody (Environment.mem_chain_trans hAround hInside) hName)
  | taken hFresh hNone => exact .inr ⟨hFresh, hNone⟩

theorem Hierarchy.localMethod?_of_define {h h' : Hierarchy} {given : String}
    {superclass? : Option ClassId} {fields : List String} {new : ClassId}
    (hDefine : h.define given superclass? fields = .ok (new, h')) {cls : ClassId} {selector : String}
    {method : Method} (hMethod : h'.localMethod? cls selector = some method) :
    h.localMethod? cls selector = some method := by
  obtain ⟨-, -, rfl⟩ := Hierarchy.define_eq_ok_iff.mp hDefine
  rw [Hierarchy.localMethod?, Hierarchy.get?_push] at hMethod
  split at hMethod
  · cases hMethod
  · exact hMethod

theorem Move.methodsOwned {fresh : Nat} (h : Move (some body) fresh session later)
    (hOwned : session.MethodsOwned) : later.MethodsOwned := by
  have hContinues := h.continues
  rintro id ⟨cls, selector, hMethod⟩
  have hBefore : session.hierarchy.localMethod? cls selector = some (.function (.closure id)) →
      (later.ownerOf? id).isSome = true :=
    fun hOld => hContinues.isSome_ownerOf? (hOwned ⟨cls, selector, hOld⟩)
  cases h with
  | note | body | definitions | lambda | function | set => exact hBefore hMethod
  | define hDefine => exact hBefore (Hierarchy.localMethod?_of_define hDefine hMethod)
  | @extend target source hFresh names hSound =>
      rcases hSound nofun with rfl | hSound
      · simp only [Session.collect, Session.install, Session.mapHierarchy,
          Hierarchy.localMethod?_installAll] at hMethod
        split at hMethod
        · exact hBefore hMethod
        · exact hBefore hMethod
      · have hExtends := Session.extends_install hSound target source names
        rcases hExtends.methods hMethod with hOld | ⟨-, hNew⟩
        · exact hBefore hOld
        · have hTakes : (Extension.mk target (session.collect target source names).1).takes id = true := by
            rw [Extension.takes, List.any_eq_true]
            exact ⟨_, hNew, decide_eq_true rfl⟩
          rw [hExtends.owners, if_pos hTakes, Option.isSome_some]

/-- The body of a plain function that runs without a receiver binds neither name. -/
theorem Closure.get?_frame_of_plain {closure : Closure} (hOwner : closure.owner? = none)
    (hParameters : ∀ parameter ∈ closure.prototype.parameters,
      parameter.name ≠ selfName ∧ parameter.name ≠ superName) (hierarchy : Hierarchy)
    (values : List Value) (hName : name = selfName ∨ name = superName) :
    (closure.frame hierarchy values).bindings.get? name = none := by
  rw [Option.eq_none_iff_forall_ne_some]
  intro value hBound
  rcases closure.frame_cases hBound with ⟨-, superclass, hAbove, -⟩ | hMem
  · rw [hOwner] at hAbove
    cases hAbove
  · obtain ⟨parameter, hParameter, rfl⟩ := List.mem_map.mp (List.of_mem_zip hMem).1
    obtain ⟨hSelf, hSuper⟩ := hParameters parameter hParameter
    exact hName.elim hSelf hSuper

namespace Course

theorem methodsOwned (h : Course (some body) first last) (hOwned : first.MethodsOwned) :
    last.MethodsOwned := by
  induction h with
  | start => exact hOwned
  | next _ hMove ih => exact hMove.methodsOwned ih

/-- The scope of a body keeps the receiver and the class above. -/
theorem getLocal?_body (h : Course (some body) first last) (hBody : body ≠ Environment.root)
    (hScope : body.index < first.environment.frames.size) (hName : name = selfName ∨ name = superName) :
    last.environment.getLocal? body name = first.environment.getLocal? body name := by
  induction h with
  | start => rfl
  | next hPast hMove ih =>
      have hPresent := Nat.lt_of_lt_of_le hScope hPast.continues.frames
      rcases hMove.getLocal?_inside hBody hPresent (Environment.mem_chain_self ..) hName with
        hSame | ⟨hFresh, -⟩
      · rw [hSame, ih]
      · exact absurd hScope (Nat.not_lt.mpr hFresh)

/-- The scopes inside that of a body have neither name, as long as the functions there are plain. -/
theorem getLocal?_inside (h : Course (some body) first last) (hBody : body ≠ Environment.root)
    (hNewest : first.environment.frames.size = body.index + 1) (hOwned : first.MethodsOwned)
    (hPlain : last.PlainInside body) (hInside : body ∈ last.environment.chain scope)
    (hOther : scope ≠ body) (hName : name = selfName ∨ name = superName) :
    last.environment.getLocal? scope name = none := by
  induction h generalizing scope with
  | start =>
      have hBeyond : first.environment.frames.size ≤ scope.index := by
        have hIndex := Environment.index_le_of_mem_chain hInside
        have hNe : scope.index ≠ body.index := by
          intro hIndex
          apply hOther
          cases scope
          cases body
          simp_all
        omega
      rw [Environment.getLocal?, Environment.bindings_of_le hBeyond]
      rfl
  | @next session later hPast hMove ih =>
      have hContinues := hMove.continues
      rcases Nat.lt_or_ge scope.index session.environment.frames.size with hOld | hNew
      · rw [hContinues.chain_eq hOld] at hInside
        rcases hMove.getLocal?_inside hBody hOld hInside hName with hSame | ⟨-, hNone⟩
        · rw [hSame]
          exact ih (hPlain.before hContinues) hInside hOther
        · exact hNone
      · -- A scope that has just been opened: it is that of a body nested in this one.
        rw [Option.eq_none_iff_forall_ne_some]
        intro value hBound
        obtain ⟨id, closure, values, receiver?, hClosure, hMethod, hParent, hFrame⟩ :=
          hMove.binds_new hNew hBound
        obtain ⟨closure', hClosure', hLater⟩ := hContinues.closure hClosure
        have hNested : body ∈ later.environment.chain closure'.scope := by
          rcases Environment.mem_chain_iff.mp hInside with hSame | ⟨parent, hParent', -, hMem⟩
          · exact absurd hSame.symm hOther
          · rw [hParent] at hParent'
            cases hParent'
            rwa [hLater.scope_eq]
        obtain ⟨hOwner', hParameters⟩ := hPlain id closure' hClosure' hNested
        rw [hLater.prototype_eq] at hParameters
        have hOwner := hLater.owner?_eq_none hOwner'
        rcases Frame.withReceiver_cases hFrame with ⟨-, hReceiver⟩ | hFrame
        · have hOwned' := hPast.methodsOwned hOwned (hMethod (by rw [hReceiver, Option.isSome_some]))
          rw [Session.ownerOf?, hClosure, Option.bind_some, hOwner] at hOwned'
          cases hOwned'
        · rw [closure.get?_frame_of_plain hOwner hParameters _ _ hName] at hFrame
          cases hFrame

/-- From everywhere inside a body one sees the receiver and the class above that it started with. -/
theorem lookup?_inside (h : Course (some body) first last) (hBody : body ≠ Environment.root)
    (hNewest : first.environment.frames.size = body.index + 1) (hOwned : first.MethodsOwned)
    (hPlain : last.PlainInside body) (hInside : body ∈ last.environment.chain scope)
    (hName : name = selfName ∨ name = superName) {value : Value}
    (hValue : first.environment.getLocal? body name = some value) :
    last.environment.lookup? scope name = some value := by
  have hSees : last.environment.Sees name scope body :=
    Environment.sees_of_mem_chain hInside fun other hMem hOther =>
      h.getLocal?_inside hBody hNewest hOwned hPlain hMem hOther hName
  have hLocal := h.getLocal?_body hBody (by omega) hName
  rw [Environment.lookup?_eq_findSome?]
  exact hSees.findSome? (hLocal.trans hValue)

end Course

end MessageLisp
