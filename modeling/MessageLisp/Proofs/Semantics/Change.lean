import MessageLisp.Proofs.Semantics.References

/-! What can happen to a session. Evaluation changes a session in a dozen ways only, and each of them
keeps a session sound. Methods and the classes that own them change in one way only: by an extension
of a class. -/
namespace MessageLisp

/-! ### Extensions -/

/-- An extension of a class by methods. -/
structure Extension where
  cls : ClassId
  methods : List (String × Method)

/-- Whether the extension makes the closure a method. -/
def Extension.takes (extension : Extension) (id : ClosureId) : Bool :=
  extension.methods.any (·.2 = .function (.closure id))

namespace Session

/-- Takes a function out of a scope to make it a method. A closure takes on the class and the
name. -/
def takeMethod (session : Session) (cls : ClassId) (scope : ScopeId) (name : String)
    (target : FunctionRef) : Session :=
  let session := session.mapEnvironment (·.remove scope name)
  match target with
  | .closure id => session.modifyClosure id fun closure =>
      { closure with owner? := some cls, name? := some name }
  | _ => session

/-- Takes the functions of the given names out of a scope. -/
def collect (cls : ClassId) (scope : ScopeId) : List String → Session → List (String × Method) × Session
  | [], session => ([], session)
  | name :: names, session =>
    match session.environment.getLocal? scope name with
    | some (.function target) =>
      let (methods, later) := collect cls scope names (session.takeMethod cls scope name target)
      ((name, .function target) :: methods, later)
    | _ => collect cls scope names session

/-- Installs methods in a class. -/
def install (session : Session) (extension : Extension) : Session :=
  session.mapHierarchy (·.installAll extension.cls extension.methods)

/-- The session with one more scope. -/
def pushFrame (session : Session) (frame : Frame Value) : Session :=
  session.mapEnvironment (·.pushFrame frame)

end Session

/-- Some closure has a parameter of the name. -/
def Session.IsParameter (session : Session) (name : String) : Prop :=
  ∃ (id : ClosureId) (closure : Closure), session.closures[id.index]? = some closure ∧
    ∃ parameter ∈ closure.prototype.parameters, parameter.name = name

/-- The value is a closure that was given the name. -/
def Session.IsNamed (session : Session) (name : String) (value : Value) : Prop :=
  ∃ id closure, value = .function (.closure id) ∧ session.closures[id.index]? = some closure ∧
    closure.name? = some name ∧ closure.owner? = none

/-- One change, and the extensions that it makes: one or none. The host defines the names that are
free to it as it likes. A program defines names for closures, assigns variables, and binds parameters
and receivers. -/
inductive Change (free : String → Prop) : Session → List Extension → Session → Prop where
  /-- The books are kept: nothing that a program can refer to changes. -/
  | note (session : Session) (depth : Nat) (source? : Option SourceText)
      (faultSite? : Option FaultSite) (output : String) (lastError? : Option Error) :
      Change free session [] { session with depth, source?, faultSite?, output, lastError? }
  | pushFrame {session : Session} {frame : Frame Value}
      (hLive : ∀ name value, frame.bindings.get? name = some value → value.Lives session)
      (hNames : ∀ name value, frame.bindings.get? name = some value →
        name = selfName ∨ name = superName ∨ session.IsParameter name) :
      Change free session [] (session.pushFrame frame)
  | define {session : Session} (scope : ScopeId) {name : String} {value : Value}
      (hLive : value.Lives session) (hName : free name ∨ session.IsNamed name value) :
      Change free session [] (session.mapEnvironment (·.define scope name value))
  | assign {session : Session} (scope : ScopeId) {name : String} {value : Value}
      (hName : Source.isKeyword name = false ∧ name ≠ selfName) (hLive : value.Lives session) :
      Change free session [] (session.mapEnvironment (·.assign scope name value))
  | addClosure (session : Session) {closure : Closure} (hOwner : closure.owner? = none)
      (hParameters : ∀ parameter ∈ closure.prototype.parameters,
        free parameter.name ∨ Source.isKeyword parameter.name = false) :
      Change free session [] (session.addClosure closure).2
  | nameClosure (session : Session) (id : ClosureId) (name : String) :
      Change free session [] (session.modifyClosure id ({ · with name? := some name }))
  | addInstance {session : Session} {id : ClassId} {cls : Class}
      (hClass : session.hierarchy.get? id = some cls) :
      Change free session [] (session.addInstance ⟨id, Array.replicate cls.fields.length .null⟩).2
  | setSlot {session : Session} {id : InstanceId} {object : Instance} {slot : Nat} {value : Value}
      (hObject : session.instances[id.index]? = some object) (hSlot : slot < object.slots.size)
      (hLive : value.Lives session) :
      Change free session []
        { session with
          instances := session.instances.modify id.index
            ({ · with slots := object.slots.set slot value hSlot }) }
  | defineClass {session : Session} {name : String} {superclass id : ClassId} {fields : List String}
      {hierarchy : Hierarchy} (hSuperclass : superclass.index < session.hierarchy.classes.size)
      (hDefine : session.hierarchy.define name (some superclass) fields = .ok (id, hierarchy)) :
      Change free session [] { session with hierarchy }
  | extend (session : Session) (cls : ClassId) (scope : ScopeId) (names : List String) :
      Change free session [⟨cls, (session.collect cls scope names).1⟩]
        ((session.collect cls scope names).2.install ⟨cls, (session.collect cls scope names).1⟩)
  | addHost (session : Session) {host : HostFunction} (hSteady : host.Steady) :
      Change free session [] (session.addHost host).2
  | close (session : Session) : Change free session [] session.close

variable {free : String → Prop}

theorem Change.clearFaultSite (session : Session) : Change free session [] session.clearFaultSite :=
  .note session session.depth session.source? none session.output session.lastError?

theorem Change.noteFaultSite (session : Session) (expr : Source.Expr) :
    Change free session [] (session.noteFaultSite expr) := by
  rw [Session.noteFaultSite]
  split
  · exact .note session ..
  · exact .note session ..

/-! ### Changes lose nothing -/

namespace Session

/-- Sessions with the same classes and at least as many of everything else. -/
theorem Grows.of_hierarchy {before after : Session} (hHierarchy : after.hierarchy = before.hierarchy)
    (hHosts : before.hosts.size ≤ after.hosts.size)
    (hClosures : before.closures.size ≤ after.closures.size)
    (hInstances : before.instances.size ≤ after.instances.size) : before.Grows after where
  hosts := hHosts
  closures := hClosures
  instances := hInstances
  classes hClass := ⟨_, hHierarchy ▸ hClass, rfl⟩

theorem Grows.of_classes {session : Session} {hierarchy : Hierarchy}
    (hClasses : ∀ {id : ClassId} {cls : Class}, session.hierarchy.get? id = some cls →
      ∃ cls', hierarchy.get? id = some cls' ∧ cls'.fields = cls.fields) :
    session.Grows { session with hierarchy } where
  hosts := Nat.le_refl _
  closures := Nat.le_refl _
  instances := Nat.le_refl _
  classes := hClasses

theorem takeMethod_grows (session : Session) (cls : ClassId) (scope : ScopeId) (name : String)
    (target : FunctionRef) : session.Grows (session.takeMethod cls scope name target) := by
  cases target with
  | closure id =>
      exact .of_hierarchy rfl (Nat.le_refl _) (Nat.le_of_eq (Array.size_modify ..).symm)
        (Nat.le_refl _)
  | builtin builtin => exact .of_hierarchy rfl (Nat.le_refl _) (Nat.le_refl _) (Nat.le_refl _)
  | host id => exact .of_hierarchy rfl (Nat.le_refl _) (Nat.le_refl _) (Nat.le_refl _)

theorem install_grows (session : Session) (extension : Extension) :
    session.Grows (session.install extension) := by
  show session.Grows
    { session with hierarchy := session.hierarchy.installAll extension.cls extension.methods }
  apply Grows.of_classes
  intro id cls hClass
  rw [Hierarchy.installAll, Hierarchy.get?_modifyMethods, hClass]
  refine ⟨_, rfl, ?_⟩
  split <;> rfl

theorem close_grows (session : Session) : session.Grows session.close where
  hosts := Nat.le_refl _
  closures := Nat.le_refl _
  instances := Nat.le_refl _
  classes {id cls} hClass := by
    refine ⟨{ cls with methods := [] }, ?_, rfl⟩
    simp only [close, Hierarchy.get?_clearMethods, hClass, Option.map_some]

/-- Collecting methods, one name after the other. -/
theorem collect_induction {P : Session → Prop} (cls : ClassId) (scope : ScopeId)
    (hTake : ∀ session name target,
      session.environment.getLocal? scope name = some (.function target) → P session →
        P (session.takeMethod cls scope name target))
    (names : List String) {session : Session} (h : P session) :
    P (session.collect cls scope names).2 := by
  induction names generalizing session with
  | nil => exact h
  | cons name names ih =>
      rw [collect]
      split
      · rename_i target hBound
        exact ih (hTake session name target hBound h)
      · exact ih h

theorem collect_hierarchy (session : Session) (cls : ClassId) (scope : ScopeId) (names : List String) :
    (session.collect cls scope names).2.hierarchy = session.hierarchy := by
  apply collect_induction (P := (·.hierarchy = session.hierarchy))
  · intro later name target _ hHierarchy
    rw [← hHierarchy]
    cases target <;> rfl
  · rfl

theorem collect_grows (session : Session) (cls : ClassId) (scope : ScopeId) (names : List String) :
    session.Grows (session.collect cls scope names).2 := by
  apply collect_induction (P := session.Grows)
  · intro later name target _ hGrows
    exact hGrows.trans (later.takeMethod_grows cls scope name target)
  · exact Grows.refl session

end Session

theorem Change.grows {session later : Session} {log : List Extension}
    (h : Change free session log later) : session.Grows later := by
  cases h with
  | note | pushFrame _ | define _ _ _ | assign _ _ _ =>
      exact .of_hierarchy rfl (Nat.le_refl _) (Nat.le_refl _) (Nat.le_refl _)
  | addClosure _ => exact .of_hierarchy rfl (Nat.le_refl _) (by simp [Session.addClosure]) (Nat.le_refl _)
  | nameClosure _ _ =>
      exact .of_hierarchy rfl (Nat.le_refl _) (by simp [Session.modifyClosure]) (Nat.le_refl _)
  | addInstance _ => exact .of_hierarchy rfl (Nat.le_refl _) (Nat.le_refl _) (by simp [Session.addInstance])
  | setSlot _ _ _ => exact .of_hierarchy rfl (Nat.le_refl _) (Nat.le_refl _) (by simp)
  | defineClass _ hDefine =>
      obtain ⟨-, -, rfl⟩ := Hierarchy.define_eq_ok_iff.mp hDefine
      apply Session.Grows.of_classes
      intro id cls hClass
      have hOld := Nat.ne_of_lt (Hierarchy.index_lt_of_get? hClass)
      exact ⟨cls, by rw [Hierarchy.get?_push, if_neg hOld, hClass], rfl⟩
  | extend cls scope names =>
      exact (session.collect_grows cls scope names).trans (Session.install_grows _ _)
  | addHost _ => exact .of_hierarchy rfl (by simp [Session.addHost]) (Nat.le_refl _) (Nat.le_refl _)
  | close => exact session.close_grows

/-! ### Changes keep sessions sound -/

namespace Session

variable {session : Session}

theorem Sound.update_environment (h : session.Sound) {f : Environment Value → Environment Value}
    (hBindings : ∀ scope name value, (f session.environment).getLocal? scope name = some value →
      session.environment.getLocal? scope name = some value ∨ value.Lives session) :
    (session.mapEnvironment f).Sound := by
  have hGrows : session.Grows (session.mapEnvironment f) :=
    .of_hierarchy rfl (Nat.le_refl _) (Nat.le_refl _) (Nat.le_refl _)
  refine h.update hGrows ?_ (fun _ _ _ => .inl) (fun _ _ => .inl) (fun _ _ => .inl) (fun _ _ => .inl)
  intro scope name value hBound
  rcases hBindings scope name value hBound with hOld | hNew
  · exact .inl hOld
  · exact .inr (hNew.mono hGrows)

theorem Sound.define (h : session.Sound) (scope : ScopeId) (name : String) {value : Value}
    (hLive : value.Lives session) : (session.mapEnvironment (·.define scope name value)).Sound := by
  apply h.update_environment
  intro other name' value' hBound
  rw [Environment.getLocal?_define] at hBound
  split at hBound
  · cases hBound
    exact .inr hLive
  · exact .inl hBound

theorem takeMethod_sound (h : session.Sound) (cls : ClassId) (scope : ScopeId) (name : String)
    (target : FunctionRef) : (session.takeMethod cls scope name target).Sound := by
  have hBindings : ∀ other name' value,
      (session.environment.remove scope name).getLocal? other name' = some value →
        session.environment.getLocal? other name' = some value := by
    intro other name' value hBound
    rw [Environment.getLocal?_remove] at hBound
    split at hBound
    · cases hBound
    · exact hBound
  have hGrows := session.takeMethod_grows cls scope name target
  cases target <;>
    exact h.update hGrows (fun other name' value hBound => .inl (hBindings other name' value hBound))
      (fun _ _ _ => .inl) (fun _ _ => .inl) (fun _ _ => .inl) (fun _ _ => .inl)

theorem collect_sound (h : session.Sound) (cls : ClassId) (scope : ScopeId) (names : List String) :
    (session.collect cls scope names).2.Sound := by
  apply collect_induction (P := Sound)
  · intro later name target _ hSound
    exact takeMethod_sound hSound cls scope name target
  · exact h

/-- What is collected are functions that exist. -/
theorem collect_lives (h : session.Sound) (cls : ClassId) (scope : ScopeId) (names : List String) :
    ∀ entry ∈ (session.collect cls scope names).1,
      entry.2.Fits (session.collect cls scope names).2 entry.1 := by
  induction names generalizing session with
  | nil => simp [collect]
  | cons name names ih =>
      rw [collect]
      split
      · rename_i target hBound
        have hSound := takeMethod_sound h cls scope name target
        have hTarget : target.Lives session := h.bindings hBound
        have hGrows := (session.takeMethod_grows cls scope name target).trans
          (collect_grows _ cls scope names)
        intro entry hEntry
        rcases List.mem_cons.mp hEntry with hFirst | hRest
        · subst hFirst
          exact hTarget.mono hGrows
        · exact ih hSound entry hRest
      · exact ih h

theorem install_sound (h : session.Sound) {extension : Extension}
    (hMethods : ∀ entry ∈ extension.methods, entry.2.Fits session entry.1) :
    (session.install extension).Sound := by
  have hGrows := session.install_grows extension
  refine h.update hGrows (fun _ _ _ => .inl) ?_ ?_ (fun _ _ => .inl) (fun _ _ => .inl)
  · intro id selector method hMethod
    have hEntry : (session.hierarchy.installAll extension.cls extension.methods).localMethod? id
      selector = some method := hMethod
    rw [Hierarchy.localMethod?_installAll] at hEntry
    split at hEntry
    · rcases Option.or_eq_some_iff.mp hEntry with hNew | ⟨-, hOld⟩
      · have hMem := List.mem_reverse.mp (Table.mem_of_get? hNew)
        exact .inr ((hMethods _ hMem).mono hGrows)
      · exact .inl hOld
    · exact .inl hEntry
  · intro id parent hParent
    have hAbove : (session.hierarchy.installAll extension.cls extension.methods).superclass? id =
      some parent := hParent
    rw [Hierarchy.installAll, Hierarchy.superclass?_modifyMethods] at hAbove
    exact .inl hAbove

end Session

theorem Change.sound {session later : Session} {log : List Extension}
    (h : Change free session log later) (hSound : session.Sound) : later.Sound := by
  have hGrows := h.grows
  cases h with
  | note | addClosure _ | nameClosure _ _ =>
      exact hSound.update hGrows (fun _ _ _ => .inl) (fun _ _ _ => .inl) (fun _ _ => .inl)
        (fun _ _ => .inl) (fun _ _ => .inl)
  | @pushFrame frame hLive _ =>
      apply hSound.update_environment
      intro scope name value hBound
      rw [Environment.getLocal?_pushFrame] at hBound
      split at hBound
      · exact .inr (hLive name value hBound)
      · exact .inl hBound
  | @define scope name _ hLive _ => exact hSound.define scope name hLive
  | assign scope hName hLive => exact hSound.define _ _ hLive
  | @addInstance id cls hClass =>
      refine hSound.update hGrows (fun _ _ _ => .inl) (fun _ _ _ => .inl) (fun _ _ => .inl) ?_
        (fun _ _ => .inl)
      intro index object hObject
      simp only [Session.addInstance, Array.getElem?_push] at hObject
      split at hObject
      · cases hObject
        refine .inr ⟨⟨cls, hClass, Array.size_replicate⟩, ?_⟩
        intro value hValue
        rw [(Array.mem_replicate.mp hValue).2]
        trivial
      · exact .inl hObject
  | @setSlot id object slot value hObject hSlot hLive =>
      refine hSound.update hGrows (fun _ _ _ => .inl) (fun _ _ _ => .inl) (fun _ _ => .inl) ?_
        (fun _ _ => .inl)
      intro index changed hChanged
      rw [Array.getElem?_modify] at hChanged
      split at hChanged
      · rename_i hIndex
        subst hIndex
        rw [hObject] at hChanged
        cases hChanged
        have hFits := hSound.instances hObject
        refine .inr ⟨by simpa using hFits.cls, ?_⟩
        intro value' hValue'
        rcases Array.mem_or_eq_of_mem_set (w := hSlot) hValue' with hOld | hNew
        · exact (hFits.slots value' hOld).mono hGrows
        · exact hNew ▸ hLive.mono hGrows
      · exact .inl hChanged
  | @defineClass name superclass id fields hierarchy hSuperclass hDefine =>
      obtain ⟨-, -, rfl⟩ := Hierarchy.define_eq_ok_iff.mp hDefine
      refine hSound.update hGrows (fun _ _ _ => .inl) ?_ ?_ (fun _ _ => .inl) (fun _ _ => .inl)
      · intro other selector method hMethod
        simp only [Hierarchy.localMethod?, Hierarchy.get?_push] at hMethod
        split at hMethod
        · cases hMethod
        · exact .inl hMethod
      · intro other parent hParent
        simp only [Hierarchy.superclass?, Hierarchy.get?_push] at hParent
        split at hParent
        · cases hParent
          exact .inr (hGrows.index_lt hSuperclass)
        · exact .inl hParent
  | extend cls scope names =>
      exact Session.install_sound (Session.collect_sound hSound cls scope names)
        (Session.collect_lives hSound cls scope names)
  | addHost hSteady =>
      refine hSound.update hGrows (fun _ _ _ => .inl) (fun _ _ _ => .inl) (fun _ _ => .inl)
        (fun _ _ => .inl) ?_
      intro index host hHost
      simp only [Session.addHost, Array.getElem?_push] at hHost
      split at hHost
      · cases hHost
        exact .inr hSteady
      · exact .inl hHost
  | close =>
      refine hSound.update hGrows ?_ ?_ ?_ (fun _ _ => .inl) (fun _ _ => .inl)
      · intro scope name value hBound
        simp only [Session.close, Environment.clear, Environment.getLocal?,
          Environment.bindings_modifyBindings] at hBound
        split at hBound
        · cases hBound
        · exact .inl hBound
      · intro id selector method hMethod
        simp only [Session.close, Hierarchy.localMethod?, Hierarchy.get?_clearMethods] at hMethod
        cases hClass : session.hierarchy.get? id <;> simp [hClass, Table.get?] at hMethod
      · intro id parent hParent
        simp only [Session.close, Hierarchy.superclass?, Hierarchy.get?_clearMethods] at hParent
        left
        rw [← hParent, Hierarchy.superclass?]
        cases session.hierarchy.get? id <;> rfl

/-- More names may be free. -/
theorem Change.mono {free' : String → Prop} (hFree : ∀ name, free name → free' name)
    {session later : Session} {log : List Extension} (h : Change free session log later) :
    Change free' session log later := by
  cases h with
  | note => exact .note session ..
  | pushFrame hLive hNames => exact .pushFrame hLive hNames
  | define scope hLive hName => exact .define scope hLive (hName.imp_left (hFree _))
  | assign scope hName hLive => exact .assign scope hName hLive
  | addClosure hOwner hParameters =>
      exact .addClosure session hOwner fun parameter hMem =>
        (hParameters parameter hMem).imp_left (hFree _)
  | nameClosure id name => exact .nameClosure session id name
  | addInstance hClass => exact .addInstance hClass
  | setSlot hObject hSlot hLive => exact .setSlot hObject hSlot hLive
  | defineClass hSuperclass hDefine => exact .defineClass hSuperclass hDefine
  | extend cls scope names => exact .extend session cls scope names
  | addHost hSteady => exact .addHost session hSteady
  | close => exact .close session

/-! ### Histories -/

/-- Changes one after the other, and the extensions made by them, the last one first. -/
inductive History (free : String → Prop) (first : Session) : List Extension → Session → Prop where
  | start : History free first [] first
  | next {log log' : List Extension} {session later : Session} (hPast : History free first log session)
      (hChange : Change free session log' later) : History free first (log' ++ log) later

theorem History.trans {first second third : Session} {log log' : List Extension}
    (h : History free first log second) (h' : History free second log' third) :
    History free first (log' ++ log) third := by
  induction h' with
  | start => exact h
  | next _ hChange ih =>
      rw [List.append_assoc]
      exact .next ih hChange

theorem History.grows {first last : Session} {log : List Extension} (h : History free first log last) :
    first.Grows last := by
  induction h with
  | start => exact .refl first
  | next _ hChange ih => exact ih.trans hChange.grows

theorem History.sound {first last : Session} {log : List Extension} (h : History free first log last)
    (hSound : first.Sound) : last.Sound := by
  induction h with
  | start => exact hSound
  | next _ hChange ih => exact hChange.sound ih

theorem History.mono {free' : String → Prop} (hFree : ∀ name, free name → free' name)
    {first last : Session} {log : List Extension} (h : History free first log last) :
    History free' first log last := by
  induction h with
  | start => exact .start
  | next _ hChange ih => exact .next ih (hChange.mono hFree)

/-- The second session came about from the first one by changes that no host had a part in. -/
def Session.Evolves (first last : Session) : Prop :=
  ∃ log, History (fun _ => False) first log last

namespace Session.Evolves

variable {first second third : Session}

theorem refl (session : Session) : session.Evolves session :=
  ⟨[], .start⟩

theorem trans (h : first.Evolves second) (h' : second.Evolves third) : first.Evolves third := by
  obtain ⟨log, hPast⟩ := h
  obtain ⟨log', hRest⟩ := h'
  exact ⟨_, hPast.trans hRest⟩

theorem of_change {log : List Extension} (h : Change (fun _ => False) first log second) :
    first.Evolves second :=
  ⟨_, .next .start h⟩

theorem history (h : first.Evolves second) : ∃ log, History free first log second := by
  obtain ⟨log, hPast⟩ := h
  exact ⟨log, hPast.mono fun _ hNever => hNever.elim⟩

theorem grows (h : first.Evolves second) : first.Grows second := by
  obtain ⟨log, hPast⟩ := h
  exact hPast.grows

theorem sound (h : first.Evolves second) (hSound : first.Sound) : second.Sound := by
  obtain ⟨log, hPast⟩ := h
  exact hPast.sound hSound

end Session.Evolves

end MessageLisp
