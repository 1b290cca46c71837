import MessageLisp.Proofs.Semantics.Inspection

/-! The rules of the language proceed in an orderly way from every sound session. -/
namespace MessageLisp

open Source (Expr)

/-! ### Scopes of bodies -/

/-- The scope that the body of a closure starts in, but for the receiver. -/
def Closure.frame (closure : Closure) (hierarchy : Hierarchy) (values : List Value) : Frame Value where
  bindings :=
    let parameters := Table.setAll [] ((closure.prototype.parameters.map Parameter.name).zip values)
    match closure.owner?.bind hierarchy.superclass? with
    | some superclass => parameters.set superName (.classRef superclass)
    | none => parameters
  parent := some closure.scope

/-- The frame of a body with the receiver, if there is one. -/
def Frame.withReceiver (frame : Frame Value) : Option Value → Frame Value
  | some receiver => { frame with bindings := frame.bindings.set selfName receiver }
  | none => frame

theorem Session.define_pushFrame (session : Session) (frame : Frame Value) (name : String)
    (value : Value) :
    (session.pushFrame frame).mapEnvironment (·.define ⟨session.environment.frames.size⟩ name value) =
      session.pushFrame { frame with bindings := frame.bindings.set name value } := by
  simp only [pushFrame, mapEnvironment, Environment.define_pushFrame]

theorem Session.defineAll_pushFrame (session : Session) (frame : Frame Value)
    (entries : List (String × Value)) :
    (session.pushFrame frame).mapEnvironment (·.defineAll ⟨session.environment.frames.size⟩ entries) =
      session.pushFrame { frame with bindings := frame.bindings.setAll entries } := by
  simp only [pushFrame, mapEnvironment, Environment.defineAll_pushFrame]

namespace Eval

/-- Binding arguments adds one scope. -/
theorem runIn_bindArguments {closure : Closure} {arguments values : List Value} {session : Session}
    (hLength : arguments.length = closure.prototype.arity)
    (hValues : (coerceArguments closure arguments).runIn session = (.ok values, session)) :
    (bindArguments closure arguments).runIn session =
      (.ok ⟨session.environment.frames.size⟩,
        session.pushFrame (closure.frame session.hierarchy values)) := by
  simp only [bindArguments]
  rw [if_neg (not_not.mpr hLength), runIn_bind_ok hValues]
  have hScope : (newScope (some closure.scope)).runIn session =
      (.ok ⟨session.environment.frames.size⟩, session.pushFrame ⟨[], some closure.scope⟩) := rfl
  rw [runIn_bind_ok hScope, runIn_bind, modify, runIn_modifyGet, continued,
    Session.defineAll_pushFrame, runIn_get_bind, Closure.frame]
  simp only [Session.pushFrame, Session.mapEnvironment]
  cases closure.owner?.bind session.hierarchy.superclass? with
  | none => rfl
  | some superclass =>
      exact congrArg (Prod.mk (Except.ok _))
        (session.define_pushFrame ⟨_, some closure.scope⟩ superName (.classRef superclass))

end Eval

/-- In the scope of a body one finds the class above and the arguments. -/
theorem Closure.frame_cases (closure : Closure) {hierarchy : Hierarchy} {values : List Value}
    {name : String} {value : Value}
    (hBound : (closure.frame hierarchy values).bindings.get? name = some value) :
    (name = superName ∧ ∃ superclass,
        closure.owner?.bind hierarchy.superclass? = some superclass ∧ value = .classRef superclass) ∨
      (name, value) ∈ (closure.prototype.parameters.map Parameter.name).zip values := by
  have hParameters : ∀ {value : Value},
      (Table.setAll [] ((closure.prototype.parameters.map Parameter.name).zip values)).get? name =
        some value → (name, value) ∈ (closure.prototype.parameters.map Parameter.name).zip values := by
    intro value hParameter
    rw [Table.get?_setAll, Table.get?, Option.or_none] at hParameter
    exact List.mem_reverse.mp (Table.mem_of_get? hParameter)
  simp only [frame] at hBound
  cases hSuperclass : closure.owner?.bind hierarchy.superclass? with
  | none =>
      rw [hSuperclass] at hBound
      exact .inr (hParameters hBound)
  | some superclass =>
      simp only [hSuperclass, Table.get?_set] at hBound
      split at hBound
      · rename_i hSuper
        cases hBound
        exact .inl ⟨hSuper, superclass, rfl, rfl⟩
      · exact .inr (hParameters hBound)

theorem Frame.withReceiver_cases {frame : Frame Value} {receiver? : Option Value} {name : String}
    {value : Value} (hBound : (frame.withReceiver receiver?).bindings.get? name = some value) :
    (name = selfName ∧ receiver? = some value) ∨ frame.bindings.get? name = some value := by
  cases receiver? with
  | none => exact .inr hBound
  | some receiver =>
      simp only [withReceiver, Table.get?_set] at hBound
      split at hBound
      · rename_i hSelf
        exact .inl ⟨hSelf, hBound⟩
      · exact .inr hBound

theorem Closure.frame_lives {session : Session} (hSound : session.Sound) (closure : Closure)
    {values : List Value} (hValues : ∀ value ∈ values, value.Lives session) {receiver? : Option Value}
    (hReceiver : ∀ receiver, receiver? = some receiver → receiver.Lives session) {name : String}
    {value : Value}
    (hBound : ((closure.frame session.hierarchy values).withReceiver receiver?).bindings.get? name =
      some value) : value.Lives session := by
  rcases Frame.withReceiver_cases hBound with ⟨-, hSelf⟩ | hFrame
  · exact hReceiver value hSelf
  · rcases closure.frame_cases hFrame with ⟨-, superclass, hSuperclass, rfl⟩ | hMem
    · obtain ⟨owner, -, hParent⟩ := Option.bind_eq_some_iff.mp hSuperclass
      exact hSound.superclasses hParent
    · exact hValues value (List.of_mem_zip hMem).2

theorem Closure.frame_names {session : Session} {id : ClosureId} {closure : Closure}
    (hClosure : session.closures[id.index]? = some closure) {values : List Value}
    {receiver? : Option Value} {name : String} {value : Value}
    (hBound : ((closure.frame session.hierarchy values).withReceiver receiver?).bindings.get? name =
      some value) :
    name = selfName ∨ name = superName ∨ session.IsParameter name := by
  rcases Frame.withReceiver_cases hBound with ⟨hSelf, -⟩ | hFrame
  · exact .inl hSelf
  · rcases closure.frame_cases hFrame with ⟨hSuper, -⟩ | hMem
    · exact .inr (.inl hSuper)
    · exact .inr (.inr ⟨id, closure, hClosure, List.mem_map.mp (List.of_mem_zip hMem).1⟩)

/-! ### Applications -/

theorem Eval.Proceeds.makeClosure {session : Session} (form : String) (prototype : Expr)
    (body : List Value) (scope : ScopeId) :
    (MessageLisp.makeClosure form prototype body scope).Proceeds
      (fun later id => ∃ closure, later.closures[id.index]? = some closure ∧ closure.owner? = none)
      session := by
  apply inspect (.prototype prototype)
  intro prototype hParameters
  apply inspect (.bodyOf form body)
  intro body _
  apply read
  have hAdd : Change (fun _ => False) session []
      (session.addClosure ⟨none, none, prototype, body, scope, session.source?,
        prototype.signature?⟩).2 :=
    .addClosure session rfl fun parameter hMem => .inr (hParameters parameter hMem)
  exact change hAdd rfl ⟨_, Array.getElem?_push_size, rfl⟩

namespace Evaluator.Orderly

open Eval

variable {ev : Evaluator} {session : Session}

theorem untilTruth (h : ev.Orderly) (hSound : session.Sound) (form : String) (stop : Bool)
    (scope : ScopeId) (arguments : List Value) (index : Nat) {last : Value}
    (hLast : last.Lives session) :
    (ev.untilTruth form stop scope arguments index last).Proceeds Value.Lives session := by
  induction arguments generalizing session index last with
  | nil => exact .pure hLast
  | cons argument rest ih =>
      simp only [Evaluator.untilTruth]
      split
      · rename_i expr _
        apply Proceeds.bind hSound (h.evaluate expr scope session hSound)
        intro value later hLater _ hValue
        split
        · exact .pure hValue
        · exact ih hLater _ hValue
      · exact .fail trivial

theorem applyBuiltin (h : ev.Orderly) (hSound : session.Sound) (builtin : Builtin)
    {arguments : List Value} (hLive : Value.AllLive session arguments) (scope : ScopeId) :
    (ev.applyBuiltin builtin arguments scope).Proceeds Value.Lives session := by
  cases builtin with
  | lambda =>
      apply Proceeds.inspect (.rawArgument "lambda" arguments 0)
      intro prototype hFirst
      apply Proceeds.inspect (.argumentsFrom hLive hFirst)
      intro body _
      apply Proceeds.bind hSound (.makeClosure "lambda" prototype body scope)
      rintro id later _ _ ⟨closure, hClosure, -⟩
      exact .pure (Array.getElem?_eq_some_iff.mp hClosure).1
  | function =>
      apply Proceeds.inspect (.rawArgument "function" arguments 0)
      intro head _
      apply Proceeds.inspect (.definedName head)
      intro name _
      apply Proceeds.inspect (.rawArgument "function" arguments 1)
      intro prototype hSecond
      apply Proceeds.inspect (.argumentsFrom hLive hSecond)
      intro body _
      apply Proceeds.bind hSound (.makeClosure "function" prototype body scope)
      rintro id made hMade _ ⟨closure, hClosure, hOwner⟩
      apply Proceeds.update hMade (.nameClosure made id name) rfl
      intro hNamed _
      have hName : (made.modifyClosure id ({ · with name? := some name })).closures[id.index]? =
          some { closure with name? := some name } := by
        simp [Session.modifyClosure, Array.getElem?_modify, hClosure]
      have hFunction : Value.Lives (made.modifyClosure id ({ · with name? := some name }))
          (.function (.closure id)) := (Array.getElem?_eq_some_iff.mp hName).1
      apply Proceeds.update hNamed
        (.define scope hFunction (.inr ⟨id, _, rfl, hName, rfl, hOwner⟩)) rfl
      intro _ hGrows
      exact .pure (hFunction.mono hGrows)
  | set =>
      simp only [Evaluator.applyBuiltin]
      split
      · exact .fail trivial
      · apply Proceeds.inspect (.rawArgument "set" arguments 0)
        intro head _
        apply Proceeds.inspect (.variableName "set" head)
        intro name hName
        apply Proceeds.inspect (.rawArgument "set" arguments 1)
        intro expr _
        apply Proceeds.bind hSound (h.evaluate expr scope session hSound)
        intro value later hLater _ hValue
        apply Proceeds.update hLater (.assign scope hName hValue) rfl
        intro _ hGrows
        exact .pure (hValue.mono hGrows)
  | quote =>
      cases arguments with
      | nil => exact .fail trivial
      | cons argument rest =>
          cases rest with
          | nil => exact .pure hLive.1
          | cons other rest => exact .fail trivial
  | and => exact h.untilTruth hSound "and" false scope arguments 0 trivial
  | or => exact h.untilTruth hSound "or" true scope arguments 0 trivial
  | list => exact .pure hLive
  | print =>
      apply Proceeds.read
      apply Proceeds.update hSound (.note session ..) rfl
      intro _ hGrows
      apply Proceeds.pure
      cases hLast : arguments.getLast? with
      | none => trivial
      | some last =>
          exact (Value.allLive_iff.mp hLive last (List.mem_of_getLast? hLast)).mono hGrows
  | raise => exact .read (.fail trivial)

theorem runBody (h : ev.Orderly) (hSound : session.Sound) (closure : Closure) (scope : ScopeId) :
    (ev.runBody closure scope).Proceeds Value.Lives session := by
  have hInside : (session.inside closure.source?).Sound := (Session.Evolves.of_change (.note session ..)).sound hSound
  apply h.enter
  apply Proceeds.bind hInside (h.sequence closure.body scope hInside)
  intro result later _ _ hResult
  split
  · exact .pure hResult
  · exact .pure hResult
  · exact .of_inspects (.coerceTo _ hResult) fun _ => id

/-- The arguments are bound in a scope of their own, and then the body runs. -/
theorem applyClosure (h : ev.Orderly) (hSound : session.Sound) {id : ClosureId}
    (hId : id.index < session.closures.size) {receiver? : Option Value}
    (hReceiver : ∀ receiver, receiver? = some receiver → receiver.Lives session)
    {arguments : List Value} (hLive : Value.AllLive session arguments) :
    (ev.applyClosure id receiver? arguments).Proceeds Value.Lives session := by
  apply Proceeds.inspect .requireOpen
  intro _ _
  apply Proceeds.inspect (.closureOf hId)
  intro closure hClosure
  by_cases hLength : arguments.length = closure.prototype.arity
  · cases Inspects.coerceArguments hLength hLive with
    | error hRun hRegular =>
        have hBind : (bindArguments closure arguments).Inspects (fun _ => False) session := by
          refine .error ?_ hRegular
          simp only [bindArguments]
          rw [if_neg (not_not.mpr hLength), runIn_bind, hRun, continued]
        exact .inspect hBind fun _ hNever => hNever.elim
    | ok hRun hValues =>
        have hFrame : Change (fun _ => False) session []
            (session.pushFrame ((closure.frame session.hierarchy _).withReceiver receiver?)) :=
          .pushFrame (fun _ _ hBound => closure.frame_lives hSound hValues hReceiver hBound)
            fun _ _ hBound => Closure.frame_names hClosure hBound
        have hBody := h.runBody (hFrame.sound hSound) closure ⟨session.environment.frames.size⟩
        have hRun' := hBody.trans (.of_change hFrame) rfl
        rw [Proceeds, runIn_bind_ok (runIn_bindArguments hLength hRun)]
        cases receiver? with
        | none => exact hRun'
        | some receiver =>
            rw [runIn_bind, define, modify, runIn_modifyGet, continued, Session.define_pushFrame]
            exact hRun'
  · have hBind : (bindArguments closure arguments).Inspects (fun _ => False) session := by
      simp only [bindArguments]
      rw [if_pos hLength]
      exact .fail trivial
    exact .inspect hBind fun _ hNever => hNever.elim

theorem apply (h : ev.Orderly) (hSound : session.Sound) {target : FunctionRef}
    (hTarget : target.Lives session) {arguments : List Value}
    (hLive : Value.AllLive session arguments) (scope : ScopeId) :
    (ev.apply target arguments scope).Proceeds Value.Lives session := by
  cases target with
  | builtin builtin =>
      apply Proceeds.inspect .requireOpen
      intro _ _
      apply Proceeds.bind hSound (h.adopting _ hSound)
      intro guest later hLater hGrows hGuest
      exact hGuest.applyBuiltin hLater builtin (hLive.mono hGrows) scope
  | host id =>
      apply Proceeds.inspect (.hostOf hTarget)
      intro host hHost
      exact .of_inspects (.applyHost (hSound.hosts hHost) hLive scope) fun _ hValue => hValue
  | closure id =>
      have hReceiver : ∀ receiver : Value, none = some receiver → receiver.Lives session := nofun
      exact h.applyClosure hSound hTarget hReceiver hLive

theorem applyInPlace (h : ev.Orderly) (hSound : session.Sound) {target : FunctionRef}
    (hTarget : target.Lives session) (parts : List Expr) (scope : ScopeId) :
    (ev.applyInPlace target parts scope).Proceeds Value.Lives session := by
  have hLive : Value.AllLive session (parts.map .expr) := by
    apply Value.allLive_iff.mpr
    intro value hValue
    obtain ⟨part, -, rfl⟩ := List.mem_map.mp hValue
    trivial
  cases target with
  | builtin builtin =>
      apply Proceeds.inspect .requireOpen
      intro _ _
      exact h.applyBuiltin hSound builtin hLive scope
  | host id => exact h.apply hSound hTarget hLive scope
  | closure id => exact h.apply hSound hTarget hLive scope

end Evaluator.Orderly

/-! ### Instances and classes -/

namespace Eval.Proceeds

variable {session : Session}

theorem setField (hSound : session.Sound) {receiver value : Value} (hReceiver : receiver.Lives session)
    (hValue : value.Lives session) (field : String) :
    (MessageLisp.setField receiver field value).Proceeds (fun _ _ => True) session := by
  apply inspect (.slotOf hSound hReceiver field)
  rintro ⟨id, object, slot⟩ ⟨hObject, hSlot⟩
  simp only [dif_pos hSlot]
  exact change (.setSlot hObject hSlot hValue) rfl trivial

theorem newInstance (hSound : session.Sound) {id : ClassId}
    (hId : id.index < session.hierarchy.classes.size) :
    (MessageLisp.newInstance id).Proceeds Value.Lives session := by
  apply inspect (.classOf hId)
  intro cls hClass
  have hAdd : (modifyGet (·.addInstance ⟨id, Array.replicate cls.fields.length .null⟩) :
      Eval InstanceId).Proceeds (fun later id => id.index < later.instances.size) session :=
    change (.addInstance hClass) rfl (by simp [Session.addInstance])
  apply bind hSound hAdd
  intro object later _ _ hObject
  exact pure hObject

theorem defineClass (hSound : session.Sound) {superclass : ClassId}
    (hSuperclass : superclass.index < session.hierarchy.classes.size) (name : String)
    (fields : List String) :
    (MessageLisp.defineClass superclass name fields).Proceeds Value.Lives session := by
  apply read
  apply inspect (Q := (session.hierarchy.define name (some superclass) fields = .ok ·))
  · apply Inspects.ofExcept (fun _ hDefine => hDefine)
    intro error hError
    rw [Hierarchy.define] at hError
    split at hError <;> cases hError
    trivial
  · rintro ⟨id, hierarchy⟩ hDefine
    apply update hSound (.defineClass hSuperclass hDefine) rfl
    intro _ _
    obtain ⟨-, rfl, rfl⟩ := Hierarchy.define_eq_ok_iff.mp hDefine
    exact pure (by simp [Value.Lives])

end Eval.Proceeds

namespace Eval

theorem runIn_collectMethods_cons (cls : ClassId) (scope : ScopeId) (name : String)
    (names : List String) (session : Session) :
    (collectMethods cls scope (name :: names)).runIn session =
      match session.environment.getLocal? scope name with
      | some (.function target) =>
        (collectMethods cls scope names >>= fun methods =>
          pure ((name, .function target) :: methods)).runIn (session.takeMethod cls scope name target)
      | _ => (collectMethods cls scope names).runIn session := by
  rw [collectMethods, List.filterMapM_cons, bind_assoc, runIn_get_bind]
  cases session.environment.getLocal? scope name with
  | none => rfl
  | some value =>
      cases value with
      | function target => cases target <;> rfl
      | _ => rfl

theorem runIn_collectMethods (cls : ClassId) (scope : ScopeId) (names : List String)
    (session : Session) :
    (collectMethods cls scope names).runIn session =
      (.ok (session.collect cls scope names).1, (session.collect cls scope names).2) := by
  induction names generalizing session with
  | nil => rfl
  | cons name names ih =>
      rw [runIn_collectMethods_cons, Session.collect]
      cases session.environment.getLocal? scope name with
      | none => exact ih session
      | some value =>
          cases value with
          | function target => exact runIn_bind_ok (ih _) _
          | _ => exact ih session

end Eval

theorem Session.collect_depth (session : Session) (cls : ClassId) (scope : ScopeId)
    (names : List String) : (session.collect cls scope names).2.depth = session.depth := by
  apply collect_induction (P := (·.depth = session.depth))
  · intro later name target _ hDepth
    rw [← hDepth]
    cases target <;> rfl
  · rfl

namespace Evaluator.Orderly

open Eval

variable {ev : Evaluator} {session : Session}

/-- The functions become methods in the last change of all. -/
theorem extendClass (h : ev.Orderly) (hSound : session.Sound) (cls : ClassId)
    {definitions : ClosureId} (hDefinitions : definitions.index < session.closures.size) :
    (ev.extendClass cls definitions).Proceeds
      (fun later count => ∃ ready methods, session.Evolves ready ∧
        Change (fun _ => False) ready [⟨cls, methods⟩] later ∧ methods.length = count) session := by
  apply Proceeds.inspect (.closureOf hDefinitions)
  intro closure _
  have hScope : (newScope (some closure.scope)).Proceeds (fun _ _ => True) session :=
    .change (.pushFrame nofun nofun) rfl trivial
  apply Proceeds.bind_evolves hScope
  intro scope opened hOpened _
  have hInside : opened.Sound := hOpened.sound hSound
  apply Proceeds.bind_evolves (h.adopting closure.body hInside)
  intro guest adopted hAdopted hGuest
  apply Proceeds.bind_evolves (hGuest.sequence closure.body scope (hAdopted.sound hInside))
  intro _ ready hBody _
  apply Proceeds.read
  have hExtend : Change (fun _ => False) ready _ _ :=
    .extend ready cls scope (ready.environment.names scope)
  have hDepth := ready.collect_depth cls scope (ready.environment.names scope)
  rw [Proceeds, runIn_bind_ok (runIn_collectMethods ..)]
  exact ⟨.of_change hExtend, hDepth, ready, _, (hOpened.trans hAdopted).trans hBody, hExtend, rfl⟩

/-! ### Primitive methods -/

theorem runBlock (h : ev.Orderly) (hSound : session.Sound) {block : Value}
    (hBlock : block.Lives session) : (ev.runBlock block).Proceeds Value.Lives session := by
  apply Proceeds.inspect (.functionOf hBlock)
  intro target hTarget
  exact h.apply hSound hTarget (Value.allLive_nil session) Environment.root

theorem applyToItem (h : ev.Orderly) {target : FunctionRef} (hTarget : target.Lives session)
    {items : List Value} (hItems : Value.AllLive session items) :
    ∀ item ∈ items, ∀ later : Session, later.Sound → session.Grows later →
      (ev.apply target [item] Environment.root).Proceeds Value.Lives later := by
  intro item hMem later hLater hGrows
  have hLives : Value.AllLive later [item] :=
    ⟨(Value.allLive_iff.mp hItems item hMem).mono hGrows, trivial⟩
  exact h.apply hLater (hTarget.mono hGrows) hLives Environment.root

theorem repeatWhile (h : ev.Orderly) (hSound : session.Sound) (expected : Bool)
    {receiver body : Value} (hReceiver : receiver.Lives session) (hBody : body.Lives session) :
    (ev.repeatWhile expected receiver body).Proceeds Value.Lives session := by
  apply Proceeds.inspect (.closureIdOf hReceiver)
  intro condition hCondition
  apply Proceeds.inspect (.functionOf hBody)
  intro target hTarget
  apply Proceeds.inspect (.closureOf hCondition)
  intro closure _
  apply Proceeds.loop hSound
  · intro later hLater hGrows
    have hLives : (FunctionRef.closure condition).Lives session := hCondition
    apply Proceeds.bind hLater (h.apply hLater (hLives.mono hGrows) (Value.allLive_nil later) closure.scope)
    intro value _ _ _ _
    exact .pure trivial
  · intro later hLater hGrows
    exact h.apply hLater (hTarget.mono hGrows) (Value.allLive_nil later) closure.scope
  · trivial

theorem handleFailure (h : ev.Orderly) (hSound : session.Sound) {guarded : ClosureId}
    (hGuarded : guarded.index < session.closures.size) {handler : FunctionRef}
    (hHandler : handler.Lives session) :
    (ev.handleFailure guarded handler).Proceeds (fun _ _ => True) session := by
  apply Proceeds.inspect .requireOpen
  intro _ _
  apply Proceeds.inspect (.closureOf hGuarded)
  intro closure _
  apply Proceeds.handling hSound
  · have hLives : (FunctionRef.closure guarded).Lives session := hGuarded
    exact h.guarding.apply hSound hLives (Value.allLive_nil session) closure.scope
  · intro error later hLater hGrows
    have hLives := hHandler.mono hGrows
    apply Proceeds.inspect (.handlerArguments hLives error)
    intro arguments hArguments
    apply Proceeds.bind hLater (h.apply hLater hLives hArguments closure.scope)
    intro _ _ _ _ _
    exact .pure trivial

/-- A primitive method gets as many arguments as its selector asks for, which are as many as it
takes. -/
theorem runPrimitive (h : ev.Orderly) (hSound : session.Sound) {primitive : Primitive}
    {receiver : Value} (hReceiver : receiver.Lives session) {arguments : List Value}
    (hLive : Value.AllLive session arguments)
    (hArity : arguments.length = selectorArity primitive.selector) :
    (ev.runPrimitive primitive receiver arguments).Proceeds Value.Lives session := by
  have hArgument : ∀ index, index < selectorArity primitive.selector →
      (argument arguments index).Inspects (Value.Lives session) session := by
    intro index hIndex
    exact .argument hLive (hArity ▸ hIndex)
  cases primitive with
  | add | subtract | multiply =>
      apply Proceeds.inspect (hArgument 0 (by decide))
      intro argument _
      exact .of_inspects (.arithmetic _ _ receiver argument) fun _ hValue => hValue
  | divide | modulo =>
      apply Proceeds.inspect (hArgument 0 (by decide))
      intro divisor _
      apply Proceeds.inspect (.requireNonzero divisor)
      intro _ _
      exact .of_inspects (.arithmetic _ _ receiver divisor) fun _ hValue => hValue
  | less | greater | lessOrEqual | greaterOrEqual =>
      apply Proceeds.inspect (hArgument 0 (by decide))
      intro argument _
      exact .of_inspects (.comparison _ _ receiver argument) fun _ hValue => hValue
  | length =>
      apply Proceeds.inspect (.stringOf "String" receiver)
      intro text _
      exact .pure trivial
  | concatenate =>
      apply Proceeds.inspect (.stringOf "String" receiver)
      intro text _
      apply Proceeds.inspect (hArgument 0 (by decide))
      intro argument _
      exact .read (.pure trivial)
  | count =>
      apply Proceeds.inspect (.listOf hReceiver)
      intro items _
      exact .pure trivial
  | «at» =>
      apply Proceeds.inspect (.listOf hReceiver)
      intro items hItems
      apply Proceeds.inspect (hArgument 0 (by decide))
      intro index _
      exact .of_inspects (.itemAt hItems index) fun _ hValue => hValue
  | first =>
      apply Proceeds.inspect (.listOf hReceiver)
      intro items hItems
      apply Proceeds.pure
      cases items with
      | nil => trivial
      | cons item items => exact hItems.1
  | append =>
      apply Proceeds.inspect (.listOf hReceiver)
      intro items hItems
      apply Proceeds.inspect (hArgument 0 (by decide))
      intro item hItem
      apply Proceeds.pure
      have hAll : ∀ value ∈ items ++ [item], value.Lives session := by
        intro value hValue
        rcases List.mem_append.mp hValue with hOld | hNew
        · exact Value.allLive_iff.mp hItems value hOld
        · exact List.mem_singleton.mp hNew ▸ hItem
      exact Value.allLive_iff.mpr hAll
  | forEach =>
      apply Proceeds.inspect (hArgument 0 (by decide))
      intro block hBlock
      apply Proceeds.inspect (.functionOf hBlock)
      intro target hTarget
      apply Proceeds.inspect (.listOf hReceiver)
      intro items hItems
      apply Proceeds.bind hSound (.forEach hSound (h.applyToItem hTarget hItems))
      intro _ later _ hGrows _
      exact .pure (hReceiver.mono hGrows)
  | map =>
      apply Proceeds.inspect (hArgument 0 (by decide))
      intro block hBlock
      apply Proceeds.inspect (.functionOf hBlock)
      intro target hTarget
      apply Proceeds.inspect (.listOf hReceiver)
      intro items hItems
      apply Proceeds.bind hSound (.mapM (S := Value.Lives) hSound
        (fun hGrows hValue => hValue.mono hGrows) (h.applyToItem hTarget hItems))
      intro mapped later _ _ hMapped
      exact .pure (Value.allLive_iff.mpr hMapped)
  | filter =>
      apply Proceeds.inspect (hArgument 0 (by decide))
      intro block hBlock
      apply Proceeds.inspect (.functionOf hBlock)
      intro target hTarget
      apply Proceeds.inspect (.listOf hReceiver)
      intro items hItems
      apply Proceeds.bind hSound (.filterM hSound (Value.allLive_iff.mp hItems) ?_)
      · intro kept later _ hGrows hKept
        have hAll : Value.AllLive session kept := Value.allLive_iff.mpr hKept
        exact .pure (hAll.mono hGrows)
      · intro item hMem later hLater hGrows
        apply Proceeds.bind hLater (h.applyToItem hTarget hItems item hMem later hLater hGrows)
        intro _ _ _ _ _
        exact .pure trivial
  | injectInto =>
      apply Proceeds.inspect (hArgument 1 (by decide))
      intro block hBlock
      apply Proceeds.inspect (.functionOf hBlock)
      intro target hTarget
      apply Proceeds.inspect (.listOf hReceiver)
      intro items hItems
      apply Proceeds.inspect (hArgument 0 (by decide))
      intro start hStart
      apply Proceeds.foldlM hSound hStart
      intro total item hMem later hLater hGrows hTotal
      have hLives : Value.AllLive later [total, item] :=
        ⟨hTotal, (Value.allLive_iff.mp hItems item hMem).mono hGrows, trivial⟩
      exact h.apply hLater (hTarget.mono hGrows) hLives Environment.root
  | isTrue => exact .pure trivial
  | ifTrue =>
      simp only [Evaluator.runPrimitive]
      split
      · exact .inspect (hArgument 0 (by decide)) fun block hBlock => h.runBlock hSound hBlock
      · exact .pure trivial
  | ifFalse =>
      simp only [Evaluator.runPrimitive]
      split
      · exact .pure trivial
      · exact .inspect (hArgument 0 (by decide)) fun block hBlock => h.runBlock hSound hBlock
  | ifTrueIfFalse | ifFalseIfTrue =>
      simp only [Evaluator.runPrimitive]
      split
      all_goals
        exact .inspect (hArgument _ (by decide)) fun block hBlock => h.runBlock hSound hBlock
  | description | prettyDescription => exact .read (.pure trivial)
  | print | prettyPrint =>
      apply Proceeds.read
      apply Proceeds.update hSound (.note session ..) rfl
      intro _ hGrows
      exact .pure (hReceiver.mono hGrows)
  | classOf => exact .read (.pure hSound.classOf)
  | respondsTo =>
      apply Proceeds.inspect (hArgument 0 (by decide))
      intro value _
      apply Proceeds.inspect (.stringOf "selector" value)
      intro selector _
      exact .read (.pure trivial)
  | equal => exact .inspect (hArgument 0 (by decide)) fun _ _ => .pure trivial
  | getField =>
      apply Proceeds.inspect (hArgument 0 (by decide))
      intro value _
      apply Proceeds.inspect (.stringOf "field name" value)
      intro field _
      exact .of_inspects (.getField hSound hReceiver field) fun _ hValue => hValue
  | setField =>
      apply Proceeds.inspect (hArgument 1 (by decide))
      intro name _
      apply Proceeds.inspect (.stringOf "field name" name)
      intro field _
      apply Proceeds.inspect (hArgument 0 (by decide))
      intro value hValue
      apply Proceeds.bind hSound (.setField hSound hReceiver hValue field)
      intro _ later _ hGrows _
      exact .pure (hValue.mono hGrows)
  | new =>
      apply Proceeds.inspect (.classIdOf hReceiver)
      intro id hId
      exact .newInstance hSound hId
  | className =>
      apply Proceeds.inspect (.classIdOf hReceiver)
      intro id _
      exact .read (.pure trivial)
  | superclass =>
      apply Proceeds.inspect (.classIdOf hReceiver)
      intro id _
      apply Proceeds.read
      split
      · rename_i superclass hSuperclass
        exact .pure (hSound.superclasses hSuperclass)
      · exact .pure trivial
  | subclass =>
      apply Proceeds.inspect (hArgument 0 (by decide))
      intro value _
      apply Proceeds.inspect (.stringOf "class name" value)
      intro name _
      apply Proceeds.inspect (.classIdOf hReceiver)
      intro id hId
      exact .defineClass hSound hId name []
  | subclassWithFields =>
      apply Proceeds.inspect (hArgument 0 (by decide))
      intro value _
      apply Proceeds.inspect (.stringOf "class name" value)
      intro name _
      apply Proceeds.inspect (hArgument 1 (by decide))
      intro list hList
      apply Proceeds.inspect (.listOf hList)
      intro items _
      apply Proceeds.inspect (.mapM fun item _ => .stringOf "field name" item)
      intro fields _
      apply Proceeds.inspect (.classIdOf hReceiver)
      intro id hId
      exact .defineClass hSound hId name fields
  | extend =>
      apply Proceeds.inspect (.classIdOf hReceiver)
      intro cls _
      apply Proceeds.inspect (hArgument 0 (by decide))
      intro block hBlock
      apply Proceeds.inspect (.closureIdOf hBlock)
      intro definitions hDefinitions
      apply Proceeds.bind hSound (h.extendClass hSound cls hDefinitions)
      intro _ later _ hGrows _
      exact .pure (hReceiver.mono hGrows)
  | functionName =>
      apply Proceeds.inspect (.functionOf hReceiver)
      intro target _
      apply Proceeds.read
      split
      · exact .pure trivial
      · exact .pure trivial
  | whileTrue | whileFalse =>
      apply Proceeds.inspect (hArgument 0 (by decide))
      intro body hBody
      exact h.repeatWhile hSound _ hReceiver hBody
  | onException =>
      apply Proceeds.inspect (.closureIdOf hReceiver)
      intro guarded hGuarded
      apply Proceeds.inspect (hArgument 0 (by decide))
      intro block hBlock
      apply Proceeds.inspect (.functionOf hBlock)
      intro handler hHandler
      apply Proceeds.bind hSound (h.handleFailure hSound hGuarded hHandler)
      intro _ _ _ _ _
      exact .pure trivial

/-! ### Messages -/

theorem decodeKeywords (h : ev.Orderly) (receiver : Value) (parts : List Expr) (scope : ScopeId) :
    ∀ (rest : List Expr) {session : Session}, session.Sound →
      (ev.decodeKeywords receiver parts scope rest).Proceeds
        (fun later message => Value.AllLive later message.arguments) session
  | [], session, _ => .pure (Value.allLive_nil session)
  | [_], _, _ => .of_inspects (.misspelled receiver parts) fun _ hNever => hNever
  | keyword :: argument :: rest, session, hSound => by
      rw [Evaluator.decodeKeywords]
      have hMisspelled : (misspelled receiver parts).Proceeds
          (fun later (message : Message) => Value.AllLive later message.arguments) session :=
        .of_inspects (.misspelled receiver parts) fun _ hNever => hNever
      split
      · split
        · apply Proceeds.bind hSound (h.evaluate argument scope session hSound)
          intro value middle hMiddle _ hValue
          apply Proceeds.bind hMiddle (h.decodeKeywords receiver parts scope rest hMiddle)
          intro message later _ hGrows hMessage
          exact .pure ⟨hValue.mono hGrows, hMessage⟩
        · exact hMisspelled
      · exact hMisspelled

theorem decodeMessage (h : ev.Orderly) (hSound : session.Sound) (receiver : Value)
    (parts : List Expr) (scope : ScopeId) :
    (ev.decodeMessage receiver parts scope).Proceeds
      (fun later message => Value.AllLive later message.arguments) session := by
  have hMisspelled : (misspelled receiver parts).Proceeds
      (fun later (message : Message) => Value.AllLive later message.arguments) session :=
    .of_inspects (.misspelled receiver parts) fun _ hNever => hNever
  rw [Evaluator.decodeMessage.eq_def]
  split
  · exact hMisspelled
  · split
    · exact hMisspelled
    · split
      · exact .pure (Value.allLive_nil session)
      · exact hMisspelled
  · rename_i selector argument
    split
    · exact h.decodeKeywords receiver _ scope _ hSound
    · split
      · apply Proceeds.bind hSound (h.evaluate argument scope session hSound)
        intro value later _ _ hValue
        exact .pure ⟨hValue, trivial⟩
      · exact hMisspelled
  · split
    · exact h.decodeKeywords receiver _ scope _ hSound
    · exact hMisspelled

theorem runMethod (h : ev.Orderly) (hSound : session.Sound) {method : Method} {selector : String}
    (hMethod : method.Fits session selector) {receiver : Value} (hReceiver : receiver.Lives session)
    {arguments : List Value} (hLive : Value.AllLive session arguments)
    (hArity : arguments.length = selectorArity selector) :
    (ev.runMethod method receiver arguments).Proceeds Value.Lives session := by
  have hAll : Value.AllLive session (receiver :: arguments) := ⟨hReceiver, hLive⟩
  cases method with
  | primitive primitive =>
      have hSelector : primitive.selector = selector := hMethod
      exact h.runPrimitive hSound hReceiver hLive (hSelector ▸ hArity)
  | function target =>
      have hTarget : target.Lives session := hMethod
      cases target with
      | closure id =>
          have hSelf : ∀ other, some receiver = some other → other.Lives session :=
            fun _ hSame => Option.some.inj hSame ▸ hReceiver
          exact h.applyClosure hSound hTarget hSelf hLive
      | builtin builtin => exact h.apply hSound hTarget hAll Environment.root
      | host id => exact h.apply hSound hTarget hAll Environment.root

theorem send (h : ev.Orderly) (hSound : session.Sound) {receiver : Value}
    (hReceiver : receiver.Lives session) {message : Message}
    (hLive : Value.AllLive session message.arguments) (start? : Option ClassId) :
    (ev.send receiver message start?).Proceeds Value.Lives session := by
  apply Proceeds.read
  split
  · exact .of_inspects (.notUnderstood receiver message.selector) fun _ hNever => hNever
  · rename_i method hMethod
    dsimp only
    split
    · exact .fail trivial
    · rename_i hArity
      exact h.runMethod hSound (hSound.resolve? hMethod) hReceiver hLive (not_not.mp hArity)

theorem sendParts (h : ev.Orderly) (hSound : session.Sound) {receiver : Value}
    (hReceiver : receiver.Lives session) (parts : List Expr) (scope : ScopeId)
    (start? : Option ClassId) :
    (ev.sendParts receiver parts scope start?).Proceeds Value.Lives session := by
  apply Proceeds.bind hSound (h.decodeMessage hSound receiver parts scope)
  intro message later hLater hGrows hMessage
  exact h.send hLater (hReceiver.mono hGrows) hMessage start?

/-! ### Expressions -/

theorem applyParts (h : ev.Orderly) (hSound : session.Sound) {target : FunctionRef}
    (hTarget : target.Lives session) (parts : List Expr) (scope : ScopeId) :
    (ev.applyParts target parts scope).Proceeds Value.Lives session := by
  apply Proceeds.read
  split
  · exact h.applyInPlace hSound hTarget parts scope
  · have hParts : (parts.mapM fun part => ev.evaluate part scope).Proceeds
        (fun later values => ∀ value ∈ values, value.Lives later) session :=
      .mapM (S := Value.Lives) hSound (fun hGrows hValue => hValue.mono hGrows)
        fun part _ later hLater _ => h.evaluate part scope later hLater
    apply Proceeds.bind hSound hParts
    intro values later hLater hGrows hValues
    exact h.apply hLater (hTarget.mono hGrows) (Value.allLive_iff.mpr hValues) scope

theorem evaluateList (h : ev.Orderly) (hSound : session.Sound) (items : List Expr)
    (scope : ScopeId) : (ev.evaluateList items scope).Proceeds Value.Lives session := by
  cases items with
  | nil => exact .pure (Value.allLive_nil session)
  | cons head parts =>
      apply Proceeds.read
      split
      · have hReceiver : ((session.environment.lookup? scope selfName).getD .null).Lives session := by
          cases hSelf : session.environment.lookup? scope selfName with
          | none => trivial
          | some receiver => exact hSound.lookup? hSelf
        exact h.sendParts hSound hReceiver parts scope _
      · apply Proceeds.bind hSound (h.evaluate head scope session hSound)
        intro target later hLater _ hTarget
        split
        · exact h.sendParts hLater hTarget parts scope none
        · split
          · exact h.applyParts hLater hTarget parts scope
          · split
            · exact .pure hTarget
            · exact h.sendParts hLater hTarget parts scope none

theorem interpret (h : ev.Orderly) (hSound : session.Sound) (expr : Expr) (scope : ScopeId) :
    (ev.interpret expr scope).Proceeds Value.Lives session := by
  cases expr with
  | symbol span name => exact .of_inspects (.resolve hSound name scope) fun _ hValue => hValue
  | list span items => exact h.evaluateList hSound items scope
  | _ => exact .pure trivial

theorem evaluateExpr (h : ev.Orderly) : Abides ev.evaluateExpr := by
  intro expr scope session hSound
  exact .locating expr (h.interpret hSound expr scope)

end Evaluator.Orderly

end MessageLisp
