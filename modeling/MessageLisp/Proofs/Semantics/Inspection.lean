import MessageLisp.Proofs.Semantics.Conduct

/-! Computations that only look at the session. Where a rule of the language relies on something to
exist, such as an argument, a parameter, a slot or a class, it does exist in a sound session. -/
namespace MessageLisp

open Native (NativeType)
open Source (Expr)

/-- A value after conversion refers to nothing that it did not refer to before. -/
theorem Value.Lives.coerce? {session : Session} {type : NativeType} {value coerced : Value}
    (h : value.Lives session) (hCoerced : type.coerce? value = some coerced) :
    coerced.Lives session := by
  have hInteger : ∀ {bits signed}, (Native.integerOf? value).map
      (fun n => Value.int (Native.wrapTo bits signed n)) = some coerced → coerced.Lives session := by
    intro bits signed hMapped
    obtain ⟨n, -, rfl⟩ := Option.map_eq_some_iff.mp hMapped
    trivial
  cases type with
  | object | unsupported name =>
      cases hCoerced
      exact h
  | void | bool =>
      cases hCoerced
      trivial
  | float32 | float64 =>
      obtain ⟨x, -, rfl⟩ := Option.map_eq_some_iff.mp hCoerced
      trivial
  | pointer | cString => cases value <;> cases hCoerced <;> trivial
  | _ => exact hInteger hCoerced

namespace Prototype

theorem regular_of_readReturn {items : List Expr} {error : Error}
    (h : readReturn items = .error error) : error.Regular := by
  rw [readReturn.eq_def] at h
  split at h <;> cases h <;> trivial

theorem regular_of_readParameter {item : Expr} {error : Error}
    (h : readParameter item = .error error) : error.Regular := by
  rw [readParameter.eq_def] at h
  split at h <;> cases h <;> trivial

theorem regular_of_addParameter {parameters : List Parameter} {parameter : Parameter} {error : Error}
    (h : addParameter parameters parameter = .error error) : error.Regular := by
  rw [addParameter] at h
  split at h
  · cases h
    trivial
  · split at h <;> cases h
    trivial

theorem regular_of_readItems {parameters : List Parameter} {items : List Expr} {error : Error}
    (h : readItems parameters items = .error error) : error.Regular := by
  induction items generalizing parameters with
  | nil => cases h
  | cons item rest ih =>
      rw [readItems] at h
      split at h
      · cases hReturn : readReturn rest with
        | ok type =>
            rw [hReturn] at h
            cases h
        | error found =>
            rw [hReturn] at h
            cases h
            exact regular_of_readReturn hReturn
      · cases hParameter : readParameter item with
        | error found =>
            rw [hParameter] at h
            cases h
            exact regular_of_readParameter hParameter
        | ok parameter =>
            rw [hParameter] at h
            cases hAdded : addParameter parameters parameter with
            | error found =>
                simp only [bind, Except.bind, hAdded] at h
                cases h
                exact regular_of_addParameter hAdded
            | ok added =>
                simp only [bind, Except.bind, hAdded] at h
                exact ih h

/-- What is wrong with a parameter list is no breakdown. -/
theorem regular_of_error {expr : Expr} {error : Error} (h : ofExpr expr = .error error) :
    error.Regular := by
  cases expr with
  | nil span => cases h
  | list span items => exact regular_of_readItems h
  | _ =>
      cases h
      trivial

/-- What adding a parameter preserves holds of every parameter list that can be read. -/
theorem readItems_induction {P : List Parameter → Prop}
    (hAdd : ∀ parameters parameter added, P parameters →
      addParameter parameters parameter = .ok added → P added)
    {parameters : List Parameter} {items : List Expr} {prototype : Prototype}
    (h : readItems parameters items = .ok prototype) (hParameters : P parameters) :
    P prototype.parameters := by
  induction items generalizing parameters with
  | nil =>
      cases h
      exact hParameters
  | cons item rest ih =>
      rw [readItems] at h
      split at h
      · cases hReturn : readReturn rest with
        | error found =>
            rw [hReturn] at h
            cases h
        | ok type =>
            rw [hReturn] at h
            cases h
            exact hParameters
      · cases hParameter : readParameter item with
        | error found =>
            rw [hParameter] at h
            cases h
        | ok parameter =>
            rw [hParameter] at h
            cases hAdded : addParameter parameters parameter with
            | error found =>
                simp only [bind, Except.bind, hAdded] at h
                cases h
            | ok added =>
                simp only [bind, Except.bind, hAdded] at h
                exact ih h (hAdd _ _ _ hParameters hAdded)

theorem ofExpr_induction {P : List Parameter → Prop} (hNil : P [])
    (hAdd : ∀ parameters parameter added, P parameters →
      addParameter parameters parameter = .ok added → P added)
    {expr : Expr} {prototype : Prototype} (h : ofExpr expr = .ok prototype) :
    P prototype.parameters := by
  cases expr with
  | nil span =>
      cases h
      exact hNil
  | list span items => exact readItems_induction hAdd h hNil
  | _ => cases h

/-- A parameter is added behind the others if it is neither a keyword nor the receiver and has a name of
its own. -/
theorem addParameter_eq_ok_iff {parameters added : List Parameter} {parameter : Parameter} :
    addParameter parameters parameter = .ok added ↔
      added = parameters ++ [parameter] ∧ Source.isKeyword parameter.name = false ∧
        parameter.name ≠ selfName ∧ parameter.name ∉ parameters.map Parameter.name := by
  rw [addParameter]
  split
  · rename_i hReserved
    simp only [reduceCtorEq, false_iff]
    rintro ⟨-, hKeyword, hSelf, -⟩
    rcases hReserved with hReserved | hReserved
    · cases hReserved.symm.trans hKeyword
    · exact hSelf hReserved
  · rename_i hAllowed
    split
    · rename_i hTaken
      simp only [reduceCtorEq, false_iff]
      rintro ⟨-, -, -, hNew⟩
      simp only [List.any_eq_true, decide_eq_true_eq] at hTaken
      exact hNew (List.mem_map.mpr hTaken)
    · rename_i hNew
      simp only [List.any_eq_true, decide_eq_true_eq] at hNew
      constructor
      · intro h
        cases h
        refine ⟨rfl, eq_false_of_ne_true fun hKeyword => hAllowed (.inl hKeyword),
          fun hSelf => hAllowed (.inr hSelf), fun hMem => hNew (List.mem_map.mp hMem)⟩
      · rintro ⟨rfl, -⟩
        rfl

/-- No keyword gets among the parameters. -/
theorem isKeyword_of_ofExpr {expr : Expr} {prototype : Prototype} (h : ofExpr expr = .ok prototype) :
    ∀ parameter ∈ prototype.parameters, Source.isKeyword parameter.name = false := by
  apply ofExpr_induction
    (P := fun parameters => ∀ parameter ∈ parameters, Source.isKeyword parameter.name = false) _ _ h
  · exact fun _ hMem => absurd hMem List.not_mem_nil
  · intro parameters parameter added hParameters hAdded other hMem
    obtain ⟨rfl, hKeyword, -⟩ := addParameter_eq_ok_iff.mp hAdded
    rcases List.mem_append.mp hMem with hOld | hNew
    · exact hParameters other hOld
    · rw [List.mem_singleton.mp hNew]
      exact hKeyword

end Prototype

namespace Eval.Inspects

variable {α : Type} {session : Session}

/-! ### Things that exist -/

theorem argument {arguments : List Value} (hLive : Value.AllLive session arguments) {index : Nat}
    (hIndex : index < arguments.length) :
    (Eval.argument arguments index).Inspects (Value.Lives session) session := by
  rw [Eval.argument, List.getElem?_eq_getElem hIndex]
  exact pure (Value.allLive_iff.mp hLive _ (List.getElem_mem hIndex))

theorem argumentsFrom {arguments : List Value} (hLive : Value.AllLive session arguments) {start : Nat}
    (hStart : start ≤ arguments.length) :
    (Eval.argumentsFrom arguments start).Inspects (Value.AllLive session) session := by
  rw [Eval.argumentsFrom, if_pos hStart]
  exact pure (Value.allLive_iff.mpr fun value hValue =>
    Value.allLive_iff.mp hLive value (List.mem_of_mem_drop hValue))

theorem closureOf {id : ClosureId} (hLive : id.index < session.closures.size) :
    (Eval.closureOf id).Inspects (session.closures[id.index]? = some ·) session := by
  have hClosure : session.closures[id.index]? = some session.closures[id.index] :=
    Array.getElem?_eq_getElem hLive
  apply read
  rw [hClosure]
  exact pure rfl

theorem hostOf {id : HostId} (hLive : id.index < session.hosts.size) :
    (Eval.hostOf id).Inspects (session.hosts[id.index]? = some ·) session := by
  have hHost : session.hosts[id.index]? = some session.hosts[id.index] :=
    Array.getElem?_eq_getElem hLive
  apply read
  rw [hHost]
  exact pure rfl

theorem instanceOf {id : InstanceId} (hLive : id.index < session.instances.size) :
    (Eval.instanceOf id).Inspects (session.instances[id.index]? = some ·) session := by
  have hObject : session.instances[id.index]? = some session.instances[id.index] :=
    Array.getElem?_eq_getElem hLive
  apply read
  rw [hObject]
  exact pure rfl

theorem classOf {id : ClassId} (hLive : id.index < session.hierarchy.classes.size) :
    (Eval.classOf id).Inspects (session.hierarchy.get? id = some ·) session := by
  obtain ⟨cls, hClass⟩ := Hierarchy.get?_of_lt hLive
  apply read
  rw [hClass]
  exact pure rfl

theorem requireOpen : Eval.requireOpen.Inspects (fun _ => True) session := by
  apply read
  split
  · exact pure trivial
  · exact fail trivial

/-! ### Conversions -/

theorem numberOf (value : Value) : (MessageLisp.numberOf value).Inspects (fun _ => True) session := by
  rw [MessageLisp.numberOf]
  split
  · exact pure trivial
  · exact read (fail trivial)

theorem stringOf (expected : String) (value : Value) :
    (MessageLisp.stringOf expected value).Inspects (fun _ => True) session := by
  rw [MessageLisp.stringOf]
  split
  · exact pure trivial
  · exact read (fail trivial)

theorem listOf {value : Value} (hLive : value.Lives session) :
    (MessageLisp.listOf value).Inspects (Value.AllLive session) session := by
  cases value with
  | list items => exact pure hLive
  | _ => exact read (fail trivial)

theorem functionOf {value : Value} (hLive : value.Lives session) :
    (MessageLisp.functionOf value).Inspects (FunctionRef.Lives session) session := by
  cases value with
  | function target => exact pure hLive
  | _ => exact read (fail trivial)

theorem closureIdOf {value : Value} (hLive : value.Lives session) :
    (MessageLisp.closureIdOf value).Inspects (·.index < session.closures.size) session := by
  apply bind (functionOf hLive)
  intro target hTarget
  cases target with
  | closure id => exact pure hTarget
  | _ => exact read (fail trivial)

theorem classIdOf {value : Value} (hLive : value.Lives session) :
    (MessageLisp.classIdOf value).Inspects (·.index < session.hierarchy.classes.size) session := by
  cases value with
  | classRef id => exact pure hLive
  | _ => exact read (fail trivial)

theorem coerceTo (type : NativeType) {value : Value} (hLive : value.Lives session) :
    (MessageLisp.coerceTo type value).Inspects (Value.Lives session) session := by
  rw [MessageLisp.coerceTo]
  split
  · rename_i coerced hCoerced
    exact pure (hLive.coerce? hCoerced)
  · exact read (fail trivial)

theorem coerceArgument (type? : Option NativeType) {value : Value} (hLive : value.Lives session) :
    (MessageLisp.coerceArgument type? value).Inspects (Value.Lives session) session := by
  cases type? with
  | none => exact pure hLive
  | some type => exact coerceTo type hLive

theorem coerceArguments {closure : Closure} {arguments : List Value}
    (hLength : arguments.length = closure.prototype.arity)
    (hLive : Value.AllLive session arguments) :
    (MessageLisp.coerceArguments closure arguments).Inspects (∀ value ∈ ·, value.Lives session)
      session := by
  rw [coerceArguments_eq hLength]
  apply mapM
  rintro ⟨type?, argument⟩ hPair
  exact coerceArgument type? (Value.allLive_iff.mp hLive argument (List.of_mem_zip hPair).2)

/-! ### Parts of forms -/

theorem rawArgument (form : String) (arguments : List Value) (index : Nat) :
    (MessageLisp.rawArgument form arguments index).Inspects (fun _ => index < arguments.length)
      session := by
  rw [MessageLisp.rawArgument]
  split
  · rename_i expr hExpr
    obtain ⟨value, hValue, -⟩ := Option.bind_eq_some_iff.mp hExpr
    exact pure (List.getElem?_eq_some_iff.mp hValue).1
  · exact fail trivial

theorem variableName (form : String) (expr : Expr) :
    (MessageLisp.variableName form expr).Inspects
      (fun name => Source.isKeyword name = false ∧ name ≠ selfName) session := by
  rw [MessageLisp.variableName]
  split
  · rename_i name hSymbol
    split
    · exact fail trivial
    · rename_i hAllowed
      have hKeyword : expr.isKeyword = Source.isKeyword name := by
        rw [Expr.isKeyword, hSymbol, Option.any_some]
      rw [hKeyword, Bool.or_eq_true, not_or, decide_eq_true_eq] at hAllowed
      exact pure ⟨eq_false_of_ne_true hAllowed.1, hAllowed.2⟩
  · exact fail trivial

theorem bodyOf (form : String) (body : List Value) :
    (MessageLisp.bodyOf form body).Inspects (fun _ => True) session := by
  have hParts : (MessageLisp.bodyOf form body).Inspects (fun exprs => ∀ expr ∈ exprs, True) session := by
    apply mapM
    intro part _
    cases part.expr? with
    | none => exact fail trivial
    | some expr => exact pure trivial
  exact hParts.imp fun _ _ => trivial

theorem definedName (head : Expr) :
    (MessageLisp.definedName head).Inspects (fun _ => True) session := by
  have hVariable : (MessageLisp.variableName "function" head).Inspects (fun _ => True) session :=
    (variableName "function" head).imp fun _ _ => trivial
  cases head with
  | string span selector =>
      simp only [MessageLisp.definedName]
      split
      · exact hVariable
      · exact pure trivial
  | _ => exact hVariable

theorem prototype (expr : Expr) :
    (Eval.ofExcept (Prototype.ofExpr expr)).Inspects
      (fun prototype => ∀ parameter ∈ prototype.parameters,
        Source.isKeyword parameter.name = false) session :=
  ofExcept (fun _ hOk => Prototype.isKeyword_of_ofExpr hOk) fun _ hError =>
    Prototype.regular_of_error hError

/-! ### Functions of the host -/

theorem perform {action : HostAction} (hSteady : ∀ panic, action ≠ .panic panic)
    {arguments : List Value} (hLive : Value.AllLive session arguments) (scope : ScopeId) :
    (action.perform arguments scope).Inspects (Value.Lives session) session := by
  cases action with
  | echo => exact pure hLive
  | fail message => exact fail trivial
  | panic panic => exact absurd rfl (hSteady panic)
  | depth => exact read (pure trivial)
  | scopeNames =>
      apply read
      dsimp only
      split
      · exact pure ⟨trivial, trivial⟩
      · apply pure
        apply Value.allLive_iff.mpr
        intro value hValue
        obtain ⟨name, -, rfl⟩ := List.mem_map.mp hValue
        trivial

theorem requireArity (host : HostFunction) (count : Nat) :
    (host.requireArity count).Inspects (fun _ => True) session := by
  rw [HostFunction.requireArity]
  split
  · split
    · exact fail trivial
    · exact pure trivial
  · exact pure trivial

theorem applyHost {host : HostFunction} (hSteady : host.Steady) {arguments : List Value}
    (hLive : Value.AllLive session arguments) (scope : ScopeId) :
    (MessageLisp.applyHost host arguments scope).Inspects (Value.Lives session) session :=
  bind (requireArity host arguments.length) fun _ _ =>
    bind requireOpen fun _ _ => perform hSteady hLive scope

/-! ### Parts of primitive methods -/

theorem arithmetic (exact : Int64 → Int64 → Option Int64) (approximate : Float → Float → Float)
    (receiver argument : Value) :
    (MessageLisp.arithmetic exact approximate receiver argument).Inspects (Value.Lives session)
      session := by
  rw [MessageLisp.arithmetic]
  split
  · exact pure trivial
  · exact bind (numberOf receiver) fun _ _ => bind (numberOf argument) fun _ _ => pure trivial

theorem requireNonzero (divisor : Value) :
    (MessageLisp.requireNonzero divisor).Inspects (fun _ => True) session := by
  apply bind (numberOf divisor)
  intro x _
  split
  · exact fail trivial
  · exact pure trivial

theorem comparison (exact : Int64 → Int64 → Bool) (approximate : Float → Float → Bool)
    (receiver argument : Value) :
    (MessageLisp.comparison exact approximate receiver argument).Inspects (Value.Lives session)
      session := by
  rw [MessageLisp.comparison]
  split
  · exact pure trivial
  · exact bind (numberOf receiver) fun _ _ => bind (numberOf argument) fun _ _ => pure trivial

theorem itemAt {items : List Value} (hLive : Value.AllLive session items) (index : Value) :
    (MessageLisp.itemAt items index).Inspects (Value.Lives session) session := by
  cases index with
  | int i =>
      simp only [MessageLisp.itemAt]
      split
      · rename_i item hItem
        split at hItem
        · exact pure (Value.allLive_iff.mp hLive item (List.mem_of_getElem? hItem))
        · cases hItem
      · exact fail trivial
  | _ => exact read (fail trivial)

/-- A field that the class of an instance knows has its slot in the instance. -/
theorem slotOf (hSound : session.Sound) {receiver : Value} (hLive : receiver.Lives session)
    (field : String) :
    (MessageLisp.slotOf receiver field).Inspects
      (fun (id, object, slot) =>
        session.instances[id.index]? = some object ∧ slot < object.slots.size) session := by
  cases receiver with
  | object id =>
      apply bind (instanceOf hLive)
      intro object hObject
      obtain ⟨cls, hClass, hSize⟩ := (hSound.instances hObject).cls
      apply bind (classOf (Hierarchy.index_lt_of_get? hClass))
      intro cls' hClass'
      obtain rfl : cls = cls' := Option.some.inj (hClass.symm.trans hClass')
      split
      · rename_i slot hSlot
        have hIndex : slot < cls.fields.length :=
          (List.findIdx?_eq_some_iff_findIdx_eq.mp hSlot).1
        exact pure ⟨hObject, hSize ▸ hIndex⟩
      · exact fail trivial
  | _ => exact read (fail trivial)

theorem getField (hSound : session.Sound) {receiver : Value} (hLive : receiver.Lives session)
    (field : String) :
    (MessageLisp.getField receiver field).Inspects (Value.Lives session) session := by
  apply bind (slotOf hSound hLive field)
  rintro ⟨id, object, slot⟩ ⟨hObject, hSlot⟩
  simp only [Array.getElem?_eq_getElem hSlot]
  exact pure ((hSound.instances hObject).slots _ (Array.getElem_mem hSlot))

theorem handlerArguments {handler : FunctionRef} (hLive : handler.Lives session) (error : Error) :
    (MessageLisp.handlerArguments handler error).Inspects (Value.AllLive session) session := by
  cases handler with
  | closure id =>
      apply bind (closureOf hLive)
      intro closure _
      split
      · exact pure ⟨trivial, trivial⟩
      · exact pure trivial
  | _ => exact pure trivial

/-! ### Parts of messages -/

theorem notUnderstood {Q : α → Prop} (receiver : Value) (selector : String) :
    (MessageLisp.notUnderstood receiver selector : Eval α).Inspects Q session :=
  read (fail trivial)

theorem misspelled {Q : α → Prop} (receiver : Value) (parts : List Expr) :
    (MessageLisp.misspelled receiver parts : Eval α).Inspects Q session :=
  notUnderstood receiver _

theorem resolve (hSound : session.Sound) (name : String) (scope : ScopeId) :
    (MessageLisp.resolve name scope).Inspects (Value.Lives session) session := by
  apply read
  split
  · rename_i value hValue
    exact pure (hSound.lookup? hValue)
  · split
    · rename_i id hName
      exact pure (Session.Sound.find? hName)
    · exact fail trivial

end Eval.Inspects

end MessageLisp
