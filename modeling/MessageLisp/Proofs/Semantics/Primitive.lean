import MessageLisp.Proofs.Hierarchy
import MessageLisp.Proofs.Semantics.Application
import MessageLisp.Semantics.Primitive

/-! Primitive methods as computations. Alike receivers answer alike to alike arguments. -/
namespace MessageLisp

open Source (Expr)

theorem Value.Alike.integers?_eq {L : Likeness} {receiver receiver' argument argument' : Value}
    (hReceiver : receiver.Alike L receiver') (hArgument : argument.Alike L argument') :
    integers? receiver argument = integers? receiver' argument' := by
  cases hReceiver with
  | int value => cases hArgument <;> rfl
  | _ => rfl

/-! ### Definitions of classes -/

theorem Hierarchy.size_le_installAll (h : Hierarchy) (cls : ClassId)
    (methods : List (String × Method)) :
    h.classes.size ≤ (h.installAll cls methods).classes.size :=
  Nat.le_of_eq Array.size_modify.symm

/-- The definition of a class as one step. -/
def Session.tryDefine (session : Session) (superclass : ClassId) (name : String)
    (fields : List String) : Except Error ClassId × Session :=
  match session.hierarchy.define name (some superclass) fields with
  | .ok (id, hierarchy) => (.ok id, { session with hierarchy })
  | .error error => (.error error, session)

theorem Session.tryDefine_quiet (session : Session) (superclass : ClassId) (name : String)
    (fields : List String) : session.Quiet (session.tryDefine superclass name fields).2 := by
  rw [tryDefine]
  split
  · rename_i id hierarchy hDefine
    obtain ⟨-, -, rfl⟩ := Hierarchy.define_eq_ok_iff.mp hDefine
    refine ⟨⟨rfl, rfl, rfl, rfl, rfl, rfl, .of_closures rfl ?_⟩, rfl⟩
    rw [Array.size_push]
    exact Nat.le_succ _
  · exact ⟨.refl session, rfl⟩

theorem defineClass_eq (superclass : ClassId) (name : String) (fields : List String) :
    defineClass superclass name fields =
      ((modifyGet fun session => session.tryDefine superclass name fields) >>= fun result =>
        Eval.ofExcept result >>= fun id => pure (.classRef id)) := by
  funext session
  change (Eval.ofExcept (session.hierarchy.define name (some superclass) fields) >>=
      fun defined => do
        modify fun session => { session with hierarchy := defined.2 }
        pure (Value.classRef defined.1) : Eval Value) session =
    (Eval.ofExcept (session.tryDefine superclass name fields).1 >>= fun id =>
      pure (Value.classRef id) : Eval Value) (session.tryDefine superclass name fields).2
  rw [Session.tryDefine]
  cases session.hierarchy.define name (some superclass) fields with
  | ok defined => rfl
  | error error => rfl

namespace Computes

variable {L : Likeness} {program program' : Option SourceText} {P : Expr → Expr → Prop}

/-! ### Numbers -/

theorem numberOf {value value' : Value} (hValue : value.Alike L value') :
    Computes L program program' P Eq (fun _ => MessageLisp.numberOf value)
      (fun _ => MessageLisp.numberOf value') := by
  simp only [MessageLisp.numberOf, hValue.float?_eq]
  cases value'.float? with
  | some x => exact pure rfl
  | none => exact unconvertible "Number" hValue

theorem arithmetic (exact : Int64 → Int64 → Option Int64) (approximate : Float → Float → Float)
    {receiver receiver' argument argument' : Value} (hReceiver : receiver.Alike L receiver')
    (hArgument : argument.Alike L argument') :
    Computes L program program' P (Value.Alike L)
      (fun _ => MessageLisp.arithmetic exact approximate receiver argument)
      (fun _ => MessageLisp.arithmetic exact approximate receiver' argument') := by
  simp only [MessageLisp.arithmetic, hReceiver.integers?_eq hArgument]
  split
  · exact pure (Value.Alike.int _)
  · apply bind (numberOf hReceiver)
    rintro a _ rfl
    apply bind (numberOf hArgument)
    rintro b _ rfl
    exact pure (Value.Alike.float _)

theorem requireNonzero {divisor divisor' : Value} (hDivisor : divisor.Alike L divisor') :
    Computes L program program' P Eq (fun _ => MessageLisp.requireNonzero divisor)
      (fun _ => MessageLisp.requireNonzero divisor') := by
  apply bind (numberOf hDivisor)
  rintro x _ rfl
  split
  · exact fail _
  · exact pure rfl

theorem comparison (exact : Int64 → Int64 → Bool) (approximate : Float → Float → Bool)
    {receiver receiver' argument argument' : Value} (hReceiver : receiver.Alike L receiver')
    (hArgument : argument.Alike L argument') :
    Computes L program program' P (Value.Alike L)
      (fun _ => MessageLisp.comparison exact approximate receiver argument)
      (fun _ => MessageLisp.comparison exact approximate receiver' argument') := by
  simp only [MessageLisp.comparison, hReceiver.integers?_eq hArgument]
  split
  · exact pure (Value.Alike.bool _)
  · apply bind (numberOf hReceiver)
    rintro a _ rfl
    apply bind (numberOf hArgument)
    rintro b _ rfl
    exact pure (Value.Alike.bool _)

/-! ### Conversions -/

theorem stringOf (expected : String) {value value' : Value} (hValue : value.Alike L value') :
    Computes L program program' P Eq (fun _ => MessageLisp.stringOf expected value)
      (fun _ => MessageLisp.stringOf expected value') := by
  simp only [MessageLisp.stringOf, hValue.string?_eq]
  cases value'.string? with
  | some text => exact pure rfl
  | none => exact unconvertible expected hValue

theorem listOf {value value' : Value} (hValue : value.Alike L value') :
    Computes L program program' P (List.Forall₂ (Value.Alike L))
      (fun _ => MessageLisp.listOf value) (fun _ => MessageLisp.listOf value') := by
  have hSame := hValue
  cases hValue with
  | list hItems => exact pure hItems
  | _ => exact unconvertible "List" hSame

theorem functionOf {value value' : Value} (hValue : value.Alike L value') :
    Computes L program program' P Eq (fun _ => MessageLisp.functionOf value)
      (fun _ => MessageLisp.functionOf value') := by
  simp only [MessageLisp.functionOf, hValue.function?_eq]
  cases value'.function? with
  | some target => exact pure rfl
  | none =>
      apply read
      intro session session' hAlike _ _
      rw [hAlike.className_eq hValue]
      exact fail _

theorem closureIdOf {value value' : Value} (hValue : value.Alike L value') :
    Computes L program program' P Eq (fun _ => MessageLisp.closureIdOf value)
      (fun _ => MessageLisp.closureIdOf value') := by
  apply bind (functionOf hValue)
  rintro target _ rfl
  cases target with
  | closure id => exact pure rfl
  | builtin _ | host _ =>
      apply read
      intro session session' hAlike _ _
      rw [hAlike.className_eq hValue]
      exact fail _

theorem classIdOf {value value' : Value} (hValue : value.Alike L value') :
    Computes L program program' P Eq (fun _ => MessageLisp.classIdOf value)
      (fun _ => MessageLisp.classIdOf value') := by
  have hSame := hValue
  cases hValue with
  | classRef id => exact pure rfl
  | _ => exact unconvertible "Class" hSame

theorem itemAt {items items' : List Value} (hItems : List.Forall₂ (Value.Alike L) items items')
    {index index' : Value} (hIndex : index.Alike L index') :
    Computes L program program' P (Value.Alike L) (fun _ => MessageLisp.itemAt items index)
      (fun _ => MessageLisp.itemAt items' index') := by
  have hSame := hIndex
  cases hIndex with
  | int i =>
      have hItem := rel_getElem? hItems i.toInt.toNat
      simp only [MessageLisp.itemAt, hItems.length_eq]
      by_cases hSign : 0 ≤ i.toInt
      · simp only [hSign, if_true]
        generalize items[i.toInt.toNat]? = item? at hItem ⊢
        generalize items'[i.toInt.toNat]? = item?' at hItem ⊢
        cases hItem with
        | none => exact fail _
        | some hItem => exact pure hItem
      · simp only [hSign, if_false]
        exact fail _
  | _ => exact unconvertible "integer index" hSame

/-! ### Instances -/

theorem instanceOf (id : InstanceId) :
    Computes L program program' P (Instance.Alike L) (fun _ => Eval.instanceOf id)
      (fun _ => Eval.instanceOf id) := by
  apply read
  intro session session' hAlike _ _
  have hObject := hAlike.instances id.index
  generalize session.instances[id.index]? = object? at hObject ⊢
  generalize session'.instances[id.index]? = object?' at hObject ⊢
  cases hObject with
  | none => exact abort _
  | some hObject => exact pure hObject

theorem classOf (id : ClassId) :
    Computes L program program' P Eq (fun _ => Eval.classOf id) (fun _ => Eval.classOf id) := by
  apply read
  intro session session' hAlike _ _
  rw [hAlike.hierarchy]
  cases session'.hierarchy.get? id with
  | none => exact abort _
  | some cls => exact pure rfl

/-- Places of a field: the same slot of alike instances. -/
def SlotAlike (L : Likeness) (place place' : InstanceId × Instance × Nat) : Prop :=
  place.1 = place'.1 ∧ place.2.1.Alike L place'.2.1 ∧ place.2.2 = place'.2.2

theorem slotOf {receiver receiver' : Value} (hReceiver : receiver.Alike L receiver')
    (field : String) :
    Computes L program program' P (SlotAlike L) (fun _ => MessageLisp.slotOf receiver field)
      (fun _ => MessageLisp.slotOf receiver' field) := by
  have hSame := hReceiver
  cases hReceiver with
  | object id =>
      apply bind (instanceOf id)
      intro object object' hObject
      rw [hObject.cls]
      apply bind (classOf object'.cls)
      rintro cls _ rfl
      cases cls.slot? field with
      | none => exact fail _
      | some slot => exact pure ⟨rfl, hObject, rfl⟩
  | _ =>
      apply read
      intro session session' hAlike _ _
      rw [hAlike.className_eq hSame]
      exact fail _

theorem getField {receiver receiver' : Value} (hReceiver : receiver.Alike L receiver')
    (field : String) :
    Computes L program program' P (Value.Alike L) (fun _ => MessageLisp.getField receiver field)
      (fun _ => MessageLisp.getField receiver' field) := by
  apply bind (slotOf hReceiver field)
  rintro ⟨id, object, slot⟩ ⟨_, object', _⟩ ⟨rfl, hObject, rfl⟩
  have hSlot := hObject.slots slot
  simp only []
  generalize object.slots[slot]? = value? at hSlot ⊢
  generalize object'.slots[slot]? = value?' at hSlot ⊢
  cases hSlot with
  | none => exact abort _
  | some hSlot => exact pure hSlot

theorem setField {receiver receiver' : Value} (hReceiver : receiver.Alike L receiver')
    (field : String) {value value' : Value} (hValue : value.Alike L value') :
    Computes L program program' P Eq (fun _ => MessageLisp.setField receiver field value)
      (fun _ => MessageLisp.setField receiver' field value') := by
  apply bind (slotOf hReceiver field)
  rintro ⟨id, object, slot⟩ ⟨_, object', _⟩ ⟨rfl, hObject, rfl⟩
  have hSize := hObject.slots.size_eq
  by_cases hBound : slot < object.slots.size
  · have hBound' : slot < object'.slots.size := hSize ▸ hBound
    simp only [dif_pos hBound, dif_pos hBound']
    apply update
    · intro session session' hAlike _ _
      refine { hAlike with instances := hAlike.instances.modify id.index ?_ }
      intro current current' hCurrent
      exact ⟨hCurrent.cls, hObject.slots.set hBound hBound' hValue⟩
    · exact fun session => ⟨⟨rfl, rfl, rfl, rfl, rfl, rfl, .of_eq rfl rfl⟩, rfl⟩
    · exact fun session => ⟨⟨rfl, rfl, rfl, rfl, rfl, rfl, .of_eq rfl rfl⟩, rfl⟩
  · have hBound' : ¬slot < object'.slots.size := hSize ▸ hBound
    simp only [dif_neg hBound, dif_neg hBound']
    exact abort _

theorem newInstance (id : ClassId) :
    Computes L program program' P (Value.Alike L) (fun _ => MessageLisp.newInstance id)
      (fun _ => MessageLisp.newInstance id) := by
  apply bind (classOf id)
  rintro cls _ rfl
  apply bind (R := Eq)
  · apply step
    · intro session session' hAlike _ _
      refine ⟨hAlike.addInstance_eq _ _, hAlike.addInstance ⟨rfl, ArrayAlike.self ?_⟩⟩
      intro slot hSlot
      rw [Array.eq_of_mem_replicate hSlot]
      exact Value.Alike.null
    · exact fun session => .addInstance session _
    · exact fun session => .addInstance session _
  rintro id _ rfl
  exact pure (Value.Alike.object id)

theorem defineClass (superclass : ClassId) (name : String) (fields : List String) :
    Computes L program program' P (Value.Alike L)
      (fun _ => MessageLisp.defineClass superclass name fields)
      (fun _ => MessageLisp.defineClass superclass name fields) := by
  rw [defineClass_eq]
  apply bind (R := Eq)
  · apply step
    · intro session session' hAlike _ _
      rw [Session.tryDefine, Session.tryDefine, hAlike.hierarchy]
      cases session'.hierarchy.define name (some superclass) fields with
      | error error => exact ⟨rfl, hAlike⟩
      | ok defined => exact ⟨rfl, { hAlike with hierarchy := rfl }⟩
    · exact fun session => session.tryDefine_quiet superclass name fields
    · exact fun session => session.tryDefine_quiet superclass name fields
  rintro result _ rfl
  apply bind (ofExcept (ExceptAlike.refl result))
  rintro id _ rfl
  exact pure (Value.Alike.classRef id)

theorem collectMethods (cls : ClassId) (scope : ScopeId) (names : List String) :
    Computes L program program' P Eq (fun _ => MessageLisp.collectMethods cls scope names)
      (fun _ => MessageLisp.collectMethods cls scope names) := by
  rw [← List.forall₂_eq_eq_eq]
  apply filterMapM (R := Eq) (List.forall₂_same.mpr fun _ _ => rfl)
  rintro name _ rfl
  apply read
  intro session session' hAlike _ _
  have hBinding := hAlike.environment.getLocal? scope name
  generalize session.environment.getLocal? scope name = value? at hBinding ⊢
  generalize session'.environment.getLocal? scope name = value?' at hBinding ⊢
  cases hBinding with
  | none => exact pure Option.Rel.none
  | some hValue =>
      cases hValue with
      | function target =>
          apply bind (R := Eq)
          · apply update
            · intro session session' hAlike _ _
              exact hAlike.mapEnvironment (hAlike.environment.remove scope name)
            · exact fun session => .mapEnvironment session _
            · exact fun session => .mapEnvironment session _
          rintro _ _ rfl
          cases target with
          | closure id =>
              apply bind (R := Eq)
              · apply update
                · intro session session' hAlike _ _
                  exact hAlike.modifyClosure id fun _ _ hClosure =>
                    { hClosure with owner := rfl, name := rfl }
                · exact fun session => .modifyClosure session id fun _ => rfl
                · exact fun session => .modifyClosure session id fun _ => rfl
              rintro _ _ rfl
              exact pure (Option.Rel.some rfl)
          | builtin _ | host _ => exact pure (Option.Rel.some rfl)
      | _ => exact pure Option.Rel.none

/-! ### Methods that evaluate -/

theorem extendClass (cls : ClassId) (definitions : ClosureId) :
    Computes L program program' P Eq (fun ev => ev.extendClass cls definitions)
      (fun ev => ev.extendClass cls definitions) := by
  apply bind (closureOf definitions)
  intro closure closure' hClosure
  rw [hClosure.scope]
  apply bind (newScope _)
  rintro scope _ rfl
  apply adopting (hClosure.body.imp fun _ _ hCode => L.expr_of_code hCode)
  intro Q hBody
  apply bind (sequence hBody scope)
  intro _ _ _
  apply read
  intro session session' hAlike _ _
  rw [hAlike.environment.names_eq scope]
  apply bind (collectMethods cls scope _)
  rintro methods _ rfl
  apply bind (R := Eq)
  · apply update
    · exact fun session session' hAlike _ _ => hAlike.mapHierarchy _
    · exact fun session => .mapHierarchy session fun h => h.size_le_installAll cls methods
    · exact fun session => .mapHierarchy session fun h => h.size_le_installAll cls methods
  rintro _ _ rfl
  exact pure rfl

theorem runBlock {block block' : Value} (hBlock : block.Alike L block') :
    Computes L program program' P (Value.Alike L) (fun ev => ev.runBlock block)
      (fun ev => ev.runBlock block') := by
  apply bind (functionOf hBlock)
  rintro target _ rfl
  exact Computes.apply target List.Forall₂.nil Environment.root

theorem test (condition : ClosureId) (expected : Bool) (scope : ScopeId) :
    Computes L program program' P Eq (fun ev => ev.test condition expected scope)
      (fun ev => ev.test condition expected scope) := by
  apply bind (Computes.apply (.closure condition) List.Forall₂.nil scope)
  intro value value' hValue
  rw [hValue.isTrue_eq]
  exact pure rfl

theorem repeatWhile (expected : Bool) {receiver receiver' body body' : Value}
    (hReceiver : receiver.Alike L receiver') (hBody : body.Alike L body') :
    Computes L program program' P (Value.Alike L)
      (fun ev => ev.repeatWhile expected receiver body)
      (fun ev => ev.repeatWhile expected receiver' body') := by
  apply bind (closureIdOf hReceiver)
  rintro condition _ rfl
  apply bind (functionOf hBody)
  rintro target _ rfl
  apply bind (closureOf condition)
  intro closure closure' hClosure
  rw [hClosure.scope]
  exact loop (test condition expected _) (Computes.apply target List.Forall₂.nil _)
    Value.Alike.null

theorem handlerArguments (handler : FunctionRef) (error : Error) :
    Computes L program program' P (List.Forall₂ (Value.Alike L))
      (fun _ => MessageLisp.handlerArguments handler error)
      (fun _ => MessageLisp.handlerArguments handler error) := by
  cases handler with
  | closure id =>
      apply bind (closureOf id)
      intro closure closure' hClosure
      rw [hClosure.prototype]
      split
      · exact pure (List.Forall₂.cons (Value.Alike.string _) List.Forall₂.nil)
      · exact pure List.Forall₂.nil
  | builtin _ | host _ => exact pure List.Forall₂.nil

theorem handleFailure (guarded : ClosureId) (handler : FunctionRef) :
    Computes L program program' P Eq (fun ev => ev.handleFailure guarded handler)
      (fun ev => ev.handleFailure guarded handler) := by
  apply bind requireOpen
  rintro _ _ rfl
  apply bind (closureOf guarded)
  intro closure closure' hClosure
  rw [hClosure.scope]
  apply handle (Computes.apply (.closure guarded) List.Forall₂.nil _)
  intro error
  apply bind (handlerArguments handler error)
  intro arguments arguments' hArguments
  apply bind (Computes.apply handler hArguments _)
  intro _ _ _
  exact pure rfl

theorem runPrimitive (primitive : Primitive) {receiver receiver' : Value}
    (hReceiver : receiver.Alike L receiver') {arguments arguments' : List Value}
    (hArguments : List.Forall₂ (Value.Alike L) arguments arguments') :
    Computes L program program' P (Value.Alike L)
      (fun ev => ev.runPrimitive primitive receiver arguments)
      (fun ev => ev.runPrimitive primitive receiver' arguments') := by
  have hFirst : Computes L program program' P (Value.Alike L)
      (fun _ => Eval.argument arguments 0) (fun _ => Eval.argument arguments' 0) :=
    argument hArguments 0
  have hSecond : Computes L program program' P (Value.Alike L)
      (fun _ => Eval.argument arguments 1) (fun _ => Eval.argument arguments' 1) :=
    argument hArguments 1
  cases primitive with
  | add | subtract | multiply => exact bind hFirst fun _ _ h => arithmetic _ _ hReceiver h
  | divide | modulo =>
      apply bind hFirst
      intro divisor divisor' hDivisor
      apply bind (requireNonzero hDivisor)
      rintro _ _ rfl
      exact arithmetic _ _ hReceiver hDivisor
  | less | greater | lessOrEqual | greaterOrEqual =>
      exact bind hFirst fun _ _ h => comparison _ _ hReceiver h
  | length =>
      apply bind (stringOf "String" hReceiver)
      rintro text _ rfl
      exact pure (.int _)
  | concatenate =>
      apply bind (stringOf "String" hReceiver)
      rintro text _ rfl
      apply bind hFirst
      intro other other' hOther
      apply read
      intro session session' hAlike _ _
      rw [hAlike.display_eq hOther]
      exact pure (.string _)
  | count =>
      apply bind (listOf hReceiver)
      intro items items' hItems
      rw [hItems.length_eq]
      exact pure (.int _)
  | «at» =>
      apply bind (listOf hReceiver)
      intro items items' hItems
      exact bind hFirst fun _ _ hIndex => itemAt hItems hIndex
  | first =>
      apply bind (listOf hReceiver)
      intro items items' hItems
      have hHead := rel_getElem? hItems 0
      rw [← List.head?_eq_getElem?, ← List.head?_eq_getElem?] at hHead
      exact pure (Value.Alike.getD_null hHead)
  | append =>
      apply bind (listOf hReceiver)
      intro items items' hItems
      apply bind hFirst
      intro item item' hItem
      exact pure (.list (List.rel_append hItems (.cons hItem .nil)))
  | forEach =>
      apply bind hFirst
      intro block block' hBlock
      apply bind (functionOf hBlock)
      rintro target _ rfl
      apply bind (listOf hReceiver)
      intro items items' hItems
      apply bind (forEach hItems fun item item' hItem => Computes.apply target (.cons hItem .nil) _)
      rintro _ _ rfl
      exact pure hReceiver
  | map =>
      apply bind hFirst
      intro block block' hBlock
      apply bind (functionOf hBlock)
      rintro target _ rfl
      apply bind (listOf hReceiver)
      intro items items' hItems
      apply bind (mapM hItems fun item item' hItem => Computes.apply target (.cons hItem .nil) _)
      intro mapped mapped' hMapped
      exact pure (.list hMapped)
  | filter =>
      apply bind hFirst
      intro block block' hBlock
      apply bind (functionOf hBlock)
      rintro target _ rfl
      apply bind (listOf hReceiver)
      intro items items' hItems
      apply bind (filterM hItems ?_)
      · intro kept kept' hKept
        exact pure (.list hKept)
      · intro item item' hItem
        apply bind (Computes.apply target (.cons hItem .nil) _)
        intro value value' hValue
        exact pure hValue.isTrue_eq
  | injectInto =>
      apply bind hSecond
      intro block block' hBlock
      apply bind (functionOf hBlock)
      rintro target _ rfl
      apply bind (listOf hReceiver)
      intro items items' hItems
      apply bind hFirst
      intro start start' hStart
      apply foldlM hItems hStart
      intro total total' item item' hTotal hItem
      exact Computes.apply target (.cons hTotal (.cons hItem .nil)) _
  | isTrue =>
      simp only [Evaluator.runPrimitive, hReceiver.isTrue_eq]
      exact pure (.bool _)
  | ifTrue =>
      simp only [Evaluator.runPrimitive, hReceiver.isTrue_eq]
      split
      · exact bind hFirst fun _ _ hBlock => runBlock hBlock
      · exact pure .null
  | ifFalse =>
      simp only [Evaluator.runPrimitive, hReceiver.isTrue_eq]
      split
      · exact pure .null
      · exact bind hFirst fun _ _ hBlock => runBlock hBlock
  | ifTrueIfFalse | ifFalseIfTrue =>
      simp only [Evaluator.runPrimitive, hReceiver.isTrue_eq]
      exact bind (argument hArguments _) fun _ _ hBlock => runBlock hBlock
  | description | prettyDescription =>
      apply read
      intro session session' hAlike _ _
      simp only [hAlike.display_eq hReceiver, hAlike.pretty_eq hReceiver]
      exact pure (.string _)
  | print | prettyPrint =>
      apply read
      intro session session' hAlike _ _
      simp only [hAlike.display_eq hReceiver, hAlike.pretty_eq hReceiver]
      apply bind (printLine _)
      rintro _ _ rfl
      exact pure hReceiver
  | classOf =>
      apply read
      intro session session' hAlike _ _
      rw [hAlike.classOf_eq hReceiver]
      exact pure (.classRef _)
  | respondsTo =>
      apply bind hFirst
      intro name name' hName
      apply bind (stringOf "selector" hName)
      rintro selector _ rfl
      apply read
      intro session session' hAlike _ _
      rw [hAlike.classOf_eq hReceiver, hAlike.hierarchy]
      exact pure (.bool _)
  | equal =>
      apply bind hFirst
      intro other other' hOther
      rw [Value.same_eq hReceiver hOther]
      exact pure (.bool _)
  | getField =>
      apply bind hFirst
      intro name name' hName
      apply bind (stringOf "field name" hName)
      rintro field _ rfl
      exact getField hReceiver field
  | setField =>
      apply bind hSecond
      intro name name' hName
      apply bind (stringOf "field name" hName)
      rintro field _ rfl
      apply bind hFirst
      intro value value' hValue
      apply bind (setField hReceiver field hValue)
      rintro _ _ rfl
      exact pure hValue
  | new =>
      apply bind (classIdOf hReceiver)
      rintro id _ rfl
      exact newInstance id
  | className =>
      apply bind (classIdOf hReceiver)
      rintro id _ rfl
      apply read
      intro session session' hAlike _ _
      rw [hAlike.hierarchy]
      exact pure (.string _)
  | superclass =>
      apply bind (classIdOf hReceiver)
      rintro id _ rfl
      apply read
      intro session session' hAlike _ _
      rw [hAlike.hierarchy]
      cases session'.hierarchy.superclass? id with
      | none => exact pure .null
      | some superclass => exact pure (.classRef superclass)
  | subclass =>
      apply bind hFirst
      intro text text' hText
      apply bind (stringOf "class name" hText)
      rintro name _ rfl
      apply bind (classIdOf hReceiver)
      rintro id _ rfl
      exact defineClass id name []
  | subclassWithFields =>
      apply bind hFirst
      intro text text' hText
      apply bind (stringOf "class name" hText)
      rintro name _ rfl
      apply bind hSecond
      intro list list' hList
      apply bind (listOf hList)
      intro items items' hItems
      apply bind (mapM hItems fun item item' hItem => stringOf "field name" hItem)
      intro fields fields' hFields
      rw [List.forall₂_eq_eq_eq] at hFields
      subst hFields
      apply bind (classIdOf hReceiver)
      rintro id _ rfl
      exact defineClass id name fields
  | extend =>
      apply bind (classIdOf hReceiver)
      rintro cls _ rfl
      apply bind hFirst
      intro block block' hBlock
      apply bind (closureIdOf hBlock)
      rintro definitions _ rfl
      apply bind (extendClass cls definitions)
      rintro _ _ rfl
      exact pure hReceiver
  | functionName =>
      apply bind (functionOf hReceiver)
      rintro target _ rfl
      apply read
      intro session session' hAlike _ _
      rw [hAlike.functionName?_eq target]
      cases session'.functionName? target with
      | none => exact pure .null
      | some name => exact pure (.string name)
  | whileTrue | whileFalse =>
      exact bind hFirst fun _ _ hBody => repeatWhile _ hReceiver hBody
  | onException =>
      apply bind (closureIdOf hReceiver)
      rintro guarded _ rfl
      apply bind hFirst
      intro block block' hBlock
      apply bind (functionOf hBlock)
      rintro handler _ rfl
      apply bind (handleFailure guarded handler)
      rintro handled _ rfl
      exact pure (.bool handled)

end Computes

end MessageLisp
