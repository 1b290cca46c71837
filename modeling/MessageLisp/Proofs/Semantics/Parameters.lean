import Mathlib
import MessageLisp.Proofs.Native.Coercion

/-! The scope that a body starts in. The reader of parameter lists keeps the receiver and repeated names
out, so the parameters of a closure, its receiver and the class above its own meet in one scope without
getting in each other's way, but for a parameter that is called `super`. -/
namespace MessageLisp

open Native (NativeType)
open Source (Expr)

/-! ### Closures from forms -/

namespace Prototype

/-- The parameters that can be read have names of their own, and none is the receiver. -/
theorem names_of_ofExpr {expr : Expr} {prototype : Prototype} (h : ofExpr expr = .ok prototype) :
    (prototype.parameters.map Parameter.name).Nodup ∧
      selfName ∉ prototype.parameters.map Parameter.name := by
  apply ofExpr_induction (P := fun parameters => (parameters.map Parameter.name).Nodup ∧
    selfName ∉ parameters.map Parameter.name) _ _ h
  · exact ⟨.nil, List.not_mem_nil⟩
  · rintro parameters parameter added ⟨hNodup, hSelf⟩ hAdded
    obtain ⟨rfl, -, hOther, hNew⟩ := addParameter_eq_ok_iff.mp hAdded
    rw [List.map_append, List.map_singleton]
    constructor
    · apply List.nodup_append.mpr ⟨hNodup, List.nodup_singleton _, ?_⟩
      intro name hName last hLast hSame
      rw [hSame, List.mem_singleton.mp hLast] at hName
      exact hNew hName
    · intro hMem
      rcases List.mem_append.mp hMem with hOld | hLast
      · exact hSelf hOld
      · exact hOther (List.mem_singleton.mp hLast).symm

end Prototype

namespace Eval

theorem exists_of_runIn_makeClosure {form : String} {parameters : Expr} {body : List Value}
    {scope : ScopeId} {before after : Session} {id : ClosureId}
    (h : (makeClosure form parameters body scope).runIn before = (.ok id, after)) :
    id = ⟨before.closures.size⟩ ∧ ∃ prototype exprs, Prototype.ofExpr parameters = .ok prototype ∧
      after = (before.addClosure ⟨none, none, prototype, exprs, scope, before.source?,
        prototype.signature?⟩).2 := by
  obtain ⟨prototype, read, hRead, hRest⟩ := exists_of_runIn_bind h
  have hPrototype : Prototype.ofExpr parameters = .ok prototype ∧ read = before := by
    cases hParameters : Prototype.ofExpr parameters with
    | error error =>
        rw [hParameters] at hRead
        cases hRead
    | ok found =>
        rw [hParameters] at hRead
        cases hRead
        exact ⟨rfl, rfl⟩
  obtain ⟨hPrototype, rfl⟩ := hPrototype
  obtain ⟨exprs, taken, hBody, hAdd⟩ := exists_of_runIn_bind hRest
  obtain ⟨rfl, -⟩ : taken = read ∧ List.Forall₂ (fun _ _ => True) body exprs := by
    apply forall₂_of_runIn_mapM _ hBody
    intro part expr later hPart
    split at hPart
    · cases hPart
      exact ⟨rfl, trivial⟩
    · cases hPart
  rw [runIn_get_bind, runIn_modifyGet] at hAdd
  cases hAdd
  exact ⟨rfl, prototype, exprs, hPrototype, rfl⟩

end Eval

namespace Closure

/-- A closure that a form of the language made, whatever name and owning class it has got since. -/
def FromForm (closure : Closure) : Prop :=
  ∃ (ev : Evaluator) (builtin : Builtin) (arguments : List Value) (scope : ScopeId)
    (before after : Session) (id : ClosureId) (made : Closure),
    (builtin = .lambda ∨ builtin = .function) ∧
      (ev.applyBuiltin builtin arguments scope).runIn before = (.ok (.function (.closure id)), after) ∧
      after.closures[id.index]? = some made ∧
      closure = { made with name? := closure.name?, owner? := closure.owner? }

open Eval in
/-- The parameters of such a closure have been read, and its signature is the one that they imply. -/
theorem FromForm.read {closure : Closure} (h : closure.FromForm) :
    (∃ parameters, Prototype.ofExpr parameters = .ok closure.prototype) ∧
      closure.signature? = closure.prototype.signature? := by
  obtain ⟨ev, builtin, arguments, scope, before, after, id, made, hForm, hRun, hMade, hSame⟩ := h
  have hRead : (∃ parameters, Prototype.ofExpr parameters = .ok made.prototype) ∧
      made.signature? = made.prototype.signature? := by
    rcases hForm with rfl | rfl
    · obtain ⟨parameters, _, -, hRun⟩ := exists_of_runIn_bind hRun
      obtain ⟨body, start, -, hRun⟩ := exists_of_runIn_bind hRun
      obtain ⟨_, _, hMake, hRun⟩ := exists_of_runIn_bind hRun
      cases hRun
      obtain ⟨rfl, prototype, exprs, hPrototype, rfl⟩ := exists_of_runIn_makeClosure hMake
      rw [Session.addClosure, Array.getElem?_push_size] at hMade
      cases hMade
      exact ⟨⟨parameters, hPrototype⟩, rfl⟩
    · obtain ⟨head, _, -, hRun⟩ := exists_of_runIn_bind hRun
      obtain ⟨name, _, -, hRun⟩ := exists_of_runIn_bind hRun
      obtain ⟨parameters, _, -, hRun⟩ := exists_of_runIn_bind hRun
      obtain ⟨body, start, -, hRun⟩ := exists_of_runIn_bind hRun
      obtain ⟨_, _, hMake, hRun⟩ := exists_of_runIn_bind hRun
      cases hRun
      obtain ⟨rfl, prototype, exprs, hPrototype, rfl⟩ := exists_of_runIn_makeClosure hMake
      simp only [Session.mapEnvironment, Session.modifyClosure, Session.addClosure,
        Array.getElem?_modify, if_true, Array.getElem?_push_size, Option.map_some] at hMade
      cases hMade
      exact ⟨⟨parameters, hPrototype⟩, rfl⟩
  rw [hSame]
  exact hRead

end Closure

/-! ### Arguments -/

/-- What the body is given for an argument, if the type of the parameter takes it. -/
def Parameter.receive? (parameter : Parameter) (argument : Value) : Option Value :=
  match parameter.type? with
  | some type => type.coerce? argument
  | none => some argument

/-- The first argument that is refused, with its parameter. -/
def Prototype.refused? (prototype : Prototype) (arguments : List Value) :
    Option (Parameter × Value) :=
  (prototype.parameters.zip arguments).find? fun pair => (pair.1.receive? pair.2).isNone

/-- The types of the parameters of a closure from a form: a parameter without a type next to one that
has a type takes handles. -/
theorem Closure.parameterTypes_eq {closure : Closure}
    (hSignature : closure.signature? = closure.prototype.signature?) :
    closure.parameterTypes = closure.prototype.parameters.map Parameter.type? ∨
      closure.parameterTypes =
        closure.prototype.parameters.map fun p => some (p.type?.getD .object) := by
  rw [parameterTypes, hSignature, Prototype.signature?]
  split
  · rename_i signature hSome
    split at hSome
    · cases hSome
      right
      rw [if_pos (List.length_map _), List.zipWith_map_right, List.zipWith_self]
      congr 1
      funext parameter
      cases parameter.type? <;> rfl
    · cases hSome
  · exact .inl rfl

theorem coerceArguments_parameters {closure : Closure}
    (hSignature : closure.signature? = closure.prototype.signature?) {arguments : List Value}
    (hLength : arguments.length = closure.prototype.arity) :
    coerceArguments closure arguments =
      (closure.prototype.parameters.zip arguments).mapM fun pair =>
        coerceArgument pair.1.type? pair.2 := by
  rw [coerceArguments_eq hLength]
  rcases closure.parameterTypes_eq hSignature with hTypes | hTypes
  · rw [hTypes, List.zip_map_left, List.mapM_map]
    rfl
  · rw [hTypes, List.zip_map_left, List.mapM_map]
    congr 1
    funext pair
    simp only [Function.comp, Prod.map]
    -- A handle is any value, as it is.
    cases pair.1.type? with
    | none => rfl
    | some type => rfl

namespace Eval

variable {α β : Type} {f : α → Eval β} {session : Session}

/-- Of several readings the first that fails decides. -/
theorem runIn_mapM_refused {give : α → Option β} {items : List α} {item : α} {interruption : Interruption}
    (hOk : ∀ a ∈ items, ∀ b, give a = some b → (f a).runIn session = (.ok b, session))
    (hError : (f item).runIn session = (.error interruption, session))
    (hFirst : items.find? (fun a => (give a).isNone) = some item) :
    (items.mapM f).runIn session = (.error interruption, session) := by
  induction items with
  | nil => cases hFirst
  | cons first rest ih =>
      rw [List.find?_cons] at hFirst
      rw [List.mapM_cons, runIn_bind]
      cases hGive : give first with
      | none =>
          rw [hGive] at hFirst
          obtain rfl : first = item := Option.some.inj hFirst
          rw [hError, continued]
      | some b =>
          rw [hGive] at hFirst
          have hRest := ih (fun a hMem => hOk a (List.mem_cons_of_mem _ hMem)) hFirst
          rw [hOk first List.mem_cons_self b hGive, continued, runIn_bind, hRest, continued]

theorem runIn_mapM_given {give : α → Option β} {items : List α}
    (hOk : ∀ a ∈ items, ∀ b, give a = some b → (f a).runIn session = (.ok b, session))
    (hAll : items.find? (fun a => (give a).isNone) = none) :
    ∃ results, List.Forall₂ (fun a b => give a = some b) items results ∧
      (items.mapM f).runIn session = (.ok results, session) := by
  induction items with
  | nil => exact ⟨[], .nil, rfl⟩
  | cons first rest ih =>
      rw [List.find?_cons] at hAll
      cases hGive : give first with
      | none =>
          rw [hGive] at hAll
          cases hAll
      | some b =>
          rw [hGive] at hAll
          obtain ⟨results, hResults, hRun⟩ :=
            ih (fun a hMem => hOk a (List.mem_cons_of_mem _ hMem)) hAll
          refine ⟨b :: results, .cons hGive hResults, ?_⟩
          rw [List.mapM_cons, runIn_bind_ok (hOk first List.mem_cons_self b hGive),
            runIn_bind_ok hRun]
          rfl

theorem runIn_coerceArgument_some {parameter : Parameter} {argument value : Value}
    (h : parameter.receive? argument = some value) (session : Session) :
    (coerceArgument parameter.type? argument).runIn session = (.ok value, session) := by
  rw [Parameter.receive?] at h
  cases hType : parameter.type? with
  | none =>
      rw [hType] at h
      cases h
      rfl
  | some type =>
      rw [hType] at h
      simp only [coerceArgument, coerceTo, h]
      rfl

/-- A type that does not take an argument is named in the error, and so is the argument. -/
theorem runIn_coerceArgument_none {parameter : Parameter} {argument : Value}
    (h : parameter.receive? argument = none) (session : Session) :
    ∃ type, parameter.type? = some type ∧ type.coerce? argument = none ∧
      (coerceArgument parameter.type? argument).runIn session =
        (.error (.error (.typeCoercion type.name (session.pretty argument))), session) := by
  rw [Parameter.receive?] at h
  cases hType : parameter.type? with
  | none =>
      rw [hType] at h
      cases h
  | some type =>
      rw [hType] at h
      refine ⟨type, rfl, h, ?_⟩
      simp only [coerceArgument, coerceTo, h]
      rfl

end Eval

namespace Eval

theorem runIn_bindArguments_arity {closure : Closure} {arguments : List Value}
    (hLength : arguments.length ≠ closure.prototype.arity) (session : Session) :
    (bindArguments closure arguments).runIn session =
      (.error (.error (.arityMismatch closure.displayName closure.prototype.arity
        arguments.length)), session) := by
  simp only [bindArguments]
  rw [if_pos hLength]
  rfl

end Eval

namespace Closure.FromForm

open Eval

variable {closure : Closure} {arguments : List Value}

theorem runIn_bindArguments_refused (h : closure.FromForm)
    (hLength : arguments.length = closure.prototype.arity) {parameter : Parameter} {argument : Value}
    (hRefused : closure.prototype.refused? arguments = some (parameter, argument))
    (session : Session) :
    ∃ type, parameter.type? = some type ∧ type.coerce? argument = none ∧
      (bindArguments closure arguments).runIn session =
        (.error (.error (.typeCoercion type.name (session.pretty argument))), session) := by
  have hNone : (parameter.receive? argument).isNone = true :=
    List.find?_some (p := fun pair : Parameter × Value => (pair.1.receive? pair.2).isNone) hRefused
  obtain ⟨type, hType, hCoerce, hError⟩ :=
    runIn_coerceArgument_none (Option.isNone_iff_eq_none.mp hNone) session
  refine ⟨type, hType, hCoerce, ?_⟩
  have hArguments := runIn_mapM_refused
    (f := fun pair : Parameter × Value => coerceArgument pair.1.type? pair.2)
    (fun _ _ _ hReceived => runIn_coerceArgument_some hReceived session) hError hRefused
  simp only [bindArguments]
  rw [if_neg (not_not_intro hLength), coerceArguments_parameters h.read.2 hLength, runIn_bind,
    hArguments, continued]

theorem runIn_bindArguments_passed (h : closure.FromForm)
    (hLength : arguments.length = closure.prototype.arity)
    (hPassed : closure.prototype.refused? arguments = none) (session : Session) :
    ∃ values, List.Forall₂ (fun pair value => pair.1.receive? pair.2 = some value)
        (closure.prototype.parameters.zip arguments) values ∧
      (bindArguments closure arguments).runIn session = (.ok ⟨session.environment.frames.size⟩,
        session.pushFrame (closure.frame session.hierarchy values)) := by
  obtain ⟨values, hValues, hCoerce⟩ := runIn_mapM_given
    (f := fun pair : Parameter × Value => coerceArgument pair.1.type? pair.2)
    (fun _ _ _ hReceived => runIn_coerceArgument_some hReceived session) hPassed
  refine ⟨values, hValues, runIn_bindArguments hLength ?_⟩
  rw [coerceArguments_parameters h.read.2 hLength]
  exact hCoerce

/-- Arguments in the right number are bound, or one of them is refused and nothing changes. -/
theorem runIn_bindArguments_cases (h : closure.FromForm)
    (hLength : arguments.length = closure.prototype.arity) (session : Session) :
    (∃ scope bound, (bindArguments closure arguments).runIn session = (.ok scope, bound)) ∨
      ∃ expected found, (bindArguments closure arguments).runIn session =
        (.error (.error (.typeCoercion expected found)), session) := by
  cases hRefused : closure.prototype.refused? arguments with
  | none =>
      obtain ⟨values, -, hBind⟩ := h.runIn_bindArguments_passed hLength hRefused session
      exact .inl ⟨_, _, hBind⟩
  | some pair =>
      obtain ⟨type, -, -, hBind⟩ := h.runIn_bindArguments_refused hLength hRefused session
      exact .inr ⟨_, _, hBind⟩

end Closure.FromForm

/-! ### The scope of a body -/

/-- The scope in which the body of a closure starts: inside the captured scope, with the parameters,
the receiver and the class above, and with nothing else. A parameter that is called `super` gives way to
the class above. -/
structure Closure.Starts (closure : Closure) (hierarchy : Hierarchy) (receiver? : Option Value)
    (arguments : List Value) (frame : Frame Value) : Prop where
  parent : frame.parent = some closure.scope
  parameter : ∀ parameter argument, (parameter, argument) ∈ closure.prototype.parameters.zip arguments →
    (parameter.name = superName → closure.owner?.bind hierarchy.superclass? = none) →
      ∃ value, parameter.receive? argument = some value ∧
        frame.bindings.get? parameter.name = some value
  self : ∀ receiver, receiver? = some receiver → frame.bindings.get? selfName = some receiver
  super : ∀ superclass, closure.owner?.bind hierarchy.superclass? = some superclass →
    frame.bindings.get? superName = some (.classRef superclass)
  only : ∀ name value, frame.bindings.get? name = some value →
    name ∈ closure.prototype.parameters.map Parameter.name ∨
      (name = selfName ∧ receiver? = some value) ∨
      (name = superName ∧ ∃ superclass, closure.owner?.bind hierarchy.superclass? = some superclass)

theorem Closure.FromForm.starts {closure : Closure} (hForm : closure.FromForm) (hierarchy : Hierarchy)
    (receiver? : Option Value) {arguments values : List Value}
    (hValues : List.Forall₂ (fun pair value => pair.1.receive? pair.2 = some value)
      (closure.prototype.parameters.zip arguments) values) :
    closure.Starts hierarchy receiver? arguments
      ((closure.frame hierarchy values).withReceiver receiver?) := by
  obtain ⟨⟨_, hParameters⟩, -⟩ := hForm.read
  obtain ⟨hNodup, hSelf⟩ := Prototype.names_of_ofExpr hParameters
  constructor
  case parent => cases receiver? <;> rfl
  case parameter =>
    intro parameter argument hMem hSuper
    obtain ⟨index, hPair⟩ := List.mem_iff_getElem?.mp hMem
    obtain ⟨value, hValue, hReceived⟩ : ∃ value, values[index]? = some value ∧
        parameter.receive? argument = some value := by
      have hRelated := rel_getElem? hValues index
      rw [hPair] at hRelated
      generalize values[index]? = value? at hRelated ⊢
      cases hRelated with
      | some hValue => exact ⟨_, rfl, hValue⟩
    have hHere : (closure.prototype.parameters.map Parameter.name)[index]? = some parameter.name := by
      rw [List.getElem?_map, (List.getElem?_zip_eq_some.mp hPair).1, Option.map_some]
    have hSees : closure.Sees hierarchy receiver? index parameter.name := by
      refine ⟨hHere, ?_, hSuper, ?_⟩
      · intro later hLater hSame
        have hIndex := (List.getElem?_inj (List.getElem?_eq_some_iff.mp hHere).1 hNodup).mp
          (hHere.trans hSame.symm)
        exact Nat.ne_of_lt hLater hIndex
      · intro hName
        exact absurd (hName ▸ List.mem_of_getElem? hHere) hSelf
    exact ⟨value, hReceived, hSees.get?_frame hValue⟩
  case self =>
    rintro receiver rfl
    rw [Frame.withReceiver, Table.get?_set, if_pos rfl]
  case super =>
    intro superclass hSuperclass
    have hFrame : (closure.frame hierarchy values).bindings.get? superName =
        some (.classRef superclass) := by
      simp only [Closure.frame, hSuperclass, Table.get?_set, if_true]
    cases receiver? with
    | none => exact hFrame
    | some receiver =>
        rw [Frame.withReceiver, Table.get?_set, if_neg (by decide)]
        exact hFrame
  case only =>
    intro name value hBound
    rcases Frame.withReceiver_cases hBound with hReceiver | hFrame
    · exact .inr (.inl hReceiver)
    · rcases closure.frame_cases hFrame with ⟨hSuper, superclass, hSuperclass, -⟩ | hMem
      · exact .inr (.inr ⟨hSuper, superclass, hSuperclass⟩)
      · exact .inl (List.of_mem_zip hMem).1

open Eval in
/-- A body sees its parameters. A closure from a form is given its arguments or fails before the body
starts, and then nothing has changed: it fails for their number if that is not the number of its
parameters, or else for the first of them that the type of its parameter refuses. If there is none, the
body starts in a new scope, all other scopes being as they were. There each parameter is bound to what
its type makes of the argument (or to the argument, if it has no type), `self` to the receiver and
`super` to the class above the one that owns the closure; nothing else is bound there. The one exception
is a parameter that is called `super` itself: where there is a class above, it stands for that. -/
theorem body_sees_its_parameters {session : Session} {id : ClosureId} {closure : Closure}
    (hOpen : session.isOpen = true) (hClosure : session.closures[id.index]? = some closure)
    (hForm : closure.FromForm) (receiver? : Option Value) (arguments : List Value) :
    ((bindArguments closure arguments).runIn session =
        (.error (.error (.arityMismatch closure.displayName closure.prototype.arity
          arguments.length)), session) ↔ arguments.length ≠ closure.prototype.arity) ∧
      (arguments.length = closure.prototype.arity →
        ∀ parameter argument, closure.prototype.refused? arguments = some (parameter, argument) →
          ∃ type, parameter.type? = some type ∧ type.coerce? argument = none ∧
            (bindArguments closure arguments).runIn session =
              (.error (.error (.typeCoercion type.name (session.pretty argument))), session)) ∧
      (∀ (interruption : Interruption) (later : Session),
        (bindArguments closure arguments).runIn session = (.error interruption, later) →
          ∀ ev : Evaluator, (ev.applyClosure id receiver? arguments).runIn session =
            (.error interruption, session)) ∧
      (arguments.length = closure.prototype.arity → closure.prototype.refused? arguments = none →
        ∃ frame, closure.Starts session.hierarchy receiver? arguments frame ∧
          ∀ ev : Evaluator, (ev.applyClosure id receiver? arguments).runIn session =
            (ev.runBody closure ⟨session.environment.frames.size⟩).runIn (session.pushFrame frame)) := by
  refine ⟨⟨?_, fun hLength => runIn_bindArguments_arity hLength session⟩, ?_, ?_, ?_⟩
  · intro hBind hLength
    rcases hForm.runIn_bindArguments_cases hLength session with ⟨_, _, hOk⟩ | ⟨_, _, hError⟩
    · cases hBind.symm.trans hOk
    · cases hBind.symm.trans hError
  · intro hLength parameter argument hRefused
    exact hForm.runIn_bindArguments_refused hLength hRefused session
  · intro interruption later hBind ev
    have hLater : later = session := by
      by_cases hLength : arguments.length = closure.prototype.arity
      · rcases hForm.runIn_bindArguments_cases hLength session with ⟨_, _, hOk⟩ | ⟨_, _, hError⟩
        · cases hBind.symm.trans hOk
        · cases hBind.symm.trans hError
          rfl
      · cases hBind.symm.trans (runIn_bindArguments_arity hLength session)
        rfl
    rw [Evaluator.runIn_applyClosure_open hOpen hClosure, hBind, hLater]
  · intro hLength hNone
    obtain ⟨values, hValues, hBind⟩ := hForm.runIn_bindArguments_passed hLength hNone session
    refine ⟨_, hForm.starts session.hierarchy receiver? hValues, ?_⟩
    intro ev
    rw [Evaluator.runIn_applyClosure_open hOpen hClosure, hBind, ← Session.withReceiver_pushFrame]

/-- A closure with a parameter that takes bytes and one that takes anything, owned by the class of
lists. -/
def byteAndMore : Closure where
  name? := some "at:put:"
  owner? := some BuiltinClass.list.id
  prototype := ⟨[⟨"n", some .int8⟩, ⟨"m", none⟩], none⟩
  body := [.symbol ⟨13, 14⟩ "n"]
  scope := Environment.root
  source? := none
  signature? := some ⟨[.int8, .object], .object⟩

/-- The parameters and the body of the closure as a program has them: `((n char) m) n`. -/
def byteAndMoreParts : List Value :=
  [.expr (.list ⟨0, 12⟩ [.list ⟨1, 9⟩ [.symbol ⟨2, 3⟩ "n", .symbol ⟨4, 8⟩ "char"],
      .symbol ⟨10, 11⟩ "m"]),
    .expr (.symbol ⟨13, 14⟩ "n")]

theorem byteAndMore_fromForm : byteAndMore.FromForm := by
  refine ⟨.ofFuel 0, .lambda, byteAndMoreParts, Environment.root, Session.new 8, _, ⟨0⟩, _, .inl rfl,
    rfl, rfl, rfl⟩

def byteAndMoreSession : Session :=
  { Session.new 8 with closures := #[byteAndMore] }

/-- Sent with 200 and a string to a list, the method has the signed byte -56, the string, the list and the
class above that of lists; with a string in the place of the byte it does not start. -/
theorem body_sees_its_parameters_byte :
    byteAndMore.FromForm ∧
      (∃ frame : Frame Value, frame.bindings.get? "n" = some (.int (-56)) ∧
        frame.bindings.get? "m" = some (.string "x") ∧
        frame.bindings.get? selfName = some (.list []) ∧
        frame.bindings.get? superName = some (.classRef BuiltinClass.object.id) ∧
        ∀ ev : Evaluator,
          (ev.applyClosure ⟨0⟩ (some (.list [])) [.int 200, .string "x"]).runIn byteAndMoreSession =
            (ev.runBody byteAndMore ⟨1⟩).runIn (byteAndMoreSession.pushFrame frame)) ∧
      ∀ ev : Evaluator,
        (ev.applyClosure ⟨0⟩ (some (.list [])) [.string "x", .int 200]).runIn byteAndMoreSession =
          (.error (.error (.typeCoercion "char" "\"x\"")), byteAndMoreSession) := by
  have hOpen : byteAndMoreSession.isOpen = true := rfl
  have hClosure : byteAndMoreSession.closures[(⟨0⟩ : ClosureId).index]? = some byteAndMore := rfl
  refine ⟨byteAndMore_fromForm, ?_, ?_⟩
  · obtain ⟨-, -, -, hPassed⟩ := body_sees_its_parameters hOpen hClosure byteAndMore_fromForm
      (some (.list [])) [.int 200, .string "x"]
    obtain ⟨frame, hStarts, hApply⟩ := hPassed rfl rfl
    obtain ⟨n, hByte, hN⟩ := hStarts.parameter ⟨"n", some .int8⟩ (.int 200) (.head _) nofun
    obtain ⟨m, hString, hM⟩ := hStarts.parameter ⟨"m", none⟩ (.string "x") (.tail _ (.head _)) nofun
    cases hByte
    cases hString
    exact ⟨frame, hN, hM, hStarts.self _ rfl, hStarts.super _ rfl, hApply⟩
  · obtain ⟨-, hRefused, hFailed, -⟩ := body_sees_its_parameters hOpen hClosure byteAndMore_fromForm
      (some (.list [])) [.string "x", .int 200]
    obtain ⟨type, hType, -, hBind⟩ := hRefused rfl ⟨"n", some .int8⟩ (.string "x") rfl
    cases hType
    exact hFailed _ _ hBind

/-- A method of lists with a parameter that is called `super`, sent with 5. -/
def superParameter : String :=
  "(List extend: (lambda () (function \"m:\" (super) super))) ((list) m: 5)"

set_option maxRecDepth 10000 in
/-- The body should see its argument, and it sees the class above that of lists. -/
theorem super_parameter_is_hidden :
    (((Evaluator.ofFuel 6).run superParameter "test").run (Session.new 8)).1 =
      .value (.classRef BuiltinClass.object.id) := by
  cbv

end MessageLisp
