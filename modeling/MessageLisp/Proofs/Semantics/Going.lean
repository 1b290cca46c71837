import Mathlib
import MessageLisp.Proofs.Semantics.Course

/-! Computations that take a course. Nothing is asked of the session that they start from, and the outcome
may be anything, a breakdown included. Some of them only look at the session. -/
namespace MessageLisp

open Source (Expr)

/-! ### Looking at the session -/

/-- The computation leaves every session as it is. -/
def Eval.Looks {α : Type} (x : Eval α) : Prop :=
  ∀ session : Session, (x.runIn session).2 = session

namespace Eval.Looks

variable {α β : Type}

theorem pure (a : α) : (Pure.pure a : Eval α).Looks :=
  fun _ => rfl

theorem fail (error : Error) : (Eval.fail error : Eval α).Looks :=
  fun _ => rfl

theorem abort (text : String) : (Eval.abort text : Eval α).Looks :=
  fun _ => rfl

theorem panic (panic : Panic) : (throw (.panic panic) : Eval α).Looks :=
  fun _ => rfl

theorem read {f : Session → Eval α} (h : ∀ session, (f session).Looks) : (get >>= f : Eval α).Looks :=
  fun session => h session session

theorem bind {x : Eval α} {f : α → Eval β} (hFirst : x.Looks) (hRest : ∀ a, (f a).Looks) :
    (x >>= f).Looks := by
  intro session
  have hSame := hFirst session
  rw [runIn_bind]
  rcases hRun : x.runIn session with ⟨interruption | a, later⟩
  · rw [hRun] at hSame
    exact hSame
  · rw [hRun] at hSame
    obtain rfl : later = session := hSame
    exact hRest a later

theorem mapM {items : List α} {f : α → Eval β} (hItem : ∀ a, (f a).Looks) : (items.mapM f).Looks := by
  induction items with
  | nil => exact pure []
  | cons item items ih =>
      rw [List.mapM_cons]
      exact bind (hItem item) fun b => bind ih fun bs => pure (b :: bs)

theorem ofExcept (result : Except Error α) : (Eval.ofExcept result).Looks := by
  cases result with
  | ok a => exact pure a
  | error error => exact fail error

/-! ### Things that may exist -/

theorem argument (arguments : List Value) (index : Nat) : (Eval.argument arguments index).Looks := by
  rw [Eval.argument]
  split
  · exact pure _
  · exact abort _

theorem argumentsFrom (arguments : List Value) (start : Nat) :
    (Eval.argumentsFrom arguments start).Looks := by
  rw [Eval.argumentsFrom]
  split
  · exact pure _
  · exact abort _

theorem closureOf (id : ClosureId) : (Eval.closureOf id).Looks := by
  apply read
  intro session
  split
  · exact pure _
  · exact abort _

theorem hostOf (id : HostId) : (Eval.hostOf id).Looks := by
  apply read
  intro session
  split
  · exact pure _
  · exact abort _

theorem instanceOf (id : InstanceId) : (Eval.instanceOf id).Looks := by
  apply read
  intro session
  split
  · exact pure _
  · exact abort _

theorem classOf (id : ClassId) : (Eval.classOf id).Looks := by
  apply read
  intro session
  split
  · exact pure _
  · exact abort _

theorem requireOpen : Eval.requireOpen.Looks := by
  apply read
  intro session
  split
  · exact pure _
  · exact fail _

/-! ### Forms, functions of the host and coercion -/

theorem rawArgument (form : String) (arguments : List Value) (index : Nat) :
    (MessageLisp.rawArgument form arguments index).Looks := by
  rw [MessageLisp.rawArgument]
  split
  · exact pure _
  · exact fail _

theorem variableName (form : String) (expr : Expr) : (MessageLisp.variableName form expr).Looks := by
  rw [MessageLisp.variableName]
  split
  · split
    · exact fail _
    · exact pure _
  · exact fail _

theorem definedName (head : Expr) : (MessageLisp.definedName head).Looks := by
  rw [MessageLisp.definedName.eq_def]
  split
  · split
    · exact variableName _ _
    · exact pure _
  · exact variableName _ _

theorem bodyOf (form : String) (body : List Value) : (MessageLisp.bodyOf form body).Looks := by
  apply mapM
  intro part
  split
  · exact pure _
  · exact fail _

theorem requireArity (host : HostFunction) (count : Nat) : (host.requireArity count).Looks := by
  rw [HostFunction.requireArity]
  split
  · split
    · exact fail _
    · exact pure _
  · exact pure _

theorem perform (action : HostAction) (arguments : List Value) (scope : ScopeId) :
    (action.perform arguments scope).Looks := by
  cases action with
  | echo => exact pure _
  | fail message => exact fail _
  | panic breakdown => exact panic breakdown
  | depth => exact read fun _ => pure _
  | scopeNames =>
      apply read
      intro session
      dsimp only
      split
      · exact pure _
      · exact pure _

theorem applyHost (host : HostFunction) (arguments : List Value) (scope : ScopeId) :
    (MessageLisp.applyHost host arguments scope).Looks :=
  bind (requireArity host _) fun _ => bind requireOpen fun _ => perform host.action arguments scope

theorem coerceTo (type : Native.NativeType) (value : Value) : (MessageLisp.coerceTo type value).Looks := by
  rw [MessageLisp.coerceTo]
  split
  · exact pure _
  · exact read fun _ => fail _

theorem coerceArgument (type? : Option Native.NativeType) (value : Value) :
    (MessageLisp.coerceArgument type? value).Looks := by
  cases type? with
  | none => exact pure value
  | some type => exact coerceTo type value

theorem coerceArguments {closure : Closure} {arguments : List Value}
    (hLength : arguments.length = closure.prototype.arity) :
    (MessageLisp.coerceArguments closure arguments).Looks := by
  rw [coerceArguments_eq hLength]
  exact mapM fun pair => coerceArgument pair.1 pair.2

/-! ### Primitive methods -/

theorem numberOf (value : Value) : (MessageLisp.numberOf value).Looks := by
  rw [MessageLisp.numberOf]
  split
  · exact pure _
  · exact read fun _ => fail _

theorem arithmetic (exact' : Int64 → Int64 → Option Int64) (approximate : Float → Float → Float)
    (receiver argument : Value) :
    (MessageLisp.arithmetic exact' approximate receiver argument).Looks := by
  rw [MessageLisp.arithmetic]
  split
  · exact pure _
  · exact bind (numberOf receiver) fun _ => bind (numberOf argument) fun _ => pure _

theorem comparison (exact' : Int64 → Int64 → Bool) (approximate : Float → Float → Bool)
    (receiver argument : Value) :
    (MessageLisp.comparison exact' approximate receiver argument).Looks := by
  rw [MessageLisp.comparison]
  split
  · exact pure _
  · exact bind (numberOf receiver) fun _ => bind (numberOf argument) fun _ => pure _

theorem requireNonzero (divisor : Value) : (MessageLisp.requireNonzero divisor).Looks := by
  apply bind (numberOf divisor)
  intro x
  split
  · exact fail _
  · exact pure _

theorem stringOf (expected : String) (value : Value) : (MessageLisp.stringOf expected value).Looks := by
  rw [MessageLisp.stringOf]
  split
  · exact pure _
  · exact read fun _ => fail _

theorem listOf (value : Value) : (MessageLisp.listOf value).Looks := by
  cases value with
  | list items => exact pure items
  | _ => exact read fun _ => fail _

theorem functionOf (value : Value) : (MessageLisp.functionOf value).Looks := by
  rw [MessageLisp.functionOf]
  split
  · exact pure _
  · exact read fun _ => fail _

theorem closureIdOf (value : Value) : (MessageLisp.closureIdOf value).Looks := by
  apply bind (functionOf value)
  intro target
  cases target with
  | closure id => exact pure id
  | builtin builtin => exact read fun _ => fail _
  | host id => exact read fun _ => fail _

theorem classIdOf (value : Value) : (MessageLisp.classIdOf value).Looks := by
  cases value with
  | classRef id => exact pure id
  | _ => exact read fun _ => fail _

theorem itemAt (items : List Value) (index : Value) : (MessageLisp.itemAt items index).Looks := by
  cases index with
  | int i =>
      rw [MessageLisp.itemAt]
      split
      · exact pure _
      · exact fail _
  | _ => exact read fun _ => fail _

theorem slotOf (receiver : Value) (field : String) : (MessageLisp.slotOf receiver field).Looks := by
  cases receiver with
  | object id =>
      apply bind (instanceOf id)
      intro object
      apply bind (classOf object.cls)
      intro cls
      split
      · exact pure _
      · exact fail _
  | _ => exact read fun _ => fail _

theorem getField (receiver : Value) (field : String) : (MessageLisp.getField receiver field).Looks := by
  apply bind (slotOf receiver field)
  intro slot
  dsimp only
  split
  · exact pure _
  · exact abort _

theorem handlerArguments (handler : FunctionRef) (error : Error) :
    (MessageLisp.handlerArguments handler error).Looks := by
  cases handler with
  | closure id =>
      apply bind (closureOf id)
      intro closure
      split
      · exact pure _
      · exact pure _
  | builtin builtin => exact pure []
  | host id => exact pure []

/-! ### Names and messages -/

theorem notUnderstood (receiver : Value) (selector : String) :
    (MessageLisp.notUnderstood receiver selector : Eval α).Looks :=
  read fun _ => fail _

theorem misspelled (receiver : Value) (parts : List Expr) :
    (MessageLisp.misspelled receiver parts : Eval α).Looks :=
  notUnderstood receiver _

theorem resolve (name : String) (scope : ScopeId) : (MessageLisp.resolve name scope).Looks := by
  apply read
  intro session
  split
  · exact pure _
  · split
    · exact pure _
    · exact fail _

end Eval.Looks

/-! ### Changing the session -/

/-- The computation takes a course from the session. -/
def Eval.Goes {α : Type} (kept? : Option ScopeId) (x : Eval α) (session : Session) : Prop :=
  Course kept? session (x.runIn session).2

namespace Eval.Goes

variable {kept? : Option ScopeId} {session : Session} {α β : Type}

theorem of_run {x : Eval α} {result : Except Interruption α} {later : Session}
    (hRun : x.runIn session = (result, later)) (hCourse : Course kept? session later) :
    x.Goes kept? session := by
  rw [Goes, hRun]
  exact hCourse

theorem of_looks {x : Eval α} (h : x.Looks) : x.Goes kept? session := by
  rw [Goes, h session]
  exact .start

theorem pure (a : α) : (Pure.pure a : Eval α).Goes kept? session :=
  of_looks (.pure a)

theorem fail (error : Error) : (Eval.fail error : Eval α).Goes kept? session :=
  of_looks (.fail error)

theorem read {f : Session → Eval α} (h : (f session).Goes kept? session) :
    (get >>= f : Eval α).Goes kept? session :=
  h

/-- One move. -/
theorem step {f : Session → α × Session}
    (hMove : Move kept? session.environment.frames.size session (f session).2) :
    (modifyGet f : Eval α).Goes kept? session :=
  .of_move hMove

theorem interrupted {x : Eval α} {f : α → Eval β} {interruption : Interruption} {later : Session}
    (hRun : x.runIn session = (.error interruption, later)) (hCourse : Course kept? session later) :
    (x >>= f).Goes kept? session := by
  rw [Goes, runIn_bind, hRun, continued]
  exact hCourse

theorem bind {x : Eval α} {f : α → Eval β} (hFirst : x.Goes kept? session)
    (hRest : ∀ a later, x.runIn session = (.ok a, later) → Course kept? session later →
      (f a).Goes kept? later) : (x >>= f).Goes kept? session := by
  rw [Goes] at hFirst
  rcases hRun : x.runIn session with ⟨interruption | a, later⟩
  · rw [hRun] at hFirst
    exact interrupted hRun hFirst
  · rw [hRun] at hFirst
    rw [Goes, runIn_bind_ok hRun]
    exact hFirst.trans (hRest a later hRun hFirst)

theorem look {x : Eval α} {f : α → Eval β} (hFirst : x.Looks)
    (hRest : ∀ a, x.runIn session = (.ok a, session) → (f a).Goes kept? session) :
    (x >>= f).Goes kept? session := by
  apply bind (of_looks hFirst)
  intro a later hRun _
  obtain rfl : later = session := by
    have hSame := hFirst session
    rwa [hRun] at hSame
  exact hRest a hRun

/-- A computation that goes on as another one does from a session on its course. -/
theorem via {x y : Eval α} {middle : Session} (hCourse : Course kept? session middle)
    (hRun : x.runIn session = y.runIn middle) (h : y.Goes kept? middle) : x.Goes kept? session := by
  rw [Goes, hRun]
  exact hCourse.trans h

/-- A move whose result nobody looks at. -/
theorem update {f : Session → Session} {x : Eval β}
    (hMove : Move kept? session.environment.frames.size session (f session))
    (hRest : x.Goes kept? (f session)) : (modify f >>= fun _ => x : Eval β).Goes kept? session :=
  via (.of_move hMove) rfl hRest

/-! ### Lists -/

theorem mapM {items : List α} {f : α → Eval β}
    (hItem : ∀ a later, (f a).Goes kept? later) :
    (items.mapM f).Goes kept? session := by
  induction items generalizing session with
  | nil => exact pure []
  | cons item items ih =>
      rw [List.mapM_cons]
      apply bind (hItem item session)
      intro b middle _ _
      exact bind ih fun bs _ _ _ => pure (b :: bs)

theorem foldlM {items : List α} {f : β → α → Eval β} {start : β}
    (hStep : ∀ b a later, (f b a).Goes kept? later) :
    (items.foldlM f start).Goes kept? session := by
  induction items generalizing session start with
  | nil => exact pure start
  | cons item items ih =>
      rw [List.foldlM_cons]
      exact bind (hStep start item session) fun _ _ _ _ => ih

theorem filterAuxM {items kept : List α} {f : α → Eval Bool}
    (hItem : ∀ a later, (f a).Goes kept? later) :
    (items.filterAuxM f kept).Goes kept? session := by
  induction items generalizing session kept with
  | nil => exact pure kept
  | cons item items ih => exact bind (hItem item session) fun _ _ _ _ => ih

theorem filterM {items : List α} {f : α → Eval Bool}
    (hItem : ∀ a later, (f a).Goes kept? later) :
    (items.filterM f).Goes kept? session :=
  bind (filterAuxM hItem) fun _ _ _ _ => pure _

theorem forEach {items : List α} {f : α → Eval β}
    (hItem : ∀ a later, (f a).Goes kept? later) :
    (forIn items PUnit.unit fun a _ =>
      f a >>= fun _ => Pure.pure (ForInStep.yield PUnit.unit) : Eval PUnit).Goes kept?
        session := by
  induction items generalizing session with
  | nil => exact pure _
  | cons item items ih =>
      simp only [List.forIn_cons, bind_assoc, pure_bind]
      exact bind (hItem item session) fun _ _ _ _ => ih

/-! ### Failures and bodies -/

theorem locating {x : Eval α} (expr : Expr) (h : x.Goes kept? session) :
    (Eval.locating expr x).Goes kept? session := by
  rw [Goes] at h
  have hRun := runIn_locating expr x session
  generalize x.runIn session = run at h hRun
  rcases run with ⟨(error | panic | fuel) | a, later⟩
  · exact of_run hRun (h.next (.noteFaultSite _ later expr))
  · exact of_run hRun h
  · exact of_run hRun h
  · exact of_run hRun h

/-- Failures and breakdowns reach the handler. -/
theorem handling {x : Eval α} {handler : Error → Eval Unit} (hTry : x.Goes kept? session)
    (hHandler : ∀ error later, (handler error).Goes kept? later) :
    (Eval.handling x handler).Goes kept? session := by
  rw [Goes] at hTry
  have hRun := runIn_handling x handler session
  generalize x.runIn session = run at hTry hRun
  have hHandled : ∀ (later : Session) (error : Error), Course kept? session later →
      (Eval.handling x handler).runIn session =
          (handler error >>= fun _ => Pure.pure true).runIn later.clearFaultSite →
        (Eval.handling x handler).Goes kept? session := by
    intro later error hCourse hRun
    exact via (hCourse.next (.note later ..)) hRun
      (bind (hHandler error _) fun _ _ _ _ => pure true)
  rcases run with ⟨(error | panic | fuel) | a, later⟩
  · exact hHandled later error hTry hRun
  · exact hHandled later panic.toError hTry hRun
  · exact of_run hRun hTry
  · exact of_run hRun hTry

theorem enter {x : Eval α} {source? : Option SourceText}
    (hBody : x.Goes kept? (session.inside source?)) : (Eval.enter source? x).Goes kept? session := by
  by_cases hLimit : session.maxDepth ≤ session.depth
  · exact of_run (runIn_enter_of_le hLimit source? x) .start
  · have hInside : Course kept? session (session.inside source?) := .of_move (.note session ..)
    exact of_run (runIn_enter hLimit source? x) ((hInside.trans hBody).next (.note _ ..))

theorem loop {test : Eval Bool} {body : Eval Value} (hTest : ∀ later, test.Goes kept? later)
    (hBody : ∀ later, body.Goes kept? later) (rounds : Nat) (last : Value) :
    (Eval.loop test body rounds last).Goes kept? session := by
  induction rounds generalizing session last with
  | zero => exact .start
  | succ rounds ih =>
      rw [Eval.loop]
      apply bind (hTest session)
      intro holds middle _ _
      cases holds with
      | false => exact pure last
      | true => exact bind (hBody middle) fun value _ _ _ => ih value

end Eval.Goes

end MessageLisp
