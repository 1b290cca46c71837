import Mathlib
import MessageLisp.Proofs.Semantics.Going

/-! Every rule of the language takes a course, if the evaluator at hand does so on expressions. There is one
rule that a scope depends on: a list with a form as its head binds names in the scope that the list is
evaluated in. All other applications of forms are made in the root or without arguments. -/
namespace MessageLisp

open Source (Expr)

/-! ### Forms -/

/-- The variable that an expression names. The receiver is none. -/
def Source.Expr.settable? (expr : Expr) : Option String :=
  expr.symbol?.filter (· ≠ selfName)

/-- The name that an expression gives to a function. -/
def Source.Expr.name? : Expr → Option String
  | .string _ text => some text
  | expr => expr.settable?

/-- The names that a form gives values in the scope that it is evaluated in. -/
def Builtin.binds (builtin : Builtin) (arguments : List Value) : List String :=
  match builtin with
  | .function => ((arguments[0]?.bind Value.expr?).bind Expr.name?).toList
  | .set => ((arguments[0]?.bind Value.expr?).bind Expr.settable?).toList
  | _ => []

theorem Builtin.binds_nil (builtin : Builtin) : builtin.binds [] = [] := by
  cases builtin <;> rfl

theorem Builtin.binds_of_isForm {builtin : Builtin} (h : builtin.isForm = false)
    (arguments : List Value) : builtin.binds arguments = [] := by
  cases builtin <;> first | rfl | cases h

namespace Eval

variable {session : Session}

theorem expr?_of_rawArgument {form : String} {arguments : List Value} {index : Nat} {expr : Expr}
    {later : Session} (h : (rawArgument form arguments index).runIn session = (.ok expr, later)) :
    arguments[index]?.bind Value.expr? = some expr := by
  rw [rawArgument] at h
  split at h
  · rename_i found hFound
    cases h
    exact hFound
  · cases h

theorem settable?_of_variableName {form : String} {expr : Expr} {name : String} {later : Session}
    (h : (variableName form expr).runIn session = (.ok name, later)) :
    expr.settable? = some name ∧ name ≠ selfName := by
  rw [variableName] at h
  split at h
  · rename_i found hFound
    split at h
    · cases h
    · rename_i hAllowed
      cases h
      have hSelf : name ≠ selfName :=
        fun hSelf => hAllowed (by rw [hSelf, decide_eq_true rfl, Bool.or_true])
      rw [Source.Expr.settable?, hFound]
      simp [hSelf]
  · cases h

theorem name?_of_definedName {expr : Expr} {name : String} {later : Session}
    (h : (definedName expr).runIn session = (.ok name, later)) : expr.name? = some name := by
  cases expr with
  | string span text =>
      rw [definedName] at h
      split at h
      · cases (settable?_of_variableName h).1
      · cases h
        rfl
  | _ =>
      simp only [definedName] at h
      exact (settable?_of_variableName h).1

theorem closure_of_closureOf {id : ClosureId} {closure : Closure} {later : Session}
    (h : (closureOf id).runIn session = (.ok closure, later)) :
    session.closures[id.index]? = some closure := by
  rw [closureOf, runIn_get_bind] at h
  split at h
  · rename_i found hFound
    cases h
    exact hFound
  · cases h

end Eval

/-- In the root a form may bind what it likes. -/
theorem Session.mayBind_root (session : Session) (kept? : Option ScopeId) (name : String) :
    session.MayBind kept? Environment.root name :=
  fun _ _ => .inl (.inl rfl)

/-- What a form may bind, it may bind later on. -/
theorem Session.MayBind.continues {first last : Session} {kept? : Option ScopeId} {scope : ScopeId}
    {name : String} (h : first.MayBind kept? scope name) (hContinues : first.Continues last) :
    last.MayBind kept? scope name := by
  intro kept hKept
  rcases h kept hKept with (hRoot | ⟨hScope, hOutside⟩) | hOther
  · exact .inl (.inl hRoot)
  · refine .inl (.inr ⟨Nat.lt_of_lt_of_le hScope hContinues.frames, ?_⟩)
    rwa [hContinues.chain_eq hScope]
  · exact .inr hOther

theorem Session.modifyClosure_addClosure (session : Session) (closure : Closure)
    (f : Closure → Closure) :
    (session.addClosure closure).2.modifyClosure ⟨session.closures.size⟩ f =
      (session.addClosure (f closure)).2 := by
  have hClosures : (session.closures.push closure).modify session.closures.size f =
      session.closures.push (f closure) := by
    apply Array.ext_getElem?
    intro index
    rw [Array.getElem?_modify, Array.getElem?_push, Array.getElem?_push]
    by_cases hNew : index = session.closures.size
    · simp [hNew]
    · simp [hNew, Ne.symm hNew]
  simp only [addClosure, modifyClosure, hClosures]

/-- Making a closure, and what follows, as one move. -/
theorem Eval.Goes.makeClosure {kept? : Option ScopeId} {session : Session}
    {β : Type} {form : String} {parameters : Expr} {body : List Value} {scope : ScopeId}
    {f : ClosureId → Eval β}
    (hRest : ∀ prototype exprs,
      ∃ b later, (f ⟨session.closures.size⟩).runIn (session.addClosure ⟨none, none, prototype, exprs,
        scope, session.source?, prototype.signature?⟩).2 = (.ok b, later) ∧
          Course kept? session later) :
    (MessageLisp.makeClosure form parameters body scope >>= f).Goes kept? session := by
  rw [MessageLisp.makeClosure, bind_assoc]
  apply look (.ofExcept _)
  intro prototype _
  rw [bind_assoc]
  apply look (.bodyOf form body)
  intro exprs _
  obtain ⟨b, later, hRun, hCourse⟩ := hRest prototype exprs
  exact via hCourse hRun (pure b)

namespace Eval.Goes

variable {kept? : Option ScopeId} {session : Session}

theorem setField (receiver : Value) (field : String) (value : Value) :
    (MessageLisp.setField receiver field value).Goes kept? session := by
  apply look (.slotOf receiver field)
  intro slot _
  dsimp only
  split
  · exact step (.note session ..)
  · exact of_looks (.abort _)

theorem newInstance (id : ClassId) : (MessageLisp.newInstance id).Goes kept? session := by
  apply look (.classOf id)
  intro cls _
  exact bind (step (.note session ..)) fun _ _ _ _ => pure _

theorem defineClass (superclass : ClassId) (name : String) (fields : List String) :
    (MessageLisp.defineClass superclass name fields).Goes kept? session := by
  apply read
  cases hDefine : session.hierarchy.define name (some superclass) fields with
  | error error => exact fail error
  | ok defined => exact via (.of_move (.define hDefine)) rfl (pure _)

end Eval.Goes

/-! ### Evaluators -/

/-- An evaluator that takes a course on every expression, and treats expressions from elsewhere, handled
failures and bodies as the plain one does. If there is a scope whose names are kept, then the value of an
expression comes with a sound session. -/
structure Evaluator.Goes (kept? : Option ScopeId) (ev : Evaluator) : Prop where
  evaluate (expr : Expr) (scope : ScopeId) (session : Session) :
    (ev.evaluate expr scope).Goes kept? session
  adopting (exprs : List Expr) : ev.adopting exprs = pure ev
  guarding : ev.guarding = ev
  enter : ev.enter = Eval.enter
  sound {expr : Expr} {scope : ScopeId} {session later : Session} {value : Value} (hKept : kept? ≠ none)
    (hRun : (ev.evaluate expr scope).runIn session = (.ok value, later)) : later.Sound

namespace Evaluator.Goes

open Eval

variable {kept? : Option ScopeId} {ev : Evaluator} {session : Session}

theorem uniform {evaluate : Expr → ScopeId → Eval Value} (rounds : Nat)
    (h : ∀ expr scope session, (evaluate expr scope).Goes kept? session)
    (hSound : kept? ≠ none → ∀ expr scope session value later,
      (evaluate expr scope).runIn session = (.ok value, later) → later.Sound) :
    (Evaluator.uniform evaluate rounds).Goes kept? where
  evaluate := h
  adopting exprs := by
    rw [Evaluator.adopting]
    split
    · rfl
    · rfl
  guarding := rfl
  enter := rfl
  sound hKept hRun := hSound hKept _ _ _ _ _ hRun

theorem sequence (h : ev.Goes kept?) (exprs : List Expr) (scope : ScopeId) :
    (ev.sequence exprs scope).Goes kept? session :=
  .foldlM fun _ expr later => h.evaluate expr scope later

theorem sound_of_sequence (h : ev.Goes kept?) (hKept : kept? ≠ none) {exprs : List Expr}
    {scope : ScopeId} {value : Value} {later : Session}
    (hRun : (ev.sequence exprs scope).runIn session = (.ok value, later)) :
    exprs = [] ∧ later = session ∨ later.Sound := by
  rw [Evaluator.sequence] at hRun
  generalize Value.null = last at hRun
  induction exprs generalizing session last with
  | nil =>
      cases hRun
      exact .inl ⟨rfl, rfl⟩
  | cons expr exprs ih =>
      rw [List.foldlM_cons] at hRun
      obtain ⟨first, middle, hFirst, hRest⟩ := exists_of_runIn_bind hRun
      rcases ih first hRest with ⟨-, rfl⟩ | hSound
      · exact .inr (h.sound hKept hFirst)
      · exact .inr hSound

/-! ### Applications -/

theorem untilTruth (h : ev.Goes kept?) (form : String) (stop : Bool) (scope : ScopeId)
    (arguments : List Value) (index : Nat) (last : Value) :
    (ev.untilTruth form stop scope arguments index last).Goes kept? session := by
  induction arguments generalizing session index last with
  | nil => exact .pure last
  | cons argument rest ih =>
      simp only [Evaluator.untilTruth]
      split
      · rename_i expr _
        apply Eval.Goes.bind (h.evaluate expr scope session)
        intro value later _ _
        split
        · exact .pure value
        · exact ih _ _
      · exact .fail _

theorem applyBuiltin (h : ev.Goes kept?) {builtin : Builtin} {arguments : List Value}
    {scope : ScopeId}
    (hMay : ∀ name ∈ builtin.binds arguments, session.MayBind kept? scope name) :
    (ev.applyBuiltin builtin arguments scope).Goes kept? session := by
  cases builtin with
  | lambda =>
      apply Eval.Goes.look (.rawArgument _ _ _)
      intro parameters _
      apply Eval.Goes.look (.argumentsFrom _ _)
      intro body _
      apply Eval.Goes.makeClosure
      intro prototype exprs
      exact ⟨_, _, rfl, .of_move (.lambda rfl)⟩
  | function =>
      apply Eval.Goes.look (.rawArgument _ _ _)
      intro head hHead
      apply Eval.Goes.look (.definedName head)
      intro name hName
      apply Eval.Goes.look (.rawArgument _ _ _)
      intro parameters _
      apply Eval.Goes.look (.argumentsFrom _ _)
      intro body _
      apply Eval.Goes.makeClosure
      intro prototype exprs
      have hBind : session.MayBind kept? scope name := by
        apply hMay
        rw [Builtin.binds, expr?_of_rawArgument hHead, Option.bind_some, name?_of_definedName hName]
        exact List.mem_singleton.mpr rfl
      refine ⟨_, _, rfl, ?_⟩
      dsimp only
      rw [Session.modifyClosure_addClosure]
      exact .of_move (.function rfl rfl hBind)
  | set =>
      simp only [Evaluator.applyBuiltin]
      split
      · exact .fail _
      · apply Eval.Goes.look (.rawArgument _ _ _)
        intro head hHead
        apply Eval.Goes.look (.variableName _ _)
        intro name hName
        obtain ⟨hVariable, hSelf⟩ := settable?_of_variableName hName
        apply Eval.Goes.look (.rawArgument _ _ _)
        intro expr _
        apply Eval.Goes.bind (h.evaluate expr scope session)
        intro value later _ hCourse
        have hBind : session.MayBind kept? scope name := by
          apply hMay
          rw [Builtin.binds, expr?_of_rawArgument hHead, Option.bind_some, hVariable]
          exact List.mem_singleton.mpr rfl
        exact .update (.set hSelf (hBind.continues hCourse.continues) value) (.pure value)
  | quote =>
      simp only [Evaluator.applyBuiltin]
      split
      · exact .pure _
      · exact .fail _
  | and => exact h.untilTruth "and" false scope arguments 0 _
  | or => exact h.untilTruth "or" true scope arguments 0 _
  | list => exact .pure _
  | print => exact .read (.update (.note session ..) (.pure _))
  | raise => exact .read (.fail _)

theorem runBody (h : ev.Goes kept?) (closure : Closure) (scope : ScopeId) :
    (ev.runBody closure scope).Goes kept? session := by
  rw [Evaluator.runBody, h.enter]
  apply Eval.Goes.enter
  apply Eval.Goes.bind (h.sequence closure.body scope)
  intro result later _ _
  split
  · exact .pure result
  · exact .pure result
  · exact .of_looks (.coerceTo _ result)

/-- The arguments are bound in a scope of their own, and then the body runs. -/
theorem applyClosure (h : ev.Goes kept?) {id : ClosureId} (receiver? : Option Value)
    (hMethod : receiver?.isSome → session.HasMethod (.function (.closure id))) (arguments : List Value) :
    (ev.applyClosure id receiver? arguments).Goes kept? session := by
  apply Eval.Goes.look .requireOpen
  intro _ _
  apply Eval.Goes.look (.closureOf id)
  intro closure hClosure
  by_cases hLength : arguments.length = closure.prototype.arity
  · have hSame := Eval.Looks.coerceArguments hLength session
    rcases hCoerce : (coerceArguments closure arguments).runIn session with
      ⟨interruption | values, later⟩
    · rw [hCoerce] at hSame
      obtain rfl : later = session := hSame
      have hBind : (bindArguments closure arguments).runIn later = (.error interruption, later) := by
        simp only [bindArguments]
        rw [if_neg (not_not_intro hLength), runIn_bind, hCoerce, continued]
      exact .interrupted hBind .start
    · rw [hCoerce] at hSame
      obtain rfl : later = session := hSame
      apply Eval.Goes.via (.of_move (.body (closure_of_closureOf hClosure) values hMethod)) _
        (h.runBody closure ⟨later.environment.frames.size⟩)
      rw [runIn_bind_ok (runIn_bindArguments hLength hCoerce)]
      cases receiver? with
      | none => rfl
      | some receiver =>
          rw [runIn_bind, define, modify, runIn_modifyGet, continued, Session.define_pushFrame]
          rfl
  · exact .interrupted (runIn_bindArguments_arity hLength session) .start

theorem apply (h : ev.Goes kept?) {target : FunctionRef} {arguments : List Value}
    {scope : ScopeId}
    (hMay : ∀ builtin, target = .builtin builtin → ∀ name ∈ builtin.binds arguments,
      session.MayBind kept? scope name) :
    (ev.apply target arguments scope).Goes kept? session := by
  cases target with
  | builtin builtin =>
      apply Eval.Goes.look .requireOpen
      intro _ _
      rw [h.adopting, pure_bind]
      exact h.applyBuiltin (hMay builtin rfl)
  | host id => exact .look (.hostOf id) fun host _ => .of_looks (.applyHost host arguments scope)
  | closure id => exact h.applyClosure none nofun arguments

theorem apply_root (h : ev.Goes kept?) (target : FunctionRef) (arguments : List Value) :
    (ev.apply target arguments Environment.root).Goes kept? session :=
  h.apply fun _ _ name _ => session.mayBind_root kept? name

/-- A form without arguments binds nothing. -/
theorem apply_nil (h : ev.Goes kept?) (target : FunctionRef) (scope : ScopeId) :
    (ev.apply target [] scope).Goes kept? session := by
  apply h.apply
  intro builtin _ name hName
  rw [builtin.binds_nil] at hName
  exact absurd hName List.not_mem_nil

theorem applyInPlace (h : ev.Goes kept?) {target : FunctionRef} {parts : List Expr}
    {scope : ScopeId}
    (hMay : ∀ builtin, target = .builtin builtin → ∀ name ∈ builtin.binds (parts.map .expr),
      session.MayBind kept? scope name) :
    (ev.applyInPlace target parts scope).Goes kept? session := by
  cases target with
  | builtin builtin =>
      exact .look .requireOpen fun _ _ => h.applyBuiltin (hMay builtin rfl)
  | host id => exact h.apply hMay
  | closure id => exact h.apply hMay

/-! ### Primitive methods -/

/-- The scope that was opened for the definitions is the one that the methods are taken from. -/
theorem extendClass (h : ev.Goes kept?) (cls : ClassId) (definitions : ClosureId) :
    (ev.extendClass cls definitions).Goes kept? session := by
  apply Eval.Goes.look (.closureOf definitions)
  intro closure hClosure
  simp only [h.adopting, pure_bind]
  generalize hScope : (⟨session.environment.frames.size⟩ : ScopeId) = scope
  generalize hOpened : session.pushFrame ⟨[], some closure.scope⟩ = opened
  have hNew : (newScope (some closure.scope)).runIn session = (.ok scope, opened) := by
    rw [← hScope, ← hOpened]
    rfl
  have hOpen : Course kept? session opened := by
    rw [← hOpened]
    exact .of_move (.definitions (closure_of_closureOf hClosure))
  have hReady : Course kept? opened ((ev.sequence closure.body scope).runIn opened).2 :=
    h.sequence closure.body scope
  rcases hBody : (ev.sequence closure.body scope).runIn opened with ⟨interruption | value, ready⟩
  · rw [hBody] at hReady
    refine .of_run (show _ = (.error interruption, ready) from ?_) (hOpen.trans hReady)
    rw [runIn_bind_ok hNew, runIn_bind, hBody, continued]
  · rw [hBody] at hReady
    have hFresh : session.environment.frames.size ≤ scope.index := by rw [← hScope]
    have hSound : kept? ≠ none → ready.environment.names scope = [] ∨ ready.Sound := by
      intro hKept
      rcases h.sound_of_sequence hKept hBody with ⟨-, rfl⟩ | hSound
      · refine .inl ?_
        have hEmpty : (session.pushFrame ⟨[], some closure.scope⟩).environment.bindings
            ⟨session.environment.frames.size⟩ = [] := by
          simp [Session.pushFrame, Session.mapEnvironment, Environment.pushFrame, Environment.bindings]
        rw [← hOpened, ← hScope, Environment.names, hEmpty]
        exact List.mergeSort_nil
      · exact .inr hSound
    apply Eval.Goes.via ((hOpen.trans hReady).next (.extend cls hFresh hSound)) _
      (.pure (ready.collect cls scope (ready.environment.names scope)).1.length)
    rw [runIn_bind_ok hNew, runIn_bind_ok hBody, runIn_get_bind,
      runIn_bind_ok (runIn_collectMethods ..)]
    rfl

theorem runBlock (h : ev.Goes kept?) (block : Value) :
    (ev.runBlock block).Goes kept? session :=
  .look (.functionOf block) fun target _ => h.apply_root target []

theorem repeatWhile (h : ev.Goes kept?) (expected : Bool) (receiver body : Value) :
    (ev.repeatWhile expected receiver body).Goes kept? session := by
  apply Eval.Goes.look (.closureIdOf receiver)
  intro condition _
  apply Eval.Goes.look (.functionOf body)
  intro target _
  apply Eval.Goes.look (.closureOf condition)
  intro closure _
  apply Eval.Goes.loop
  · intro later
    exact .bind (h.apply_nil (.closure condition) closure.scope) fun _ _ _ _ => .pure _
  · intro later
    exact h.apply_nil target closure.scope

theorem handleFailure (h : ev.Goes kept?) (guarded : ClosureId) (handler : FunctionRef) :
    (ev.handleFailure guarded handler).Goes kept? session := by
  apply Eval.Goes.look .requireOpen
  intro _ _
  apply Eval.Goes.look (.closureOf guarded)
  intro closure _
  rw [h.guarding]
  apply Eval.Goes.handling (h.apply_nil (.closure guarded) closure.scope)
  intro error later
  apply Eval.Goes.look (.handlerArguments handler error)
  intro arguments hArguments
  refine .bind (h.apply ?_) fun _ _ _ _ => .pure _
  -- Only closures are handed anything.
  rintro builtin rfl name hName
  cases hArguments
  rw [builtin.binds_nil] at hName
  exact absurd hName List.not_mem_nil

/-- A primitive method changes instances and classes, and leaves the rest to the functions that it is
given. -/
theorem runPrimitive (h : ev.Goes kept?) (primitive : Primitive) (receiver : Value)
    (arguments : List Value) :
    (ev.runPrimitive primitive receiver arguments).Goes kept? session := by
  cases primitive with
  | add | subtract | multiply =>
      exact .look (.argument _ _) fun argument _ => .of_looks (.arithmetic _ _ receiver argument)
  | divide | modulo =>
      apply Eval.Goes.look (.argument _ _)
      intro divisor _
      exact .look (.requireNonzero divisor) fun _ _ => .of_looks (.arithmetic _ _ receiver divisor)
  | less | greater | lessOrEqual | greaterOrEqual =>
      exact .look (.argument _ _) fun argument _ => .of_looks (.comparison _ _ receiver argument)
  | length => exact .look (.stringOf _ receiver) fun _ _ => .pure _
  | concatenate =>
      apply Eval.Goes.look (.stringOf _ receiver)
      intro text _
      exact .look (.argument _ _) fun _ _ => .read (.pure _)
  | count => exact .look (.listOf receiver) fun _ _ => .pure _
  | «at» =>
      apply Eval.Goes.look (.listOf receiver)
      intro items _
      exact .look (.argument _ _) fun index _ => .of_looks (.itemAt items index)
  | first => exact .look (.listOf receiver) fun _ _ => .pure _
  | append =>
      apply Eval.Goes.look (.listOf receiver)
      intro items _
      exact .look (.argument _ _) fun _ _ => .pure _
  | forEach =>
      apply Eval.Goes.look (.argument _ _)
      intro block _
      apply Eval.Goes.look (.functionOf block)
      intro target _
      apply Eval.Goes.look (.listOf receiver)
      intro items _
      exact .bind (.forEach fun item _ => h.apply_root target [item]) fun _ _ _ _ => .pure _
  | map =>
      apply Eval.Goes.look (.argument _ _)
      intro block _
      apply Eval.Goes.look (.functionOf block)
      intro target _
      apply Eval.Goes.look (.listOf receiver)
      intro items _
      exact .bind (.mapM fun item _ => h.apply_root target [item]) fun _ _ _ _ => .pure _
  | filter =>
      apply Eval.Goes.look (.argument _ _)
      intro block _
      apply Eval.Goes.look (.functionOf block)
      intro target _
      apply Eval.Goes.look (.listOf receiver)
      intro items _
      refine .bind (.filterM fun item later => ?_) fun _ _ _ _ => .pure _
      exact .bind (h.apply_root target [item]) fun _ _ _ _ => .pure _
  | injectInto =>
      apply Eval.Goes.look (.argument _ _)
      intro block _
      apply Eval.Goes.look (.functionOf block)
      intro target _
      apply Eval.Goes.look (.listOf receiver)
      intro items _
      apply Eval.Goes.look (.argument _ _)
      intro start _
      exact .foldlM fun total item _ => h.apply_root target [total, item]
  | isTrue => exact .pure _
  | ifTrue =>
      simp only [Evaluator.runPrimitive]
      split
      · exact .look (.argument _ _) fun block _ => h.runBlock block
      · exact .pure _
  | ifFalse =>
      simp only [Evaluator.runPrimitive]
      split
      · exact .pure _
      · exact .look (.argument _ _) fun block _ => h.runBlock block
  | ifTrueIfFalse | ifFalseIfTrue =>
      exact .look (.argument _ _) fun block _ => h.runBlock block
  | description | prettyDescription => exact .read (.pure _)
  | print | prettyPrint => exact .read (.update (.note session ..) (.pure _))
  | classOf => exact .read (.pure _)
  | respondsTo =>
      apply Eval.Goes.look (.argument _ _)
      intro value _
      exact .look (.stringOf _ value) fun _ _ => .read (.pure _)
  | equal => exact .look (.argument _ _) fun _ _ => .pure _
  | getField =>
      apply Eval.Goes.look (.argument _ _)
      intro value _
      exact .look (.stringOf _ value) fun field _ => .of_looks (.getField receiver field)
  | setField =>
      apply Eval.Goes.look (.argument _ _)
      intro name _
      apply Eval.Goes.look (.stringOf _ name)
      intro field _
      apply Eval.Goes.look (.argument _ _)
      intro value _
      exact .bind (.setField receiver field value) fun _ _ _ _ => .pure _
  | new => exact .look (.classIdOf receiver) fun id _ => .newInstance id
  | className => exact .look (.classIdOf receiver) fun _ _ => .read (.pure _)
  | superclass =>
      apply Eval.Goes.look (.classIdOf receiver)
      intro id _
      apply Eval.Goes.read
      split
      · exact .pure _
      · exact .pure _
  | subclass =>
      apply Eval.Goes.look (.argument _ _)
      intro value _
      apply Eval.Goes.look (.stringOf _ value)
      intro name _
      exact .look (.classIdOf receiver) fun id _ => .defineClass id name []
  | subclassWithFields =>
      apply Eval.Goes.look (.argument _ _)
      intro value _
      apply Eval.Goes.look (.stringOf _ value)
      intro name _
      apply Eval.Goes.look (.argument _ _)
      intro list _
      apply Eval.Goes.look (.listOf list)
      intro items _
      apply Eval.Goes.look (.mapM fun item => .stringOf _ item)
      intro fields _
      exact .look (.classIdOf receiver) fun id _ => .defineClass id name fields
  | extend =>
      apply Eval.Goes.look (.classIdOf receiver)
      intro cls _
      apply Eval.Goes.look (.argument _ _)
      intro block _
      apply Eval.Goes.look (.closureIdOf block)
      intro definitions _
      exact .bind (h.extendClass cls definitions) fun _ _ _ _ => .pure _
  | functionName =>
      apply Eval.Goes.look (.functionOf receiver)
      intro target _
      apply Eval.Goes.read
      split
      · exact .pure _
      · exact .pure _
  | whileTrue | whileFalse =>
      exact .look (.argument _ _) fun body _ => h.repeatWhile _ receiver body
  | onException =>
      apply Eval.Goes.look (.closureIdOf receiver)
      intro guarded _
      apply Eval.Goes.look (.argument _ _)
      intro block _
      apply Eval.Goes.look (.functionOf block)
      intro handler _
      exact .bind (h.handleFailure guarded handler) fun _ _ _ _ => .pure _

/-! ### Messages -/

theorem decodeKeywords (h : ev.Goes kept?) (receiver : Value) (parts : List Expr)
    (scope : ScopeId) : ∀ (rest : List Expr) {session : Session},
      (ev.decodeKeywords receiver parts scope rest).Goes kept? session
  | [], _ => .pure _
  | [_], _ => .of_looks (.misspelled receiver parts)
  | keyword :: argument :: rest, session => by
      rw [Evaluator.decodeKeywords]
      split
      · split
        · apply Eval.Goes.bind (h.evaluate argument scope session)
          intro value middle _ _
          exact .bind (h.decodeKeywords receiver parts scope rest) fun _ _ _ _ => .pure _
        · exact .of_looks (.misspelled receiver parts)
      · exact .of_looks (.misspelled receiver parts)

theorem decodeMessage (h : ev.Goes kept?) (receiver : Value) (parts : List Expr)
    (scope : ScopeId) : (ev.decodeMessage receiver parts scope).Goes kept? session := by
  rw [Evaluator.decodeMessage.eq_def]
  split
  · exact .of_looks (.misspelled receiver _)
  · split
    · exact .of_looks (.misspelled receiver _)
    · split
      · exact .pure _
      · exact .of_looks (.misspelled receiver _)
  · rename_i selector argument
    split
    · exact h.decodeKeywords receiver _ scope _
    · split
      · exact .bind (h.evaluate argument scope session) fun _ _ _ _ => .pure _
      · exact .of_looks (.misspelled receiver _)
  · split
    · exact h.decodeKeywords receiver _ scope _
    · exact .of_looks (.misspelled receiver _)

theorem runMethod (h : ev.Goes kept?) {method : Method} (hMethod : session.HasMethod method)
    (receiver : Value) (arguments : List Value) :
    (ev.runMethod method receiver arguments).Goes kept? session := by
  cases method with
  | primitive primitive => exact h.runPrimitive primitive receiver arguments
  | function target =>
      cases target with
      | closure id => exact h.applyClosure (some receiver) (fun _ => hMethod) arguments
      | builtin builtin => exact h.apply_root (.builtin builtin) (receiver :: arguments)
      | host id => exact h.apply_root (.host id) (receiver :: arguments)

theorem send (h : ev.Goes kept?) (receiver : Value) (message : Message)
    (start? : Option ClassId) : (ev.send receiver message start?).Goes kept? session := by
  apply Eval.Goes.read
  split
  · exact .of_looks (.notUnderstood receiver message.selector)
  · rename_i method hFound
    obtain ⟨cls, -, hMethod⟩ := List.exists_of_findSome?_eq_some hFound
    dsimp only
    split
    · exact .fail _
    · exact h.runMethod ⟨cls, message.selector, hMethod⟩ receiver message.arguments

theorem sendParts (h : ev.Goes kept?) (receiver : Value) (parts : List Expr) (scope : ScopeId)
    (start? : Option ClassId) :
    (ev.sendParts receiver parts scope start?).Goes kept? session :=
  .bind (h.decodeMessage receiver parts scope) fun message _ _ _ => h.send receiver message start?

/-! ### Expressions -/

theorem applyParts (h : ev.Goes kept?) {target : FunctionRef} {parts : List Expr}
    {scope : ScopeId}
    (hMay : ∀ builtin, target = .builtin builtin → ∀ name ∈ builtin.binds (parts.map .expr),
      session.MayBind kept? scope name) :
    (ev.applyParts target parts scope).Goes kept? session := by
  apply Eval.Goes.read
  split
  · exact h.applyInPlace hMay
  · rename_i hForm
    refine .bind (.mapM fun part later => h.evaluate part scope later) fun arguments later _ _ => ?_
    apply h.apply
    rintro builtin rfl name hName
    rw [Builtin.binds_of_isForm (eq_false_of_ne_true hForm)] at hName
    exact absurd hName List.not_mem_nil

/-- The one rule that takes notice of the scope: a form in head position binds names there. -/
theorem evaluateList (h : ev.Goes kept?) {items : List Expr} {scope : ScopeId}
    (hMay : ∀ head parts, items = head :: parts → ∀ builtin later,
      (ev.evaluate head scope).runIn session = (.ok (.function (.builtin builtin)), later) →
        ∀ name ∈ builtin.binds (parts.map .expr), later.MayBind kept? scope name) :
    (ev.evaluateList items scope).Goes kept? session := by
  cases items with
  | nil => exact .pure _
  | cons head parts =>
      apply Eval.Goes.read
      split
      · exact h.sendParts _ parts scope _
      · apply Eval.Goes.bind (h.evaluate head scope session)
        intro target later hRun _
        split
        · exact h.sendParts target parts scope none
        · split
          · apply h.applyParts
            rintro builtin rfl
            exact hMay head parts rfl builtin later hRun
          · split
            · exact .pure target
            · exact h.sendParts target parts scope none

theorem evaluateExpr (h : ev.Goes kept?) {expr : Expr} {scope : ScopeId}
    (hMay : ∀ span head parts, expr = .list span (head :: parts) → ∀ builtin later,
      (ev.evaluate head scope).runIn session = (.ok (.function (.builtin builtin)), later) →
        ∀ name ∈ builtin.binds (parts.map .expr), later.MayBind kept? scope name) :
    (ev.evaluateExpr expr scope).Goes kept? session := by
  apply Eval.Goes.locating
  cases expr with
  | symbol span name => exact .of_looks (.resolve name scope)
  | list span items =>
      apply h.evaluateList
      rintro head parts rfl
      exact hMay span head parts rfl
  | _ => exact .pure _

end Evaluator.Goes

end MessageLisp
