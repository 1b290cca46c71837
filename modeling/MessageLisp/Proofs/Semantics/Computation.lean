import MessageLisp.Proofs.Semantics.AlikeSessions
import MessageLisp.Semantics.Machine

/-! Computations of the language, seen from outside. A rule of the language is a computation that may
ask an evaluator for the values of expressions. `Computes` says how such computations are put
together, for two of them side by side that treat alike things alike. Whatever holds of all that is
put together in this way holds of every rule of the language. -/
namespace MessageLisp

open Source (Expr)

/-- The closures of a session are there in the later one as well, with the same parameters, and so are
the classes. -/
structure Session.Retains (before after : Session) : Prop where
  closures : ∀ (index : Nat) (closure : Closure), before.closures[index]? = some closure →
    ∃ closure', after.closures[index]? = some closure' ∧ closure'.prototype = closure.prototype
  classes : before.hierarchy.classes.size ≤ after.hierarchy.classes.size

namespace Session.Retains

theorem of_closures {before after : Session} (h : after.closures = before.closures)
    (hClasses : before.hierarchy.classes.size ≤ after.hierarchy.classes.size) :
    before.Retains after := by
  refine ⟨?_, hClasses⟩
  intro index closure hClosure
  exact ⟨closure, h ▸ hClosure, rfl⟩

theorem of_eq {before after : Session} (h : after.closures = before.closures)
    (hHierarchy : after.hierarchy = before.hierarchy) : before.Retains after :=
  of_closures h (hHierarchy ▸ Nat.le_refl _)

theorem trans {first second third : Session} (h : first.Retains second)
    (h' : second.Retains third) : first.Retains third := by
  refine ⟨?_, Nat.le_trans h.classes h'.classes⟩
  intro index closure hClosure
  obtain ⟨closure', hClosure', hSame⟩ := h.closures index closure hClosure
  obtain ⟨closure'', hClosure'', hSame'⟩ := h'.closures index closure' hClosure'
  exact ⟨closure'', hClosure'', hSame'.trans hSame⟩

theorem addClosure (session : Session) (closure : Closure) :
    session.Retains (session.addClosure closure).2 := by
  refine ⟨?_, Nat.le_refl _⟩
  intro index old hOld
  have hIndex : index < session.closures.size := (Array.getElem?_eq_some_iff.mp hOld).1
  refine ⟨old, ?_, rfl⟩
  change (session.closures.push closure)[index]? = _
  rw [Array.getElem?_push, if_neg (Nat.ne_of_lt hIndex)]
  exact hOld

theorem modifyClosure (session : Session) (id : ClosureId) {f : Closure → Closure}
    (hPrototype : ∀ closure, (f closure).prototype = closure.prototype) :
    session.Retains (session.modifyClosure id f) := by
  refine ⟨?_, Nat.le_refl _⟩
  intro index closure hClosure
  rw [Session.modifyClosure, Array.getElem?_modify, hClosure]
  split
  · exact ⟨f closure, rfl, hPrototype closure⟩
  · exact ⟨closure, rfl, rfl⟩

end Session.Retains

/-- What an evaluation leaves as it was, whatever its outcome. -/
structure Session.Balanced (before after : Session) : Prop where
  depth : after.depth = before.depth
  maxDepth : after.maxDepth = before.maxDepth
  source : after.source? = before.source?
  hosts : after.hosts = before.hosts
  lastError : after.lastError? = before.lastError?
  isOpen : after.isOpen = before.isOpen
  retains : before.Retains after

namespace Session.Balanced

theorem refl (session : Session) : session.Balanced session :=
  ⟨rfl, rfl, rfl, rfl, rfl, rfl, .of_eq rfl rfl⟩

theorem level_eq {before after : Session} (h : before.Balanced after) : after.level = before.level := by
  rw [Session.level, Session.level, h.depth, h.maxDepth]

theorem trans {first second third : Session} (h : first.Balanced second)
    (h' : second.Balanced third) : first.Balanced third where
  depth := h'.depth.trans h.depth
  maxDepth := h'.maxDepth.trans h.maxDepth
  source := h'.source.trans h.source
  hosts := h'.hosts.trans h.hosts
  lastError := h'.lastError.trans h.lastError
  isOpen := h'.isOpen.trans h.isOpen
  retains := h.retains.trans h'.retains

theorem clearFaultSite (session : Session) : session.Balanced session.clearFaultSite :=
  ⟨rfl, rfl, rfl, rfl, rfl, rfl, .of_eq rfl rfl⟩

theorem noteFaultSite (session : Session) (expr : Expr) :
    session.Balanced (session.noteFaultSite expr) := by
  rw [Session.noteFaultSite]
  split
  · exact refl session
  · exact ⟨rfl, rfl, rfl, rfl, rfl, rfl, .of_eq rfl rfl⟩

end Session.Balanced

/-- What a step of the machine leaves as it was: a step does not fail, so it has no fault to record. -/
structure Session.Quiet (before after : Session) : Prop extends before.Balanced after where
  faultSite : after.faultSite? = before.faultSite?

namespace Session.Quiet

theorem mapEnvironment (session : Session) (f : Environment Value → Environment Value) :
    session.Quiet (session.mapEnvironment f) :=
  ⟨⟨rfl, rfl, rfl, rfl, rfl, rfl, .of_eq rfl rfl⟩, rfl⟩

theorem mapHierarchy (session : Session) {f : Hierarchy → Hierarchy}
    (hClasses : ∀ h, h.classes.size ≤ (f h).classes.size) : session.Quiet (session.mapHierarchy f) :=
  ⟨⟨rfl, rfl, rfl, rfl, rfl, rfl, .of_closures rfl (hClasses session.hierarchy)⟩, rfl⟩

theorem newScope (session : Session) (parent : Option ScopeId) :
    session.Quiet (session.newScope parent).2 :=
  ⟨⟨rfl, rfl, rfl, rfl, rfl, rfl, .of_eq rfl rfl⟩, rfl⟩

theorem addClosure (session : Session) (closure : Closure) :
    session.Quiet (session.addClosure closure).2 :=
  ⟨⟨rfl, rfl, rfl, rfl, rfl, rfl, .addClosure session closure⟩, rfl⟩

theorem addInstance (session : Session) (object : Instance) :
    session.Quiet (session.addInstance object).2 :=
  ⟨⟨rfl, rfl, rfl, rfl, rfl, rfl, .of_eq rfl rfl⟩, rfl⟩

theorem modifyClosure (session : Session) (id : ClosureId) {f : Closure → Closure}
    (hPrototype : ∀ closure, (f closure).prototype = closure.prototype) :
    session.Quiet (session.modifyClosure id f) :=
  ⟨⟨rfl, rfl, rfl, rfl, rfl, rfl, .modifyClosure session id hPrototype⟩, rfl⟩

theorem print (session : Session) (line : String) : session.Quiet (session.print line) :=
  ⟨⟨rfl, rfl, rfl, rfl, rfl, rfl, .of_eq rfl rfl⟩, rfl⟩

end Session.Quiet

/-- Outcomes that agree: related values, or the same failure. -/
inductive ExceptAlike {ε α : Type} (R : α → α → Prop) : Except ε α → Except ε α → Prop where
  | ok {a a' : α} (hValue : R a a') : ExceptAlike R (.ok a) (.ok a')
  | error (e : ε) : ExceptAlike R (.error e) (.error e)

theorem ExceptAlike.refl {ε α : Type} (result : Except ε α) : ExceptAlike Eq result result := by
  cases result with
  | ok a => exact .ok rfl
  | error e => exact .error e

/-- Two computations side by side, the first as part of `program`, the second as part of `program'`.
Of the expression at hand they evaluate only the parts related by `P`; their results are related by
`R`. Functions are entered with all of their body at disposal, and so are expressions that come from
elsewhere. What is attempted consists of applications only. -/
inductive Computes (L : Likeness) : (program program' : Option SourceText) →
    (P : Expr → Expr → Prop) → {α : Type} → (R : α → α → Prop) →
    (x x' : Evaluator → Eval α) → Prop where
  | pure {program program' : Option SourceText} {P : Expr → Expr → Prop} {α : Type}
      {R : α → α → Prop} {a a' : α} (hValue : R a a') :
      Computes L program program' P R (fun _ => Pure.pure a) (fun _ => Pure.pure a')
  | fail {program program' : Option SourceText} {P : Expr → Expr → Prop} {α : Type}
      {R : α → α → Prop} (error : Error) :
      Computes L program program' P R (fun _ => Eval.fail error) (fun _ => Eval.fail error)
  | panic {program program' : Option SourceText} {P : Expr → Expr → Prop} {α : Type}
      {R : α → α → Prop} (panic : Panic) :
      Computes L program program' P R (fun _ => throw (.panic panic)) (fun _ => throw (.panic panic))
  | bind {program program' : Option SourceText} {P : Expr → Expr → Prop} {α β : Type}
      {R : α → α → Prop} {S : β → β → Prop} {x x' : Evaluator → Eval α}
      {f f' : α → Evaluator → Eval β} (hFirst : Computes L program program' P R x x')
      (hRest : ∀ a a', R a a' → Computes L program program' P S (f a) (f' a')) :
      Computes L program program' P S (fun ev => x ev >>= fun a => f a ev)
        (fun ev => x' ev >>= fun a => f' a ev)
  | read {program program' : Option SourceText} {P : Expr → Expr → Prop} {α : Type}
      {R : α → α → Prop} {f f' : Session → Evaluator → Eval α}
      (hRest : ∀ session session', session.Alike L session' → session.source? = program →
        session'.source? = program' → Computes L program program' P R (f session) (f' session')) :
      Computes L program program' P R (fun ev => get >>= fun session => f session ev)
        (fun ev => get >>= fun session => f' session ev)
  | step {program program' : Option SourceText} {P : Expr → Expr → Prop} {α : Type}
      {R : α → α → Prop} {f f' : Session → α × Session}
      (hStep : ∀ session session', session.Alike L session' → session.source? = program →
        session'.source? = program' → R (f session).1 (f' session').1 ∧
          (f session).2.Alike L (f' session').2)
      (hQuiet : ∀ session : Session, session.Quiet (f session).2)
      (hQuiet' : ∀ session : Session, session.Quiet (f' session).2) :
      Computes L program program' P R (fun _ => modifyGet f) (fun _ => modifyGet f')
  | evaluate {program program' : Option SourceText} {P : Expr → Expr → Prop} {expr expr' : Expr}
      (hPart : P expr expr') (hCode : L.code program program' expr expr') (scope : ScopeId) :
      Computes L program program' P (Value.Alike L) (fun ev => ev.evaluate expr scope)
        (fun ev => ev.evaluate expr' scope)
  | adopt {program program' : Option SourceText} {P : Expr → Expr → Prop} {α : Type}
      {R : α → α → Prop} {exprs exprs' : List Expr} {x x' : Evaluator → Eval α}
      (hExprs : List.Forall₂ L.expr exprs exprs')
      (hRest : List.Forall₂ (L.code program program') exprs exprs' →
        Computes L program program' (L.code program program') R x x') :
      Computes L program program' P R
        (fun ev => ev.adopt exprs >>= fun evaluate => x { ev with evaluate })
        (fun ev => ev.adopt exprs' >>= fun evaluate => x' { ev with evaluate })
  | handle {program program' : Option SourceText} {P : Expr → Expr → Prop} {α : Type}
      {R : α → α → Prop} {x x' : Evaluator → Eval α} {handler handler' : Error → Evaluator → Eval Unit}
      (hTry : Computes L program program' (fun _ _ => False) R x x')
      (hHandler : ∀ error, Computes L program program' P Eq (handler error) (handler' error)) :
      Computes L program program' P Eq
        (fun ev => Eval.handling (x ev.guarding) fun error => handler error ev)
        (fun ev => Eval.handling (x' ev.guarding) fun error => handler' error ev)
  | enter {program program' inner inner' : Option SourceText} {P : Expr → Expr → Prop}
      {x x' : Evaluator → Eval Value} (hSource : L.source inner inner')
      (hBody : Computes L inner inner' (L.code inner inner') (Value.Alike L) x x') :
      Computes L program program' P (Value.Alike L) (fun ev => ev.enter inner (x ev))
        (fun ev => ev.enter inner' (x' ev))
  | loop {program program' : Option SourceText} {P : Expr → Expr → Prop}
      {test test' : Evaluator → Eval Bool} {body body' : Evaluator → Eval Value} {last last' : Value}
      (hTest : Computes L program program' P Eq test test')
      (hBody : Computes L program program' P (Value.Alike L) body body')
      (hLast : last.Alike L last') :
      Computes L program program' P (Value.Alike L)
        (fun ev => Eval.loop (test ev) (body ev) ev.rounds last)
        (fun ev => Eval.loop (test' ev) (body' ev) ev.rounds last')

namespace Computes

variable {L : Likeness} {program program' : Option SourceText} {P : Expr → Expr → Prop}
variable {α β : Type} {R : α → α → Prop} {S : β → β → Prop}

theorem update {f f' : Session → Session}
    (hStep : ∀ session session' : Session, session.Alike L session' → session.source? = program →
      session'.source? = program' → (f session).Alike L (f' session'))
    (hQuiet : ∀ session : Session, session.Quiet (f session))
    (hQuiet' : ∀ session : Session, session.Quiet (f' session)) :
    Computes L program program' P Eq (fun _ => modify f) (fun _ => modify f') :=
  step (fun session session' hAlike hSource hSource' =>
    ⟨rfl, hStep session session' hAlike hSource hSource'⟩) hQuiet hQuiet'

theorem abort (text : String) :
    Computes L program program' P R (fun _ => Eval.abort text) (fun _ => Eval.abort text) :=
  panic _

theorem ofExcept {result result' : Except Error α} (h : ExceptAlike R result result') :
    Computes L program program' P R (fun _ => Eval.ofExcept result)
      (fun _ => Eval.ofExcept result') := by
  cases h with
  | ok hValue => exact pure hValue
  | error error => exact fail error

/-! ### Lists -/

theorem mapM {items items' : List α} {f f' : α → Evaluator → Eval β}
    (hItems : List.Forall₂ R items items')
    (hItem : ∀ a a', R a a' → Computes L program program' P S (f a) (f' a')) :
    Computes L program program' P (List.Forall₂ S) (fun ev => items.mapM fun a => f a ev)
      (fun ev => items'.mapM fun a => f' a ev) := by
  induction hItems with
  | nil => exact pure List.Forall₂.nil
  | cons hHead _ ih =>
      simp only [List.mapM_cons]
      apply bind (hItem _ _ hHead)
      intro b b' hFirst
      apply bind ih
      intro bs bs' hRest
      exact pure (List.Forall₂.cons hFirst hRest)

theorem foldlM {items items' : List α} {f f' : β → α → Evaluator → Eval β} {start start' : β}
    (hItems : List.Forall₂ R items items') (hStart : S start start')
    (hStep : ∀ b b' a a', S b b' → R a a' → Computes L program program' P S (f b a) (f' b' a')) :
    Computes L program program' P S (fun ev => items.foldlM (fun b a => f b a ev) start)
      (fun ev => items'.foldlM (fun b a => f' b a ev) start') := by
  induction hItems generalizing start start' with
  | nil => exact pure hStart
  | cons hHead _ ih =>
      simp only [List.foldlM_cons]
      apply bind (hStep _ _ _ _ hStart hHead)
      intro b b' hNext
      exact ih hNext

theorem filterAuxM {items items' kept kept' : List α} {f f' : α → Evaluator → Eval Bool}
    (hItems : List.Forall₂ R items items') (hKept : List.Forall₂ R kept kept')
    (hItem : ∀ a a', R a a' → Computes L program program' P Eq (f a) (f' a')) :
    Computes L program program' P (List.Forall₂ R)
      (fun ev => items.filterAuxM (fun a => f a ev) kept)
      (fun ev => items'.filterAuxM (fun a => f' a ev) kept') := by
  induction hItems generalizing kept kept' with
  | nil => exact pure hKept
  | cons hHead _ ih =>
      apply bind (hItem _ _ hHead)
      rintro keep _ rfl
      cases keep with
      | false => exact ih hKept
      | true => exact ih (List.Forall₂.cons hHead hKept)

theorem filterM {items items' : List α} {f f' : α → Evaluator → Eval Bool}
    (hItems : List.Forall₂ R items items')
    (hItem : ∀ a a', R a a' → Computes L program program' P Eq (f a) (f' a')) :
    Computes L program program' P (List.Forall₂ R) (fun ev => items.filterM fun a => f a ev)
      (fun ev => items'.filterM fun a => f' a ev) := by
  apply bind (filterAuxM hItems List.Forall₂.nil hItem)
  intro kept kept' hKept
  exact pure (List.rel_reverse hKept)

theorem filterMapM {items items' : List α} {f f' : α → Evaluator → Eval (Option β)}
    (hItems : List.Forall₂ R items items')
    (hItem : ∀ a a', R a a' → Computes L program program' P (Option.Rel S) (f a) (f' a')) :
    Computes L program program' P (List.Forall₂ S) (fun ev => items.filterMapM fun a => f a ev)
      (fun ev => items'.filterMapM fun a => f' a ev) := by
  induction hItems with
  | nil => exact pure List.Forall₂.nil
  | cons hHead _ ih =>
      simp only [List.filterMapM_cons]
      apply bind (hItem _ _ hHead)
      intro b? b?' hEntry
      cases hEntry with
      | none => exact ih
      | some hEntry =>
          apply bind ih
          intro bs bs' hRest
          exact pure (List.Forall₂.cons hEntry hRest)

theorem forEach {items items' : List α} {f f' : α → Evaluator → Eval β}
    (hItems : List.Forall₂ R items items')
    (hItem : ∀ a a', R a a' → Computes L program program' P S (f a) (f' a')) :
    Computes L program program' P Eq
      (fun ev => forIn items PUnit.unit fun a _ =>
        f a ev >>= fun _ => Pure.pure (ForInStep.yield PUnit.unit))
      (fun ev => forIn items' PUnit.unit fun a _ =>
        f' a ev >>= fun _ => Pure.pure (ForInStep.yield PUnit.unit)) := by
  induction hItems with
  | nil => exact pure rfl
  | cons hHead _ ih =>
      simp only [List.forIn_cons, bind_assoc, pure_bind]
      apply bind (hItem _ _ hHead)
      intro _ _ _
      exact ih

end Computes

theorem Evaluator.adopting_bind {α : Type} (ev : Evaluator) (expr : Expr) (exprs : List Expr)
    (x : Evaluator → Eval α) :
    (ev.adopting (expr :: exprs) >>= x) =
      ev.adopt (expr :: exprs) >>= fun evaluate => x { ev with evaluate } := by
  simp [Evaluator.adopting]

/-- Expressions from elsewhere, if there are any, are evaluated as part of the current program. -/
theorem Computes.adopting {L : Likeness} {program program' : Option SourceText}
    {P : Expr → Expr → Prop} {α : Type} {R : α → α → Prop} {exprs exprs' : List Expr}
    {x x' : Evaluator → Eval α} (hExprs : List.Forall₂ L.expr exprs exprs')
    (hRest : ∀ Q : Expr → Expr → Prop,
      List.Forall₂ (fun e e' => Q e e' ∧ L.code program program' e e') exprs exprs' →
        Computes L program program' Q R x x') :
    Computes L program program' P R (fun ev => ev.adopting exprs >>= x)
      (fun ev => ev.adopting exprs' >>= x') := by
  cases hExprs with
  | nil => exact hRest P List.Forall₂.nil
  | cons hHead hTail =>
      simp only [Evaluator.adopting_bind]
      refine Computes.adopt (List.Forall₂.cons hHead hTail) fun hCode => hRest _ ?_
      exact hCode.imp fun e e' hPart => ⟨hPart, hPart⟩

end MessageLisp
