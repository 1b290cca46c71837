import Mathlib
import MessageLisp.Proofs.Semantics.Decoding
import MessageLisp.Proofs.Semantics.Halting
import MessageLisp.Proofs.Semantics.Nesting

/-! Messages to `super`. The scope of a method's body binds the receiver and the class above the one that
owns the method, and the functions nested in the body find them there, however deep they lie. So a message
to `super` goes to the receiver of the method, and its lookup starts above the class of the method and not
at the class of the receiver. Such messages inside one another climb up the hierarchy. -/
namespace MessageLisp

open Source (Expr)

/-! ### Sessions that can be reached -/

/-- The session came about from a new one, by whatever programs and hosts can do. -/
def Session.Reachable (session : Session) : Prop :=
  ∃ maxDepth log, History (fun _ => True) (Session.new maxDepth) log session

theorem Change.frames_le {free : String → Prop} {session later : Session} {log : List Extension}
    (h : Change free session log later) :
    session.environment.frames.size ≤ later.environment.frames.size := by
  cases h with
  | note | addClosure | nameClosure | addInstance | setSlot | defineClass | addHost => exact Nat.le_refl _
  | pushFrame => exact (Session.Continues.pushFrame session _).frames
  | define scope | close => exact Nat.le_of_eq (Array.size_modify ..).symm
  | assign scope => exact (Session.Continues.assign session scope _ _).frames
  | extend cls scope names => exact (Session.Continues.collect session cls scope names).frames

namespace Session.Reachable

variable {session : Session}

theorem sound (h : session.Reachable) : session.Sound := by
  obtain ⟨maxDepth, log, hHistory⟩ := h
  exact hHistory.sound (Session.new_sound maxDepth)

theorem declared (h : session.Reachable) :
    ∃ declarations, session.hierarchy.Declared declarations := by
  obtain ⟨maxDepth, log, hHistory⟩ := h
  obtain ⟨_, hBuilt⟩ := hHistory.isBuilt (Session.new_isBuilt maxDepth)
  exact hBuilt.declared

theorem evolves {last : Session} (h : session.Reachable) (hEvolves : session.Evolves last) :
    last.Reachable := by
  obtain ⟨maxDepth, log, hHistory⟩ := h
  obtain ⟨log', hHistory'⟩ := hEvolves.history
  exact ⟨maxDepth, log' ++ log, hHistory.trans hHistory'⟩

theorem frames_pos (h : session.Reachable) : 0 < session.environment.frames.size := by
  obtain ⟨maxDepth, log, hHistory⟩ := h
  induction hHistory with
  | start => exact Nat.one_pos
  | next _ hChange ih => exact Nat.lt_of_lt_of_le ih hChange.frames_le

end Session.Reachable

/-! ### Methods that have been started -/

/-- Each closure in the method table of a class has that class as its owner. -/
def Session.TablesOwned (session : Session) : Prop :=
  ∀ cls selector id, session.hierarchy.localMethod? cls selector = some (.function (.closure id)) →
    session.ownerOf? id = some cls

/-- A method from the table of a class, about to run for a receiver, of whatever class, with its arguments
bound. -/
structure Activation where
  session : Session
  cls : ClassId
  selector : String
  id : ClosureId
  closure : Closure
  receiver : Value
  arguments : List Value
  bound : Session
  reachable : session.Reachable
  isOpen : session.isOpen = true
  tablesOwned : session.TablesOwned
  method : session.hierarchy.localMethod? cls selector = some (.function (.closure id))
  closure_eq : session.closures[id.index]? = some closure
  receiver_lives : receiver.Lives session
  arguments_live : Value.AllLive session arguments
  bind : (bindArguments closure arguments).runIn session =
    (.ok ⟨session.environment.frames.size⟩, bound)

/-- Evaluates like the plain evaluator, but gives up before the evaluations it is told to. -/
def Evaluator.haltingAt (halt : Expr → ScopeId → Session → Bool) : (fuel : Nat) → Evaluator :=
  halting fun expr scope session => if halt expr scope session then some .nesting else none

namespace Activation

/-- The scope of the body. -/
def scope (activation : Activation) : ScopeId :=
  ⟨activation.session.environment.frames.size⟩

/-- The session that the body starts in. -/
def start (activation : Activation) : Session :=
  activation.bound.withReceiver activation.scope (some activation.receiver)

/-- The method at work. -/
def run (activation : Activation) (ev : Evaluator) : Eval Value :=
  ev.runMethod (.function (.closure activation.id)) activation.receiver activation.arguments

/-- The method comes to the evaluation of an expression in a scope and a session, and nothing that it has
evaluated in the scope of its body or inside has given a value to `self` or `super`. -/
def Meets (activation : Activation) (expr : Expr) (scope : ScopeId) (session : Session) : Prop :=
  ∃ (halt : Expr → ScopeId → Session → Bool) (fuel depth : Nat) (source? : Option SourceText),
    (∀ expr scope session, halt expr scope session = false →
      ¬session.Spoils activation.scope expr scope) ∧
    halt expr scope session = true ∧
    (activation.run (.haltingAt halt fuel)).runIn activation.session =
      (.error (.outOfFuel .nesting), { session with depth, source? })

variable (A : Activation)

theorem runIn_run (ev : Evaluator) :
    (A.run ev).runIn A.session = (ev.runBody A.closure A.scope).runIn A.start := by
  have hBind := A.bind
  rw [run, Evaluator.runMethod, Evaluator.runIn_applyClosure_open A.isOpen A.closure_eq, hBind]
  rfl

theorem scope_ne_root : A.scope ≠ Environment.root := by
  intro hRoot
  have hIndex : A.session.environment.frames.size = 0 := congrArg ScopeId.index hRoot
  exact absurd A.reachable.frames_pos (by omega)

theorem start_eq : ∃ values, A.start =
    A.session.pushFrame ((A.closure.frame A.session.hierarchy values).withReceiver (some A.receiver)) := by
  obtain ⟨values, -, -, -, hBound⟩ := Eval.exists_of_runIn_bindArguments A.bind
  refine ⟨values, ?_⟩
  rw [start, hBound, scope, Session.withReceiver_pushFrame]

theorem start_frames : A.start.environment.frames.size = A.scope.index + 1 := by
  obtain ⟨values, hStart⟩ := A.start_eq
  rw [hStart]
  simp [Session.pushFrame, Session.mapEnvironment, Environment.pushFrame, scope]

theorem continues_start : A.session.Continues A.start := by
  obtain ⟨values, hStart⟩ := A.start_eq
  rw [hStart]
  exact .pushFrame ..

theorem start_methodsOwned : A.start.MethodsOwned := by
  obtain ⟨values, hStart⟩ := A.start_eq
  rw [hStart]
  rintro id ⟨cls, selector, hMethod⟩
  have hOwner : A.session.ownerOf? id = some cls := A.tablesOwned cls selector id hMethod
  show (A.session.ownerOf? id).isSome = true
  rw [hOwner, Option.isSome_some]

theorem start_self : A.start.environment.getLocal? A.scope selfName = some A.receiver := by
  obtain ⟨values, hStart⟩ := A.start_eq
  rw [hStart]
  refine (Environment.getLocal?_pushFrame ..).trans ((if_pos rfl).trans ?_)
  rw [Frame.withReceiver, Table.get?_set, if_pos rfl]

theorem start_super {above : ClassId} (hAbove : A.session.hierarchy.superclass? A.cls = some above) :
    A.start.environment.getLocal? A.scope superName = some (.classRef above) := by
  obtain ⟨values, hStart⟩ := A.start_eq
  have hOwner := A.tablesOwned _ _ _ A.method
  rw [Session.ownerOf?, A.closure_eq, Option.bind_some] at hOwner
  have hBind : A.closure.owner?.bind A.session.hierarchy.superclass? = some above := by
    rw [hOwner, Option.bind_some, hAbove]
  rw [hStart]
  refine (Environment.getLocal?_pushFrame ..).trans ((if_pos rfl).trans ?_)
  rw [Frame.withReceiver, Table.get?_set, if_neg (by decide)]
  simp only [Closure.frame, hBind, Table.get?_set, if_true]

theorem exists_superclass (hObject : A.cls ≠ BuiltinClass.object.id) :
    ∃ above, A.session.hierarchy.superclass? A.cls = some above := by
  obtain ⟨declarations, hDeclared⟩ := A.reachable.declared
  obtain ⟨entry, hClass, -⟩ := Option.bind_eq_some_iff.mp A.method
  obtain ⟨declaration, hDeclaration, hMatches⟩ := hDeclared.classes hClass
  rcases hDeclared.superclasses hDeclaration with ⟨-, hTop⟩ | ⟨above, hAbove, -⟩
  · exact absurd hTop hObject
  · refine ⟨above, ?_⟩
    rw [Hierarchy.superclass?_eq hClass, hMatches.superclass?, hAbove]

theorem tail_chain {above : ClassId} (hAbove : A.session.hierarchy.superclass? A.cls = some above) :
    (A.session.hierarchy.chain A.cls).tail = A.session.hierarchy.chain above := by
  obtain ⟨declarations, hDeclared⟩ := A.reachable.declared
  have hBelow := hDeclared.superclass?_lt hAbove
  rw [Hierarchy.chain, hAbove]
  simp only [if_pos hBelow, List.tail_cons]

/-! ### What the body comes to -/

open Classical in
/-- Halts where told to, and in unsound sessions besides. From a sound session it never comes to those. -/
noncomputable def checkedHalt (halt : Expr → ScopeId → Session → Bool) (expr : Expr) (scope : ScopeId)
    (session : Session) : Option Fuel :=
  if session.Sound then if halt expr scope session then some .nesting else none else some .foreign

theorem checkedHalt_regular (halt : Expr → ScopeId → Session → Bool) (expr : Expr) (scope : ScopeId)
    (session : Session) (hSound : session.Sound) :
    checkedHalt halt expr scope session ≠ some .foreign := by
  rw [checkedHalt, if_pos hSound]
  split
  · exact nofun
  · exact nofun

theorem run_orderly {ev : Evaluator} (h : ev.Orderly) : (A.run ev).Proceeds Value.Lives A.session := by
  have hId := (Array.getElem?_eq_some_iff.mp A.closure_eq).1
  have hReceiver : ∀ receiver, some A.receiver = some receiver → receiver.Lives A.session := by
    rintro receiver ⟨⟩
    exact A.receiver_lives
  rw [run, Evaluator.runMethod]
  exact h.applyClosure A.reachable.sound hId hReceiver A.arguments_live

/-- Being checked makes no difference to the method. -/
theorem runIn_run_checked (halt : Expr → ScopeId → Session → Bool) (fuel : Nat) :
    (A.run (.halting (checkedHalt halt) fuel)).runIn A.session =
      (A.run (.haltingAt halt fuel)).runIn A.session := by
  have hFollows : Evaluator.Follows .equality (· = .foreign) (.halting (checkedHalt halt) fuel)
      (.haltingAt halt fuel) := by
    apply Evaluator.halting_follows
    intro expr scope session
    rw [checkedHalt]
    split
    · exact .inl rfl
    · exact .inr ⟨.foreign, rfl, rfl⟩
  have hComputes : Computes .equality A.session.source? A.session.source? (fun _ _ => False)
      (Value.Alike .equality) A.run A.run :=
    .runMethod _ (Value.alike_self (fun _ => rfl) A.receiver)
      (Value.all_alike_self (fun _ => rfl) A.arguments)
  rcases hComputes.follows hFollows A.session A.session A.session.alike_equality rfl rfl with
    ⟨kind, rfl, hOut⟩ | hMatches
  · have hEnds := (A.run_orderly (Evaluator.halting_orderly (checkedHalt_regular halt) fuel)).ends
    generalize (A.run (.halting (checkedHalt halt) fuel)).runIn A.session = run at hOut hEnds
    obtain ⟨result, later⟩ := run
    obtain rfl : result = _ := hOut
    exact absurd rfl hEnds
  · exact hMatches.eq Likeness.equality_strict Evaluator.eq_of_alike

variable {A} {expr : Expr} {inner : ScopeId} {met : Session}

/-- The body takes a course that keeps its scope to everything that it comes to. -/
theorem Meets.course (h : A.Meets expr inner met) : Course (some A.scope) A.start met := by
  obtain ⟨halt, fuel, depth, source?, hHeeds, -, hRun⟩ := h
  have hGoes : (Evaluator.halting (checkedHalt halt) fuel).Goes (some A.scope) := by
    apply Evaluator.halting_goes (checkedHalt_regular halt)
    intro expr scope session hNone
    rw [checkedHalt] at hNone
    split at hNone
    · rename_i hSound
      refine ⟨hSound, hHeeds expr scope session ?_⟩
      split at hNone
      · cases hNone
      · rename_i hHalt
        exact eq_false_of_ne_true hHalt
    · cases hNone
  have hCourse : Course (some A.scope) A.start _ := hGoes.runBody A.closure A.scope
  rw [← A.runIn_run, A.runIn_run_checked, hRun] at hCourse
  exact hCourse.next (.note _ met.instances met.depth met.source? met.faultSite? met.output met.lastError?)

theorem Meets.evolves (h : A.Meets expr inner met) : A.session.Evolves met := by
  obtain ⟨halt, fuel, depth, source?, -, -, hRun⟩ := h
  have hOrderly := A.run_orderly (Evaluator.halting_orderly (checkedHalt_regular halt) fuel)
  have hEvolves := hOrderly.evolves
  rw [A.runIn_run_checked, hRun] at hEvolves
  exact hEvolves.trans
    (.of_change (.note _ met.depth met.source? met.faultSite? met.output met.lastError?))

theorem Meets.continues (h : A.Meets expr inner met) : A.session.Continues met :=
  A.continues_start.trans h.course.continues

theorem Meets.lookup?_self (h : A.Meets expr inner met) (hInside : A.scope ∈ met.environment.chain inner)
    (hPlain : met.PlainInside A.scope) : met.environment.lookup? inner selfName = some A.receiver :=
  h.course.lookup?_inside A.scope_ne_root A.start_frames A.start_methodsOwned hPlain hInside (.inl rfl)
    A.start_self

theorem Meets.lookup?_super (h : A.Meets expr inner met) (hInside : A.scope ∈ met.environment.chain inner)
    (hPlain : met.PlainInside A.scope) {above : ClassId}
    (hAbove : A.session.hierarchy.superclass? A.cls = some above) :
    met.environment.lookup? inner superName = some (.classRef above) :=
  h.course.lookup?_inside A.scope_ne_root A.start_frames A.start_methodsOwned hPlain hInside (.inr rfl)
    (A.start_super hAbove)

/-- The classes above that of the method are the same when a message of the body has been read. -/
theorem Meets.chain_above (h : A.Meets expr inner met) {above : ClassId}
    (hAbove : A.session.hierarchy.superclass? A.cls = some above) {fuel : Nat} {receiver : Value}
    {parts : List Expr} {message : Message} {ready : Session}
    (hDecode : ((Evaluator.ofFuel fuel).decodeMessage receiver parts inner).runIn met =
      (.ok message, ready)) :
    ready.hierarchy.chain above = (A.session.hierarchy.chain A.cls).tail := by
  have hCourse : Course none met _ := (Evaluator.ofFuel_goes fuel).decodeMessage receiver parts inner
  rw [hDecode] at hCourse
  have hClass := A.reachable.sound.superclasses hAbove
  rw [(h.continues.trans hCourse.continues).classChain_eq hClass, A.tail_chain hAbove]

/-! ### Messages to `super` -/

/-- The body of the first method comes to a message to `super`, and the second method is the one that the
message runs. -/
inductive Sends (A B : Activation) : Prop where
  | intro {span span' : Source.Span} {parts : List Expr} {inner : ScopeId} {met : Session}
      (hMeets : A.Meets (.list span (.symbol span' superName :: parts)) inner met)
      (hInside : A.scope ∈ met.environment.chain inner) (hPlain : met.PlainInside A.scope)
      {start : ClassId} (hStart : superStart? met (.symbol span' superName) inner = some start)
      {fuel : Nat} {message : Message}
      (hReceiver : B.receiver = (met.environment.lookup? inner selfName).getD .null)
      (hDecode : ((Evaluator.ofFuel fuel).decodeMessage B.receiver parts inner).runIn met =
        (.ok message, B.session))
      (hSelector : B.selector = message.selector) (hArguments : B.arguments = message.arguments)
      (hArity : selectorArity message.selector = message.arguments.length)
      (hFound : ReachesFirst (B.session.hierarchy.localMethod? · message.selector)
        (B.session.hierarchy.chain start) B.cls)

end Activation

theorem superStart?_of_lookup? {session : Session} {scope : ScopeId} {above : ClassId}
    (h : session.environment.lookup? scope superName = some (.classRef above)) (span : Source.Span) :
    superStart? session (.symbol span superName) scope = some above := by
  simp only [superStart?, Expr.symbol?, if_true, h]

/-- What is above a class has no more classes above it. -/
theorem Hierarchy.length_chain_le {h : Hierarchy} {cls above : ClassId} (hMem : above ∈ h.chain cls) :
    (h.chain above).length ≤ (h.chain cls).length := by
  induction hIndex : cls.index using Nat.strongRecOn generalizing cls with
  | ind index ih =>
      rw [Hierarchy.chain, List.mem_cons] at hMem
      rcases hMem with rfl | hAbove
      · exact Nat.le_refl _
      · rw [Hierarchy.chain.eq_def h cls, List.length_cons]
        cases hParent : h.superclass? cls with
        | none => simp [hParent] at hAbove
        | some parent =>
            by_cases hBelow : parent.index < cls.index
            · simp only [hParent, if_pos hBelow] at hAbove ⊢
              exact Nat.le_succ_of_le (ih parent.index (hIndex ▸ hBelow) hAbove rfl)
            · simp [hParent, hBelow] at hAbove

namespace Activation

/-- The method that a message to `super` runs belongs to a class with fewer classes above it. -/
theorem Sends.length_lt {A B : Activation} (h : A.Sends B) (hObject : A.cls ≠ BuiltinClass.object.id) :
    (B.session.hierarchy.chain B.cls).tail.length < (A.session.hierarchy.chain A.cls).tail.length := by
  obtain ⟨hMeets, hInside, hPlain, hStart, hReceiver, hDecode, -, -, -, hFound⟩ := h
  obtain ⟨above, hAbove⟩ := A.exists_superclass hObject
  rw [superStart?_of_lookup? (hMeets.lookup?_super hInside hPlain hAbove)] at hStart
  cases hStart
  have hLength := Hierarchy.length_chain_le hFound.1
  rw [hMeets.chain_above hAbove hDecode] at hLength
  have hPositive : 0 < (B.session.hierarchy.chain B.cls).length := by
    rw [Hierarchy.chain, List.length_cons]
    exact Nat.succ_pos _
  rw [List.length_tail]
  omega

theorem length_tail_pos {A : Activation} (hObject : A.cls ≠ BuiltinClass.object.id) :
    0 < (A.session.hierarchy.chain A.cls).tail.length := by
  obtain ⟨above, hAbove⟩ := A.exists_superclass hObject
  rw [A.tail_chain hAbove, Hierarchy.chain, List.length_cons]
  exact Nat.succ_pos _

end Activation

theorem runIn_evaluateList_super {ev : Evaluator} {session : Session} {scope : ScopeId} {above : ClassId}
    {receiver : Value} (hSuper : session.environment.lookup? scope superName = some (.classRef above))
    (hSelf : session.environment.lookup? scope selfName = some receiver) (span : Source.Span)
    (parts : List Expr) :
    (ev.evaluateList (.symbol span superName :: parts) scope).runIn session =
      (ev.sendParts receiver parts scope (some above)).runIn session := by
  rw [Evaluator.evaluateList, Eval.runIn_get_bind, superStart?_of_lookup? hSuper, hSelf]
  rfl

/-- Messages to `super` go up. Take a method from the table of a class other than `Object`, in a session
where closures belong to the classes that have them as methods, and run it for any receiver. Wherever its
body comes to a message to `super`, in a scope of its own or of a function nested in it, the message goes to
the receiver of the method, and its lookup starts at the class above. A method that is found there stands in
the table of one of the classes above that of the first method. This holds if nothing in the body has given
a value to `self` or `super`, and the functions nested in it are not methods and have no such parameters.
So if each of several methods runs the next one by a message to `super`, and sends one itself, then there
are at most as many of them as there are classes above that of the first one. -/
theorem super_sends_ascend :
    (∀ A : Activation, A.cls ≠ BuiltinClass.object.id →
      ∀ (span span' : Source.Span) (parts : List Expr) (inner : ScopeId) (met : Session),
        A.Meets (.list span (.symbol span' superName :: parts)) inner met →
        A.scope ∈ met.environment.chain inner → met.PlainInside A.scope →
          ∃ above, A.session.hierarchy.superclass? A.cls = some above ∧ ∀ fuel,
            ((Evaluator.ofFuel (fuel + 1)).evaluate (.list span (.symbol span' superName :: parts))
                inner).runIn met =
              Eval.located (.list span (.symbol span' superName :: parts))
                (((Evaluator.ofFuel fuel).sendParts A.receiver parts inner (some above)).runIn met) ∧
            ∀ message ready,
              ((Evaluator.ofFuel fuel).decodeMessage A.receiver parts inner).runIn met =
                (.ok message, ready) →
              ∀ method, ready.hierarchy.resolve? above message.selector = some method →
                ((Evaluator.ofFuel fuel).sendParts A.receiver parts inner (some above)).runIn met =
                    (if selectorArity message.selector = message.arguments.length then
                      ((Evaluator.ofFuel fuel).runMethod method A.receiver message.arguments).runIn ready
                    else
                      (.error (.error (.arityMismatch message.selector
                        (selectorArity message.selector) message.arguments.length)), ready)) ∧
                  ∃ cls ∈ (A.session.hierarchy.chain A.cls).tail, cls ≠ A.cls ∧
                    ready.hierarchy.localMethod? cls message.selector = some method) ∧
      ∀ (first : Activation) (rest : List Activation), List.IsChain Activation.Sends (first :: rest) →
        (∀ A ∈ first :: rest, A.cls ≠ BuiltinClass.object.id) →
          (first :: rest).length ≤ (first.session.hierarchy.chain first.cls).tail.length := by
  constructor
  · intro A hObject span span' parts inner met hMeets hInside hPlain
    obtain ⟨above, hAbove⟩ := A.exists_superclass hObject
    have hSuper := hMeets.lookup?_super hInside hPlain hAbove
    have hSelf := hMeets.lookup?_self hInside hPlain
    refine ⟨above, hAbove, fun fuel => ⟨?_, ?_⟩⟩
    · rw [← runIn_evaluateList_super hSuper hSelf span' parts]
      exact Eval.runIn_locating ..
    · intro message ready hDecode method hFound
      constructor
      · rw [Evaluator.sendParts, Eval.runIn_bind_ok hDecode]
        exact Evaluator.runIn_send_found hFound
      · obtain ⟨cls, hMem, hMethod⟩ := List.exists_of_findSome?_eq_some hFound
        rw [hMeets.chain_above hAbove hDecode] at hMem
        refine ⟨cls, hMem, ?_, hMethod⟩
        rintro rfl
        obtain ⟨declarations, hDeclared⟩ := A.reachable.declared
        rw [A.tail_chain hAbove] at hMem
        have hLe := hDeclared.le_of_mem_chain hMem
        have hLt := hDeclared.superclass?_lt hAbove
        omega
  · intro first rest hChain hObject
    induction rest generalizing first with
    | nil => exact Activation.length_tail_pos (hObject first (.head _))
    | cons next rest ih =>
        obtain ⟨hSends, hRest⟩ := List.isChain_cons_cons.mp hChain
        have hLength := hSends.length_lt (hObject first (.head _))
        have hNext := ih next hRest fun A hMem => hObject A (.tail _ hMem)
        rw [List.length_cons]
        omega

/-! ### Two methods -/

/-- `((lambda () (super m)))`, a message to `super` from a nested function. -/
def nestedSend : Closure where
  name? := none
  owner? := none
  prototype := ⟨[], none⟩
  body := [.list ⟨0, 25⟩ [.list ⟨1, 24⟩ [.symbol ⟨2, 8⟩ "lambda", .list ⟨9, 11⟩ [],
    .list ⟨12, 23⟩ [.symbol ⟨13, 18⟩ superName, .symbol ⟨19, 20⟩ "m"]]]]
  scope := Environment.root
  source? := none
  signature? := none

/-- `(super m)` -/
def plainSend : Closure :=
  { nestedSend with body := [.list ⟨0, 9⟩ [.symbol ⟨1, 6⟩ superName, .symbol ⟨7, 8⟩ "m"]] }

/-- The closure as a method of the class. -/
def Closure.ownedBy (closure : Closure) (cls : ClassId) : Closure :=
  { closure with name? := some "m", owner? := some cls }

def twoClosures : Session :=
  (((Session.new 8).addClosure nestedSend).2.addClosure plainSend).2

namespace Session

variable {session : Session} {cls : ClassId} {id : ClosureId}

def withFunction (session : Session) (id : ClosureId) : Session :=
  session.mapEnvironment (·.define Environment.root "m" (.function (.closure id)))

/-- The session with a function defined, and made a method of a class. -/
def withMethod (session : Session) (cls : ClassId) (id : ClosureId) : Session :=
  ((session.withFunction id).collect cls Environment.root ["m"]).2.install
    ⟨cls, ((session.withFunction id).collect cls Environment.root ["m"]).1⟩

theorem Reachable.withFunction (h : session.Reachable) (hId : id.index < session.closures.size) :
    (session.withFunction id).Reachable := by
  obtain ⟨maxDepth, log, hHistory⟩ := h
  have hLive : (Value.function (.closure id)).Lives session := hId
  exact ⟨maxDepth, _, hHistory.next (.define Environment.root hLive (.inl trivial))⟩

theorem Reachable.withMethod (h : session.Reachable) (hId : id.index < session.closures.size)
    (cls : ClassId) : (session.withMethod cls id).Reachable := by
  obtain ⟨maxDepth, log, hHistory⟩ := h.withFunction hId
  exact ⟨maxDepth, _, hHistory.next (.extend _ cls Environment.root ["m"])⟩

theorem withMethod_cases (h : session.Reachable) (hId : id.index < session.closures.size)
    {other : ClassId} {selector : String} {method : Method}
    (hMethod : (session.withMethod cls id).hierarchy.localMethod? other selector = some method) :
    session.hierarchy.localMethod? other selector = some method ∨
      other = cls ∧ method = .function (.closure id) := by
  have hExtends := extends_install (h.withFunction hId).sound cls Environment.root ["m"]
  rcases hExtends.methods hMethod with hOld | ⟨rfl, hNew⟩
  · exact .inl hOld
  · refine .inr ⟨rfl, ?_⟩
    obtain ⟨hName, target, hBound, rfl⟩ := (mem_collect _ _ _ _ _ _).mp hNew
    rw [List.mem_singleton.mp hName] at hBound
    have hLocal := Environment.getLocal?_define session.environment Environment.root Environment.root "m" "m"
      (.function (.closure id))
    rw [if_pos ⟨rfl, h.frames_pos, rfl⟩] at hLocal
    cases hLocal.symm.trans hBound
    rfl

end Session

/-- The closure with the nested function is a method of closures, and the other one of functions. -/
def twoMethods : Session :=
  (twoClosures.withMethod BuiltinClass.closure.id ⟨0⟩).withMethod BuiltinClass.function.id ⟨1⟩

theorem twoClosures_reachable : twoClosures.Reachable := by
  have hPlain : ∀ parameter ∈ nestedSend.prototype.parameters,
      True ∨ Source.isKeyword parameter.name = false := fun _ _ => .inl trivial
  exact ⟨8, _, (History.start.next (.addClosure _ rfl hPlain)).next (.addClosure _ rfl hPlain)⟩

theorem oneMethod_reachable : (twoClosures.withMethod BuiltinClass.closure.id ⟨0⟩).Reachable :=
  twoClosures_reachable.withMethod (by decide) _

theorem twoMethods_reachable : twoMethods.Reachable :=
  oneMethod_reachable.withMethod (by decide) _

theorem twoMethods_tables {cls : ClassId} {selector : String} {id : ClosureId}
    (h : twoMethods.hierarchy.localMethod? cls selector = some (.function (.closure id))) :
    cls = BuiltinClass.closure.id ∧ id = ⟨0⟩ ∨ cls = BuiltinClass.function.id ∧ id = ⟨1⟩ := by
  rcases Session.withMethod_cases oneMethod_reachable (by decide) h with hOld | ⟨rfl, hNew⟩
  · rcases Session.withMethod_cases twoClosures_reachable (by decide) hOld with hOlder | ⟨rfl, hNew⟩
    · exact absurd hOlder (Session.new_method : (Session.new 8).hierarchy.localMethod? _ _ ≠ _)
    · cases hNew
      exact .inl ⟨rfl, rfl⟩
  · cases hNew
    exact .inr ⟨rfl, rfl⟩

theorem twoMethods_tablesOwned : twoMethods.TablesOwned := by
  intro cls selector id hMethod
  rcases twoMethods_tables hMethod with ⟨rfl, rfl⟩ | ⟨rfl, rfl⟩
  · cbv
  · cbv

/-- Halts at lists, but for those of one item and those with a list in second place. -/
def haltsAtMessages : Expr → ScopeId → Session → Bool
  | .list _ [_], _, _ => false
  | .list _ (_ :: .list _ _ :: _), _, _ => false
  | .list _ _, _, _ => true
  | _, _, _ => false

theorem haltsAtMessages_heeds {expr : Expr} {scope : ScopeId} {session : Session}
    (h : haltsAtMessages expr scope session = false) (body : ScopeId) :
    ¬session.Spoils body expr scope := by
  rintro ⟨-, span, head, parts, rfl, fuel, builtin, later, -, hBinds⟩
  have hNone : builtin.binds (parts.map .expr) = [] := by
    match parts with
    | [] => exact builtin.binds_nil
    | .list _ _ :: _ => cases builtin <;> rfl
    | .nil _ :: _ => cases h
    | .int _ _ :: _ => cases h
    | .float _ _ :: _ => cases h
    | .string _ _ :: _ => cases h
    | .symbol _ _ :: _ => cases h
  rw [hNone] at hBinds
  simp at hBinds

/-- The method of closures, run for 7 up to its message to `super`. -/
def lowerRun : Except Interruption Value × Session :=
  ((Evaluator.haltingAt haltsAtMessages 6).runMethod (.function (.closure ⟨0⟩)) (.int 7) []).runIn
    twoMethods

theorem lowerRun_eq :
    lowerRun.1 = .error (.outOfFuel .nesting) ∧ lowerRun.2.hierarchy = twoMethods.hierarchy ∧
      lowerRun.2.environment.chain ⟨2⟩ = [⟨2⟩, ⟨1⟩, ⟨0⟩] ∧
      (lowerRun.2.closures.map fun closure =>
          (closure.owner?, closure.scope, closure.prototype.parameters)) =
        #[(some BuiltinClass.closure.id, Environment.root, []),
          (some BuiltinClass.function.id, Environment.root, []), (none, ⟨1⟩, [])] := by
  refine ⟨?_, ?_, ?_, ?_⟩
  · cbv
  · cbv
  · cbv
  · cbv

/-- The method of closures, started for a number. -/
def lowerSend : Activation where
  session := twoMethods
  cls := BuiltinClass.closure.id
  selector := "m"
  id := ⟨0⟩
  closure := nestedSend.ownedBy BuiltinClass.closure.id
  receiver := .int 7
  arguments := []
  bound := twoMethods.pushFrame ((nestedSend.ownedBy BuiltinClass.closure.id).frame twoMethods.hierarchy [])
  reachable := twoMethods_reachable
  isOpen := rfl
  tablesOwned := twoMethods_tablesOwned
  method := by cbv
  closure_eq := by cbv
  receiver_lives := trivial
  arguments_live := trivial
  bind := Eval.runIn_bindArguments rfl rfl

/-- The message to `super` in the nested function. -/
def nestedMessage : Expr :=
  .list ⟨12, 23⟩ [.symbol ⟨13, 18⟩ superName, .symbol ⟨19, 20⟩ "m"]

theorem lowerSend_meets : lowerSend.Meets nestedMessage ⟨2⟩ lowerRun.2 := by
  refine ⟨haltsAtMessages, 6, lowerRun.2.depth, lowerRun.2.source?, ?_, rfl, ?_⟩
  · intro expr scope session hHalt
    exact haltsAtMessages_heeds hHalt lowerSend.scope
  · exact Prod.ext lowerRun_eq.1 rfl

theorem lowerSend_scope : lowerSend.scope = ⟨1⟩ := by
  cbv

theorem lowerSend_inside : lowerSend.scope ∈ lowerRun.2.environment.chain ⟨2⟩ := by
  rw [lowerRun_eq.2.2.1, lowerSend_scope]
  decide

theorem lowerRun_plainInside : lowerRun.2.PlainInside lowerSend.scope := by
  intro id closure hClosure hInside
  have hRoot : closure.scope ≠ Environment.root := by
    intro hScope
    rw [lowerSend_scope, hScope] at hInside
    exact absurd (Environment.index_le_of_mem_chain hInside) (by decide)
  have hMem : (closure.owner?, closure.scope, closure.prototype.parameters) ∈
      [(some BuiltinClass.closure.id, Environment.root, []),
        (some BuiltinClass.function.id, Environment.root, []), (none, ⟨1⟩, [])] := by
    rw [← List.mem_toArray, ← lowerRun_eq.2.2.2]
    exact Array.mem_map_of_mem (Array.mem_of_getElem? hClosure)
  simp only [List.mem_cons, Prod.mk.injEq, List.not_mem_nil, or_false] at hMem
  rcases hMem with ⟨-, hScope, -⟩ | ⟨-, hScope, -⟩ | ⟨hOwner, -, hParameters⟩
  · exact absurd hScope hRoot
  · exact absurd hScope hRoot
  · rw [hOwner, hParameters]
    exact ⟨rfl, fun _ hParameter => absurd hParameter List.not_mem_nil⟩

theorem lowerRun_tablesOwned : lowerRun.2.TablesOwned := by
  intro cls selector id hMethod
  rw [lowerRun_eq.2.1] at hMethod
  rcases twoMethods_tables hMethod with ⟨rfl, rfl⟩ | ⟨rfl, rfl⟩
  · cbv
  · cbv

/-- The method of functions that the message runs, for the same number. -/
def upperSend : Activation where
  session := lowerRun.2
  cls := BuiltinClass.function.id
  selector := "m"
  id := ⟨1⟩
  closure := plainSend.ownedBy BuiltinClass.function.id
  receiver := .int 7
  arguments := []
  bound := lowerRun.2.pushFrame ((plainSend.ownedBy BuiltinClass.function.id).frame lowerRun.2.hierarchy [])
  reachable := twoMethods_reachable.evolves lowerSend_meets.evolves
  isOpen := by cbv
  tablesOwned := lowerRun_tablesOwned
  method := by cbv
  closure_eq := by cbv
  receiver_lives := trivial
  arguments_live := trivial
  bind := Eval.runIn_bindArguments rfl rfl

theorem lowerSend_sends : lowerSend.Sends upperSend := by
  have hStart : superStart? lowerRun.2 (.symbol ⟨13, 18⟩ superName) ⟨2⟩ =
      some BuiltinClass.function.id := by cbv
  have hReceiver : upperSend.receiver = (lowerRun.2.environment.lookup? ⟨2⟩ selfName).getD .null := by cbv
  have hDecode : ∀ session, ((Evaluator.ofFuel 0).decodeMessage upperSend.receiver
      [.symbol ⟨19, 20⟩ "m"] ⟨2⟩).runIn session = (.ok ⟨"m", []⟩, session) := fun _ => rfl
  have hFound : ReachesFirst (upperSend.session.hierarchy.localMethod? · "m")
      (upperSend.session.hierarchy.chain BuiltinClass.function.id) upperSend.cls := by
    rw [Hierarchy.chain]
    exact reachesFirst_cons.mpr (.inl rfl)
  exact .intro lowerSend_meets lowerSend_inside lowerRun_plainInside hStart hReceiver (hDecode _) rfl rfl
    rfl hFound

/-- The message from the nested function goes to the number, its lookup starts above the class of closures,
and the method that it runs sends the next one. There are two classes above that of closures, so these two
methods are as many as there can be. -/
theorem super_sends_ascend_twice :
    lowerSend.Meets nestedMessage ⟨2⟩ lowerRun.2 ∧
      ((Evaluator.ofFuel 2).evaluate nestedMessage ⟨2⟩).runIn lowerRun.2 =
        Eval.located nestedMessage (((Evaluator.ofFuel 1).sendParts (.int 7) [.symbol ⟨19, 20⟩ "m"] ⟨2⟩
          (some BuiltinClass.function.id)).runIn lowerRun.2) ∧
      lowerSend.Sends upperSend ∧
      [lowerSend, upperSend].length ≤
        (twoMethods.hierarchy.chain BuiltinClass.closure.id).tail.length ∧
      (twoMethods.hierarchy.chain BuiltinClass.closure.id).tail.length = 2 := by
  obtain ⟨hMessage, hLength⟩ := super_sends_ascend
  obtain ⟨above, hAbove, hFuel⟩ := hMessage lowerSend (by decide) _ _ _ _ _ lowerSend_meets
    lowerSend_inside lowerRun_plainInside
  have hFunction : twoMethods.hierarchy.superclass? BuiltinClass.closure.id =
      some BuiltinClass.function.id := by cbv
  cases hFunction.symm.trans hAbove
  refine ⟨lowerSend_meets, (hFuel 1).1, lowerSend_sends, ?_, by cbv⟩
  apply hLength lowerSend [upperSend] (.cons_cons lowerSend_sends (.singleton _))
  intro A hMem
  rcases List.mem_pair.mp hMem with rfl | rfl
  · decide
  · decide

end MessageLisp
