import MessageLisp.Proofs.Semantics.Simulation

/-! Dispatch of primitive messages. A message that a value answers by a primitive runs that primitive,
and in a new session the values of a builtin class answer the messages of the class that way. -/
namespace MessageLisp

/-- The value answers the message of the primitive by the primitive itself: no class that is looked
into before has a method of its own for it. -/
def Session.Answers (session : Session) (receiver : Value) (primitive : Primitive) : Prop :=
  session.hierarchy.resolve? (session.classOf receiver) primitive.selector =
    some (.primitive primitive)

theorem Evaluator.runIn_send_unary {session : Session} {receiver : Value} {primitive : Primitive}
    (h : session.Answers receiver primitive) (hArity : selectorArity primitive.selector = 1)
    (argument : Value) (ev : Evaluator) :
    (ev.send receiver ⟨primitive.selector, [argument]⟩ none).runIn session =
      (ev.runPrimitive primitive receiver [argument]).runIn session := by
  have hMethod : session.hierarchy.resolve? ((none : Option ClassId).getD (session.classOf receiver))
      primitive.selector = some (.primitive primitive) := h
  rw [Evaluator.send, Eval.runIn_get_bind, hMethod]
  simp only [hArity, List.length_singleton, ne_eq, not_true_eq_false, if_false]
  rfl

theorem Hierarchy.localMethod?_initial {builtin : BuiltinClass} {primitive : Primitive}
    (h : primitive ∈ builtin.primitives) :
    Hierarchy.initial.localMethod? builtin.id primitive.selector = some (.primitive primitive) := by
  revert h
  cases builtin <;> revert primitive <;> decide

theorem Session.new_answers {maxDepth : Nat} {receiver : Value} (builtin : BuiltinClass)
    (hClass : (Session.new maxDepth).classOf receiver = builtin.id) {primitive : Primitive}
    (h : primitive ∈ builtin.primitives) : (Session.new maxDepth).Answers receiver primitive := by
  rw [Answers, hClass, Hierarchy.resolve?, Hierarchy.chain, List.findSome?_cons]
  have hLocal : (Session.new maxDepth).hierarchy.localMethod? builtin.id primitive.selector =
      some (.primitive primitive) := Hierarchy.localMethod?_initial h
  rw [hLocal]

end MessageLisp
