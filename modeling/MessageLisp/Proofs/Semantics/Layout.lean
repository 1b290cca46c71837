import Mathlib
import MessageLisp.Proofs.Semantics.Running

/-! Layout. Where the expressions of a program stand, and what the program is called, has no
influence on what it does. It shows in the label, span and position of a fault only. -/
namespace MessageLisp

open Source (Expr)

theorem Source.Expr.bareAll_eq_iff {exprs exprs' : List Expr} :
    Expr.bareAll exprs = Expr.bareAll exprs' ↔
      List.Forall₂ (fun e e' => e.bare = e'.bare) exprs exprs' := by
  rw [Expr.bareAll_eq_map, Expr.bareAll_eq_map, ← List.forall₂_eq_eq_eq, List.forall₂_map_left_iff,
    List.forall₂_map_right_iff]

/-- Leaves open where expressions stand and which programs they were read from. -/
def Likeness.layout : Likeness where
  expr e e' := e.bare = e'.bare
  code _ _ e e' := e.bare = e'.bare
  source _ _ := True
  expr_of_code := id
  bare_eq := id
  code_items h := Expr.bareAll_eq_iff.mp (Expr.list.inj h).2
  levels := .equality

theorem Session.alike_layout (session : Session) : session.Alike .layout session :=
  Session.alike_withLimit (fun _ _ => rfl) (fun _ => trivial) session rfl

/-- The same result, except for spans inside a value, and for the label, span and position of a
fault. -/
inductive RunResult.SameButLayout : RunResult → RunResult → Prop where
  | value {value value' : Value} (hValue : value.Alike .layout value') :
      SameButLayout (.value value) (.value value')
  | fault {fault fault' : Fault} (hError : fault.error = fault'.error)
      (hExpression : fault.expression? = fault'.expression?) :
      SameButLayout (.fault fault) (.fault fault')
  | outOfFuel (fuel : Fuel) : SameButLayout (.outOfFuel fuel) (.outOfFuel fuel)

theorem locateFault_expression? (error : Error) (label : String) (site : FaultSite) :
    (locateFault error label site).expression? = some site.expr.text := by
  simp only [locateFault]
  split <;> rfl

theorem RunResult.Alike.sameButLayout {label label' : String} {result result' : RunResult}
    (h : result.Alike .layout label label' result') : result.SameButLayout result' := by
  cases h with
  | value hValue => exact .value hValue
  | fault error hSite =>
      apply SameButLayout.fault
      · rw [locateFault_error, locateFault_error]
      · rw [locateFault_expression?, locateFault_expression?, Likeness.layout.text_eq hSite.expr]
  | outOfFuel fuel => exact .outOfFuel fuel

namespace Evaluator

theorem ofFuel_follows_layout (fuel : Nat) :
    Evaluator.Follows .layout (fun _ => False) (ofFuel fuel) (ofFuel fuel) :=
  .ofFuel LevelLikeness.equality_fixed (fun _ _ _ _ => id) fuel

end Evaluator

end MessageLisp
