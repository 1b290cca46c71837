import MessageLisp.Semantics.Message

/-! Evaluation of expressions. A list is read in this order: `(super …)` inside a method sends to
the receiver from the class above; a keyword in second place makes a message; a head that is a
function is applied; a head alone stands for itself; all else is a message. -/
namespace MessageLisp

open Eval
open Source (Expr)

/-- The value of a name: a variable, else a class. -/
def resolve (name : String) (scope : ScopeId) : Eval Value := do
  let session ← get
  match session.environment.lookup? scope name with
  | some value => pure value
  | none =>
    match session.hierarchy.find? name with
    | some id => pure (.classRef id)
    | none => fail (.unboundSymbol name)

/-- The class that a list with head `super` starts its lookup at. -/
def superStart? (session : Session) (head : Expr) (scope : ScopeId) : Option ClassId :=
  if head.symbol? = some superName then
    match session.environment.lookup? scope superName with
    | some (.classRef id) => some id
    | _ => none
  else none

namespace Evaluator

/-- Applies a function to argument expressions, evaluated from left to right unless the function
takes them as they are. -/
def applyParts (ev : Evaluator) (target : FunctionRef) (parts : List Expr) (scope : ScopeId) :
    Eval Value := do
  if (← get).isForm target then ev.applyInPlace target parts scope
  else
    let arguments ← parts.mapM fun part => ev.evaluate part scope
    ev.apply target arguments scope

/-- Evaluates a list. -/
def evaluateList (ev : Evaluator) (items : List Expr) (scope : ScopeId) : Eval Value := do
  match items with
  | [] => pure (.list [])
  | head :: parts =>
    let session ← get
    match superStart? session head scope with
    | some start =>
      let receiver := (session.environment.lookup? scope selfName).getD .null
      ev.sendParts receiver parts scope (some start)
    | none =>
      let target ← ev.evaluate head scope
      if parts.head?.any Expr.isKeyword then ev.sendParts target parts scope none
      else
        match target with
        | .function function => ev.applyParts function parts scope
        | _ => if parts.isEmpty then pure target else ev.sendParts target parts scope none

/-- The value of an expression, with `ev` for its parts. -/
def interpret (ev : Evaluator) (expr : Expr) (scope : ScopeId) : Eval Value :=
  match expr with
  | .nil _ => pure .null
  | .int _ value => pure (.int value)
  | .float _ value => pure (.float value)
  | .string _ text => pure (.string text)
  | .symbol _ name => resolve name scope
  | .list _ items => ev.evaluateList items scope

/-- Evaluates an expression, with `ev` for its parts. -/
def evaluateExpr (ev : Evaluator) (expr : Expr) (scope : ScopeId) : Eval Value :=
  locating expr (ev.interpret expr scope)

/-- The evaluator that follows nested evaluations `fuel` deep and loops for less than `fuel`
rounds. -/
def ofFuel : (fuel : Nat) → Evaluator
  | 0 => .uniform (fun _ _ => throw (.outOfFuel .nesting)) 0
  | fuel + 1 => .uniform (fun expr scope => (ofFuel fuel).evaluateExpr expr scope) fuel

/-- The evaluator for everyday use. Its fuel is out of reach of any evaluation that ends within a
lifetime. -/
def standard : Evaluator :=
  ofFuel 0x1000000000000000

end Evaluator

end MessageLisp
