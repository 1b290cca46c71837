import MessageLisp.Semantics.Evaluation

/-! What a host does with a session: it runs programs, sends messages and applies functions. -/
namespace MessageLisp

open Eval
open Source (Expr Position)

/-- How a program ends. -/
inductive RunResult where
  | value (value : Value)
  | fault (fault : Fault)
  | outOfFuel (fuel : Fuel)

/-- Locates a failure. An expression that does not come from a program, or cannot come from this
one, has the label of the running program and no position. -/
def locateFault (error : Error) (label : String) (site : FaultSite) : Fault :=
  let span := site.expr.span
  match site.source?.filter fun source => span.stop ≤ source.text.utf8ByteSize with
  | some source =>
    { error
      label := source.label
      expression? := some site.expr.text
      span? := some span
      position? := some (Position.locate source.text.toList span.start) }
  | none =>
    { error
      label
      expression? := some site.expr.text
      span? := none
      position? := none }

namespace Evaluator

/-- Evaluates the expressions of a program one by one in the root scope. The first failure ends the
program; what the expressions before it did stays done. -/
def runProgram (ev : Evaluator) (source : SourceText) :
    List Expr → (last : Value) → StateM Session RunResult
  | [], last => pure (.value last)
  | expr :: rest, _ => do
    modify Session.clearFaultSite
    let failed (error : Error) : StateM Session RunResult := do
      let site := (← get).faultSite?.getD ⟨expr, some source⟩
      modify Session.clearFaultSite
      pure (.fault (locateFault error source.label site))
    match ← (ev.evaluate expr Environment.root).run with
    | .ok value => ev.runProgram source rest value
    | .error (.error error) => failed error
    | .error (.panic panic) => failed panic.toError
    | .error (.outOfFuel fuel) => pure (.outOfFuel fuel)

/-- Reads and runs a program in the root scope. -/
def run (ev : Evaluator) (text label : String) : StateM Session RunResult := do
  match Source.parse text label with
  | .error error => pure (.fault (.ofSyntax error))
  | .ok program =>
    let source : SourceText := ⟨label, text⟩
    let previous := (← get).source?
    modify ({ · with source? := some source })
    let result ← ev.runProgram source program .null
    modify ({ · with source? := previous })
    pure result

/-- Reads a program and evaluates it in a scope. -/
def evaluateSource (ev : Evaluator) (text label : String) (scope : ScopeId) : Eval Value := do
  match Source.parse text label with
  | .error error => fail (.malformedSource error)
  | .ok program => within (some ⟨label, text⟩) (ev.sequence program scope)

end Evaluator

end MessageLisp
