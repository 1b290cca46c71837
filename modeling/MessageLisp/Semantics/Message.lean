import MessageLisp.Semantics.Primitive

/-! Messages. After the receiver come a selector, a selector and one argument, or keywords and
arguments in turn; the keywords together make up the selector. -/
namespace MessageLisp

open Eval
open Source (Expr)

/-- A selector and evaluated arguments. -/
structure Message where
  selector : String
  arguments : List Value

/-- The failure of a receiver to make sense of a message. -/
def notUnderstood {α : Type} (receiver : Value) (selector : String) : Eval α := do
  fail (.dispatchFailure ((← get).className receiver) selector)

/-- The failure to read parts as a message. The error shows all of them. -/
def misspelled {α : Type} (receiver : Value) (parts : List Expr) : Eval α := do
  notUnderstood receiver (Source.textOfAll parts)

namespace Evaluator

/-- Reads keywords and arguments in turn, evaluating the arguments on the way. A part that is out of
place is an error about `parts`, the whole message. -/
def decodeKeywords (ev : Evaluator) (receiver : Value) (parts : List Expr) (scope : ScopeId) :
    List Expr → Eval Message
  | [] => pure ⟨"", []⟩
  | [_] => misspelled receiver parts
  | keyword :: argument :: rest =>
    match keyword.symbol? with
    | some name =>
      if keyword.isKeyword then do
        let value ← ev.evaluate argument scope
        let message ← ev.decodeKeywords receiver parts scope rest
        pure ⟨name ++ message.selector, value :: message.arguments⟩
      else misspelled receiver parts
    | none => misspelled receiver parts

/-- The message spelled by the parts after the receiver. -/
def decodeMessage (ev : Evaluator) (receiver : Value) (parts : List Expr) (scope : ScopeId) :
    Eval Message :=
  match parts with
  | [] => misspelled receiver parts
  | [selector] =>
    if selector.isKeyword then misspelled receiver parts
    else
      match selector.symbol? with
      | some name => pure ⟨name, []⟩
      | none => misspelled receiver parts
  | [selector, argument] =>
    if selector.isKeyword then ev.decodeKeywords receiver parts scope parts
    else
      match selector.symbol? with
      | some name => do pure ⟨name, [← ev.evaluate argument scope]⟩
      | none => misspelled receiver parts
  | _ =>
    if parts.length % 2 = 0 then ev.decodeKeywords receiver parts scope parts
    else misspelled receiver parts

/-- Runs a method. -/
def runMethod (ev : Evaluator) (method : Method) (receiver : Value) (arguments : List Value) :
    Eval Value :=
  match method with
  | .primitive primitive => ev.runPrimitive primitive receiver arguments
  | .function (.closure id) => ev.applyClosure id (some receiver) arguments
  | .function target => ev.apply target (receiver :: arguments) Environment.root

/-- Sends a message. Lookup starts at the class of the receiver unless another class is given. -/
def send (ev : Evaluator) (receiver : Value) (message : Message) (start? : Option ClassId) :
    Eval Value := do
  let session ← get
  match session.hierarchy.resolve? (start?.getD (session.classOf receiver)) message.selector with
  | none => notUnderstood receiver message.selector
  | some method =>
    let expected := selectorArity message.selector
    if message.arguments.length ≠ expected then
      fail (.arityMismatch message.selector expected message.arguments.length)
    else ev.runMethod method receiver message.arguments

/-- Decodes and sends a message. -/
def sendParts (ev : Evaluator) (receiver : Value) (parts : List Expr) (scope : ScopeId)
    (start? : Option ClassId) : Eval Value := do
  let message ← ev.decodeMessage receiver parts scope
  ev.send receiver message start?

end Evaluator

end MessageLisp
