import MessageLisp.Native.Signature
import MessageLisp.Source.Program

/-! What can go wrong in a program, with the wording of the messages. -/
namespace MessageLisp

open Native (Unrepresentable)
open Source (SyntaxError Span Position)

/-- Why a form is malformed. Expressions are kept in their printed form. -/
inductive FormFault where
  | missingArgument (number : Nat)
  | notVariable (found : String)
  | evaluatedBody
  | assignmentShape
  | quotationShape
  | notParameterList (found : String)
  | arrowWithoutType
  | afterReturnType (found : String)
  | notTypedParameter (found : String)
  | notParameter (found : String)
  | reservedParameter (name : String)
  | duplicateParameter (name : String)
  | duplicateClass (name : String)
deriving DecidableEq, Repr

def FormFault.message : FormFault → String
  | missingArgument number => s!"missing argument {number}"
  | notVariable found => s!"expected a variable name, found {found}"
  | evaluatedBody => "body must be unevaluated"
  | assignmentShape => "expected (set name value)"
  | quotationShape => "expected exactly one expression"
  | notParameterList found => s!"expected a parameter list, found {found}"
  | arrowWithoutType => "'->' must be followed by a type name"
  | afterReturnType found => s!"unexpected {found} after the return type"
  | notTypedParameter found => s!"expected (name type), found {found}"
  | notParameter found => s!"{found} is not a parameter"
  | reservedParameter name => s!"'{name}' cannot be a parameter name"
  | duplicateParameter name => s!"duplicate parameter '{name}'"
  | duplicateClass name => s!"a class named '{name}' already exists"

/-- The failures that a program can handle. -/
inductive Error where
  | malformedSource (error : SyntaxError)
  | unboundSymbol (name : String)
  | arityMismatch (function : String) (expected got : Nat)
  | typeCoercion (expected found : String)
  | unsupportedType (type : String) (reason : Unrepresentable)
  | dispatchFailure (receiver selector : String)
  | noSuchField (className field : String)
  | invalidForm (form : String) (fault : FormFault)
  /-- Raised by the program itself. -/
  | raised (message : String)
  | divisionByZero
  | indexOutOfBounds (index : Int64) (count : Nat)
  | stackExhausted (limit : Nat)
  | sessionClosed
  | nativePanic (message : String)
deriving DecidableEq, Repr

def Error.message : Error → String
  | malformedSource error => error.message
  | unboundSymbol name => s!"unbound symbol '{name}'"
  | arityMismatch function expected got =>
    s!"{function} expects {expected} argument(s) but {got} were given"
  | typeCoercion expected found => s!"cannot convert {found} to {expected}"
  | unsupportedType type reason =>
    s!"unsupported native type '{type}' in signature: {reason.message}"
  | dispatchFailure receiver selector => s!"{receiver} does not respond to '{selector}'"
  | noSuchField className field => s!"{className} has no field named '{field}'"
  | invalidForm form fault => s!"malformed {form}: {fault.message}"
  | raised message => message
  | divisionByZero => "division by zero"
  | indexOutOfBounds index count => s!"index {index.toInt} out of bounds for a list of {count}"
  | stackExhausted limit => s!"maximum application depth of {limit} exceeded"
  | sessionClosed => "the evaluator this function belongs to is gone"
  | nativePanic message => s!"native code panicked: {message}"

/-- The breakdown of a function of the host. It carries a text unless the host gave none. -/
structure Panic where
  text? : Option String
deriving DecidableEq, Repr

def Panic.message (panic : Panic) : String :=
  panic.text?.getD "unknown panic"

/-- The error that a caught panic turns into. -/
def Panic.toError (panic : Panic) : Error :=
  .nativePanic panic.message

/-- What an evaluator can be short of. -/
inductive Fuel where
  /-- Evaluations inside one another. -/
  | nesting
  /-- Rounds of a loop. -/
  | rounds
  /-- Expressions from elsewhere. -/
  | foreign
deriving DecidableEq, Repr

/-- Why an evaluation ended without a value. Running out of fuel is no event of the language: it
says that the evaluation was not followed to its end. -/
inductive Interruption where
  | error (error : Error)
  | panic (panic : Panic)
  | outOfFuel (fuel : Fuel)
deriving DecidableEq, Repr

/-- An error that ended a program, with the innermost expression that it came from. -/
structure Fault where
  error : Error
  label : String
  expression? : Option String
  span? : Option Span
  position? : Option Position
deriving DecidableEq, Repr

def Fault.ofSyntax (error : SyntaxError) : Fault where
  error := .malformedSource error
  label := error.label
  expression? := none
  span? := some error.span
  position? := some error.position

/-- Label, position and message on one line. -/
def Fault.text (fault : Fault) : String :=
  let place := (fault.position?.map Position.text).getD "?"
  s!"{fault.label}:{place}: {fault.error.message}"

end MessageLisp
