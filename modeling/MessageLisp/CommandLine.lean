import MessageLisp.DepthLimit
import MessageLisp.Semantics.Running

/-! The command line: `run FILE` runs a program, `eval SOURCE` runs its argument and prints the
value, `parse FILE` prints the expressions of a program. The first two take `--max-depth N`. In
place of a command, `--version` or `-V` asks for the version. -/
namespace MessageLisp

inductive Command where
  | run (file : String) (maxDepth? : Option Nat)
  | eval (source : String) (maxDepth? : Option Nat)
  | parse (file : String)
  | version
deriving DecidableEq, Repr

/-- The name and the version of the program. -/
def versionLine : String := "stein 0.1.0"

/-- What the program leaves behind: its exit code, its output and the headline of the error. -/
structure Report where
  exitCode : Nat
  output : String
  headline? : Option String
deriving DecidableEq, Repr

/-- The arguments of a command as far as they have been read. -/
structure Arguments where
  positional? : Option String
  maxDepth? : Option Nat

namespace Arguments

/-- Takes in the value of `--max-depth`, which may be given once. -/
def setDepth (arguments : Arguments) (value : String) : Option Arguments :=
  match arguments.maxDepth?, readWord value.toList with
  | none, some depth => some { arguments with maxDepth? := some depth }
  | _, _ => none

/-- Takes in the one argument that is no option. -/
def setPositional (arguments : Arguments) (value : String) : Option Arguments :=
  match arguments.positional? with
  | none => some { arguments with positional? := some value }
  | some _ => none

/-- Reads arguments. Behind a double dash nothing is an option. -/
def read (takesDepth : Bool) (arguments : Arguments) (optionsEnded : Bool) :
    List String → Option Arguments
  | [] => some arguments
  | [word] => next word
  | word :: value :: rest =>
    if !optionsEnded && takesDepth && word = "--max-depth" then
      (arguments.setDepth value).bind fun arguments => read takesDepth arguments false rest
    else if !optionsEnded && word = "--" then read takesDepth arguments true (value :: rest)
    else (next word).bind fun arguments => read takesDepth arguments optionsEnded (value :: rest)
where
  /-- Takes in a word that needs no second one. -/
  next (word : String) : Option Arguments :=
    if optionsEnded then arguments.setPositional word
    else if word = "--" then some arguments
    else if takesDepth && "--max-depth=".isPrefixOf word then
      arguments.setDepth (String.ofList (word.toList.drop "--max-depth=".length))
    else if "-".isPrefixOf word && word ≠ "-" then none
    else arguments.setPositional word

end Arguments

namespace Command

/-- The command that the words on the command line make up. What follows the question for the
version does not matter, also inside a word that starts with `-V`. -/
def ofWords : List String → Option Command
  | "run" :: words => do
    let arguments ← Arguments.read true ⟨none, none⟩ false words
    some (.run (← arguments.positional?) arguments.maxDepth?)
  | "eval" :: words => do
    let arguments ← Arguments.read true ⟨none, none⟩ false words
    some (.eval (← arguments.positional?) arguments.maxDepth?)
  | "parse" :: words => do
    let arguments ← Arguments.read false ⟨none, none⟩ false words
    some (.parse (← arguments.positional?))
  | "--version" :: _ => some .version
  | word :: _ => if "-V".isPrefixOf word then some .version else none
  | [] => none

/-- The file that a command reads. -/
def file? : Command → Option String
  | run file _ => some file
  | eval _ _ => none
  | parse file => some file
  | version => none

/-- The text before the first line feed. A carriage return at its end belongs to the line break. -/
def firstLine (text : List Char) : List Char :=
  let line := text.takeWhile (· ≠ '\n')
  if line.getLast? = some '\r' then line.dropLast else line

/-- The headline for an error. Of a syntax error it gives the cause alone. -/
def headline (error : Error) : String :=
  let message :=
    match error with
    | .malformedSource error => error.cause.message
    | error => error.message
  "Error: " ++ String.ofList (firstLine message.toList)

/-- The report on a failed program. -/
def failed (error : Error) (output : String) : Report :=
  ⟨1, output, some (headline error)⟩

/-- Runs a program in a new session and reports; `showValue` says whether its value is printed. -/
def runIn (ev : Evaluator) (maxDepth : Nat) (source label : String) (showValue : Bool) : Report :=
  let (result, session) := (ev.run source label).run (Session.new maxDepth)
  match result with
  | .value value =>
    ⟨0, session.output ++ (if showValue then session.pretty value ++ "\n" else ""), none⟩
  | .fault fault => failed fault.error session.output
  | .outOfFuel _ => ⟨1, session.output, none⟩

/-- Executes a command, given the setting of the depth limit and the contents of its file. -/
def execute (ev : Evaluator) (setting? : Option String) (contents? : Option String) :
    Command → Report
  | run file maxDepth? =>
    match contents? with
    | some contents => runIn ev (maxDepth?.getD (maxDepthUnder setting?)) contents file false
    | none => ⟨1, "", none⟩
  | eval source maxDepth? =>
    runIn ev (maxDepth?.getD (maxDepthUnder setting?)) source "<eval>" true
  | parse file =>
    match contents? with
    | some contents =>
      match Source.parse contents file with
      | .ok program => ⟨0, String.join (program.map fun expr => expr.text ++ "\n"), none⟩
      | .error error => failed (.malformedSource error) ""
    | none => ⟨1, "", none⟩
  | version => ⟨0, versionLine ++ "\n", none⟩

end Command

/-- The report on a command line that makes no sense. -/
def Report.misuse : Report := ⟨2, "", none⟩

end MessageLisp
