import MessageLisp.CommandLine

/-! The program itself: it reads the file of a command, executes the command and writes the
report. -/
namespace MessageLisp

/-- The environment variable that sets the depth limit. -/
def depthVariable : String := "STEIN_MAX_DEPTH"

/-- The contents of a file, if it can be read. -/
def contentsOf (file : String) : IO (Option String) := do
  try
    return some (← IO.FS.readFile file)
  catch _ =>
    return none

def writeReport (report : Report) : IO UInt32 := do
  IO.print report.output
  match report.headline? with
  | some headline => IO.eprintln headline
  | none => pure ()
  return report.exitCode.toUInt32

end MessageLisp

open MessageLisp in
def main (words : List String) : IO UInt32 := do
  match Command.ofWords words with
  | none => writeReport .misuse
  | some command =>
    let contents? ←
      match command.file? with
      | some file => contentsOf file
      | none => pure none
    let setting? ← IO.getEnv depthVariable
    writeReport (command.execute .standard setting? contents?)
