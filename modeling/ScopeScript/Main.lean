import ScopeScript.CommandLine.Command
set_option autoImplicit false

/-!
# The program

Reads the one file that the command line names, performs the command on it, and writes what comes
of it.
-/

namespace ScopeScript

/-- What a file of the file system holds. -/
def readDocument (file : String) : IO Document := do
  try
    match String.fromUTF8? (← IO.FS.readBinFile file) with
    | some content => pure (.text content)
    | none => pure .unreadable
  catch error =>
    match error with
    | .noFileOrDirectory .. => pure .missing
    | _ => pure .directory

/-- Writes an outcome and returns the exit status. -/
def writeOutcome (outcome : Outcome) : IO UInt32 := do
  for (path, content) in outcome.files do
    IO.FS.writeFile path.toString content
  (← IO.getStdout).putStr outcome.stdout
  (← IO.getStderr).putStr outcome.stderr
  match outcome.status with
  | .ok status => pure status.toUInt32
  | .error error =>
    (← IO.getStderr).putStr ("Error: " ++ error.message?.getD "not a valid input" ++ "\n")
    pure 1

end ScopeScript

open ScopeScript

/-- The program. -/
def main (words : List String) : IO UInt32 := do
  match Command.read words with
  | .error problem => writeOutcome problem.outcome
  | .ok .help => writeOutcome { stdout := usage }
  | .ok (.command command) => do
    let document ← readDocument (Path.ofString command.file).toString
    writeOutcome (command.perform document)
