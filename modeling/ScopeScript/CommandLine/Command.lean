import ScopeScript.CommandLine.Arguments
import ScopeScript.CommandLine.Path
import ScopeScript.Interpreter
import ScopeScript.Json.Reader
import ScopeScript.Json.Writer
import ScopeScript.Tree.Printer
import ScopeScript.Tree.Stored
set_option autoImplicit false

/-!
# CommandLine: commands

A command works on one file: it lists the tokens of a script, prints it, stores its tree, or runs
it, from its source or from a stored tree.  What it does depends on the arguments and that file
alone, and what comes of it is an outcome: what is written where, and how the command ends.

A fault of the script is reported and ends the command with status 1.  Misuse is not caught.
-/

namespace ScopeScript

/-- What a command does with its file. -/
inductive Action where
  | run | tokens | pretty | emitTree | runTree
  deriving DecidableEq, Repr, Inhabited

/-- A command. -/
structure Command where
  action : Action
  file : String
  verbosity : Nat
  deriving DecidableEq, Repr, Inhabited

/-- What comes of a command. -/
structure Outcome where
  /-- the exit status, or an error that nothing caught -/
  status : Except Error Nat := .ok 0
  stdout : String := ""
  stderr : String := ""
  /-- the files that are written, by path -/
  files : List (Path × String) := []

/-- What the arguments of a command ask for. -/
inductive Request where
  | help
  | command (command : Command)
  deriving DecidableEq, Repr, Inhabited

namespace FileOption

/-- The action that an option asks for. -/
def action : FileOption → Action
  | .tokens => .tokens
  | .pretty => .pretty
  | .emitTree => .emitTree
  | .runTree => .runTree

end FileOption

namespace Command

/-- The file that the log is written to. -/
def logFile : Path := ⟨"", ["debug.txt"]⟩

/-- What is added to the name of a script for its stored tree. -/
def treeEnding : String := ".ast.json"

/-- The command that arguments ask for.  An empty file name counts as none. -/
def ofArguments (arguments : Arguments) : Except UsageProblem Command :=
  let given := FileOption.all.findSome? fun option =>
    match arguments.files.lookup option with
    | some file => if file.isEmpty then none else some (option.action, file)
    | none => none
  match given, arguments.program with
  | some (action, file), _ => .ok ⟨action, file, arguments.verbosity⟩
  | none, some file =>
    if file.isEmpty then .error .noProgram else .ok ⟨.run, file, arguments.verbosity⟩
  | none, none => .error .noProgram

/-- What the words of a command line ask for. -/
def read (words : List String) : Except UsageProblem Request := do
  let arguments ← Arguments.read words
  if arguments.help then .ok .help else .command <$> ofArguments arguments

/-! ## Actions -/

/-- How a command ends at an error. -/
def failure (error : Error) : Outcome :=
  if error.isScript then
    { status := .ok 1, stderr := "Error: " ++ error.message?.getD "" ++ "\n" }
  else { status := .error error }

/-- The outcome of something that may fail before anything is written. -/
def attempt {α : Type} (result : Except Error α) (next : α → Outcome) : Outcome :=
  match result with
  | .ok a => next a
  | .error error => failure error

/-- Runs a tree and prints the value that it returns. -/
def runTree (verbosity : Nat) (tree : Node) : Outcome :=
  let settings : Settings := { logLevel := verbosity }
  let (result, machine) : Except Error (Option Value) × Machine :=
    match EStateM.run (Eval.run settings globalScope tree) {} with
    | .ok value machine => (.ok value, machine)
    | .error error machine => (.error error, machine)
  let files := if verbosity = 0 then [] else [(logFile, logText machine.log)]
  let printed := attempt result fun value =>
    { stdout := match value with
        | some value => value.render ++ "\n"
        | none => "" }
  { printed with files := files }

/-- The stored tree in a text. -/
def loadTree (text : String) : Except Error Node :=
  match Json.read text with
  | .ok document => Node.load document
  | .error .malformed => .error .notJson
  | .error .tooLong => .error .wrongValue

/-- Lists tokens. -/
def listTokens (text : String) : Outcome :=
  match tokenize text with
  | .ok tokens =>
    { stdout := String.join (tokens.map fun token => token.lexeme.listing ++ "\n") }
  | .error error => failure (.lexical error)

/-- Prints a script. -/
def printTree (text : String) : Outcome :=
  attempt (parseProgram text >>= Node.print 0) fun printed => { stdout := printed }

/-- Stores the tree of a script beside it. -/
def emitTree (path : Path) (text : String) : Outcome :=
  attempt (parseProgram text >>= Node.store) fun document =>
    let target := path.addEnding treeEnding
    { stdout := target.toString ++ "\n", files := [(target, document.writeIndented 0)] }

/-- Does the action of a command with the text of its file. -/
def performOn (command : Command) (text : String) : Outcome :=
  match command.action with
  | .tokens => listTokens text
  | .pretty => printTree text
  | .emitTree => emitTree (Path.ofString command.file) text
  | .runTree => attempt (loadTree text) (runTree command.verbosity)
  | .run => attempt (parseProgram text) (runTree command.verbosity)

/-- Does the action of a command with its file. -/
def perform (command : Command) : Document → Outcome
  | .missing =>
    { status := .ok 1
      stderr := "Error: file " ++ (Path.ofString command.file).toString ++ " not found\n" }
  | .directory => { status := .error .directory }
  | .unreadable => { status := .error .notText }
  | .text content => command.performOn (normalizeLines content)

end Command

/-- The name of the program in messages. -/
def programName : String := "scriptlang"

/-- How the program is used. -/
def usage : String :=
  "usage: " ++ programName ++ " [-h] [-v] [--tokens FILE | --pretty FILE | --emit-ast FILE | " ++
    "--ast AST_JSON_FILE] [program]\n"

/-- The outcome of wrong arguments. -/
def UsageProblem.outcome (problem : UsageProblem) : Outcome :=
  { status := .ok 2
    stderr := usage ++ programName ++ ": error: " ++ problem.message ++ "\n" }

/-- Does what a command line asks for in a folder.  A command that cannot write its file, since a
directory is in its place, does nothing else either. -/
def Folder.perform (folder : Folder) (words : List String) : Outcome :=
  match Command.read words with
  | .error problem => problem.outcome
  | .ok .help => { stdout := usage }
  | .ok (.command command) =>
    let outcome := command.perform (folder.find (Path.ofString command.file))
    if outcome.files.any fun file => folder.find file.1 = .directory then
      { status := .error .directory }
    else outcome

end ScopeScript
