import ScopeScript.Text.Digit
import ScopeScript.Text.Escaped
set_option autoImplicit false

/-!
# CommandLine: arguments

The arguments of a command are options and at most one program file.

* `-v`, any number of times and several in one argument, asks for a log.  In an argument of letters
  every letter has to be an option.
* `--tokens`, `--pretty`, `--emit-ast` and `--ast` take a file each, as the next argument or after
  an equals sign.  Only one of them can be given.  Their names may be cut short as long as they are
  told apart.
* After `--` nothing is an option any more.  A single dash, a negative number and an argument with a
  blank in it are no options either.

Arguments are sorted into options and others first; then the options take what belongs to them, in
order.  What nobody takes is an error at the end.
-/

namespace ScopeScript

/-- The options that take a file. -/
inductive FileOption where
  | tokens | pretty | emitTree | runTree
  deriving DecidableEq, Repr, Inhabited

/-- The options. -/
inductive Flag where
  | help | verbose
  | file (option : FileOption)
  deriving DecidableEq, Repr, Inhabited

/-- What is wrong with the arguments of a command. -/
inductive UsageProblem where
  /-- a cut name may stand for several options -/
  | ambiguous (argument : String) (options : List String)
  /-- an option that takes no file is given one -/
  | ignoredValue (flag : Flag) (value : String)
  /-- an option that takes a file is given none -/
  | missingValue (option : FileOption)
  /-- two options exclude each other -/
  | conflict (option earlier : FileOption)
  /-- arguments that nobody takes -/
  | unrecognized (arguments : List String)
  /-- no file to work on -/
  | noProgram
  deriving DecidableEq, Repr, Inhabited

namespace FileOption

/-- How the option is written. -/
def spelling : FileOption → String
  | .tokens => "--tokens"
  | .pretty => "--pretty"
  | .emitTree => "--emit-ast"
  | .runTree => "--ast"

/-- The options that take a file, in order. -/
def all : List FileOption := [.tokens, .pretty, .emitTree, .runTree]

end FileOption

namespace Flag

/-- How an option is written in messages. -/
def spelling : Flag → String
  | .help => "-h/--help"
  | .verbose => "-v"
  | .file option => option.spelling

/-- All spellings of options, in order. -/
def spellings : List (String × Flag) :=
  [("-h", .help), ("--help", .help), ("-v", .verbose)] ++
    FileOption.all.map fun option => (option.spelling, .file option)

/-- The option with a given spelling. -/
def ofSpelling? (text : String) : Option Flag := spellings.lookup text

end Flag

namespace UsageProblem

/-- What is wrong. -/
def message : UsageProblem → String
  | .ambiguous argument options =>
    "ambiguous option: " ++ argument ++ " could match " ++ ", ".intercalate options
  | .ignoredValue flag value =>
    "argument " ++ flag.spelling ++ ": ignored explicit argument " ++ Text.display value
  | .missingValue option => "argument " ++ option.spelling ++ ": expected one argument"
  | .conflict option earlier =>
    "argument " ++ option.spelling ++ ": not allowed with argument " ++ earlier.spelling
  | .unrecognized arguments => "unrecognized arguments: " ++ " ".intercalate arguments
  | .noProgram => "missing program file; or use --tokens/--pretty/--emit-ast/--ast"

end UsageProblem

/-! ## Sorting -/

/-- An argument as it is sorted. -/
inductive Piece where
  /-- an option, and the value behind an equals sign in the same argument -/
  | option (flag : Flag) (value : Option String)
  /-- an option of one letter, and the letters behind it in the same argument -/
  | letters (flag : Flag) (rest : List Char)
  /-- an option that does not exist -/
  | unknown (argument : String)
  /-- anything else -/
  | other (argument : String)
  /-- the separator behind which nothing is an option -/
  | separator
  deriving DecidableEq, Repr, Inhabited

namespace Piece

/-- Cuts a text at its first equals sign. -/
def splitValue (text : List Char) : List Char × Option (List Char) :=
  match text.dropWhile (· != '=') with
  | [] => (text, none)
  | _ :: value => (text.takeWhile (· != '='), some value)

/-- The options that a long name, cut or not, may stand for. -/
def longMatches (start : List Char) : List (String × Flag) :=
  Flag.spellings.filter fun entry => start.isPrefixOf entry.1.toList

/-- Whether nothing follows but a line break that there may be. -/
def endsLine (text : List Char) : Bool := text = [] || text = ['\n']

/-- Whether an argument is a negative number: digits, or digits behind a point.  A line break may
follow it. -/
def isNegativeNumber : List Char → Bool
  | '-' :: rest =>
    let isDigit (c : Char) : Bool := (Text.digitValue? c).isSome
    match rest.dropWhile isDigit with
    | '.' :: places =>
      !(places.takeWhile isDigit).isEmpty && endsLine (places.dropWhile isDigit)
    | behind => !(rest.takeWhile isDigit).isEmpty && endsLine behind
  | _ => false

/-- An option and the value behind its equals sign.  Behind an option of one letter a value is read
as more letters, as if there were no equals sign. -/
def withValue (name : List Char) (flag : Flag) (value : List Char) : Piece :=
  match name, value with
  | ['-', _], letter :: rest => .letters flag (letter :: rest)
  | _, _ => .option flag (some (String.ofList value))

/-- Sorts an argument that starts with a dash and is no exact option. -/
def ofDashed (argument : String) : Except UsageProblem Piece :=
  let chars := argument.toList
  let (name, value) := splitValue chars
  let whole? : Option Piece := do
    let value ← value
    let flag ← Flag.ofSpelling? (String.ofList name)
    some (withValue name flag value)
  let remaining : Piece :=
    if isNegativeNumber chars || chars.contains ' ' then .other argument else .unknown argument
  match whole?, chars with
  | some piece, _ => .ok piece
  | none, '-' :: '-' :: _ =>
    match longMatches name with
    | [] => .ok remaining
    | [(_, flag)] => .ok (.option flag (value.map String.ofList))
    | several => .error (.ambiguous argument (several.map (·.1)))
  | none, '-' :: letter :: tail =>
    match Flag.ofSpelling? (String.ofList ['-', letter]) with
    | some flag => .ok (.letters flag tail)
    | none => .ok remaining
  | none, _ => .ok remaining

/-- Sorts an argument in front of the separator. -/
def ofArgument (argument : String) : Except UsageProblem Piece :=
  match Flag.ofSpelling? argument, argument.toList with
  | some flag, _ => .ok (.option flag none)
  | none, '-' :: _ :: _ => ofDashed argument
  | none, _ => .ok (.other argument)

/-- Sorts arguments. -/
def sort : List String → Except UsageProblem (List Piece)
  | [] => .ok []
  | argument :: rest =>
    if argument = "--" then .ok (.separator :: rest.map .other)
    else do
      let piece ← ofArgument argument
      let pieces ← sort rest
      .ok (piece :: pieces)

end Piece

/-! ## Taking -/

/-- What the arguments of a command say. -/
structure Arguments where
  verbosity : Nat := 0
  /-- the files of options, the latest one first -/
  files : List (FileOption × String) := []
  program : Option String := none
  /-- whether a program file is no longer looked for -/
  settled : Bool := false
  unrecognized : List String := []
  help : Bool := false
  deriving DecidableEq, Repr, Inhabited

namespace Arguments

/-- The file that a value names; the separator names none. -/
def fileOf (value : String) : String := if value = "--" then "" else value

/-- Gives an option the file that its value names. -/
def takeFile (arguments : Arguments) (option : FileOption) (value : String) :
    Except UsageProblem Arguments :=
  match FileOption.all.find? fun other => other != option && arguments.files.any (·.1 == other) with
  | some earlier => .error (.conflict option earlier)
  | none => .ok { arguments with files := (option, fileOf value) :: arguments.files }

/-- Takes an option that has no file. -/
def takeFlag (arguments : Arguments) : Flag → Arguments
  | .help => { arguments with help := true }
  | .verbose => { arguments with verbosity := arguments.verbosity + 1 }
  | .file _ => arguments

/-- Takes what is left unrecognized. -/
def leave (arguments : Arguments) (argument : String) : Arguments :=
  { arguments with unrecognized := arguments.unrecognized ++ [argument] }

/-- Takes an option and the letters behind it, all of which have to be options too. -/
def takeLetters (arguments : Arguments) (flag : Flag) : List Char → Except UsageProblem Arguments
  | [] => .ok (arguments.takeFlag flag)
  | letter :: rest =>
    match Flag.ofSpelling? (String.ofList ['-', letter]) with
    | some next => (arguments.takeFlag flag).takeLetters next rest
    | none => .error (.ignoredValue flag (String.ofList (letter :: rest)))

/-- Takes an argument that is no option: the program file, if there is none yet. -/
def takeOther (arguments : Arguments) (argument : String) : Arguments :=
  if arguments.settled then arguments.leave argument
  else { arguments with program := some argument, settled := true }

/-- Takes pieces in order. -/
def take (arguments : Arguments) : List Piece → Except UsageProblem Arguments
  | [] => .ok arguments
  | .unknown argument :: rest => (arguments.leave argument).take rest
  | .option (.file option) (some value) :: rest => do
    let arguments ← arguments.takeFile option value
    arguments.take rest
  | .option (.file option) none :: .other value :: rest => do
    let arguments ← arguments.takeFile option value
    arguments.take rest
  | .option (.file option) none :: _ => .error (.missingValue option)
  | .option flag none :: rest => (arguments.takeFlag flag).take rest
  | .option flag (some value) :: _ => .error (.ignoredValue flag value)
  | .letters flag letters :: rest => do
    let arguments ← arguments.takeLetters flag letters
    arguments.take rest
  | .other argument :: .separator :: rest =>
    -- a separator right behind the program file goes with it
    if arguments.settled then ((arguments.leave argument).leave "--").take rest
    else (arguments.takeOther argument).take rest
  | .other argument :: rest => (arguments.takeOther argument).take rest
  | .separator :: rest =>
    if arguments.settled then (arguments.leave "--").take rest
    else arguments.take rest

/-- Reads the arguments of a command. -/
def read (arguments : List String) : Except UsageProblem Arguments := do
  let pieces ← Piece.sort arguments
  let result ← ({} : Arguments).take pieces
  if result.unrecognized.isEmpty || result.help then .ok result
  else .error (.unrecognized result.unrecognized)

end Arguments

end ScopeScript
