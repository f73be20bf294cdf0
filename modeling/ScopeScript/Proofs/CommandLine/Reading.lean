import ScopeScript.CommandLine.Command
set_option autoImplicit false

/-!
# CommandLine: what command lines ask for

A command line may start with any number of `-v`, each by itself or several in one word.  They only
count; what follows them, a program or an option with its file, decides what is asked for.
-/

namespace ScopeScript

/-! ## Verbosity -/

/-- A word that asks for a log: a dash and one letter `v` or more. -/
def verboseWord (more : Nat) : String := String.ofList ('-' :: List.replicate (more + 1) 'v')

/-- How often several such words ask for a log. -/
def loudness : List Nat → Nat
  | [] => 0
  | more :: rest => more + 1 + loudness rest

/-- An argument that is taken as a file. -/
def IsFile (argument : String) : Prop := Piece.ofArgument argument = .ok (.other argument)

theorem IsFile.ne_separator {argument : String} (h : IsFile argument) : argument ≠ "--" := by
  rintro rfl
  cases h

namespace Piece

/-- How a word that asks for a log is sorted. -/
def verbose : Nat → Piece
  | 0 => .option .verbose none
  | more + 1 => .letters .verbose (List.replicate (more + 1) 'v')

theorem ofArgument_verboseWord (more : Nat) :
    ofArgument (verboseWord more) = .ok (verbose more) := by
  cases more with
  | zero => rfl
  | succ more =>
    let letters := '-' :: 'v' :: List.replicate (more + 1) 'v'
    have chars : (verboseWord (more + 1)).toList = letters := by
      simp [letters, verboseWord, List.replicate_succ]
    have unnamed : Flag.ofSpelling? (verboseWord (more + 1)) = none := by
      simp [Flag.ofSpelling?, Flag.spellings, FileOption.all, FileOption.spelling,
        ← String.toList_inj, chars, letters]
    have whole : splitValue letters = (letters, none) := by
      simp [splitValue, letters]
    rw [ofArgument, unnamed, chars]
    simp only [ofDashed, chars, whole]
    rfl

theorem sort_verbose (flags : List Nat) {words : List String} {pieces : List Piece}
    (h : sort words = .ok pieces) :
    sort (flags.map verboseWord ++ words) = .ok (flags.map verbose ++ pieces) := by
  induction flags with
  | nil => exact h
  | cons more rest ih =>
    have word : verboseWord more ≠ "--" := by
      simp [verboseWord, ← String.toList_inj, List.replicate_succ]
    rw [List.map_cons, List.cons_append, sort, if_neg word, ofArgument_verboseWord, ih]
    rfl

end Piece

namespace Arguments

theorem takeLetters_verbose (arguments : Arguments) (more : Nat) :
    arguments.takeLetters .verbose (List.replicate more 'v') =
      .ok { arguments with verbosity := arguments.verbosity + (more + 1) } := by
  induction more generalizing arguments with
  | zero => rfl
  | succ more ih =>
    have letter : Flag.ofSpelling? (String.ofList ['-', 'v']) = some .verbose := rfl
    rw [List.replicate_succ, takeLetters, letter]
    simp only [ih, takeFlag]
    simp [Nat.add_assoc, Nat.add_comm 1]

theorem take_piece (arguments : Arguments) (more : Nat) (pieces : List Piece) :
    arguments.take (Piece.verbose more :: pieces) =
      take { arguments with verbosity := arguments.verbosity + (more + 1) } pieces := by
  cases more with
  | zero => simp [Piece.verbose, take, takeFlag]
  | succ more =>
    rw [Piece.verbose, take, takeLetters_verbose]
    rfl

theorem take_verbose (arguments : Arguments) (flags : List Nat) (pieces : List Piece) :
    arguments.take (flags.map Piece.verbose ++ pieces) =
      take { arguments with verbosity := arguments.verbosity + loudness flags } pieces := by
  induction flags generalizing arguments with
  | nil => rfl
  | cons more rest ih =>
    rw [List.map_cons, List.cons_append, take_piece, ih]
    simp [loudness, Nat.add_assoc]

end Arguments

namespace Command

theorem read_of_arguments {words : List String} {arguments : Arguments} {command : Command}
    (h : Arguments.read words = .ok arguments) (noHelp : arguments.help = false)
    (asked : ofArguments arguments = .ok command) : read words = .ok (.command command) := by
  simp only [read, h, bind, Except.bind, noHelp, asked]
  rfl

theorem read_program (flags : List Nat) {file : String} (isFile : IsFile file)
    (some_ : file ≠ "") :
    read (flags.map verboseWord ++ [file]) = .ok (.command ⟨.run, file, loudness flags⟩) := by
  have sorted : Piece.sort [file] = .ok [.other file] := by
    rw [Piece.sort, if_neg isFile.ne_separator, isFile]
    rfl
  have arguments : Arguments.read (flags.map verboseWord ++ [file]) =
      .ok { verbosity := loudness flags, program := some file, settled := true } := by
    rw [Arguments.read, Piece.sort_verbose flags sorted]
    simp [bind, Except.bind, Arguments.take_verbose, Arguments.take, Arguments.takeOther]
  have asked : ofArguments { verbosity := loudness flags, program := some file, settled := true } =
      .ok ⟨.run, file, loudness flags⟩ := by
    simp [ofArguments, some_, FileOption.all]
  exact read_of_arguments arguments rfl asked

theorem read_option (flags : List Nat) (option : FileOption) {file : String}
    (isFile : IsFile file) (some_ : file ≠ "") :
    read (flags.map verboseWord ++ [option.spelling, file]) =
      .ok (.command ⟨option.action, file, loudness flags⟩) := by
  have named : option.spelling ≠ "--" := by cases option <;> decide
  have spelled : Piece.ofArgument option.spelling = .ok (.option (.file option) none) := by
    cases option <;> rfl
  have sorted : Piece.sort [option.spelling, file] =
      .ok [.option (.file option) none, .other file] := by
    rw [Piece.sort, if_neg named, spelled, Piece.sort, if_neg isFile.ne_separator, isFile]
    rfl
  have arguments : Arguments.read (flags.map verboseWord ++ [option.spelling, file]) =
      .ok { verbosity := loudness flags, files := [(option, file)] } := by
    rw [Arguments.read, Piece.sort_verbose flags sorted]
    simp [bind, Except.bind, Arguments.take_verbose, Arguments.take, Arguments.takeFile,
      Arguments.fileOf, isFile.ne_separator, FileOption.all]
  have asked : ofArguments { verbosity := loudness flags, files := [(option, file)] } =
      .ok ⟨option.action, file, loudness flags⟩ := by
    cases option <;>
      simp [ofArguments, some_, FileOption.all, FileOption.action, Entries.lookup_cons]
  exact read_of_arguments arguments rfl asked

end Command

end ScopeScript
