import ScopeScript.Entries
set_option autoImplicit false

/-!
# CommandLine: paths and folders

A path is a sequence of names.  Empty names and single dots in a written path do not count; two dots
lead out of a directory and are kept, since where they lead depends on the directory.

A folder is a directory with everything in it, as far as a command can see: files by their path from
the folder, and a text in each that is one.
-/

namespace ScopeScript

/-- A path: whether it starts at the root, and its names. -/
structure Path where
  /-- what stands in front of the names: nothing, one slash or two -/
  root : String
  names : List String
  deriving DecidableEq, Repr, Inhabited

namespace Path

/-- The part in front of the names of a written path. -/
def rootOf : List Char → String
  | '/' :: '/' :: '/' :: _ => "/"
  | '/' :: '/' :: _ => "//"
  | '/' :: _ => "/"
  | _ => ""

/-- Cuts a text at its slashes. -/
def splitSlashes : List Char → List (List Char)
  | [] => [[]]
  | c :: rest =>
    match splitSlashes rest with
    | [] => [[c]]
    | name :: names => if c = '/' then [] :: name :: names else (c :: name) :: names

/-- Reads a written path. -/
def ofString (text : String) : Path :=
  { root := rootOf text.toList
    names := ((splitSlashes text.toList).map String.ofList).filter fun name =>
      name != "" && name != "." }

/-- Writes a path. -/
def toString (path : Path) : String :=
  if path.root = "" && path.names.isEmpty then "." else path.root ++ "/".intercalate path.names

/-- The path with an ending added to its last name. -/
def addEnding (path : Path) (ending : String) : Path :=
  { path with names := path.names.dropLast ++ [path.names.getLastD "" ++ ending] }

end Path

/-- What a path leads to. -/
inductive Document where
  | missing
  | directory
  /-- a file that is no text -/
  | unreadable
  | text (content : String)
  deriving DecidableEq, Repr, Inhabited

/-- The files in a directory, by their paths from it. -/
abbrev Folder : Type := Entries String Document

namespace Folder

/-- Whether names lead to a directory with something in it. -/
def isDirectory (folder : Folder) (names : List String) : Bool :=
  names.isEmpty ||
    folder.any fun entry =>
      let parts := (Path.ofString entry.1).names
      names.isPrefixOf parts && names.length < parts.length

/-- The names that a path leads to from a directory of the folder, step by step; a step is only
possible from a directory. -/
def walk (folder : Folder) : List String → List String → Option (List String)
  | reached, [] => some reached
  | reached, ".." :: rest => if reached.isEmpty then none else folder.walk reached.dropLast rest
  | reached, name :: rest =>
    if rest.isEmpty || folder.isDirectory (reached ++ [name]) then
      folder.walk (reached ++ [name]) rest
    else none

/-- The path from the folder to the place that a written path leads to. -/
def place? (folder : Folder) (path : Path) : Option String :=
  if path.root = "" then (folder.walk [] path.names).map fun names => "/".intercalate names
  else none

/-- What a path leads to.  Nothing outside the folder is known but its directories. -/
def find (folder : Folder) (path : Path) : Document :=
  match folder.place? path with
  | none => if path.names.all (· == "..") then .directory else .missing
  | some place =>
    if folder.isDirectory (Path.ofString place).names then .directory
    else (folder.lookup place).getD .missing

/-- Writes a file. -/
def write (folder : Folder) (path : Path) (content : String) : Folder :=
  match folder.place? path with
  | some place => Entries.put folder place (.text content)
  | none => folder

end Folder

end ScopeScript
