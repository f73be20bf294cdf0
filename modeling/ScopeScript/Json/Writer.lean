import ScopeScript.Json.Basic
import ScopeScript.Text.Margin
set_option autoImplicit false

/-!
# Json: writing documents

Two layouts: everything on one line, and one member or item a line, indented by two blanks a level.
Characters outside ASCII are written as they are.
-/

namespace ScopeScript.Json

/-- A character inside a written string. -/
def writeChar (c : Char) : List Char :=
  if c = '"' then ['\\', '"']
  else if c = '\\' then ['\\', '\\']
  else if c = '\n' then ['\\', 'n']
  else if c = '\r' then ['\\', 'r']
  else if c = '\t' then ['\\', 't']
  else if c = '\x08' then ['\\', 'b']
  else if c = '\x0c' then ['\\', 'f']
  else if c.toNat < 32 then '\\' :: 'u' :: Text.hexDigits 4 c.toNat
  else [c]

/-- A written string. -/
def writeString (text : String) : String :=
  String.ofList ('"' :: (text.toList.flatMap writeChar ++ ['"']))

/-- A written floating-point number. -/
def writeFloat : Binary64 → String
  | .nan => "NaN"
  | .infinity negative => if negative then "-Infinity" else "Infinity"
  | value => value.text

mutual

/-- A document on one line. -/
def write : Json → String
  | .null => "null"
  | .bool value => if value then "true" else "false"
  | .integer value => integerText value
  | .float value => writeFloat value
  | .string value => writeString value
  | .array items => "[" ++ ", ".intercalate (writeItems items) ++ "]"
  | .object members => "\x7b" ++ ", ".intercalate (writeMembers members) ++ "\x7d"

/-- The items of an array on one line. -/
def writeItems : List Json → List String
  | [] => []
  | item :: rest => write item :: writeItems rest

/-- The members of an object on one line. -/
def writeMembers : List (String × Json) → List String
  | [] => []
  | (name, value) :: rest => (writeString name ++ ": " ++ write value) :: writeMembers rest

end

mutual

/-- A document with an item or member a line, for a document that starts at indentation `level`. -/
def writeIndented (level : Nat) : Json → String
  | .null => "null"
  | .bool value => if value then "true" else "false"
  | .integer value => integerText value
  | .float value => writeFloat value
  | .string value => writeString value
  | .array [] => "[]"
  | .array (item :: rest) =>
    "[\n" ++ Text.margin (level + 1) ++ writeIndented (level + 1) item ++
      writeIndentedItems (level + 1) rest ++ "\n" ++ Text.margin level ++ "]"
  | .object [] => "\x7b\x7d"
  | .object ((name, value) :: rest) =>
    "\x7b\n" ++ Text.margin (level + 1) ++ writeString name ++ ": " ++
      writeIndented (level + 1) value ++ writeIndentedMembers (level + 1) rest ++ "\n" ++
      Text.margin level ++ "\x7d"

/-- The items after the first one. -/
def writeIndentedItems (level : Nat) : List Json → String
  | [] => ""
  | item :: rest =>
    ",\n" ++ Text.margin level ++ writeIndented level item ++ writeIndentedItems level rest

/-- The members after the first one. -/
def writeIndentedMembers (level : Nat) : List (String × Json) → String
  | [] => ""
  | (name, value) :: rest =>
    ",\n" ++ Text.margin level ++ writeString name ++ ": " ++ writeIndented level value ++
      writeIndentedMembers level rest

end

end ScopeScript.Json
