import ScopeScript.Number.Binary64
import ScopeScript.Number.Text
import ScopeScript.Text.Escaped
set_option autoImplicit false

/-!
# Json: documents

Stored syntax trees are JSON documents.  Integers are kept apart from floating-point numbers, since
the two mean different number literals, and the members of an object keep their order.
-/

namespace ScopeScript

/-- A JSON document. -/
inductive Json where
  | null
  | bool (value : Bool)
  | integer (value : Int)
  | float (value : Binary64)
  | string (value : String)
  | array (items : List Json)
  | object (members : List (String × Json))
  deriving Repr, Inhabited

namespace Json

/-- The member of an object with a given name. -/
def member? (name : String) : Json → Option Json
  | .object members => members.lookup name
  | _ => none

/-- Whether a document counts as true where a truth value is asked for: all do but `null`, `false`,
zeros and what is empty. -/
def isTrue : Json → Bool
  | .null => false
  | .bool value => value
  | .integer value => value != 0
  | .float value => !value.isZero
  | .string value => !value.isEmpty
  | .array items => !items.isEmpty
  | .object members => !members.isEmpty

/-! ## Display

How a document reads inside a message or where a text is asked for. -/

/-- The text of an integer. -/
def integerText (n : Int) : String := toString n

mutual

/-- A document inside another one: texts are quoted. -/
def display : Json → String
  | .null => "None"
  | .bool value => if value then "True" else "False"
  | .integer value => integerText value
  | .float value => value.text
  | .string value => Text.display value
  | .array items => "[" ++ ", ".intercalate (displayItems items) ++ "]"
  | .object members => "\x7b" ++ ", ".intercalate (displayMembers members) ++ "\x7d"

/-- The items of an array, displayed. -/
def displayItems : List Json → List String
  | [] => []
  | item :: rest => display item :: displayItems rest

/-- The members of an object, displayed. -/
def displayMembers : List (String × Json) → List String
  | [] => []
  | (name, value) :: rest => (Text.display name ++ ": " ++ display value) :: displayMembers rest

end

/-- A document as a text: a string stands for itself. -/
def asText : Json → String
  | .string value => value
  | other => display other

end Json

end ScopeScript
