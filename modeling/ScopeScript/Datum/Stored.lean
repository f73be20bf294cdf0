import ScopeScript.Datum.Basic
import ScopeScript.Error
import ScopeScript.Json.Basic
import ScopeScript.Number.Reading
set_option autoImplicit false

/-!
# Datum: stored trees

A tree is stored as a JSON document: every node is an object that names its kind and has a member
for every field, tuples are arrays, and no node is `null`.  Numbers are stored as their text, so no
digit is lost.

Loading is generous.  Fields that have a default may be left out, members that are no fields do not
count, and a field may hold any document.  Only literals are looked at closely: each names its type,
and its value is made one of that type.
-/

namespace ScopeScript

namespace NodeKind

/-- The default of a field that may be left out. -/
def default? : NodeKind → String → Option Datum
  | .block, "statements" => some (.tuple [])
  | .returnStmt, "value" => some .nothing
  | .ifStmt, "else_block" => some .nothing
  | .identifier, "properties" => some (.tuple [])
  | .call, "args" => some (.tuple [])
  | _, _ => none

end NodeKind

namespace Datum

/-! ## Storing -/

/-- The document of a literal. -/
def literalObject (literalType : String) (value : Json) : Json :=
  .object [("type", .string "Literal"), ("value", value), ("literal_type", .string literalType)]

mutual

/-- The document of a datum. -/
def store : Datum → Json
  | .nothing => .null
  | .boolean value => .bool value
  | .integer value => .integer value
  | .float value => .float value
  | .number value => .string value.fixed
  | .text value => .string value
  | .tuple items => .array (storeAll items)
  | .literal (.boolean value) => literalObject "Boolean" (.bool value)
  | .literal (.number value) => literalObject "Number" (.string value.fixed)
  | .literal value => literalObject "String" (store value)
  | .record kind fields =>
    .object (("type", .string kind.label) :: kind.fieldNames.zip (storeAll fields))

/-- The documents of several data. -/
def storeAll : List Datum → List Json
  | [] => []
  | item :: rest => store item :: storeAll rest

end

/-! ## Numbers -/

/-- The integer that a document stands for; truth values count as `0` and `1`. -/
def integerOf? : Json → Option Int
  | .integer value => some value
  | .bool value => some value.toInt
  | _ => none

/-- An integer of 64 bits. -/
def wordOf (n : Int) : Except Error Int :=
  if -0x8000000000000000 ≤ n ∧ n < 0x8000000000000000 then .ok n else .error .outOfRange

/-- The sign in front of a number that is given by its parts: `0` or `1`. -/
def signOf (document : Json) : Except Error String := do
  let some n := integerOf? document | .error .wrongValue
  match ← wordOf n with
  | 0 => .ok ""
  | 1 => .ok "-"
  | _ => .error .wrongValue

/-- The digits of a number that is given by its parts. -/
def digitsOf : List Json → Except Error (List Char)
  | [] => .ok []
  | document :: rest => do
    let some n := integerOf? document | .error .wrongValue
    let n ← wordOf n
    if 0 ≤ n ∧ n ≤ 9 then
      let digits ← digitsOf rest
      .ok (Nat.digitChar n.toNat :: digits)
    else .error .wrongValue

/-- What stands for the exponent of a number that is given by its parts: an exponent, or a letter
for one of the special values. -/
inductive Scale where
  | power (exponent : Int)
  | infinity
  | nan (signaling : Bool)
  deriving DecidableEq, Repr, Inhabited

/-- The exponent of a number that is given by its parts. -/
def scaleOf : Json → Except Error Scale
  | .string letter =>
    if letter = "F" then .ok .infinity
    else if letter = "n" then .ok (.nan false)
    else if letter = "N" then .ok (.nan true)
    else .error .wrongValue
  | document => do
    let some n := integerOf? document | .error .wrongValue
    let n ← wordOf n
    .ok (.power n)

/-- The text of the number with a sign, digits and an exponent. -/
def partsText (sign : String) (digits : List Char) : Scale → String
  | .power exponent =>
    sign ++ String.ofList (if digits.isEmpty then ['0'] else digits) ++ "E" ++ toString exponent
  | .infinity => sign ++ "Infinity"
  | .nan signaling => sign ++ (if signaling then "sNaN" else "NaN") ++ String.ofList digits

/-- The number that a text stands for. -/
def numberOfText (text : String) : Except Error Number :=
  match Number.read? text with
  | some n => .ok n
  | none => .error .notNumber

/-- The number that a document stands for: a text, a number, a truth value, or an array of a sign,
an array of digits and an exponent. -/
def numberOf : Json → Except Error Number
  | .string numeral => numberOfText numeral
  | .integer n => .ok (.finite (.ofInt n))
  | .bool b => .ok (.finite (.ofInt b.toInt))
  | .float x => .ok x.toNumber
  | .array [sign, digits, exponent] => do
    let sign ← signOf sign
    let scale ← scaleOf exponent
    let .array digits := digits | .error .wrongValue
    let digits ← digitsOf digits
    numberOfText (partsText sign digits scale)
  | .array _ => .error .wrongValue
  | .null | .object _ => .error .wrongShape

/-! ## Loading -/

/-- Loads a literal. -/
def loadLiteral (members : List (String × Json)) : Except Error Datum := do
  let some literalType := members.lookup "literal_type" | .error .missingEntry
  let name := match literalType with
    | .string name => some name
    | _ => none
  if name = some "Number" then
    let some value := members.lookup "value" | .error .missingEntry
    let number ← numberOf value
    if number.isFinite then .ok (.literal (.number number)) else .error (.notFinite value.asText)
  else if name = some "String" then
    let some value := members.lookup "value" | .error .missingEntry
    .ok (.literal (.text value.asText))
  else if name = some "Boolean" then
    let some value := members.lookup "value" | .error .missingEntry
    .ok (.literal (.boolean value.isTrue))
  else .error (.unknownLiteral literalType.asText)

/-- The fields of a node of a kind among the loaded members of its document, in order; `none` stands
for one that is left out and has no default. -/
def pickFields (kind : NodeKind) (loaded : List (String × Except Error Datum)) :
    List String → Except Error (List (Option Datum))
  | [] => .ok []
  | name :: rest => do
    let field ← match loaded.lookup name with
      | some result => some <$> result
      | none => .ok (kind.default? name)
    let fields ← pickFields kind loaded rest
    .ok (field :: fields)

/-- All of a list of things, if none is missing. -/
def complete? {α : Type} : List (Option α) → Option (List α)
  | [] => some []
  | none :: _ => none
  | some a :: rest => (complete? rest).map (a :: ·)

/-- Loads a node of a kind from the loaded members of its document. -/
def loadFields (kind : NodeKind) (loaded : List (String × Except Error Datum)) :
    Except Error Datum := do
  match complete? (← pickFields kind loaded kind.fieldNames) with
  | some fields => .ok (.record kind fields)
  | none => .error .wrongShape

/-- Loads the document of a node; `loaded` holds its members as fields. -/
def loadObject (members : List (String × Json)) (loaded : List (String × Except Error Datum)) :
    Except Error Datum :=
  match members.lookup "type" with
  | some (.string label) =>
    if label = "Literal" then loadLiteral members
    else
      match NodeKind.ofLabel? label with
      | some kind => loadFields kind loaded
      | none => .error (.unknownNode label)
  | some (.array _) | some (.object _) => .error .wrongShape
  | some other => .error (.unknownNode other.asText)
  | none => .error (.unknownNode (Json.asText .null))

mutual

/-- Loads the document in a field. -/
def load : Json → Except Error Datum
  | .null => .ok .nothing
  | .bool value => .ok (.boolean value)
  | .integer value => .ok (.integer value)
  | .float value => .ok (.float value)
  | .string value => .ok (.text value)
  | .array items => do
    let items ← loadItems items
    .ok (.tuple items)
  | .object members => loadObject members (loadMembers members)

/-- Loads the items of an array. -/
def loadItems : List Json → Except Error (List Datum)
  | [] => .ok []
  | item :: rest => do
    let datum ← load item
    let data ← loadItems rest
    .ok (datum :: data)

/-- Loads every member of an object as a field. -/
def loadMembers : List (String × Json) → List (String × Except Error Datum)
  | [] => []
  | (name, value) :: rest => (name, load value) :: loadMembers rest

end

end Datum

end ScopeScript
