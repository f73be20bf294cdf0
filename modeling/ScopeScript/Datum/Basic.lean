import ScopeScript.Number.Binary64
import ScopeScript.Number.Text
import ScopeScript.Text.Escaped
set_option autoImplicit false

/-!
# Datum: trees before they have a meaning

A stored tree is data first: scalars, tuples, literals, and nodes of a kind with whatever stands in
their fields.  Most fields are asked for something in particular, a word or a tuple of words, but a
document may hold any data there.  Such a tree is still a tree, and what does not depend on the
field works on it.

Words are the names that scripts use.  Since a tree may use any datum in the place of a name, so may
a scope (`ScopeScript.Datum.Key` says which data are the same name).
-/

namespace ScopeScript

/-- The kinds of nodes that have fields. -/
inductive NodeKind where
  | block | constDecl | varDecl | assign | funcDecl | returnStmt | callStmt | ifStmt
  | identifier | call | unaryOp | binaryOp
  deriving DecidableEq, Repr, Inhabited

namespace NodeKind

/-- The name of a kind of nodes. -/
def label : NodeKind → String
  | .block => "Block"
  | .constDecl => "ConstDecl"
  | .varDecl => "VarDecl"
  | .assign => "Assign"
  | .funcDecl => "FuncDecl"
  | .returnStmt => "ReturnStmt"
  | .callStmt => "CallStmt"
  | .ifStmt => "IfStmt"
  | .identifier => "Identifier"
  | .call => "Call"
  | .unaryOp => "UnaryOp"
  | .binaryOp => "BinaryOp"

/-- All kinds of nodes that have fields. -/
def all : List NodeKind :=
  [.block, .constDecl, .varDecl, .assign, .funcDecl, .returnStmt, .callStmt, .ifStmt,
   .identifier, .call, .unaryOp, .binaryOp]

/-- The kind with a given name. -/
def ofLabel? (text : String) : Option NodeKind := all.find? fun kind => kind.label = text

@[simp] theorem ofLabel?_label (kind : NodeKind) : ofLabel? kind.label = some kind := by
  cases kind <;> decide

/-- The names of the fields of a kind of nodes, in order. -/
def fieldNames : NodeKind → List String
  | .block => ["statements"]
  | .constDecl | .varDecl => ["name", "expr"]
  | .assign => ["target", "value"]
  | .funcDecl => ["name", "params", "body"]
  | .returnStmt => ["value"]
  | .callStmt => ["call"]
  | .ifStmt => ["condition", "then_block", "else_block"]
  | .identifier => ["name", "properties"]
  | .call => ["name", "args"]
  | .unaryOp => ["op", "operand"]
  | .binaryOp => ["op", "left", "right"]

/-- Whether nodes of the kind are expressions. -/
def isExpression : NodeKind → Bool
  | .identifier | .call | .unaryOp | .binaryOp => true
  | _ => false

end NodeKind

/-- A tree as data. -/
inductive Datum where
  /-- no node -/
  | nothing
  | boolean (value : Bool)
  | integer (value : Int)
  | float (value : Binary64)
  /-- a decimal number, the value of a number literal -/
  | number (value : Number)
  | text (value : String)
  | tuple (items : List Datum)
  /-- a literal with its value: a boolean, a number or a text -/
  | literal (value : Datum)
  /-- a node with its fields in order -/
  | record (kind : NodeKind) (fields : List Datum)
  deriving Repr, Inhabited

/-- A name.  Scripts use words; a stored tree may use any datum. -/
abbrev Name : Type := Datum

namespace Datum

/-! ## Equality -/

mutual

/-- Whether two data are the same in every detail. -/
def same : Datum → Datum → Bool
  | .nothing, .nothing => true
  | .boolean a, .boolean b => a == b
  | .integer a, .integer b => a == b
  | .float a, .float b => a == b
  | .number a, .number b => a == b
  | .text a, .text b => a == b
  | .tuple as, .tuple bs => sameAll as bs
  | .literal a, .literal b => same a b
  | .record kind as, .record kind' bs => kind == kind' && sameAll as bs
  | _, _ => false

/-- Whether two lists hold the same data in every detail. -/
def sameAll : List Datum → List Datum → Bool
  | [], [] => true
  | a :: as, b :: bs => same a b && sameAll as bs
  | _, _ => false

end

mutual

theorem same_self (a : Datum) : same a a = true := by
  cases a with
  | tuple items => simpa [same] using sameAll_self items
  | literal value => simpa [same] using same_self value
  | record kind fields => simpa [same] using sameAll_self fields
  | _ => simp [same]

theorem sameAll_self (as : List Datum) : sameAll as as = true := by
  cases as with
  | nil => rfl
  | cons a rest => simp [sameAll, same_self a, sameAll_self rest]

end

mutual

theorem eq_of_same (a b : Datum) (h : same a b = true) : a = b := by
  cases a with
  | tuple items =>
    cases b with
    | tuple others =>
      simp only [same] at h
      rw [eq_of_sameAll items others h]
    | _ => simp [same] at h
  | literal value =>
    cases b with
    | literal other =>
      simp only [same] at h
      rw [eq_of_same value other h]
    | _ => simp [same] at h
  | record kind fields =>
    cases b with
    | record kind' others =>
      simp only [same, Bool.and_eq_true, beq_iff_eq] at h
      rw [h.1, eq_of_sameAll fields others h.2]
    | _ => simp [same] at h
  | _ => cases b <;> simp_all [same]

theorem eq_of_sameAll (as bs : List Datum) (h : sameAll as bs = true) : as = bs := by
  cases as with
  | nil =>
    cases bs with
    | nil => rfl
    | cons b rest => simp [sameAll] at h
  | cons a rest =>
    cases bs with
    | nil => simp [sameAll] at h
    | cons b others =>
      simp only [sameAll, Bool.and_eq_true] at h
      rw [eq_of_same a b h.1, eq_of_sameAll rest others h.2]

end

instance : DecidableEq Datum := fun a b =>
  decidable_of_iff (same a b = true) ⟨eq_of_same a b, fun h => h ▸ same_self a⟩

/-! ## Shape -/

/-- What messages call a datum. -/
def label : Datum → String
  | .nothing => "NoneType"
  | .boolean _ => "bool"
  | .integer _ => "int"
  | .float _ => "float"
  | .number _ => "Decimal"
  | .text _ => "str"
  | .tuple _ => "tuple"
  | .literal _ => "Literal"
  | .record kind _ => kind.label

/-- Whether nothing stands in a field: no node, `false`, a zero, or something empty. -/
def isVoid : Datum → Bool
  | .nothing => true
  | .boolean value => !value
  | .integer value => value == 0
  | .float value => value.isZero
  | .number value => value.isZero
  | .text value => value.isEmpty
  | .tuple items => items.isEmpty
  | .literal _ | .record _ _ => false

/-- The items of a datum that has some: those of a tuple, or the characters of a text. -/
def items? : Datum → Option (List Datum)
  | .tuple items => some items
  | .text value => some (value.toList.map fun c => .text (String.singleton c))
  | _ => none

/-- The word that a datum is. -/
def word? : Datum → Option String
  | .text value => some value
  | _ => none

/-- The words in a list of data, if it holds nothing else. -/
def words? : List Datum → Option (List String)
  | [] => some []
  | item :: rest => do
    let word ← item.word?
    let words ← words? rest
    some (word :: words)

/-- A tuple of words. -/
def ofWords (words : List String) : Datum := .tuple (words.map .text)

/-- Something stands in a field that holds words. -/
theorem isVoid_ofWords {words : List String} (some_ : words ≠ []) :
    (ofWords words).isVoid = false := by
  cases words with
  | nil => exact absurd rfl some_
  | cons first rest => rfl

@[simp] theorem words?_map_text (words : List String) :
    words? (words.map .text) = some words := by
  induction words with
  | nil => rfl
  | cons word rest ih => simp [words?, word?, ih]

/-! ## Display -/

/-- Displayed items between parentheses; a comma follows a single one. -/
def displayTuple : List String → String
  | [item] => "(" ++ item ++ ",)"
  | items => "(" ++ ", ".intercalate items ++ ")"

mutual

/-- A datum as messages show it inside another one: texts are quoted. -/
def display : Datum → String
  | .nothing => "None"
  | .boolean value => if value then "True" else "False"
  | .integer value => toString value
  | .float value => value.text
  | .number value => "Decimal('" ++ value.scientific ++ "')"
  | .text value => Text.display value
  | .tuple items => displayTuple (displayAll items)
  | .literal value => "Literal(value=" ++ display value ++ ")"
  | .record kind fields =>
    let shown := (kind.fieldNames.zip (displayAll fields)).map fun (name, field) =>
      name ++ "=" ++ field
    kind.label ++ "(" ++ ", ".intercalate shown ++ ")"

/-- Several data as messages show them inside another one. -/
def displayAll : List Datum → List String
  | [] => []
  | item :: rest => display item :: displayAll rest

end

/-- A datum as messages show it by itself: a text stands for itself. -/
def asText : Datum → String
  | .text value => value
  | other => other.display

end Datum

end ScopeScript
