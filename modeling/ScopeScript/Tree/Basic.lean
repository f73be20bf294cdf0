import ScopeScript.Value
set_option autoImplicit false

/-!
# Tree: syntax trees

The trees of scripts.  The parser only builds well-formed ones, but trees also come from stored
documents, and there a node may stand where it means nothing: a statement as an operand, a number
where a block belongs, no node at all; and names may be any data.  Such trees are kept as they are;
printing, storing and running them has its rules too.  So all nodes are of one type, and what is
well-formed is a predicate on it.
-/

namespace ScopeScript

/-- The operators with one operand. -/
inductive UnaryOp where
  | plus | minus | not
  /-- an operator that the language does not have -/
  | other (symbol : Datum)
  deriving DecidableEq, Repr, Inhabited

/-- The operators with two operands. -/
inductive BinaryOp where
  | and | or | equal | unequal | less | greater | add | subtract | multiply | divide
  /-- an operator that the language does not have -/
  | other (symbol : Datum)
  deriving DecidableEq, Repr, Inhabited

namespace UnaryOp

/-- What stands for an operator in a tree. -/
def symbol : UnaryOp → Datum
  | .plus => .text "+"
  | .minus => .text "-"
  | .not => .text "not"
  | .other symbol => symbol

/-- The operators of the language. -/
def all : List UnaryOp := [.plus, .minus, .not]

/-- The operator that a datum stands for. -/
def ofSymbol (symbol : Datum) : UnaryOp :=
  (all.find? fun op => op.symbol = symbol).getD (.other symbol)

/-- How an operator is written. -/
def spelling (op : UnaryOp) : String := op.symbol.asText

@[simp] theorem symbol_ofSymbol (symbol : Datum) : (ofSymbol symbol).symbol = symbol := by
  unfold ofSymbol
  cases h : all.find? fun op => op.symbol = symbol with
  | none => rfl
  | some op => simpa using List.find?_some h

end UnaryOp

namespace BinaryOp

/-- What stands for an operator in a tree. -/
def symbol : BinaryOp → Datum
  | .and => .text "and"
  | .or => .text "or"
  | .equal => .text "="
  | .unequal => .text "<>"
  | .less => .text "<"
  | .greater => .text ">"
  | .add => .text "+"
  | .subtract => .text "-"
  | .multiply => .text "*"
  | .divide => .text "/"
  | .other symbol => symbol

/-- The operators of the language. -/
def all : List BinaryOp :=
  [.and, .or, .equal, .unequal, .less, .greater, .add, .subtract, .multiply, .divide]

/-- The operator that a datum stands for. -/
def ofSymbol (symbol : Datum) : BinaryOp :=
  (all.find? fun op => op.symbol = symbol).getD (.other symbol)

/-- How an operator is written. -/
def spelling (op : BinaryOp) : String := op.symbol.asText

@[simp] theorem symbol_ofSymbol (symbol : Datum) : (ofSymbol symbol).symbol = symbol := by
  unfold ofSymbol
  cases h : all.find? fun op => op.symbol = symbol with
  | none => rfl
  | some op => simpa using List.find?_some h

end BinaryOp

/-- The kinds of nodes that have no fields and no meaning. -/
inductive BareKind where
  | node | statement | expr
  deriving DecidableEq, Repr, Inhabited

/-- A node of a syntax tree. -/
inductive Node where
  /-- a value -/
  | literal (value : Value)
  /-- a name, and the properties that lead on from it, a tuple of words as a rule -/
  | identifier (name : Name) (properties : Datum)
  /-- a function applied to arguments -/
  | call (name : Name) (arguments : List Node)
  | unary (op : UnaryOp) (operand : Node)
  | binary (op : BinaryOp) (left right : Node)
  /-- statements in order -/
  | block (statements : List Node)
  /-- the declaration of a constant or a variable -/
  | declaration (isConst : Bool) (name : Name) (initial : Node)
  /-- an assignment to a variable or a property -/
  | assignment (target value : Node)
  /-- the declaration of a function; the parameters are a tuple of words as a rule -/
  | function (name : Name) (params : Datum) (body : Node)
  /-- the end of a function; without a value if there is no node -/
  | giveBack (value : Node)
  /-- a call for its effects -/
  | callStatement (call : Node)
  /-- a choice between two blocks; there may be no second one -/
  | choice (condition thenBlock elseBlock : Node)
  /-- no node -/
  | absent
  /-- a node without fields -/
  | bare (kind : BareKind)
  /-- data in the place of a node, and blocks and calls that have no list of statements or
  arguments -/
  | data (datum : Datum)
  deriving Repr, Inhabited

namespace BareKind

/-- The name of a kind of nodes. -/
def label : BareKind → String
  | .node => "Node"
  | .statement => "Statement"
  | .expr => "Expr"

end BareKind

namespace Node

/-- The kind of a declaration. -/
def declarationKind (isConst : Bool) : NodeKind := if isConst then .constDecl else .varDecl

/-- What messages call a node. -/
def label : Node → String
  | .literal _ => "Literal"
  | .identifier _ _ => NodeKind.label .identifier
  | .call _ _ => NodeKind.label .call
  | .unary _ _ => NodeKind.label .unaryOp
  | .binary _ _ _ => NodeKind.label .binaryOp
  | .block _ => NodeKind.label .block
  | .declaration isConst _ _ => (declarationKind isConst).label
  | .assignment _ _ => NodeKind.label .assign
  | .function _ _ _ => NodeKind.label .funcDecl
  | .giveBack _ => NodeKind.label .returnStmt
  | .callStatement _ => NodeKind.label .callStmt
  | .choice _ _ _ => NodeKind.label .ifStmt
  | .absent => Datum.label .nothing
  | .bare kind => kind.label
  | .data datum => datum.label

/-- Whether a node is an expression. -/
def isExpression : Node → Bool
  | .literal _ | .identifier _ _ | .call _ _ | .unary _ _ | .binary _ _ _ => true
  | .bare .expr => true
  | .data (.record kind _) => kind.isExpression
  | _ => false

/-- A name and its properties, with dots between them. -/
def path (name : String) (properties : List String) : String :=
  ".".intercalate (name :: properties)

/-- The word and the properties of an identifier that is made of words. -/
def route? (name : Name) (properties : Datum) : Option (String × List String) :=
  match name, properties with
  | .text word, .tuple items => (Datum.words? items).map fun words => (word, words)
  | _, _ => none

/-- The path of an identifier that is made of words. -/
def path? (name : Name) (properties : Datum) : Option String :=
  (route? name properties).map fun (word, words) => path word words

@[simp] theorem route?_words (word : String) (words : List String) :
    route? (.text word) (.ofWords words) = some (word, words) := by
  simp [route?, Datum.ofWords]

end Node

end ScopeScript
