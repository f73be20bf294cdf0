import ScopeScript.Error
import ScopeScript.Text.Margin
set_option autoImplicit false

/-!
# Tree: printing

The source form of a tree.  Operands always stand between parentheses, so that no reader needs to
know the levels of operators, and every statement of a block stands on a line of its own, one level
of indentation further in than the block.  The level to start from may be any integer.

A literal with a minus sign is printed as the negation of its magnitude, since numerals have no
sign; the magnitude is rounded like the result of a negation in the standard context.
-/

namespace ScopeScript.Node

/-- A literal. -/
def printLiteral : Value → Except Error String
  | .number n =>
    if n.isNegative then
      match Context.standard.negate n with
      | .ok magnitude => .ok ("-(" ++ magnitude.fixed ++ ")")
      | .error signal => .error (.arithmetic signal)
    else .ok n.fixed
  | value => .ok value.render

/-- An identifier, which has to be made of words. -/
def printPath (name : Name) (properties : Datum) : Except Error String :=
  match path? name properties with
  | some path => .ok path
  | none => .error .wrongShape

/-- The name of a call, which has to be a word. -/
def printCallName (name : Name) : Except Error String :=
  match name.word? with
  | some word => .ok word
  | none => .error .wrongShape

/-- The parameters of a function, which have to be words. -/
def printParams (params : Datum) : Except Error String :=
  match params.items?.bind Datum.words? with
  | some words => .ok (", ".intercalate words)
  | none => .error .wrongShape

/-- What is printed of a field that should hold a list of nodes and does not: nothing, if it has no
items.  The items it may have are no nodes. -/
def printNone (field : Datum) : Except Error String :=
  match field.items? with
  | some [] => .ok ""
  | some (item :: _) => .error (.notPrintable item.label)
  | none => .error .wrongShape

/-- Data in the place of a node. -/
def printData : Datum → Except Error String
  | .record .block [statements] => printNone statements
  | .record .call [name, arguments] => do
    let name ← printCallName name
    let arguments ← printNone arguments
    .ok (name ++ "(" ++ arguments ++ ")")
  | datum => .error (.notPrintable datum.label)

/-- The target of an assignment. -/
def printTarget : Node → Except Error String
  | .identifier name properties => printPath name properties
  | _ => .error .missingPart

/-- What stands in front of the operand of an operator. -/
def printLead (op : UnaryOp) : Except Error String :=
  match op with
  | .not => .ok "not ("
  | _ =>
    match op.symbol.word? with
    | some word => .ok (word ++ "(")
    | none => .error .wrongShape

/-- The keyword of a declaration. -/
def declarationKeyword (isConst : Bool) : Keyword := if isConst then .const else .var

mutual

/-- A node, for a place at indentation `level`; its first line gets no indentation. -/
def print (level : Int) : Node → Except Error String
  | .block statements => printLines level statements
  | .declaration isConst name initial => do
    let value ← print level initial
    .ok ((declarationKeyword isConst).spelling ++ " " ++ name.asText ++ " = " ++ value)
  | .assignment target value => do
    let target ← printTarget target
    let value ← print level value
    .ok ("set " ++ target ++ " = " ++ value)
  | .function name params body => do
    let params ← printParams params
    let body ← printBody (level + 1) body
    .ok ("func " ++ name.asText ++ "(" ++ params ++ ") \x7b\n" ++ body ++
      Text.margin level ++ "\x7d")
  | .giveBack .absent => .ok "return"
  | .giveBack value => do
    let value ← print level value
    .ok ("return " ++ value)
  | .callStatement inner => print level inner
  | .choice condition thenBlock elseBlock => do
    let condition ← print level condition
    let thenPart ← printBody (level + 1) thenBlock
    let elsePart ← printElse level elseBlock
    .ok ("if " ++ condition ++ " then\n" ++ thenPart ++ elsePart ++ Text.margin level ++ "end")
  | .literal value => printLiteral value
  | .identifier name properties => printPath name properties
  | .call name arguments => do
    let name ← printCallName name
    let arguments ← printAll level arguments
    .ok (name ++ "(" ++ ", ".intercalate arguments ++ ")")
  | .unary op operand => do
    let lead ← printLead op
    let operand ← print level operand
    .ok (lead ++ operand ++ ")")
  | .binary op left right => do
    let left ← print level left
    let right ← print level right
    .ok ("(" ++ left ++ ") " ++ op.spelling ++ " (" ++ right ++ ")")
  | .data datum => printData datum
  | node => .error (.notPrintable node.label)

/-- The lines of a block that stands inside a statement. -/
def printBody (level : Int) : Node → Except Error String
  | .block statements => printLines level statements
  | .data (.record .block [statements]) => printNone statements
  | _ => .error .missingPart

/-- The second block of a choice with its keyword, if there is one. -/
def printElse (level : Int) : Node → Except Error String
  | .absent => .ok ""
  | .block statements => do
    let lines ← printLines (level + 1) statements
    .ok (Text.margin level ++ "else\n" ++ lines)
  | .data (.record .block [statements]) => do
    let lines ← printNone statements
    .ok (Text.margin level ++ "else\n" ++ lines)
  | _ => .error .missingPart

/-- Statements, each on a line of its own. -/
def printLines (level : Int) : List Node → Except Error String
  | [] => .ok ""
  | statement :: rest => do
    let line ← print level statement
    let lines ← printLines level rest
    .ok (Text.margin level ++ line ++ "\n" ++ lines)

/-- Several nodes. -/
def printAll (level : Int) : List Node → Except Error (List String)
  | [] => .ok []
  | node :: rest => do
    let text ← print level node
    let texts ← printAll level rest
    .ok (text :: texts)

end

end ScopeScript.Node
