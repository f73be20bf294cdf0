import ScopeScript.Datum.Stored
set_option autoImplicit false

/-!
# Tree: trees as data

A syntax tree gives data a meaning, and loses nothing of it: every datum is that of one tree, and
every tree but a few that hosts build by hand is that of one datum.  Trees are stored and loaded as
data.
-/

namespace ScopeScript

namespace Value

/-- The literal of a value that can be written in a script. -/
def literal? : Value → Option Datum
  | .boolean value => some (.literal (.boolean value))
  | .number value => some (.literal (.number value))
  | .text value => some (.literal (.text value))
  | _ => none

end Value

namespace Node

/-! ## Trees as data -/

mutual

/-- The data of a tree.  A node without fields has none, and neither has a literal of a host
value. -/
def toDatum : Node → Except Error Datum
  | .absent => .ok .nothing
  | .data datum => .ok datum
  | .literal value =>
    match value.literal? with
    | some datum => .ok datum
    | none => .error (.notLiteral value.hostClass.2)
  | .bare kind => .error (.notStorable kind.label)
  | .identifier name properties => .ok (.record .identifier [name, properties])
  | .call name arguments => do
    let arguments ← toData arguments
    .ok (.record .call [name, .tuple arguments])
  | .unary op operand => do
    let operand ← toDatum operand
    .ok (.record .unaryOp [op.symbol, operand])
  | .binary op left right => do
    let left ← toDatum left
    let right ← toDatum right
    .ok (.record .binaryOp [op.symbol, left, right])
  | .block statements => do
    let statements ← toData statements
    .ok (.record .block [.tuple statements])
  | .declaration isConst name initial => do
    let initial ← toDatum initial
    .ok (.record (declarationKind isConst) [name, initial])
  | .assignment target value => do
    let target ← toDatum target
    let value ← toDatum value
    .ok (.record .assign [target, value])
  | .function name params body => do
    let body ← toDatum body
    .ok (.record .funcDecl [name, params, body])
  | .giveBack value => do
    let value ← toDatum value
    .ok (.record .returnStmt [value])
  | .callStatement inner => do
    let inner ← toDatum inner
    .ok (.record .callStmt [inner])
  | .choice condition thenBlock elseBlock => do
    let condition ← toDatum condition
    let thenBlock ← toDatum thenBlock
    let elseBlock ← toDatum elseBlock
    .ok (.record .ifStmt [condition, thenBlock, elseBlock])

/-- The data of several trees. -/
def toData : List Node → Except Error (List Datum)
  | [] => .ok []
  | node :: rest => do
    let datum ← toDatum node
    let data ← toData rest
    .ok (datum :: data)

end

mutual

/-- The tree of a datum. -/
def ofDatum : Datum → Node
  | .nothing => .absent
  | .literal (.boolean value) => .literal (.boolean value)
  | .literal (.number value) => .literal (.number value)
  | .literal (.text value) => .literal (.text value)
  | .record .block [.tuple statements] => .block (ofData statements)
  | .record .constDecl [name, initial] => .declaration true name (ofDatum initial)
  | .record .varDecl [name, initial] => .declaration false name (ofDatum initial)
  | .record .assign [target, value] => .assignment (ofDatum target) (ofDatum value)
  | .record .funcDecl [name, params, body] => .function name params (ofDatum body)
  | .record .returnStmt [value] => .giveBack (ofDatum value)
  | .record .callStmt [inner] => .callStatement (ofDatum inner)
  | .record .ifStmt [condition, thenBlock, elseBlock] =>
    .choice (ofDatum condition) (ofDatum thenBlock) (ofDatum elseBlock)
  | .record .identifier [name, properties] => .identifier name properties
  | .record .call [name, .tuple arguments] => .call name (ofData arguments)
  | .record .unaryOp [op, operand] => .unary (.ofSymbol op) (ofDatum operand)
  | .record .binaryOp [op, left, right] => .binary (.ofSymbol op) (ofDatum left) (ofDatum right)
  | datum => .data datum

/-- The trees of several data. -/
def ofData : List Datum → List Node
  | [] => []
  | datum :: rest => ofDatum datum :: ofData rest

end

/-! ## Storing and loading -/

/-- Stores a tree. -/
def store (node : Node) : Except Error Json := do
  let datum ← node.toDatum
  .ok datum.store

/-- Loads a tree. -/
def load : Json → Except Error Node
  | .null => .ok .absent
  | .object members => ofDatum <$> Datum.load (.object members)
  | _ => .error .notTree

end Node

end ScopeScript
