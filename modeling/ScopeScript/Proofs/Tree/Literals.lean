import ScopeScript.Tree.Basic
set_option autoImplicit false

/-!
# Tree: the literals of a tree

Trees that hosts build by hand may hold any value as a literal, a function among others.  Literals
are the only values that a tree holds; everything else in its nodes is names, operators and data.
-/

namespace ScopeScript.Node

mutual

/-- The values of the literals of a tree, in order. -/
def literals : Node → List Value
  | .literal value => [value]
  | .call _ arguments => literalsIn arguments
  | .unary _ operand => literals operand
  | .binary _ left right => literals left ++ literals right
  | .block statements => literalsIn statements
  | .declaration _ _ initial => literals initial
  | .assignment target value => literals target ++ literals value
  | .function _ _ body => literals body
  | .giveBack value => literals value
  | .callStatement inner => literals inner
  | .choice condition thenBlock elseBlock =>
    literals condition ++ (literals thenBlock ++ literals elseBlock)
  | .identifier _ _ | .absent | .bare _ | .data _ => []

/-- The values of the literals of several trees, in order. -/
def literalsIn : List Node → List Value
  | [] => []
  | node :: rest => literals node ++ literalsIn rest

end

/-- Every literal of a tree satisfies a condition. -/
def EveryLiteral (P : Value → Prop) (node : Node) : Prop := ∀ value ∈ node.literals, P value

/-- Every literal of several trees satisfies a condition. -/
def EveryLiteralIn (P : Value → Prop) (nodes : List Node) : Prop :=
  ∀ value ∈ literalsIn nodes, P value

variable {P : Value → Prop}

/-! ## Parts

A node with one part has the literals of that part by definition. -/

@[simp] theorem everyLiteral_literal {value : Value} :
    (Node.literal value).EveryLiteral P ↔ P value := by
  simp [EveryLiteral, literals]

@[simp] theorem everyLiteral_binary {op : BinaryOp} {left right : Node} :
    (Node.binary op left right).EveryLiteral P ↔ left.EveryLiteral P ∧ right.EveryLiteral P := by
  simp [EveryLiteral, literals, or_imp, forall_and]

@[simp] theorem everyLiteral_assignment {target value : Node} :
    (Node.assignment target value).EveryLiteral P ↔
      target.EveryLiteral P ∧ value.EveryLiteral P := by
  simp [EveryLiteral, literals, or_imp, forall_and]

@[simp] theorem everyLiteral_choice {condition thenBlock elseBlock : Node} :
    (Node.choice condition thenBlock elseBlock).EveryLiteral P ↔
      condition.EveryLiteral P ∧ thenBlock.EveryLiteral P ∧ elseBlock.EveryLiteral P := by
  simp [EveryLiteral, literals, or_imp, forall_and]

@[simp] theorem everyLiteralIn_cons {node : Node} {rest : List Node} :
    EveryLiteralIn P (node :: rest) ↔ node.EveryLiteral P ∧ EveryLiteralIn P rest := by
  simp [EveryLiteral, EveryLiteralIn, literalsIn, or_imp, forall_and]

end ScopeScript.Node
