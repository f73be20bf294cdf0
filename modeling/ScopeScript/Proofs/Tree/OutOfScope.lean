import ScopeScript.Scope
set_option autoImplicit false

/-!
# Tree: names that are out of scope

A use of a name is in scope if a block around it declares the name: the script itself, the body of a
function, of which the parameters are part, or a branch of a choice.  Where in the block the
declaration stands does not matter.  All other uses are out of scope, and `Node.redirect` turns them
into uses of another name.

A block that stands among the statements of another one has no scope of its own, so what it declares
belongs to the one around it.
-/

namespace ScopeScript

namespace Node

mutual

/-- Whether a statement declares a word in the block that it stands in. -/
def declares (word : String) : Node → Bool
  | .declaration _ name _ => name == .text word
  | .function name _ _ => name == .text word
  | .block statements => anyDeclares word statements
  | _ => false

/-- Whether one of several statements declares a word in the block that they stand in. -/
def anyDeclares (word : String) : List Node → Bool
  | [] => false
  | node :: rest => declares word node || anyDeclares word rest

end

end Node

/-- Whether a function declares a word: as a parameter or in its body. -/
def Code.declares (word : String) (code : Code) : Bool :=
  code.parameters.contains (.text word) || code.body.declares word

namespace Node

/-- The name that a use of `name` refers to: `z` in the place of `x`, unless `x` is declared. -/
def redirectName (x z : String) (declared : Bool) (name : Name) : Name :=
  if declared = false ∧ name = .text x then .text z else name

mutual

/-- The tree with `z` in the place of `x` wherever a use of `x` is out of scope; `declared` tells
whether a block around the tree declares `x`. -/
def redirect (x z : String) (declared : Bool) : Node → Node
  | .literal value => .literal value
  | .identifier name properties => .identifier (redirectName x z declared name) properties
  | .call name arguments =>
    .call (redirectName x z declared name) (redirectAll x z declared arguments)
  | .unary op operand => .unary op (redirect x z declared operand)
  | .binary op left right => .binary op (redirect x z declared left) (redirect x z declared right)
  | .block statements => .block (redirectAll x z declared statements)
  | .declaration isConst name initial => .declaration isConst name (redirect x z declared initial)
  | .assignment target value =>
    .assignment (redirect x z declared target) (redirect x z declared value)
  | .function name params body =>
    .function name params (redirect x z (declared || Code.declares x ⟨params, body⟩) body)
  | .giveBack value => .giveBack (redirect x z declared value)
  | .callStatement inner => .callStatement (redirect x z declared inner)
  | .choice condition thenBlock elseBlock =>
    .choice (redirect x z declared condition)
      (redirect x z (declared || thenBlock.declares x) thenBlock)
      (redirect x z (declared || elseBlock.declares x) elseBlock)
  | .absent => .absent
  | .bare kind => .bare kind
  | .data datum => .data datum

/-- Several trees with `z` in the place of `x` wherever a use of `x` is out of scope. -/
def redirectAll (x z : String) (declared : Bool) : List Node → List Node
  | [] => []
  | node :: rest => redirect x z declared node :: redirectAll x z declared rest

end

mutual

/-- Whether a word occurs in a tree as a name, be it declared or used. -/
def mentions (word : String) : Node → Bool
  | .identifier name _ => name == .text word
  | .call name arguments => name == .text word || anyMentions word arguments
  | .unary _ operand => mentions word operand
  | .binary _ left right => mentions word left || mentions word right
  | .block statements => anyMentions word statements
  | .declaration _ name initial => name == .text word || mentions word initial
  | .assignment target value => mentions word target || mentions word value
  | .function name params body =>
    name == .text word || (Code.parameters ⟨params, body⟩).contains (.text word) ||
      mentions word body
  | .giveBack value => mentions word value
  | .callStatement inner => mentions word inner
  | .choice condition thenBlock elseBlock =>
    mentions word condition || mentions word thenBlock || mentions word elseBlock
  | .literal _ | .absent | .bare _ | .data _ => false

/-- Whether a word occurs in one of several trees as a name. -/
def anyMentions (word : String) : List Node → Bool
  | [] => false
  | node :: rest => mentions word node || anyMentions word rest

end

end Node

namespace Code

/-- The code of a function with `z` in the place of `x` wherever a use of `x` is out of scope. -/
def redirect (x z : String) (declared : Bool) (code : Code) : Code :=
  ⟨code.params, code.body.redirect x z (declared || code.declares x)⟩

/-- Whether a word occurs in the code of a function, as a parameter or in its body. -/
def mentions (word : String) (code : Code) : Bool :=
  code.parameters.contains (.text word) || code.body.mentions word

end Code

/-! ## Names in scope -/

namespace Node

variable {x z : String}

@[simp] theorem redirectName_true (name : Name) : redirectName x z true name = name := by
  simp [redirectName]

theorem redirectName_eq (x z : String) (declared : Bool) (name : Name) :
    redirectName x z declared name = name ∨
      declared = false ∧ name = .text x ∧ redirectName x z declared name = .text z := by
  unfold redirectName
  split
  · rename_i free
    exact .inr ⟨free.1, free.2, rfl⟩
  · exact .inl rfl

mutual

/-- Where the name is declared, all its uses are in scope. -/
theorem redirect_true (node : Node) : node.redirect x z true = node := by
  cases node with
  | literal | absent | bare | data => rfl
  | identifier name properties => simp [redirect]
  | call name arguments => simp [redirect, redirectAll_true arguments]
  | unary op operand => simp [redirect, redirect_true operand]
  | binary op left right => simp [redirect, redirect_true left, redirect_true right]
  | block statements => simp [redirect, redirectAll_true statements]
  | declaration isConst name initial => simp [redirect, redirect_true initial]
  | assignment target value => simp [redirect, redirect_true target, redirect_true value]
  | function name params body => simp [redirect, redirect_true body]
  | giveBack value => simp [redirect, redirect_true value]
  | callStatement inner => simp [redirect, redirect_true inner]
  | choice condition thenBlock elseBlock =>
    simp [redirect, redirect_true condition, redirect_true thenBlock, redirect_true elseBlock]
termination_by structural node

theorem redirectAll_true (nodes : List Node) : redirectAll x z true nodes = nodes := by
  cases nodes with
  | nil => rfl
  | cons node rest => simp [redirectAll, redirect_true node, redirectAll_true rest]
termination_by structural nodes

end

theorem redirectAll_length (declared : Bool) (nodes : List Node) :
    (redirectAll x z declared nodes).length = nodes.length := by
  induction nodes with
  | nil => rfl
  | cons node rest ih => simp [redirectAll, ih]

theorem redirect_eq_absent {declared : Bool} {node : Node} :
    node.redirect x z declared = .absent ↔ node = .absent := by
  cases node <;> simp [redirect]

/-! ## Parts of trees that do not mention a word -/

section Fresh

variable {word : String}

attribute [local simp] mentions anyMentions

theorem fresh_call {name : Name} {arguments : List Node}
    (h : (Node.call name arguments).mentions word = false) :
    name ≠ .text word ∧ anyMentions word arguments = false := by
  simpa using h

theorem fresh_binary {op : BinaryOp} {left right : Node}
    (h : (Node.binary op left right).mentions word = false) :
    left.mentions word = false ∧ right.mentions word = false := by
  simpa using h

theorem fresh_declaration {isConst : Bool} {name : Name} {initial : Node}
    (h : (Node.declaration isConst name initial).mentions word = false) :
    name ≠ .text word ∧ initial.mentions word = false := by
  simpa using h

theorem fresh_assignment {target value : Node}
    (h : (Node.assignment target value).mentions word = false) :
    target.mentions word = false ∧ value.mentions word = false := by
  simpa using h

theorem fresh_function {name : Name} {params : Datum} {body : Node}
    (h : (Node.function name params body).mentions word = false) :
    name ≠ .text word ∧ Code.mentions word ⟨params, body⟩ = false := by
  simpa [Code.mentions, and_assoc] using h

theorem fresh_choice {condition thenBlock elseBlock : Node}
    (h : (Node.choice condition thenBlock elseBlock).mentions word = false) :
    condition.mentions word = false ∧ thenBlock.mentions word = false ∧
      elseBlock.mentions word = false := by
  simpa [and_assoc] using h

theorem fresh_cons {node : Node} {rest : List Node} (h : anyMentions word (node :: rest) = false) :
    node.mentions word = false ∧ anyMentions word rest = false := by
  simpa using h

theorem undeclared_cons {node : Node} {rest : List Node}
    (h : anyDeclares word (node :: rest) = false) :
    node.declares word = false ∧ anyDeclares word rest = false := by
  simpa [anyDeclares] using h

end Fresh

/-! ## Where redirected trees come from -/

section Origin

variable {declared : Bool} {node : Node}

end Origin

end Node

namespace Code

variable {word : String} {code : Code}

end Code

end ScopeScript
