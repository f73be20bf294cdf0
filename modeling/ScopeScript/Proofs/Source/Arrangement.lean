import ScopeScript.Proofs.Tree.WellFormed
set_option autoImplicit false

/-!
# Source: what is printed of other arrangements of statements

A stored tree may arrange statements as no source does.  A block may stand among the statements of
another one; it is printed as its lines, so what is parsed of the text has its statements in the
place of the block.  And a bare `return` may stand in front of a call; nothing separates the two
lines but a blank, so the parser takes the call for the value returned.

This is all that can happen to a tree on its way through its source.
-/

namespace ScopeScript

namespace Node

/-! ## Arrangements -/

mutual

/-- Whether the node is a statement of well-formed parts, in which statements may be arranged in any
way. -/
def arranged : Node → Bool
  | .block statements => allArranged statements
  | .function name params body => name.isName && params.isNames && blockArranged body
  | .choice condition thenBlock elseBlock =>
    condition.exprOk && blockArranged thenBlock && elseArranged elseBlock
  | node => node.statementOk

/-- Whether the node is a block of arranged statements. -/
def blockArranged : Node → Bool
  | .block statements => allArranged statements
  | _ => false

/-- Whether the node is no block, or a block of arranged statements. -/
def elseArranged : Node → Bool
  | .absent => true
  | .block statements => allArranged statements
  | _ => false

/-- Whether all nodes are arranged statements. -/
def allArranged : List Node → Bool
  | [] => true
  | node :: rest => arranged node && allArranged rest

end

/-- The statements that a statement stands for: those of a block, or itself. -/
def opened : Node → List Node
  | .block statements => statements
  | node => [node]

mutual

/-- The node with the blocks among its statements opened. -/
def flat : Node → Node
  | .block statements => .block (flatAll statements)
  | .function name params body => .function name params body.flat
  | .choice condition thenBlock elseBlock => .choice condition thenBlock.flat elseBlock.flat
  | node => node

/-- Statements with the blocks among them opened. -/
def flatAll : List Node → List Node
  | [] => []
  | node :: rest => node.flat.opened ++ flatAll rest

end

/-- A statement in front of others; a bare `return` takes a call for its value. -/
def joinTo : Node → List Node → List Node
  | .giveBack .absent, .callStatement inner :: rest => .giveBack inner :: rest
  | node, rest => node :: rest

mutual

/-- The node with every call behind a bare `return` among its statements taken for the value
returned. -/
def joined : Node → Node
  | .block statements => .block (joinedAll statements)
  | .function name params body => .function name params body.joined
  | .choice condition thenBlock elseBlock => .choice condition thenBlock.joined elseBlock.joined
  | node => node

/-- Statements with every call behind a bare `return` taken for the value returned. -/
def joinedAll : List Node → List Node
  | [] => []
  | node :: rest => joinTo node.joined (joinedAll rest)

end

mutual

/-- Whether no call stands behind a bare `return` among the statements of the node. -/
def separated : Node → Bool
  | .block statements => allSeparated statements
  | .function _ _ body => body.separated
  | .choice _ thenBlock elseBlock => thenBlock.separated && elseBlock.separated
  | _ => true

/-- Whether no call stands behind a bare `return` among the statements. -/
def allSeparated : List Node → Bool
  | [] => true
  | node :: rest =>
    node.separated && allSeparated rest && !(isBareReturn node && startsWithCall rest)

end

/-! ## Separated statements -/

/-- Unless a call stands behind a bare `return`, the statement stays in front of the others. -/
theorem joinTo_eq_cons {node : Node} {rest : List Node}
    (h : (isBareReturn node && startsWithCall rest) = false) : joinTo node rest = node :: rest := by
  unfold joinTo
  split
  · simp [isBareReturn, startsWithCall] at h
  · rfl

mutual

theorem joined_of_separated (node : Node) (h : node.separated = true) : node.joined = node := by
  cases node with
  | block statements => rw [joined, joinedAll_of_allSeparated statements h]
  | function name params body => rw [joined, joined_of_separated body h]
  | choice condition thenBlock elseBlock =>
    simp only [separated, Bool.and_eq_true] at h
    rw [joined, joined_of_separated thenBlock h.1, joined_of_separated elseBlock h.2]
  | _ => rfl
termination_by structural node

theorem joinedAll_of_allSeparated (nodes : List Node) (h : allSeparated nodes = true) :
    joinedAll nodes = nodes := by
  cases nodes with
  | nil => rfl
  | cons node rest =>
    simp only [allSeparated, Bool.and_eq_true, Bool.not_eq_true'] at h
    rw [joinedAll, joined_of_separated node h.1.1, joinedAll_of_allSeparated rest h.1.2,
      joinTo_eq_cons h.2]
termination_by structural nodes

end

mutual

theorem separated_of_statementOk (node : Node) (h : node.statementOk = true) :
    node.separated = true := by
  cases node with
  | function name params body =>
    simp only [statementOk, Bool.and_eq_true] at h
    exact separated_of_elseOk body (elseOk_of_blockOk h.2)
  | choice condition thenBlock elseBlock =>
    simp only [statementOk, Bool.and_eq_true] at h
    simp only [separated, Bool.and_eq_true]
    exact ⟨separated_of_elseOk thenBlock (elseOk_of_blockOk h.1.2),
      separated_of_elseOk elseBlock h.2⟩
  | block => simp [statementOk] at h
  | _ => rfl
termination_by structural node

theorem separated_of_elseOk (node : Node) (h : node.elseOk = true) : node.separated = true := by
  cases node with
  | block statements => exact allSeparated_of_statementsOk statements h
  | absent => rfl
  | _ => simp [elseOk] at h
termination_by structural node

theorem allSeparated_of_statementsOk (nodes : List Node) (h : statementsOk nodes = true) :
    allSeparated nodes = true := by
  cases nodes with
  | nil => rfl
  | cons node rest =>
    simp only [statementsOk, Bool.and_eq_true] at h
    simp only [allSeparated, Bool.and_eq_true]
    exact ⟨⟨separated_of_statementOk node h.1.1, allSeparated_of_statementsOk rest h.1.2⟩, h.2⟩
termination_by structural nodes

end

/-! ## Texts of arrangements -/

open Lexer Grammar

/-- At every level, the node is printed as a text that splits off the lexemes in front of the end of
a line. -/
def PrintsLine (node : Node) (lexemes : List Lexeme) : Prop :=
  ∀ level : Int, ∃ text, node.print level = .ok text ∧
    ∀ {rest : List Char} {others : List Lexeme}, Lexes rest others →
      Lexes (text.toList ++ '\n' :: rest) (lexemes ++ others)

theorem Prints.line {node : Node} {lexemes : List Lexeme} (h : Prints node lexemes) :
    PrintsLine node lexemes := by
  intro level
  obtain ⟨text, htext, hwrites⟩ := h level
  exact ⟨text, htext, fun hrest => hwrites (clean_cons _ (by decide)) (lexes_line hrest)⟩

theorem PrintsLines.line {nodes : List Node} {lexemes : List Lexeme}
    (h : PrintsLines nodes lexemes) : PrintsLine (.block nodes) lexemes := by
  intro level
  obtain ⟨text, htext, hwrites⟩ := h level
  exact ⟨text, htext, fun hrest => hwrites (lexes_line hrest)⟩

theorem PrintsLine.cons {node : Node} {rest : List Node} {lexemes lexemes' : List Lexeme}
    (hnode : PrintsLine node lexemes) (hrest : PrintsLines rest lexemes') :
    PrintsLines (node :: rest) (lexemes ++ lexemes') := by
  intro level
  obtain ⟨text, htext, hwrites⟩ := hnode level
  obtain ⟨lines, hlines, hwritesLines⟩ := hrest level
  refine ⟨Text.margin level ++ text ++ "\n" ++ lines, by simp [printLines, htext, hlines], ?_⟩
  intro behind others hbehind
  have whole := lexes_margin level (hwrites (hwritesLines hbehind))
  simpa [String.toList_append] using whole

/-- A statement that is none of those with statements inside. -/
theorem printsLine_single {d : Statement} {node : Node} (h : Prints node d.yield) :
    PrintsLine node (Statements.cons d .nil).yield := by
  simpa [Statements.yield] using h.line

mutual

/-- An arranged statement is printed as the statements that it stands for. -/
theorem prints_arranged (node : Node) (h : node.arranged = true) :
    ∃ d : Statements, d.trees = node.flat.opened ∧ PrintsLine node d.yield := by
  cases node with
  | block statements =>
    obtain ⟨d, htrees, hprints⟩ := prints_allArranged statements h
    exact ⟨d, htrees, hprints.line⟩
  | function name params body =>
    simp only [arranged, Bool.and_eq_true] at h
    obtain ⟨word, rfl, hword⟩ := Datum.isName_iff.mp h.1.1
    obtain ⟨words, rfl, hwords⟩ := Datum.isNames_iff.mp h.1.2
    match body, h with
    | .block statements, h =>
      obtain ⟨body, htrees, hprints⟩ := prints_allArranged statements h.2
      refine ⟨.cons (.func word words body) .nil, ?_,
        printsLine_single (prints_function hword hwords hprints)⟩
      simp [Statements.trees, Statement.tree, flat, opened, htrees]
  | choice condition thenBlock elseBlock =>
    simp only [arranged, Bool.and_eq_true] at h
    obtain ⟨c, rfl, hcondition⟩ := prints_expr condition h.1.1
    match thenBlock, elseBlock, h with
    | .block thenPart, .absent, h =>
      obtain ⟨t, htrees, hthen⟩ := prints_allArranged thenPart h.1.2
      refine ⟨.cons (.choice c t) .nil, ?_, printsLine_single (prints_choice hcondition hthen)⟩
      simp [Statements.trees, Statement.tree, flat, opened, htrees]
    | .block thenPart, .block elsePart, h =>
      obtain ⟨t, htrees, hthen⟩ := prints_allArranged thenPart h.1.2
      obtain ⟨e, htrees', helse⟩ := prints_allArranged elsePart h.2
      refine ⟨.cons (.choiceElse c t e) .nil, ?_,
        printsLine_single (prints_choiceElse hcondition hthen helse)⟩
      simp [Statements.trees, Statement.tree, flat, opened, htrees, htrees']
  | _ =>
    obtain ⟨d, htree, -, hprints⟩ := prints_statement _ h
    exact ⟨.cons d .nil, by rw [Statements.trees, htree]; rfl, printsLine_single hprints⟩
termination_by structural node

/-- The lines of arranged statements are those of the statements with all blocks opened. -/
theorem prints_allArranged (nodes : List Node) (h : allArranged nodes = true) :
    ∃ d : Statements, d.trees = flatAll nodes ∧ PrintsLines nodes d.yield := by
  cases nodes with
  | nil => exact ⟨.nil, rfl, fun level => ⟨"", rfl, fun h => h⟩⟩
  | cons node rest =>
    simp only [allArranged, Bool.and_eq_true] at h
    obtain ⟨first, htrees, hline⟩ := prints_arranged node h.1
    obtain ⟨others, htrees', hlines⟩ := prints_allArranged rest h.2
    refine ⟨first.append others, by rw [Statements.trees_append, htrees, htrees', flatAll], ?_⟩
    rw [Statements.yield_append]
    exact hline.cons hlines
termination_by structural nodes

end

end Node

/-! ## Trees of settled derivations -/

namespace Grammar

mutual

theorem Expr.isExpression_tree (d : Expr) : d.tree.isExpression = true := by
  cases d with
  | single operand => exact operand.isExpression_tree
  | logical left sign right => rfl
termination_by structural d

theorem Operand.isExpression_tree {tier : Parser.Tier} (d : Operand tier) :
    d.tree.isExpression = true := by
  match d with
  | .chain first more => exact more.isExpression_treeFrom first.isExpression_tree
termination_by structural d

theorem Tighter.isExpression_tree {tier : Parser.Tier} (d : Tighter tier) :
    d.tree.isExpression = true := by
  match tier, d with
  | _, .additive inner => exact inner.isExpression_tree
  | _, .multiplicative inner => exact inner.isExpression_tree
  | _, .signed inner => exact inner.isExpression_tree
termination_by structural d

theorem MoreOperands.isExpression_treeFrom {tier : Parser.Tier} (d : MoreOperands tier)
    {left : Node} (hleft : left.isExpression = true) : (d.treeFrom left).isExpression = true := by
  match d with
  | .done => exact hleft
  | .more sign right rest => exact rest.isExpression_treeFrom rfl
termination_by structural d

theorem Signed.isExpression_tree (d : Signed) : d.tree.isExpression = true := by
  cases d with
  | atom inner => exact inner.isExpression_tree
  | sign sign operand => rfl
termination_by structural d

theorem Atom.isExpression_tree (d : Atom) : d.tree.isExpression = true := by
  cases d with
  | paren inner => exact inner.isExpression_tree
  | call inner => cases inner with
    | mk name arguments => rfl
  | _ => rfl
termination_by structural d

end

@[simp] theorem Expr.tree_ofCall (call : Call) : (Expr.ofCall call).tree = call.tree := by
  simp [Expr.ofCall, Signed.tree, Atom.tree]

/-- Statements are joined as their trees are. -/
theorem Statements.trees_join (first : Statement) (rest : Statements) :
    (Statements.join first rest).trees = Node.joinTo first.tree rest.trees := by
  cases first with
  | bareReturn =>
    cases rest with
    | nil => rfl
    | cons second others =>
      cases second with
      | call inner => simp [Statements.join, Statements.trees, Statement.tree, Node.joinTo]
      | _ => rfl
  | giveBack value =>
    have present : value.tree ≠ .absent := by
      intro absent
      have expression := value.isExpression_tree
      rw [absent] at expression
      cases expression
    rw [Node.joinTo_eq_cons]
    · rfl
    · simp only [Statement.tree, Node.isBareReturn]
      split
      · simp_all
      · rfl
  | _ => rfl

mutual

theorem Statement.tree_settle (d : Statement) : d.settle.tree = d.tree.joined := by
  cases d with
  | func name params body =>
    simp only [Statement.settle, Statement.tree, Node.joined, Statements.trees_settle body]
  | choice condition thenPart =>
    simp only [Statement.settle, Statement.tree, Node.joined, Statements.trees_settle thenPart]
  | choiceElse condition thenPart elsePart =>
    simp only [Statement.settle, Statement.tree, Node.joined, Statements.trees_settle thenPart,
      Statements.trees_settle elsePart]
  | _ => rfl
termination_by structural d

/-- A greedy derivation has the calls behind bare `return`s as the values returned. -/
theorem Statements.trees_settle (d : Statements) : d.settle.trees = Node.joinedAll d.trees := by
  cases d with
  | nil => rfl
  | cons first rest =>
    rw [Statements.settle, Statements.trees_join, Statement.tree_settle first,
      Statements.trees_settle rest, Statements.trees, Node.joinedAll]
termination_by structural d

end

end Grammar

open Grammar

/-- What is printed of an arrangement is parsed as the tree with all blocks opened and every call
behind a bare `return` taken for the value returned. -/
theorem Node.parse_print_arranged {node : Node} (h : node.blockArranged = true) (level : Int) :
    ∃ text, node.print level = .ok text ∧ parseProgram text = .ok node.flat.joined := by
  match node, h with
  | .block statements, h =>
    obtain ⟨d, htrees, hprints⟩ := Node.prints_allArranged statements h
    rw [← d.yield_settle] at hprints
    have greedy : d.settle.Greedy .finish := d.greedy_settle trivial
    obtain ⟨text, htext, hparse⟩ := hprints.parse greedy level
    refine ⟨text, htext, ?_⟩
    rw [hparse, Statements.script, Statements.trees_settle, htrees]
    rfl

/-- The tree is read back with nothing but its blocks opened if and only if no call stands behind a
bare `return` then. -/
theorem Node.joined_flat_eq_iff {node : Node} (h : node.blockArranged = true) :
    node.flat.joined = node.flat ↔ node.flat.separated = true := by
  constructor
  · intro same
    obtain ⟨text, -, hparse⟩ := Node.parse_print_arranged h 0
    have wellFormed := parseProgram_blockOk hparse
    rw [same] at wellFormed
    exact Node.separated_of_elseOk _ (Node.elseOk_of_blockOk wellFormed)
  · exact Node.joined_of_separated _

end ScopeScript
