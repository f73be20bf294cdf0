import ScopeScript.Eval.Machine
import ScopeScript.Proofs.Source.RoundTrip
import ScopeScript.Proofs.Tree.Plain
set_option autoImplicit false

/-!
# Tree: parsers build well-formed trees

Every derivation of written lexemes has a well-formed tree: its words are names, its numerals write
numbers that a numeral can write, and no other node can stand where a rule of the grammar asks for
an expression, a block or a statement.  A greedy derivation leaves no call behind a bare `return`.

Well-formed trees have plain literals, and declare functions with well-formed code.
-/

namespace ScopeScript

/-! ## Trees of derivations -/

namespace Grammar

/-- A source can hold all of the lexemes. -/
def AllWritten (lexemes : List Lexeme) : Prop := ∀ lexeme ∈ lexemes, lexeme.Written

theorem allWritten_cons {lexeme : Lexeme} {rest : List Lexeme} :
    AllWritten (lexeme :: rest) ↔ lexeme.Written ∧ AllWritten rest := by
  simp [AllWritten]

theorem allWritten_append {a b : List Lexeme} :
    AllWritten (a ++ b) ↔ AllWritten a ∧ AllWritten b := by
  simp [AllWritten, or_imp, forall_and]

theorem isNames_ofWords {words : List String} {lexemes : List Lexeme} (h : AllWritten lexemes)
    (mem : ∀ word ∈ words, .word word ∈ lexemes) : (Datum.ofWords words).isNames = true :=
  Datum.isNames_iff.mpr ⟨words, rfl, fun word hword => h (.word word) (mem word hword)⟩

theorem isNames_dotted {properties : List String} (h : AllWritten (dotted properties)) :
    (Datum.ofWords properties).isNames = true :=
  isNames_ofWords h fun _ hword => List.mem_flatMap.mpr ⟨_, hword, by simp⟩

theorem isNames_wordList {params : List String} (h : AllWritten (wordList params)) :
    (Datum.ofWords params).isNames = true := by
  refine isNames_ofWords h ?_
  cases params with
  | nil => simp
  | cons first rest =>
    intro word hword
    rcases List.mem_cons.mp hword with rfl | hword
    · exact List.mem_cons_self
    · exact List.mem_cons_of_mem _ (List.mem_flatMap.mpr ⟨word, hword, by simp⟩)

theorem literalOk_numeralValue {numeral : String} (h : (Lexeme.number numeral).Written) :
    Node.literalOk (.number (numeralValue numeral)) = true := by
  obtain ⟨d, hread, nonneg, small⟩ := Lexer.IsNumeral.exists_read h
  rw [String.ofList_toList] at hread
  simp [numeralValue, hread, Node.literalOk, nonneg, small]

mutual

theorem Expr.exprOk_tree (d : Expr) (h : AllWritten d.yield) : d.tree.exprOk = true := by
  cases d with
  | single operand => exact Operand.exprOk_tree operand h
  | logical left sign right =>
    simp only [Expr.yield, allWritten_append, allWritten_cons] at h
    simp [Expr.tree, Node.exprOk, sign.operator_mem, Operand.exprOk_tree left h.1,
      Expr.exprOk_tree right h.2.2]
termination_by structural d

theorem Operand.exprOk_tree {tier : Parser.Tier} (d : Operand tier) (h : AllWritten d.yield) :
    d.tree.exprOk = true := by
  match d, h with
  | .chain first more, h =>
    simp only [Operand.yield, allWritten_append] at h
    exact MoreOperands.exprOk_treeFrom more h.2 (Tighter.exprOk_tree first h.1)
termination_by structural d

theorem Tighter.exprOk_tree {tier : Parser.Tier} (d : Tighter tier) (h : AllWritten d.yield) :
    d.tree.exprOk = true := by
  match tier, d, h with
  | _, .additive inner, h => exact Operand.exprOk_tree inner h
  | _, .multiplicative inner, h => exact Operand.exprOk_tree inner h
  | _, .signed inner, h => exact Signed.exprOk_tree inner h
termination_by structural d

theorem MoreOperands.exprOk_treeFrom {tier : Parser.Tier} (d : MoreOperands tier)
    (h : AllWritten d.yield) {left : Node} (ok : left.exprOk = true) :
    (d.treeFrom left).exprOk = true := by
  match d, h with
  | .done, h => exact ok
  | .more sign right rest, h =>
    simp only [MoreOperands.yield, allWritten_cons, allWritten_append] at h
    refine MoreOperands.exprOk_treeFrom rest h.2.2 ?_
    simp [Node.exprOk, sign.operator_mem, ok, Tighter.exprOk_tree right h.2.1]
termination_by structural d

theorem Signed.exprOk_tree (d : Signed) (h : AllWritten d.yield) : d.tree.exprOk = true := by
  cases d with
  | atom inner => exact Atom.exprOk_tree inner h
  | sign sign operand =>
    simp only [Signed.yield, allWritten_cons] at h
    simp [Signed.tree, Node.exprOk, sign.operator_mem, Signed.exprOk_tree operand h.2]
termination_by structural d

theorem Atom.exprOk_tree (d : Atom) (h : AllWritten d.yield) : d.tree.exprOk = true := by
  cases d with
  | paren inner =>
    simp only [Atom.yield, allWritten_cons, allWritten_append] at h
    exact Expr.exprOk_tree inner h.2.1
  | path name properties =>
    simp only [Atom.yield, allWritten_cons] at h
    simp [Atom.tree, Node.exprOk, isNames_dotted h.2, show (Datum.text name).isName = true from h.1]
  | call inner => exact (Call.callOk_tree inner h).2
  | number numeral =>
    simp only [Atom.yield, allWritten_cons] at h
    simp [Atom.tree, Node.exprOk, literalOk_numeralValue h.1]
  | text content => rfl
termination_by structural d

/-- A call is one as a statement and as an expression. -/
theorem Call.callOk_tree (d : Call) (h : AllWritten d.yield) :
    d.tree.callOk = true ∧ d.tree.exprOk = true := by
  match d, h with
  | .mk name arguments, h =>
    simp only [Call.yield, allWritten_cons, allWritten_append] at h
    simp [Call.tree, Node.callOk, Node.exprOk, Arguments.exprsOk_trees arguments h.2.2.1,
      show (Datum.text name).isName = true from h.1]
termination_by structural d

theorem Arguments.exprsOk_trees (d : Arguments) (h : AllWritten d.yield) :
    Node.exprsOk d.trees = true := by
  cases d with
  | none => rfl
  | some first more =>
    simp only [Arguments.yield, allWritten_append] at h
    simp [Arguments.trees, Node.exprsOk, Expr.exprOk_tree first h.1,
      MoreArguments.exprsOk_trees more h.2]
termination_by structural d

theorem MoreArguments.exprsOk_trees (d : MoreArguments) (h : AllWritten d.yield) :
    Node.exprsOk d.trees = true := by
  cases d with
  | done => rfl
  | more argument rest =>
    simp only [MoreArguments.yield, allWritten_cons, allWritten_append] at h
    simp [MoreArguments.trees, Node.exprsOk, Expr.exprOk_tree argument h.2.1,
      MoreArguments.exprsOk_trees rest h.2.2]
termination_by structural d

end

/-- A `return` with an expression is well-formed, and not a bare one. -/
theorem giveBack_of_exprOk {value : Node} (h : value.exprOk = true) :
    (Node.giveBack value).statementOk = true ∧ (Node.giveBack value).isBareReturn = false := by
  cases value with
  | absent => simp [Node.exprOk] at h
  | _ => exact ⟨h, rfl⟩

/-- Behind a greedy bare `return` no call stands. -/
theorem not_startsWithCall {first : Statement} {rest : Statements} {next : Lexeme}
    (h : AllWritten first.yield) (greedy : (Statements.cons first rest).Greedy next) :
    (first.tree.isBareReturn && Node.startsWithCall rest.trees) = false := by
  cases first with
  | bareReturn =>
    cases rest with
    | nil => rfl
    | cons second others =>
      cases second with
      | call inner =>
        obtain ⟨name, arguments⟩ := inner
        exact absurd ((canStart_iff _).mpr rfl) greedy.1
      | _ => rfl
  | giveBack value =>
    simp only [Statement.yield, allWritten_cons] at h
    simp [Statement.tree, (giveBack_of_exprOk (value.exprOk_tree h.2)).2]
  | _ => rfl

mutual

theorem Statement.statementOk_tree (d : Statement) {next : Lexeme} (h : AllWritten d.yield)
    (greedy : d.Greedy next) : d.tree.statementOk = true := by
  cases d with
  | declaration isConst name initial =>
    simp only [Statement.yield, allWritten_cons] at h
    simp [Statement.tree, Node.statementOk, initial.exprOk_tree h.2.2.2,
      show (Datum.text name).isName = true from h.2.1]
  | set name properties value =>
    simp only [Statement.yield, allWritten_cons, allWritten_append] at h
    simp [Statement.tree, Node.statementOk, Node.targetOk, value.exprOk_tree h.2.2.2.2,
      isNames_dotted h.2.2.1, show (Datum.text name).isName = true from h.2.1]
  | func name params body =>
    simp only [Statement.yield, allWritten_cons, allWritten_append] at h
    simp [Statement.tree, Node.statementOk, Node.blockOk, isNames_wordList h.2.2.2.1,
      Statements.statementsOk_trees body h.2.2.2.2.2.2.1 greedy,
      show (Datum.text name).isName = true from h.2.1]
  | bareReturn => rfl
  | giveBack value =>
    simp only [Statement.yield, allWritten_cons] at h
    exact (giveBack_of_exprOk (value.exprOk_tree h.2)).1
  | choice condition thenPart =>
    simp only [Statement.yield, allWritten_cons, allWritten_append] at h
    simp [Statement.tree, Node.statementOk, Node.blockOk, Node.elseOk, condition.exprOk_tree h.2.1,
      Statements.statementsOk_trees thenPart h.2.2.2.1 greedy]
  | choiceElse condition thenPart elsePart =>
    simp only [Statement.yield, allWritten_cons, allWritten_append] at h
    simp [Statement.tree, Node.statementOk, Node.blockOk, Node.elseOk, condition.exprOk_tree h.2.1,
      Statements.statementsOk_trees thenPart h.2.2.2.1 greedy.1,
      Statements.statementsOk_trees elsePart h.2.2.2.2.2.1 greedy.2]
  | call inner => exact (inner.callOk_tree h).1
termination_by structural d

theorem Statements.statementsOk_trees (d : Statements) {next : Lexeme} (h : AllWritten d.yield)
    (greedy : d.Greedy next) : Node.statementsOk d.trees = true := by
  cases d with
  | nil => rfl
  | cons first rest =>
    simp only [Statements.yield, allWritten_append] at h
    simp [Statements.trees, Node.statementsOk, Statement.statementOk_tree first h.1 greedy.1,
      Statements.statementsOk_trees rest h.2 greedy.2, not_startsWithCall h.1 greedy]
termination_by structural d

end

theorem allWritten_of_tokenize {source : String} {tokens : List Token} {lexemes : List Lexeme}
    (h : tokenize source = .ok tokens) (same : lexemes = tokens.map Token.lexeme) :
    AllWritten lexemes := by
  intro lexeme hlexeme
  rw [same] at hlexeme
  obtain ⟨token, htoken, rfl⟩ := List.mem_map.mp hlexeme
  exact Parser.written_of_tokenize h token htoken

end Grammar

/-- The tree of a script is a block of well-formed statements. -/
theorem parseProgram_blockOk {source : String} {tree : Node} (h : parseProgram source = .ok tree) :
    tree.blockOk = true := by
  obtain ⟨tokens, htokens, d, hyield, greedy, rfl⟩ := parseProgram_eq_ok_iff.mp h
  exact d.statementsOk_trees (Grammar.allWritten_of_tokenize htokens hyield) greedy

/-! ## Well-formed trees are plain -/

namespace Node

theorem isPlain_of_literalOk {value : Value} (h : literalOk value = true) :
    value.isPlain = true := by
  unfold literalOk at h
  split at h
  · rfl
  · rfl
  · cases h

mutual

theorem isPlain_of_exprOk (node : Node) (h : node.exprOk = true) : node.isPlain = true := by
  cases node with
  | literal value => exact isPlain_of_literalOk h
  | identifier name properties => rfl
  | call name arguments =>
    simp only [exprOk, Bool.and_eq_true] at h
    exact arePlain_of_exprsOk arguments h.2
  | unary op operand =>
    simp only [exprOk, Bool.and_eq_true] at h
    exact isPlain_of_exprOk operand h.2
  | binary op left right =>
    simp only [exprOk, Bool.and_eq_true] at h
    simp [isPlain, isPlain_of_exprOk left h.1.2, isPlain_of_exprOk right h.2]
  | _ => simp [exprOk] at h
termination_by structural node

theorem arePlain_of_exprsOk (nodes : List Node) (h : exprsOk nodes = true) :
    arePlain nodes = true := by
  cases nodes with
  | nil => rfl
  | cons node rest =>
    simp only [exprsOk, Bool.and_eq_true] at h
    simp [arePlain, isPlain_of_exprOk node h.1, arePlain_of_exprsOk rest h.2]
termination_by structural nodes

end

/-- What a `return` gives back is an expression, if it is there. -/
theorem exprOk_of_giveBack {value : Node} (present : value ≠ .absent)
    (h : (giveBack value).statementOk = true) : value.exprOk = true := by
  cases value with
  | absent => exact absurd rfl present
  | _ => exact h

theorem exprOk_of_callOk {node : Node} (h : node.callOk = true) : node.exprOk = true := by
  cases node with
  | call name arguments => exact h
  | _ => simp [callOk] at h

theorem elseOk_of_blockOk {node : Node} (h : node.blockOk = true) : node.elseOk = true := by
  cases node with
  | block statements => exact h
  | _ => simp [blockOk] at h

mutual

theorem isPlain_of_statementOk (node : Node) (h : node.statementOk = true) :
    node.isPlain = true := by
  cases node with
  | declaration isConst name initial =>
    simp only [statementOk, Bool.and_eq_true] at h
    exact isPlain_of_exprOk initial h.2
  | assignment target value =>
    simp only [statementOk, Bool.and_eq_true] at h
    cases target with
    | identifier name properties => exact isPlain_of_exprOk value h.2
    | _ => simp [targetOk] at h
  | function name params body =>
    simp only [statementOk, Bool.and_eq_true] at h
    exact isPlain_of_elseOk body (elseOk_of_blockOk h.2)
  | giveBack value =>
    by_cases none : value = .absent
    · rw [none]
      rfl
    · exact isPlain_of_exprOk value (exprOk_of_giveBack none h)
  | callStatement inner => exact isPlain_of_exprOk inner (exprOk_of_callOk h)
  | choice condition thenBlock elseBlock =>
    simp only [statementOk, Bool.and_eq_true] at h
    simp [isPlain, isPlain_of_exprOk condition h.1.1,
      isPlain_of_elseOk thenBlock (elseOk_of_blockOk h.1.2), isPlain_of_elseOk elseBlock h.2]
  | _ => simp [statementOk] at h
termination_by structural node

theorem isPlain_of_elseOk (node : Node) (h : node.elseOk = true) : node.isPlain = true := by
  cases node with
  | block statements => exact arePlain_of_statementsOk statements h
  | absent => rfl
  | _ => simp [elseOk] at h
termination_by structural node

theorem arePlain_of_statementsOk (nodes : List Node) (h : statementsOk nodes = true) :
    arePlain nodes = true := by
  cases nodes with
  | nil => rfl
  | cons node rest =>
    simp only [statementsOk, Bool.and_eq_true] at h
    simp [arePlain, isPlain_of_statementOk node h.1.1, arePlain_of_statementsOk rest h.1.2]
termination_by structural nodes

end

theorem isPlain_of_blockOk {node : Node} (h : node.blockOk = true) : node.isPlain = true :=
  isPlain_of_elseOk node (elseOk_of_blockOk h)

end Node

/-! ## Functions -/

/-- Whether the code of a function is well-formed: its parameters are names and its body is a
block. -/
def Code.isWellFormed (code : Code) : Bool := code.params.isNames && code.body.blockOk

/-- The functions that a state keeps have well-formed code. -/
def Machine.WellFormed (m : Machine) : Prop :=
  ∀ id, ∀ entry ∈ (m.scopes.get id).functions, entry.2.isWellFormed = true

namespace Node

mutual

/-- The code of the functions that a tree declares, at any depth. -/
def codes : Node → List Code
  | .function _ params body => ⟨params, body⟩ :: codes body
  | .block statements => codesIn statements
  | .choice _ thenBlock elseBlock => codes thenBlock ++ codes elseBlock
  | _ => []

/-- The code of the functions that several trees declare, at any depth. -/
def codesIn : List Node → List Code
  | [] => []
  | node :: rest => codes node ++ codesIn rest

end

mutual

theorem codes_of_statementOk (node : Node) (h : node.statementOk = true) :
    ∀ code ∈ node.codes, code.isWellFormed = true := by
  cases node with
  | function name params body =>
    simp only [statementOk, Bool.and_eq_true] at h
    intro code hcode
    rcases List.mem_cons.mp hcode with rfl | hcode
    · simp [Code.isWellFormed, h.1.2, h.2]
    · exact codes_of_elseOk body (elseOk_of_blockOk h.2) code hcode
  | choice condition thenBlock elseBlock =>
    simp only [statementOk, Bool.and_eq_true] at h
    intro code hcode
    rcases List.mem_append.mp hcode with hcode | hcode
    · exact codes_of_elseOk thenBlock (elseOk_of_blockOk h.1.2) code hcode
    · exact codes_of_elseOk elseBlock h.2 code hcode
  | block statements => simp [statementOk] at h
  | _ => simp [codes]
termination_by structural node

theorem codes_of_elseOk (node : Node) (h : node.elseOk = true) :
    ∀ code ∈ node.codes, code.isWellFormed = true := by
  cases node with
  | block statements => exact codesIn_of_statementsOk statements h
  | absent => simp [codes]
  | _ => simp [elseOk] at h
termination_by structural node

theorem codesIn_of_statementsOk (nodes : List Node) (h : statementsOk nodes = true) :
    ∀ code ∈ codesIn nodes, code.isWellFormed = true := by
  cases nodes with
  | nil => simp [codesIn]
  | cons node rest =>
    simp only [statementsOk, Bool.and_eq_true] at h
    intro code hcode
    rcases List.mem_append.mp hcode with hcode | hcode
    · exact codes_of_statementOk node h.1.1 code hcode
    · exact codesIn_of_statementsOk rest h.1.2 code hcode
termination_by structural nodes

end

end Node

/-- The functions that a source declares have well-formed code. -/
theorem parseProgram_codes {source : String} {tree : Node} (h : parseProgram source = .ok tree) :
    ∀ code ∈ tree.codes, code.isWellFormed = true :=
  Node.codes_of_elseOk tree (Node.elseOk_of_blockOk (parseProgram_blockOk h))

end ScopeScript
