import ScopeScript.Proofs.Grammar.Exact
import ScopeScript.Proofs.Source.Lexing
import ScopeScript.Tree.Printer
set_option autoImplicit false

/-!
# Source: what is printed is parsed back

A tree is well-formed when a source can have it: its names are words that no keyword takes, its
literals are texts or numbers that a numeral can write, and its statements stand where statements
belong.  A bare `return` may not stand in front of a call, since a parser takes the call for the
value returned.

The printed text of a well-formed tree splits into the yield of a derivation of the tree, whatever
clean text follows it.  The parser is complete for the grammar, so it finds that derivation again.
-/

namespace ScopeScript

/-! ## Well-formed trees -/

namespace Datum

/-- Whether the datum is a name. -/
def isName : Datum → Bool
  | .text word => Lexer.isName word
  | _ => false

/-- Whether the datum is a tuple of names. -/
def isNames : Datum → Bool
  | .tuple items => items.all isName
  | _ => false

end Datum

namespace Node

/-- Whether a numeral or a quoted text can write the value. -/
def literalOk : Value → Bool
  | .text _ => true
  | .number (.finite d) => !d.negative && decide (d.exponent ≤ 0)
  | _ => false

mutual

/-- Whether the node is a well-formed expression. -/
def exprOk : Node → Bool
  | .literal value => literalOk value
  | .identifier name properties => name.isName && properties.isNames
  | .call name arguments => name.isName && exprsOk arguments
  | .unary op operand => decide (op ∈ UnaryOp.all) && exprOk operand
  | .binary op left right => decide (op ∈ BinaryOp.all) && exprOk left && exprOk right
  | _ => false

/-- Whether all nodes are well-formed expressions. -/
def exprsOk : List Node → Bool
  | [] => true
  | node :: rest => exprOk node && exprsOk rest

end

/-- Whether the node is the target of an assignment. -/
def targetOk : Node → Bool
  | .identifier name properties => name.isName && properties.isNames
  | _ => false

/-- Whether the node is a well-formed call. -/
def callOk : Node → Bool
  | .call name arguments => name.isName && exprsOk arguments
  | _ => false

/-- Whether the node is a `return` without a value. -/
def isBareReturn : Node → Bool
  | .giveBack .absent => true
  | _ => false

/-- Whether the first of some statements is a call. -/
def startsWithCall : List Node → Bool
  | .callStatement _ :: _ => true
  | _ => false

mutual

/-- Whether the node is a well-formed statement. -/
def statementOk : Node → Bool
  | .declaration _ name initial => name.isName && initial.exprOk
  | .assignment target value => target.targetOk && value.exprOk
  | .function name params body => name.isName && params.isNames && blockOk body
  | .giveBack .absent => true
  | .giveBack value => value.exprOk
  | .callStatement inner => inner.callOk
  | .choice condition thenBlock elseBlock =>
    condition.exprOk && blockOk thenBlock && elseOk elseBlock
  | _ => false

/-- Whether the node is a block of well-formed statements. -/
def blockOk : Node → Bool
  | .block statements => statementsOk statements
  | _ => false

/-- Whether the node is no block, or a block of well-formed statements. -/
def elseOk : Node → Bool
  | .absent => true
  | .block statements => statementsOk statements
  | _ => false

/-- Whether all nodes are well-formed statements, and no bare `return` stands in front of a call. -/
def statementsOk : List Node → Bool
  | [] => true
  | first :: rest =>
    statementOk first && statementsOk rest && !(isBareReturn first && startsWithCall rest)

end

end Node

theorem Datum.isName_iff {name : Datum} :
    name.isName = true ↔ ∃ word, name = .text word ∧ Lexer.isName word = true := by
  cases name <;> simp [isName]

theorem Datum.isNames_iff {names : Datum} :
    names.isNames = true ↔
      ∃ words, names = .ofWords words ∧ ∀ word ∈ words, Lexer.isName word = true := by
  constructor
  · intro h
    cases names with
    | tuple items =>
      simp only [isNames, List.all_eq_true] at h
      induction items with
      | nil => exact ⟨[], rfl, by simp⟩
      | cons item items ih =>
        obtain ⟨word, rfl, hword⟩ := isName_iff.mp (h item (by simp))
        obtain ⟨words, hitems, hwords⟩ := ih fun other hother => h other (by simp [hother])
        obtain rfl : items = words.map .text := Datum.tuple.inj hitems
        refine ⟨word :: words, rfl, ?_⟩
        intro other hother
        rcases List.mem_cons.mp hother with rfl | hother
        · exact hword
        · exact hwords other hother
    | _ => simp [isNames] at h
  · rintro ⟨words, rfl, hwords⟩
    simpa [ofWords, isNames, isName] using hwords

/-! ## Printing lexemes -/

namespace Lexer

/-- In front of any clean text, the text splits off the lexemes. -/
def Writes (text : String) (lexemes : List Lexeme) : Prop :=
  ∀ {rest : List Char} {others : List Lexeme}, Clean rest → Lexes rest others →
    Lexes (text.toList ++ rest) (lexemes ++ others)

/-- The characters of a separator and what follows it stand behind the first of several texts. -/
theorem toList_intercalate_cons (separator first second : String) (texts : List String)
    (rest : List Char) :
    (separator.intercalate (first :: second :: texts)).toList ++ rest =
      first.toList ++
        (separator.toList ++ ((separator.intercalate (second :: texts)).toList ++ rest)) := by
  rw [String.intercalate_cons_cons]
  simp [String.toList_append]

theorem writes_path {name : String} {names : List String} (hname : isName name = true)
    (hnames : ∀ word ∈ names, isName word = true) :
    Writes (Node.path name names) (.word name :: Grammar.dotted names) := by
  intro rest others clean h
  induction names generalizing name with
  | nil =>
    rw [Node.path, String.intercalate_singleton]
    exact lexes_word hname (fun c hc => (clean c hc).1) h
  | cons property names ih =>
    have hproperty := hnames property (by simp)
    have hrest := ih hproperty fun word hword => hnames word (by simp [hword])
    have head : ∀ c ∈ ((Node.path property names).toList ++ rest).head?, isDigit c = false := by
      cases names with
      | nil =>
        rw [Node.path, String.intercalate_singleton]
        exact name_head hproperty _
      | cons second names =>
        rw [Node.path, toList_intercalate_cons]
        exact name_head hproperty _
    rw [Node.path, toList_intercalate_cons]
    exact lexes_word hname (by simp; decide) (lexes_dot head hrest)

theorem writes_words {words : List String} (hwords : ∀ word ∈ words, isName word = true) :
    Writes (", ".intercalate words) (Grammar.wordList words) := by
  intro rest others clean h
  cases words with
  | nil => exact h
  | cons word words =>
    induction words generalizing word with
    | nil =>
      rw [String.intercalate_singleton]
      exact lexes_word (hwords word (by simp)) (fun c hc => (clean c hc).1) h
    | cons second words ih =>
      have hrest := ih second fun other hother => hwords other (List.mem_cons_of_mem _ hother)
      rw [toList_intercalate_cons]
      exact lexes_word (hwords word (by simp)) (by simp; decide)
        (lexes_ofChar rfl (lexes_space hrest))

theorem lexes_sign {tier : Parser.Tier} (sign : Grammar.Sign tier) {rest : List Char}
    {lexemes : List Lexeme} (h : Lexes rest lexemes) :
    Lexes (sign.operator.spelling.toList ++ ' ' :: rest) (sign.lexeme :: lexemes) := by
  have hspace := lexes_space h
  cases sign with
  | unequal => exact lexes_unequal hspace
  | less => exact lexes_less (clean_cons _ (by decide)) hspace
  | equal | greater | add | subtract | multiply | divide => exact lexes_ofChar rfl hspace

theorem lexes_logicalSign (sign : Grammar.LogicalSign) {rest : List Char} {lexemes : List Lexeme}
    (h : Lexes rest lexemes) :
    Lexes (sign.operator.spelling.toList ++ ' ' :: rest) (sign.lexeme :: lexemes) := by
  have behind : ∀ c ∈ (' ' :: rest).head?, isWordChar c = false := by simp; decide
  cases sign with
  | and => exact lexes_keyword .and behind (lexes_space h)
  | or => exact lexes_keyword .or behind (lexes_space h)

/-- Two texts between parentheses each, with an operator between them. -/
theorem writes_binary {left op right : String} {lexeme : Lexeme} {before behind : List Lexeme}
    (hleft : Writes left before) (hright : Writes right behind)
    (hop : ∀ {rest : List Char} {others : List Lexeme}, Lexes rest others →
      Lexes (op.toList ++ ' ' :: rest) (lexeme :: others)) :
    Writes ("(" ++ left ++ ") " ++ op ++ " (" ++ right ++ ")")
      (.mark .openParen :: (before ++ .mark .closeParen :: lexeme ::
        .mark .openParen :: (behind ++ [.mark .closeParen]))) := by
  intro rest others clean h
  have closing : Lexes (')' :: rest) (.mark .closeParen :: others) := lexes_ofChar rfl h
  have second := lexes_ofChar (c := '(') rfl (hright (clean_cons _ (by decide)) closing)
  have first := hleft (clean_cons _ (by decide))
    (lexes_ofChar (c := ')') rfl (lexes_space (hop second)))
  simpa [String.toList_append] using lexes_ofChar (c := '(') rfl first

end Lexer

/-! ## Derivations of printed trees -/

namespace Grammar

open ScopeScript.Parser (Tier)

/-- The operand of a tier that is nothing but a signed atom. -/
def Tighter.ofSigned : (tier : Tier) → Signed → Tighter tier
  | .comparison, inner => .additive (.chain (.multiplicative (.chain (.signed inner) .done)) .done)
  | .additive, inner => .multiplicative (.chain (.signed inner) .done)
  | .multiplicative, inner => .signed inner

/-- The expression that is nothing but operands of a tier. -/
def Expr.ofOperand : {tier : Tier} → Operand tier → Expr
  | .comparison, inner => .single inner
  | .additive, inner => .single (.chain (.additive inner) .done)
  | .multiplicative, inner =>
    .single (.chain (.additive (.chain (.multiplicative inner) .done)) .done)

/-- Two expressions between parentheses, with a sign of a tier between them. -/
def Expr.pair {tier : Tier} (left : Expr) (sign : Sign tier) (right : Expr) : Expr :=
  .ofOperand (.chain (.ofSigned tier (.atom (.paren left)))
    (.more sign (.ofSigned tier (.atom (.paren right))) .done))

/-- Two expressions between parentheses, with a logical sign between them. -/
def Expr.logicalPair (left : Expr) (sign : LogicalSign) (right : Expr) : Expr :=
  .logical (.chain (.ofSigned .comparison (.atom (.paren left))) .done) sign
    (.ofSigned (.atom (.paren right)))

@[simp] theorem Tighter.yield_ofSigned (tier : Tier) (inner : Signed) :
    (Tighter.ofSigned tier inner).yield = inner.yield := by
  cases tier <;> simp [Tighter.ofSigned, Tighter.yield, Operand.yield, MoreOperands.yield]

@[simp] theorem Tighter.tree_ofSigned (tier : Tier) (inner : Signed) :
    (Tighter.ofSigned tier inner).tree = inner.tree := by
  cases tier <;> simp [Tighter.ofSigned, Tighter.tree, Operand.tree, MoreOperands.treeFrom]

@[simp] theorem Expr.yield_ofOperand {tier : Tier} (inner : Operand tier) :
    (Expr.ofOperand inner).yield = inner.yield := by
  cases tier <;> simp [Expr.ofOperand, Expr.yield, Operand.yield, Tighter.yield, MoreOperands.yield]

@[simp] theorem Expr.tree_ofOperand {tier : Tier} (inner : Operand tier) :
    (Expr.ofOperand inner).tree = inner.tree := by
  cases tier <;>
    simp [Expr.ofOperand, Expr.tree, Operand.tree, Tighter.tree, MoreOperands.treeFrom]

theorem Expr.yield_pair {tier : Tier} (left : Expr) (sign : Sign tier) (right : Expr) :
    (Expr.pair left sign right).yield =
      .mark .openParen :: (left.yield ++ .mark .closeParen :: sign.lexeme ::
        .mark .openParen :: (right.yield ++ [.mark .closeParen])) := by
  simp [Expr.pair, Operand.yield, MoreOperands.yield, Signed.yield, Atom.yield]

theorem Expr.tree_pair {tier : Tier} (left : Expr) (sign : Sign tier) (right : Expr) :
    (Expr.pair left sign right).tree = .binary sign.operator left.tree right.tree := by
  simp [Expr.pair, Operand.tree, MoreOperands.treeFrom, Signed.tree, Atom.tree]

theorem Expr.yield_logicalPair (left : Expr) (sign : LogicalSign) (right : Expr) :
    (Expr.logicalPair left sign right).yield =
      .mark .openParen :: (left.yield ++ .mark .closeParen :: sign.lexeme ::
        .mark .openParen :: (right.yield ++ [.mark .closeParen])) := by
  simp [Expr.logicalPair, Expr.yield, Operand.yield, MoreOperands.yield, Signed.yield, Atom.yield]

theorem Expr.tree_logicalPair (left : Expr) (sign : LogicalSign) (right : Expr) :
    (Expr.logicalPair left sign right).tree = .binary sign.operator left.tree right.tree := by
  simp [Expr.logicalPair, Expr.tree, Operand.tree, MoreOperands.treeFrom, Signed.tree, Atom.tree]

theorem unarySign_of_mem {op : UnaryOp} (h : op ∈ UnaryOp.all) :
    ∃ sign : UnarySign, sign.operator = op := by
  cases op with
  | plus => exact ⟨.plus, rfl⟩
  | minus => exact ⟨.minus, rfl⟩
  | not => exact ⟨.not, rfl⟩
  | other symbol => simp [UnaryOp.all] at h

/-- An operator of the language is a logical one or one of a tier. -/
theorem sign_of_mem {op : BinaryOp} (h : op ∈ BinaryOp.all) :
    (∃ sign : LogicalSign, sign.operator = op) ∨
      ∃ (tier : Tier) (sign : Sign tier), sign.operator = op := by
  cases op with
  | and => exact .inl ⟨.and, rfl⟩
  | or => exact .inl ⟨.or, rfl⟩
  | equal => exact .inr ⟨_, .equal, rfl⟩
  | unequal => exact .inr ⟨_, .unequal, rfl⟩
  | less => exact .inr ⟨_, .less, rfl⟩
  | greater => exact .inr ⟨_, .greater, rfl⟩
  | add => exact .inr ⟨_, .add, rfl⟩
  | subtract => exact .inr ⟨_, .subtract, rfl⟩
  | multiply => exact .inr ⟨_, .multiply, rfl⟩
  | divide => exact .inr ⟨_, .divide, rfl⟩
  | other symbol => simp [BinaryOp.all] at h

end Grammar

namespace Node

open Lexer Grammar

attribute [local simp] print printAll printLines

/-- At every level, the node is printed as a text that splits off the lexemes. -/
def Prints (node : Node) (lexemes : List Lexeme) : Prop :=
  ∀ level : Int, ∃ text, node.print level = .ok text ∧ Writes text lexemes

/-- At every level, the nodes are printed as texts that split off the lexemes, commas between
them. -/
def PrintsList (nodes : List Node) (lexemes : List Lexeme) : Prop :=
  ∀ level : Int, ∃ texts, printAll level nodes = .ok texts ∧ Writes (", ".intercalate texts) lexemes

theorem prints_literal {value : Value} (h : literalOk value = true) :
    ∃ d : Expr, d.tree = .literal value ∧ Prints (.literal value) d.yield := by
  unfold literalOk at h
  split at h
  · rename_i content
    refine ⟨.ofSigned (.atom (.text content)), by simp [Signed.tree, Atom.tree], fun level => ?_⟩
    refine ⟨Text.quote content, rfl, ?_⟩
    intro rest others clean hrest
    simpa [Signed.yield, Atom.yield] using lexes_quote content clean hrest
  · rename_i d
    simp only [Bool.and_eq_true, Bool.not_eq_true', decide_eq_true_eq] at h
    refine ⟨.ofSigned (.atom (.number d.fixed)), ?_, fun level => ⟨d.fixed, ?_, ?_⟩⟩
    · simp [Signed.tree, Atom.tree, numeralValue, Decimal.read?_fixed h.1 h.2]
    · simp [printLiteral, Number.isNegative, h.1, Number.fixed]
    · intro rest others clean hrest
      simpa [Signed.yield, Atom.yield] using lexes_fixed h.1 h.2 clean hrest
  · exact absurd h (by simp)

theorem prints_identifier {name properties : Datum} (hname : name.isName = true)
    (hproperties : properties.isNames = true) :
    ∃ d : Expr, d.tree = .identifier name properties ∧
      Prints (.identifier name properties) d.yield := by
  obtain ⟨word, rfl, hword⟩ := Datum.isName_iff.mp hname
  obtain ⟨words, rfl, hwords⟩ := Datum.isNames_iff.mp hproperties
  refine ⟨.ofSigned (.atom (.path word words)), by simp [Signed.tree, Atom.tree], fun level => ?_⟩
  refine ⟨Node.path word words, by simp [printPath, path?], ?_⟩
  intro rest others clean hrest
  simpa [Signed.yield, Atom.yield] using writes_path hword hwords clean hrest

theorem prints_call {name : Datum} {arguments : List Node} (hname : name.isName = true)
    (harguments : ∃ d : Grammar.Arguments, d.trees = arguments ∧ PrintsList arguments d.yield) :
    ∃ d : Call, d.tree = .call name arguments ∧ Prints (.call name arguments) d.yield := by
  obtain ⟨word, rfl, hword⟩ := Datum.isName_iff.mp hname
  obtain ⟨d, rfl, hprints⟩ := harguments
  refine ⟨.mk word d, rfl, fun level => ?_⟩
  obtain ⟨texts, htexts, hwrites⟩ := hprints level
  refine ⟨word ++ "(" ++ ", ".intercalate texts ++ ")", ?_, ?_⟩
  · simp [printCallName, Datum.word?, htexts]
  · intro rest others clean hrest
    have closing := hwrites (clean_cons _ (by decide)) (lexes_ofChar (c := ')') rfl hrest)
    have opening := lexes_ofChar (c := '(') rfl closing
    have whole := lexes_word hword (by simp; decide) opening
    simpa [String.toList_append, Call.yield] using whole

theorem prints_unary {op : UnaryOp} {operand : Node} (known : op ∈ UnaryOp.all)
    (h : ∃ d : Expr, d.tree = operand ∧ Prints operand d.yield) :
    ∃ d : Expr, d.tree = .unary op operand ∧ Prints (.unary op operand) d.yield := by
  obtain ⟨sign, rfl⟩ := unarySign_of_mem known
  obtain ⟨inner, rfl, hprints⟩ := h
  refine ⟨.ofSigned (.sign sign (.atom (.paren inner))), by simp [Signed.tree, Atom.tree],
    fun level => ?_⟩
  obtain ⟨text, htext, hwrites⟩ := hprints level
  have parenthesized : ∀ {rest : List Char} {others : List Lexeme}, Lexes rest others →
      Lexes ('(' :: (text.toList ++ ')' :: rest))
        (.mark .openParen :: (inner.yield ++ .mark .closeParen :: others)) := fun hrest =>
    lexes_ofChar rfl (hwrites (clean_cons _ (by decide)) (lexes_ofChar rfl hrest))
  cases sign with
  | plus =>
    refine ⟨"+(" ++ text ++ ")", by simp [printLead, UnarySign.operator, UnaryOp.symbol,
      Datum.word?, htext], ?_⟩
    intro rest others clean hrest
    simpa [String.toList_append, Signed.yield, Atom.yield, UnarySign.lexeme] using
      lexes_ofChar (c := '+') rfl (parenthesized hrest)
  | minus =>
    refine ⟨"-(" ++ text ++ ")", by simp [printLead, UnarySign.operator, UnaryOp.symbol,
      Datum.word?, htext], ?_⟩
    intro rest others clean hrest
    simpa [String.toList_append, Signed.yield, Atom.yield, UnarySign.lexeme] using
      lexes_ofChar (c := '-') rfl (parenthesized hrest)
  | not =>
    refine ⟨"not (" ++ text ++ ")", by simp [printLead, UnarySign.operator, htext], ?_⟩
    intro rest others clean hrest
    simpa [String.toList_append, Signed.yield, Atom.yield, UnarySign.lexeme, Keyword.spelling] using
      lexes_keyword .not (by simp; decide) (lexes_space (parenthesized hrest))

theorem prints_binary {op : BinaryOp} {left right : Node} (known : op ∈ BinaryOp.all)
    (hleft : ∃ d : Expr, d.tree = left ∧ Prints left d.yield)
    (hright : ∃ d : Expr, d.tree = right ∧ Prints right d.yield) :
    ∃ d : Expr, d.tree = .binary op left right ∧ Prints (.binary op left right) d.yield := by
  obtain ⟨dl, rfl, hleft⟩ := hleft
  obtain ⟨dr, rfl, hright⟩ := hright
  rcases sign_of_mem known with ⟨sign, rfl⟩ | ⟨tier, sign, rfl⟩
  · refine ⟨.logicalPair dl sign dr, Expr.tree_logicalPair dl sign dr, fun level => ?_⟩
    obtain ⟨textl, htextl, hwritesl⟩ := hleft level
    obtain ⟨textr, htextr, hwritesr⟩ := hright level
    refine ⟨_, by simp only [print, htextl, htextr, ok_bind]; rfl, ?_⟩
    rw [Expr.yield_logicalPair]
    exact writes_binary hwritesl hwritesr (lexes_logicalSign sign)
  · refine ⟨.pair dl sign dr, Expr.tree_pair dl sign dr, fun level => ?_⟩
    obtain ⟨textl, htextl, hwritesl⟩ := hleft level
    obtain ⟨textr, htextr, hwritesr⟩ := hright level
    refine ⟨_, by simp only [print, htextl, htextr, ok_bind]; rfl, ?_⟩
    rw [Expr.yield_pair]
    exact writes_binary hwritesl hwritesr (lexes_sign sign)

mutual

theorem prints_expr (node : Node) (h : node.exprOk = true) :
    ∃ d : Expr, d.tree = node ∧ Prints node d.yield := by
  cases node with
  | literal value => exact prints_literal h
  | identifier name properties =>
    simp only [exprOk, Bool.and_eq_true] at h
    exact prints_identifier h.1 h.2
  | call name arguments =>
    simp only [exprOk, Bool.and_eq_true] at h
    obtain ⟨d, htree, hprints⟩ := prints_call h.1 (prints_arguments arguments h.2)
    exact ⟨.ofCall d, by simp [Expr.ofCall, Signed.tree, Atom.tree, htree], by simpa using hprints⟩
  | unary op operand =>
    simp only [exprOk, Bool.and_eq_true, decide_eq_true_eq] at h
    exact prints_unary h.1 (prints_expr operand h.2)
  | binary op left right =>
    simp only [exprOk, Bool.and_eq_true, decide_eq_true_eq] at h
    exact prints_binary h.1.1 (prints_expr left h.1.2) (prints_expr right h.2)
  | _ => simp [exprOk] at h
termination_by structural node

theorem prints_arguments (nodes : List Node) (h : exprsOk nodes = true) :
    ∃ d : Grammar.Arguments, d.trees = nodes ∧ PrintsList nodes d.yield := by
  cases nodes with
  | nil => exact ⟨.none, rfl, fun level => ⟨[], rfl, fun clean h => h⟩⟩
  | cons node rest =>
    simp only [exprsOk, Bool.and_eq_true] at h
    obtain ⟨first, rfl, hfirst⟩ := prints_expr node h.1
    obtain ⟨more, rfl, hmore⟩ := prints_moreArguments rest h.2
    refine ⟨.some first more, rfl, fun level => ?_⟩
    obtain ⟨text, htext, hwrites⟩ := hfirst level
    obtain ⟨texts, htexts, hjoin⟩ := hmore level
    exact ⟨text :: texts, by simp [htext, htexts], hjoin hwrites⟩
termination_by structural nodes

/-- The arguments behind the first one, whatever that is. -/
theorem prints_moreArguments (nodes : List Node) (h : exprsOk nodes = true) :
    ∃ d : MoreArguments, d.trees = nodes ∧ ∀ level : Int, ∃ texts,
      printAll level nodes = .ok texts ∧
      ∀ {first : String} {lexemes : List Lexeme}, Writes first lexemes →
        Writes (", ".intercalate (first :: texts)) (lexemes ++ d.yield) := by
  cases nodes with
  | nil =>
    refine ⟨.done, rfl, fun level => ⟨[], rfl, fun hfirst => ?_⟩⟩
    rw [String.intercalate_singleton, MoreArguments.yield, List.append_nil]
    exact @hfirst
  | cons node rest =>
    simp only [exprsOk, Bool.and_eq_true] at h
    obtain ⟨second, rfl, hsecond⟩ := prints_expr node h.1
    obtain ⟨more, rfl, hmore⟩ := prints_moreArguments rest h.2
    refine ⟨.more second more, rfl, fun level => ?_⟩
    obtain ⟨text, htext, hwrites⟩ := hsecond level
    obtain ⟨texts, htexts, hjoin⟩ := hmore level
    refine ⟨text :: texts, by simp [htext, htexts], ?_⟩
    intro first lexemes hfirst rest others clean hrest
    have behind := lexes_ofChar (c := ',') rfl (lexes_space (hjoin hwrites clean hrest))
    rw [toList_intercalate_cons]
    simpa [MoreArguments.yield] using hfirst (clean_cons _ (by decide)) behind
termination_by structural nodes

end

/-! ## Statements -/

/-- At every level, the nodes are printed as lines that split off the lexemes in front of any
text. -/
def PrintsLines (nodes : List Node) (lexemes : List Lexeme) : Prop :=
  ∀ level : Int, ∃ text, printLines level nodes = .ok text ∧
    ∀ {rest : List Char} {others : List Lexeme}, Lexes rest others →
      Lexes (text.toList ++ rest) (lexemes ++ others)

/-- What starts with a blank does not go on with a word. -/
theorem behind_space (rest : List Char) : ∀ c ∈ (' ' :: rest).head?, isWordChar c = false := by
  simp only [List.head?_cons, Option.mem_def, Option.some.injEq, forall_eq']
  decide

theorem prints_declaration {name : Datum} {initial : Node} (isConst : Bool)
    (hname : name.isName = true) (h : ∃ d : Expr, d.tree = initial ∧ Prints initial d.yield) :
    ∃ d : Statement, d.tree = .declaration isConst name initial ∧ (∀ next, d.Greedy next) ∧
      Prints (.declaration isConst name initial) d.yield := by
  obtain ⟨word, rfl, hword⟩ := Datum.isName_iff.mp hname
  obtain ⟨d, rfl, hprints⟩ := h
  refine ⟨.declaration isConst word d, rfl, fun _ => trivial, fun level => ?_⟩
  obtain ⟨text, htext, hwrites⟩ := hprints level
  refine ⟨_, by simp only [print, htext, ok_bind]; rfl, ?_⟩
  intro rest others clean hrest
  have equals := lexes_ofChar (c := '=') rfl (lexes_space (hwrites clean hrest))
  have named := lexes_word hword (behind_space _) (lexes_space equals)
  have whole := lexes_keyword (declarationKeyword isConst) (behind_space _) (lexes_space named)
  simpa [String.toList_append, Statement.yield, Datum.asText, declarationKeyword] using whole

theorem prints_assignment {target value : Node} (htarget : target.targetOk = true)
    (h : ∃ d : Expr, d.tree = value ∧ Prints value d.yield) :
    ∃ d : Statement, d.tree = .assignment target value ∧ (∀ next, d.Greedy next) ∧
      Prints (.assignment target value) d.yield := by
  unfold targetOk at htarget
  split at htarget
  · rename_i name properties
    simp only [Bool.and_eq_true] at htarget
    obtain ⟨word, rfl, hword⟩ := Datum.isName_iff.mp htarget.1
    obtain ⟨words, rfl, hwords⟩ := Datum.isNames_iff.mp htarget.2
    obtain ⟨d, rfl, hprints⟩ := h
    refine ⟨.set word words d, rfl, fun _ => trivial, fun level => ?_⟩
    obtain ⟨text, htext, hwrites⟩ := hprints level
    refine ⟨"set " ++ path word words ++ " = " ++ text,
      by simp [printTarget, printPath, path?, htext], ?_⟩
    intro rest others clean hrest
    have equals := lexes_ofChar (c := '=') rfl (lexes_space (hwrites clean hrest))
    have named := writes_path hword hwords (clean_cons _ (by decide)) (lexes_space equals)
    have whole := lexes_keyword .set (behind_space _) (lexes_space named)
    simpa [String.toList_append, Statement.yield, Keyword.spelling] using whole
  · exact absurd htarget (by simp)

theorem prints_function {word : String} {words : List String} {statements : List Node}
    {body : Statements} (hword : isName word = true) (hwords : ∀ word ∈ words, isName word = true)
    (hprints : PrintsLines statements body.yield) :
    Prints (.function (.text word) (.ofWords words) (.block statements))
      (Statement.func word words body).yield := by
  intro level
  obtain ⟨text, htext, hwrites⟩ := hprints (level + 1)
  refine ⟨"func " ++ word ++ "(" ++ ", ".intercalate words ++ ") \x7b\n" ++ text ++
    Text.margin level ++ "\x7d", ?_, ?_⟩
  · simp [printParams, printBody, Datum.ofWords, Datum.items?, Datum.asText, htext]
  · intro rest others clean hrest
    have closing := lexes_margin level (lexes_ofChar (c := '\x7d') rfl hrest)
    have opening := lexes_ofChar (c := '\x7b') rfl (lexes_line (hwrites closing))
    have listed := writes_words hwords (clean_cons _ (by decide))
      (lexes_ofChar (c := ')') rfl (lexes_space opening))
    have named := lexes_word hword (by simp; decide) (lexes_ofChar (c := '(') rfl listed)
    have whole := lexes_keyword .func (behind_space _) (lexes_space named)
    simpa [String.toList_append, Statement.yield, Keyword.spelling] using whole

theorem prints_giveBack {value : Node} (present : value ≠ .absent)
    (h : ∃ d : Expr, d.tree = value ∧ Prints value d.yield) :
    ∃ d : Statement, d.tree = .giveBack value ∧ (∀ next, d.Greedy next) ∧
      Prints (.giveBack value) d.yield := by
  obtain ⟨d, rfl, hprints⟩ := h
  refine ⟨.giveBack d, rfl, fun _ => trivial, fun level => ?_⟩
  obtain ⟨text, htext, hwrites⟩ := hprints level
  refine ⟨"return " ++ text, ?_, ?_⟩
  · unfold print
    split
    all_goals simp_all
  · intro rest others clean hrest
    have whole := lexes_keyword .return_ (behind_space _) (lexes_space (hwrites clean hrest))
    simpa [String.toList_append, Statement.yield, Keyword.spelling] using whole

theorem prints_bareReturn : Prints (.giveBack .absent) Statement.bareReturn.yield := by
  intro level
  refine ⟨"return", rfl, ?_⟩
  intro rest others clean hrest
  exact lexes_keyword .return_ (fun c hc => (clean c hc).1) hrest

/-- The front of a choice, up to its first branch. -/
theorem writes_if {condition : String} {lexemes others : List Lexeme} {rest : List Char}
    (hwrites : Writes condition lexemes) (hrest : Lexes rest others) :
    Lexes
      ('i' :: 'f' :: ' ' :: (condition.toList ++ ' ' :: 't' :: 'h' :: 'e' :: 'n' :: '\n' :: rest))
      (.keyword .if_ :: (lexemes ++ .keyword .then_ :: others)) := by
  have line : ∀ c ∈ ('\n' :: rest).head?, isWordChar c = false := by simp; decide
  have thenKeyword := lexes_space (lexes_keyword .then_ line (lexes_line hrest))
  exact lexes_keyword .if_ (behind_space _)
    (lexes_space (hwrites (clean_cons _ (by decide)) thenKeyword))

theorem prints_choice {condition : Node} {thenPart : List Node} {c : Expr} {t : Statements}
    (hcondition : Prints condition c.yield) (hthen : PrintsLines thenPart t.yield) :
    Prints (.choice condition (.block thenPart) .absent) (Statement.choice c t).yield := by
  intro level
  obtain ⟨textc, htextc, hwritesc⟩ := hcondition level
  obtain ⟨textt, htextt, hwritest⟩ := hthen (level + 1)
  refine ⟨"if " ++ textc ++ " then\n" ++ textt ++ "" ++ Text.margin level ++ "end", ?_, ?_⟩
  · simp [printBody, printElse, htextc, htextt]
  · intro rest others clean hrest
    have closing := lexes_margin level
      (lexes_keyword .end_ (fun c hc => (clean c hc).1) hrest)
    have whole := writes_if hwritesc (hwritest closing)
    simpa [String.toList_append, Statement.yield, Keyword.spelling] using whole

theorem prints_choiceElse {condition : Node} {thenPart elsePart : List Node} {c : Expr}
    {t e : Statements} (hcondition : Prints condition c.yield)
    (hthen : PrintsLines thenPart t.yield) (helse : PrintsLines elsePart e.yield) :
    Prints (.choice condition (.block thenPart) (.block elsePart))
      (Statement.choiceElse c t e).yield := by
  intro level
  obtain ⟨textc, htextc, hwritesc⟩ := hcondition level
  obtain ⟨textt, htextt, hwritest⟩ := hthen (level + 1)
  obtain ⟨texte, htexte, hwritese⟩ := helse (level + 1)
  refine ⟨"if " ++ textc ++ " then\n" ++ textt ++ (Text.margin level ++ "else\n" ++ texte) ++
    Text.margin level ++ "end", ?_, ?_⟩
  · simp [printBody, printElse, htextc, htextt, htexte]
  · intro rest others clean hrest
    have closing := lexes_margin level
      (lexes_keyword .end_ (fun c hc => (clean c hc).1) hrest)
    have middle := lexes_margin level (lexes_keyword .else_ (by simp; decide)
      (lexes_line (hwritese closing)))
    have whole := writes_if hwritesc (hwritest middle)
    simpa [String.toList_append, Statement.yield, Keyword.spelling] using whole

/-- Unless a call stands behind a bare `return`, nothing is joined. -/
theorem join_eq_cons {first : Statement} {rest : Statements}
    (h : (isBareReturn first.tree && startsWithCall rest.trees) = false) :
    Statements.join first rest = .cons first rest := by
  unfold Statements.join
  split
  · simp [Statement.tree, isBareReturn, Statements.trees, startsWithCall] at h
  · rfl

mutual

theorem prints_statement (node : Node) (h : node.statementOk = true) :
    ∃ d : Statement, d.tree = node ∧ (d = .bareReturn ∨ ∀ next, d.Greedy next) ∧
      Prints node d.yield := by
  -- all statements but the bare return are greedy whatever follows
  suffices greedy : isBareReturn node = false → ∃ d : Statement, d.tree = node ∧
      (∀ next, d.Greedy next) ∧ Prints node d.yield by
    cases bare : isBareReturn node with
    | false =>
      obtain ⟨d, htree, hgreedy, hprints⟩ := greedy bare
      exact ⟨d, htree, .inr hgreedy, hprints⟩
    | true =>
      unfold isBareReturn at bare
      split at bare
      · exact ⟨.bareReturn, rfl, .inl rfl, prints_bareReturn⟩
      · exact absurd bare (by simp)
  intro bare
  cases node with
  | declaration isConst name initial =>
    simp only [statementOk, Bool.and_eq_true] at h
    exact prints_declaration isConst h.1 (prints_expr initial h.2)
  | assignment target value =>
    simp only [statementOk, Bool.and_eq_true] at h
    exact prints_assignment h.1 (prints_expr value h.2)
  | function name params body =>
    simp only [statementOk, Bool.and_eq_true] at h
    match body, h with
    | .block statements, h =>
      obtain ⟨word, rfl, hword⟩ := Datum.isName_iff.mp h.1.1
      obtain ⟨words, rfl, hwords⟩ := Datum.isNames_iff.mp h.1.2
      obtain ⟨body, rfl, greedy, hprints⟩ := prints_statements statements h.2
      exact ⟨.func word words body, rfl, fun _ => greedy _ rfl,
        prints_function hword hwords hprints⟩
  | giveBack value =>
    have present : value ≠ .absent := by
      rintro rfl
      simp [isBareReturn] at bare
    have hvalue : value.exprOk = true := by
      unfold statementOk at h
      split at h
      all_goals simp_all
    exact prints_giveBack present (prints_expr value hvalue)
  | callStatement inner =>
    simp only [statementOk] at h
    match inner, h with
    | .call name arguments, h =>
      simp only [callOk, Bool.and_eq_true] at h
      obtain ⟨d, htree, hprints⟩ := prints_call h.1 (prints_arguments arguments h.2)
      exact ⟨.call d, congrArg Node.callStatement htree, fun _ => trivial, hprints⟩
  | choice condition thenBlock elseBlock =>
    simp only [statementOk, Bool.and_eq_true] at h
    obtain ⟨c, rfl, hcondition⟩ := prints_expr condition h.1.1
    match thenBlock, elseBlock, h with
    | .block thenPart, .absent, h =>
      obtain ⟨t, rfl, greedy, hthen⟩ := prints_statements thenPart h.1.2
      exact ⟨.choice c t, rfl, fun _ => greedy _ (.inr rfl), prints_choice hcondition hthen⟩
    | .block thenPart, .block elsePart, h =>
      obtain ⟨t, rfl, greedy, hthen⟩ := prints_statements thenPart h.1.2
      obtain ⟨e, rfl, greedy', helse⟩ := prints_statements elsePart h.2
      exact ⟨.choiceElse c t e, rfl, fun _ => ⟨greedy _ (.inl rfl), greedy' _ (.inr rfl)⟩,
        prints_choiceElse hcondition hthen helse⟩
  | _ => simp [statementOk] at h
termination_by structural node

theorem prints_statements (nodes : List Node) (h : statementsOk nodes = true) :
    ∃ d : Statements, d.trees = nodes ∧ (∀ next, Closes next → d.Greedy next) ∧
      PrintsLines nodes d.yield := by
  cases nodes with
  | nil => exact ⟨.nil, rfl, fun _ _ => trivial, fun level => ⟨"", rfl, fun h => h⟩⟩
  | cons node rest =>
    simp only [statementsOk, Bool.and_eq_true, Bool.not_eq_true'] at h
    obtain ⟨first, rfl, hfirst, hprints⟩ := prints_statement node h.1.1
    obtain ⟨others, rfl, hothers, hlines⟩ := prints_statements rest h.1.2
    refine ⟨.cons first others, rfl, ?_, fun level => ?_⟩
    · intro next hnext
      rw [← join_eq_cons h.2]
      exact Statements.greedy_join hnext hfirst (hothers next hnext)
    · obtain ⟨text, htext, hwrites⟩ := hprints level
      obtain ⟨lines, hlines, hwritesLines⟩ := hlines level
      refine ⟨Text.margin level ++ text ++ "\n" ++ lines, by simp [htext, hlines], ?_⟩
      intro rest lexemes hrest
      have whole := lexes_margin level
        (hwrites (clean_cons _ (by decide)) (lexes_line (hwritesLines hrest)))
      simpa [String.toList_append, Statements.yield] using whole
termination_by structural nodes

end

/-- Where lines print a greedy derivation, the text of a block of them is parsed to its tree. -/
theorem PrintsLines.parse {nodes : List Node} {d : Statements}
    (prints : PrintsLines nodes d.yield) (greedy : d.Greedy .finish) (level : Int) :
    ∃ text, (Node.block nodes).print level = .ok text ∧ parseProgram text = .ok d.script := by
  obtain ⟨text, htext, hwrites⟩ := prints level
  have hlexes : Lexes text.toList d.yield := by simpa using hwrites Lexes.nil
  obtain ⟨tokens, htokens, hlexemes⟩ := tokenize_of_lexes hlexes
  exact ⟨text, htext,
    parseProgram_eq_ok_iff.mpr ⟨tokens, htokens, d, hlexemes.symm, greedy, rfl⟩⟩

end Node

open Lexer Grammar

/-- Printing a well-formed tree at any level of indentation and parsing the text gives the tree
back, number literals digit by digit. -/
theorem parse_print_eq (level : Int) (node : Node) :
    (node.blockOk = true → ∃ text, node.print level = .ok text ∧ parseProgram text = .ok node) ∧
    (node.exprOk = true →
      ∃ text, node.print level = .ok text ∧ parseExpression text = .ok node) := by
  constructor
  · intro h
    match node, h with
    | .block statements, h =>
      obtain ⟨d, rfl, greedy, hprints⟩ := Node.prints_statements statements h
      exact hprints.parse (greedy _ trivial) level
  · intro h
    obtain ⟨d, rfl, hprints⟩ := Node.prints_expr node h
    obtain ⟨text, htext, hwrites⟩ := hprints level
    have hlexes : Lexes text.toList d.yield := by simpa using hwrites clean_nil Lexes.nil
    obtain ⟨tokens, htokens, hlexemes⟩ := tokenize_of_lexes hlexes
    exact ⟨text, htext, parseExpression_eq_ok_iff.mpr ⟨tokens, htokens, d, hlexemes.symm, rfl⟩⟩

/-- A function whose branches hold a string over two lines, a numeral with a trailing zero and bare
returns, and a call of it. -/
def nestedScript : Node :=
  .block [
    .function (.text "pick") (.ofWords ["a", "b2"]) (.block [
      .choice
        (.binary .less (.identifier (.text "a") (.ofWords ["size"]))
          (.literal (.number (.finite ⟨false, 150, -2⟩))))
        (.block [
          .declaration true (.text "note") (.literal (.text "one \"quote\"\nand a line")),
          .giveBack .absent])
        (.block [.giveBack (.unary .minus (.identifier (.text "b2") (.ofWords [])))]),
      .giveBack .absent]),
    .callStatement (.call (.text "pick")
      [.literal (.text ""), .literal (.number (.finite ⟨false, 0, -1⟩))])]

theorem parse_print_nestedScript :
    nestedScript.blockOk = true ∧
      ∃ text, nestedScript.print 1 = .ok text ∧ parseProgram text = .ok nestedScript :=
  ⟨by decide, (parse_print_eq 1 nestedScript).1 (by decide)⟩

end ScopeScript
