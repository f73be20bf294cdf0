import Mathlib.Algebra.Order.Field.Rat
import Mathlib.Tactic.FieldSimp
import Mathlib.Tactic.Ring
import ScopeScript.Proofs.Number.Shown
import ScopeScript.Proofs.Tree.WellFormed
set_option autoImplicit false

/-!
# Tree: what a parser builds of a source

The tree of a script is well-formed, and its literals are those of the source: one for every numeral
and every quoted text, in the order in which these stand there.  A numeral means exactly what its
digits say, each counted at its place before or behind the point, however many there are.

Since the tree is well-formed, its printed text is parsed to it again and printed as it was.
-/

namespace ScopeScript

/-! ## The value of a numeral -/

namespace Lexer

/-- The value of a digit. -/
def digitValue (c : Char) : Rat := ((c.toNat - '0'.toNat : Nat) : Rat)

/-- The value of the digits before the point: each counts ten times as much as the next. -/
def wholeValue (digits : List Char) : Rat :=
  digits.foldl (fun value c => 10 * value + digitValue c) 0

/-- The value of the digits behind the point: each counts a tenth of the one before. -/
def placesValue : List Char → Rat
  | [] => 0
  | c :: rest => (digitValue c + placesValue rest) / 10

/-- The exact value of a numeral. -/
def valueOf (numeral : List Char) : Rat :=
  wholeValue (numeral.takeWhile (· != '.')) + placesValue ((numeral.dropWhile (· != '.')).drop 1)

variable {digits whole places : List Char}

theorem foldl_digitValue (digits : List Char) (n : Nat) :
    digits.foldl (fun value c => 10 * value + digitValue c) (n : Rat) =
      (Nat.ofDigitChars 10 digits n : Nat) := by
  induction digits generalizing n with
  | nil => rfl
  | cons c rest ih =>
    rw [List.foldl_cons, Nat.ofDigitChars_cons, ← ih]
    push_cast
    rfl

theorem wholeValue_eq (digits : List Char) :
    wholeValue digits = (Nat.ofDigitChars 10 digits 0 : Nat) :=
  foldl_digitValue digits 0

/-- Places count as the number that their digits write, divided by ten for each of them. -/
theorem placesValue_eq (digits : List Char) :
    placesValue digits = (Nat.ofDigitChars 10 digits 0 : Nat) / 10 ^ digits.length := by
  induction digits with
  | nil => simp [placesValue]
  | cons c rest ih =>
    have shifted : Nat.ofDigitChars 10 (c :: rest) 0 =
        10 ^ rest.length * (c.toNat - '0'.toNat) + Nat.ofDigitChars 10 rest 0 := by
      rw [Nat.ofDigitChars_cons, Nat.ofDigitChars_eq_ofDigitChars_zero, Nat.mul_zero, Nat.zero_add]
    rw [placesValue, ih, shifted, digitValue, List.length_cons, pow_succ]
    push_cast
    field_simp

/-- Digits end at the point. -/
theorem notPoint_of_digits (all : ∀ c ∈ digits, isDigit c = true) :
    ∀ c ∈ digits, (c != '.') = true := by
  intro c hc
  rw [bne_iff_ne]
  rintro rfl
  exact IsNumeral.point_notMem all hc

theorem valueOf_whole (all : ∀ c ∈ digits, isDigit c = true) :
    valueOf digits = (Nat.ofDigitChars 10 digits 0 : Nat) := by
  have taken : (digits ++ []).takeWhile (· != '.') = digits ++ [].takeWhile (· != '.') :=
    List.takeWhile_append_of_pos (notPoint_of_digits all)
  have dropped : (digits ++ []).dropWhile (· != '.') = [].dropWhile (· != '.') :=
    List.dropWhile_append_of_pos (notPoint_of_digits all)
  simp only [List.append_nil, List.takeWhile_nil, List.dropWhile_nil] at taken dropped
  simp [valueOf, taken, dropped, placesValue, wholeValue_eq]

theorem valueOf_point (all : ∀ c ∈ whole, isDigit c = true) :
    valueOf (whole ++ '.' :: places) =
      (Nat.ofDigitChars 10 (whole ++ places) 0 : Nat) / 10 ^ places.length := by
  have noPoint := notPoint_of_digits all
  have joined : Nat.ofDigitChars 10 (whole ++ places) 0 =
      10 ^ places.length * Nat.ofDigitChars 10 whole 0 + Nat.ofDigitChars 10 places 0 := by
    rw [Nat.ofDigitChars_append, Nat.ofDigitChars_eq_ofDigitChars_zero]
  rw [valueOf, List.takeWhile_append_of_pos noPoint, List.dropWhile_append_of_pos noPoint, joined]
  simp only [bne_self_eq_false, Bool.false_eq_true, not_false_eq_true, List.takeWhile_cons_of_neg,
    List.append_nil, List.dropWhile_cons_of_neg, List.drop_one, List.tail_cons, wholeValue_eq,
    placesValue_eq]
  push_cast
  field_simp

end Lexer

/-! ## Literals of a source -/

namespace Lexeme

/-- Whether the lexeme is a literal. -/
def isLiteral : Lexeme → Bool
  | .number _ | .text _ => true
  | _ => false

/-- The value that a literal has, where that is an exact one: a quoted text stands for itself and a
numeral for a number without a sign, with no exponent but one that counts its places. -/
inductive Denotes : Lexeme → Value → Prop
  | text (content : String) : Denotes (.text content) (.text content)
  | number {numeral : String} {d : Decimal} (sign : d.negative = false) (small : d.exponent ≤ 0)
      (exact_ : d.value = Lexer.valueOf numeral.toList) :
      Denotes (.number numeral) (.number (.finite d))

/-- The value that a parser makes of a literal. -/
def literal? : Lexeme → Option Value
  | .number numeral => some (.number (Grammar.numeralValue numeral))
  | .text content => some (.text content)
  | _ => none

/-- A numeral is read exactly, however long it is. -/
theorem denotes_numeral {numeral : String} (h : (Lexeme.number numeral).Written) :
    Denotes (.number numeral) (.number (Grammar.numeralValue numeral)) := by
  have digits : ∀ {run : List Char}, (∀ c ∈ run, Lexer.isDigit c = true) →
      ∀ c ∈ run, c.isDigit = true := fun all c hc => (Lexer.isDigit_eq c).symm.trans (all c hc)
  obtain ⟨text, rfl⟩ : ∃ text, numeral = String.ofList text := ⟨_, String.ofList_toList.symm⟩
  have numeral : Lexer.IsNumeral text := by simpa [Written] using h
  cases numeral with
  | whole all some_ =>
    rw [Grammar.numeralValue, Number.read?_whole (digits all) some_]
    refine .number rfl (Int.le_refl 0) ?_
    simp [Decimal.value, Lexer.valueOf_whole all]
  | @point whole places all all' some_ =>
    rw [Grammar.numeralValue, Number.read?_point (digits all) (digits all') some_]
    refine .number rfl (by simp) ?_
    simp [Decimal.value, Lexer.valueOf_point all, div_eq_mul_inv]

theorem denotes_literal {lexeme : Lexeme} {value : Value} (written : lexeme.Written)
    (h : lexeme.literal? = some value) : lexeme.Denotes value := by
  cases lexeme with
  | number numeral =>
    cases h
    exact denotes_numeral written
  | text content =>
    cases h
    exact .text content
  | _ => cases h

/-- The literals among written lexemes denote what a parser makes of them. -/
theorem forall₂_denotes {lexemes : List Lexeme} (written : Grammar.AllWritten lexemes) :
    List.Forall₂ Denotes (lexemes.filter isLiteral) (lexemes.filterMap literal?) := by
  induction lexemes with
  | nil => exact .nil
  | cons lexeme rest ih =>
    obtain ⟨first, others⟩ := Grammar.allWritten_cons.mp written
    cases hvalue : lexeme.literal? with
    | none =>
      have other : lexeme.isLiteral = false := by cases lexeme <;> first | rfl | cases hvalue
      rw [List.filter_cons_of_neg (by simp [other]), List.filterMap_cons_none hvalue]
      exact ih others
    | some value =>
      have literal : lexeme.isLiteral = true := by cases lexeme <;> first | rfl | cases hvalue
      rw [List.filter_cons_of_pos literal, List.filterMap_cons_some hvalue]
      exact .cons (denotes_literal first hvalue) (ih others)

end Lexeme

/-! ## Literals of a tree -/

namespace Grammar

@[simp] theorem Sign.literal?_lexeme {tier : Parser.Tier} (sign : Sign tier) :
    sign.lexeme.literal? = none := by
  cases sign <;> rfl

@[simp] theorem LogicalSign.literal?_lexeme (sign : LogicalSign) : sign.lexeme.literal? = none := by
  cases sign <;> rfl

@[simp] theorem UnarySign.literal?_lexeme (sign : UnarySign) : sign.lexeme.literal? = none := by
  cases sign <;> rfl

@[simp] theorem literal?_mark (mark : Mark) : (Lexeme.mark mark).literal? = none := rfl

@[simp] theorem literal?_keyword (keyword : Keyword) : (Lexeme.keyword keyword).literal? = none :=
  rfl

@[simp] theorem literal?_word (word : String) : (Lexeme.word word).literal? = none := rfl

@[simp] theorem filterMap_dotted (properties : List String) :
    (dotted properties).filterMap Lexeme.literal? = [] := by
  induction properties with
  | nil => rfl
  | cons property rest ih => simpa [dotted] using ih

@[simp] theorem filterMap_wordList (words : List String) :
    (wordList words).filterMap Lexeme.literal? = [] := by
  have others : ∀ words : List String, (commaWords words).filterMap Lexeme.literal? = [] := by
    intro words
    induction words with
    | nil => rfl
    | cons word rest ih => simpa [commaWords] using ih
  cases words with
  | nil => rfl
  | cons word rest => simpa [wordList] using others rest

mutual

theorem Expr.literals_tree (d : Expr) :
    d.tree.literals = d.yield.filterMap Lexeme.literal? := by
  cases d with
  | single operand => exact Operand.literals_tree operand
  | logical left sign right =>
    simp [Expr.tree, Expr.yield, Node.literals, Operand.literals_tree left,
      Expr.literals_tree right]
termination_by structural d

theorem Operand.literals_tree {tier : Parser.Tier} (d : Operand tier) :
    d.tree.literals = d.yield.filterMap Lexeme.literal? := by
  match d with
  | .chain first more =>
    simp [Operand.tree, Operand.yield, MoreOperands.literals_treeFrom more,
      Tighter.literals_tree first]
termination_by structural d

theorem Tighter.literals_tree {tier : Parser.Tier} (d : Tighter tier) :
    d.tree.literals = d.yield.filterMap Lexeme.literal? := by
  match tier, d with
  | _, .additive inner => exact Operand.literals_tree inner
  | _, .multiplicative inner => exact Operand.literals_tree inner
  | _, .signed inner => exact Signed.literals_tree inner
termination_by structural d

theorem MoreOperands.literals_treeFrom {tier : Parser.Tier} (d : MoreOperands tier)
    (left : Node) :
    (d.treeFrom left).literals = left.literals ++ d.yield.filterMap Lexeme.literal? := by
  match d with
  | .done => simp [MoreOperands.treeFrom, MoreOperands.yield]
  | .more sign right rest =>
    simp [MoreOperands.treeFrom, MoreOperands.yield, Node.literals,
      MoreOperands.literals_treeFrom rest, Tighter.literals_tree right]
termination_by structural d

theorem Signed.literals_tree (d : Signed) :
    d.tree.literals = d.yield.filterMap Lexeme.literal? := by
  cases d with
  | atom inner => exact Atom.literals_tree inner
  | sign sign operand =>
    simp [Signed.tree, Signed.yield, Node.literals, Signed.literals_tree operand]
termination_by structural d

theorem Atom.literals_tree (d : Atom) :
    d.tree.literals = d.yield.filterMap Lexeme.literal? := by
  cases d with
  | paren inner => simp [Atom.tree, Atom.yield, List.filterMap_cons, Expr.literals_tree inner]
  | path name properties => simp [Atom.tree, Atom.yield, Node.literals, List.filterMap_cons]
  | call inner => exact Call.literals_tree inner
  | number numeral => rfl
  | text content => rfl
termination_by structural d

theorem Call.literals_tree (d : Call) :
    d.tree.literals = d.yield.filterMap Lexeme.literal? := by
  match d with
  | .mk name arguments =>
    simp [Call.tree, Call.yield, Node.literals, List.filterMap_cons,
      Arguments.literals_trees arguments]
termination_by structural d

theorem Arguments.literals_trees (d : Arguments) :
    Node.literalsIn d.trees = d.yield.filterMap Lexeme.literal? := by
  cases d with
  | none => rfl
  | some first more =>
    simp [Arguments.trees, Arguments.yield, Node.literalsIn, Expr.literals_tree first,
      MoreArguments.literals_trees more]
termination_by structural d

theorem MoreArguments.literals_trees (d : MoreArguments) :
    Node.literalsIn d.trees = d.yield.filterMap Lexeme.literal? := by
  cases d with
  | done => rfl
  | more argument rest =>
    simp [MoreArguments.trees, MoreArguments.yield, Node.literalsIn, List.filterMap_cons,
      Expr.literals_tree argument,
      MoreArguments.literals_trees rest]
termination_by structural d

end

mutual

theorem Statement.literals_tree (d : Statement) :
    d.tree.literals = d.yield.filterMap Lexeme.literal? := by
  cases d with
  | declaration isConst name initial =>
    simp [Statement.tree, Statement.yield, Node.literals, List.filterMap_cons,
      initial.literals_tree]
  | set name properties value =>
    simp [Statement.tree, Statement.yield, Node.literals, List.filterMap_cons, value.literals_tree]
  | func name params body =>
    simp [Statement.tree, Statement.yield, Node.literals, List.filterMap_cons,
      Statements.literals_trees body]
  | bareReturn => rfl
  | giveBack value =>
    simp [Statement.tree, Statement.yield, Node.literals, List.filterMap_cons, value.literals_tree]
  | choice condition thenPart =>
    simp [Statement.tree, Statement.yield, Node.literals, List.filterMap_cons,
      condition.literals_tree,
      Statements.literals_trees thenPart]
  | choiceElse condition thenPart elsePart =>
    simp [Statement.tree, Statement.yield, Node.literals, List.filterMap_cons,
      condition.literals_tree,
      Statements.literals_trees thenPart, Statements.literals_trees elsePart]
  | call inner => exact inner.literals_tree
termination_by structural d

theorem Statements.literals_trees (d : Statements) :
    Node.literalsIn d.trees = d.yield.filterMap Lexeme.literal? := by
  cases d with
  | nil => rfl
  | cons first rest =>
    simp [Statements.trees, Statements.yield, Node.literalsIn, Statement.literals_tree first,
      Statements.literals_trees rest]
termination_by structural d

end

end Grammar

/-! ## Parsed trees -/

/-- The tree of a script is well-formed, and its literals are exactly those that the source writes,
in order.  Printed, parsed and printed once more, it gives the same text as the first time. -/
theorem parsed_trees_are_wellFormed (source : String) (tree : Node)
    (h : parseProgram source = .ok tree) :
    tree.blockOk = true ∧
    (∃ tokens, tokenize source = .ok tokens ∧
      List.Forall₂ Lexeme.Denotes ((tokens.map Token.lexeme).filter Lexeme.isLiteral)
        tree.literals) ∧
    ∀ level, ∃ text again, tree.print level = .ok text ∧ parseProgram text = .ok again ∧
      again.print level = .ok text := by
  have ok := parseProgram_blockOk h
  obtain ⟨tokens, htokens, d, hyield, -, rfl⟩ := parseProgram_eq_ok_iff.mp h
  refine ⟨ok, ⟨tokens, htokens, ?_⟩, fun level => ?_⟩
  · have literals : d.script.literals = d.yield.filterMap Lexeme.literal? := d.literals_trees
    rw [literals, ← hyield]
    exact Lexeme.forall₂_denotes (Grammar.allWritten_of_tokenize htokens hyield)
  · obtain ⟨again, same, greedy, prints⟩ := Node.prints_statements d.trees ok
    obtain ⟨text, htext, hparse⟩ := prints.parse (greedy _ trivial) level
    rw [Grammar.Statements.script, same] at hparse
    exact ⟨text, d.script, htext, hparse, htext⟩

/-- A function with bare returns in front of the end of a branch and of its body, and a call with a
long numeral. -/
def halve : Node :=
  .block [
    .function (.text "halve") (.ofWords ["n"]) (.block [
      .choice (.binary .less (.identifier (.text "n") (.ofWords []))
          (.literal (.number (.finite ⟨false, 10, -2⟩))))
        (.block [.giveBack .absent]) .absent,
      .giveBack .absent]),
    .giveBack (.call (.text "halve")
      [.literal (.number (.finite ⟨false, 10000000000000000000000000000001, -31⟩))])]

theorem parsed_trees_are_wellFormed_halve :
    ∃ source, parseProgram source = .ok halve ∧ halve.blockOk = true ∧
      (∃ tokens, tokenize source = .ok tokens ∧
        List.Forall₂ Lexeme.Denotes ((tokens.map Token.lexeme).filter Lexeme.isLiteral)
          halve.literals) ∧
      ∃ text again, halve.print 3 = .ok text ∧ parseProgram text = .ok again ∧
        again.print 3 = .ok text := by
  have parsed : parseProgram "func halve(n) { if n < .10 then return end return }
return halve(1.0000000000000000000000000000001)" = .ok halve := rfl
  obtain ⟨ok, literals, printed⟩ := parsed_trees_are_wellFormed _ _ parsed
  exact ⟨_, parsed, ok, literals, printed 3⟩

end ScopeScript
