import ScopeScript.Proofs.Grammar.Taking
set_option autoImplicit false

/-!
# Grammar: the parser derives all that the grammar derives

In front of the end of a source, or of a lexeme that cannot go on with the derivation, every parser
function takes exactly the yield of a greedy derivation of its symbol and returns the tree.

The budget has to be enough.  A step that takes no token passes on to a function of a lower rank,
and there are fewer ranks than the budget allows for each token.
-/

namespace ScopeScript.Parser

open Grammar (EndsExpr looseness tierLooseness dotted commaWords wordList)

variable {position : Position}

/-! ## Taking what is there -/

theorem advance_of_takes {tokens rest : List Token} {lexeme : Lexeme} {lexemes : List Lexeme}
    (h : Takes tokens (lexeme :: lexemes) rest) (position : Position) :
    ∃ token behind, advance (.finished position) tokens = .ok (token, behind) ∧
      token.lexeme = lexeme ∧ Readable lexeme ∧ Takes behind lexemes rest := by
  obtain ⟨token, behind, rfl, same, readable, h⟩ := h
  exact ⟨token, behind, advance_finished position _, same, readable, h⟩

theorem consume_of_takes {tokens rest : List Token} {lexeme : Lexeme} {lexemes : List Lexeme}
    (h : Takes tokens (lexeme :: lexemes) rest) (position : Position) (context : String) :
    ∃ token behind, consume (.finished position) lexeme.kind context tokens = .ok (token, behind) ∧
      Takes behind lexemes rest := by
  obtain ⟨token, behind, hadvance, same, -, h⟩ := advance_of_takes h position
  exact ⟨token, behind, by simp [consume, hadvance, same], h⟩

theorem consumeWord_of_takes {tokens rest : List Token} {name : String} {lexemes : List Lexeme}
    (h : Takes tokens (.word name :: lexemes) rest) (position : Position) (context : String) :
    ∃ behind, consumeWord (.finished position) context tokens = .ok (name, behind) ∧
      Takes behind lexemes rest := by
  obtain ⟨token, behind, hadvance, same, -, h⟩ := advance_of_takes h position
  refine ⟨behind, ?_, h⟩
  simp [consumeWord, consume, hadvance, same, Lexeme.kind, Lexeme.payload?]

/-- The kind of the token ahead is that of the first lexeme taken. -/
theorem Takes.aheadKind {lexemes : List Lexeme} {tokens rest : List Token}
    (h : Takes tokens lexemes rest) (ending : Ending) :
    aheadKind ending tokens = (lexemes.headD (Parser.ahead ending rest).lexeme).kind :=
  congrArg Lexeme.kind (h.ahead ending)

/-! ## What does not go on -/

theorem tierOperator_none {tier : Tier} {lexeme : Lexeme}
    (h : tierLooseness tier < looseness lexeme) : tier.operator? lexeme.kind = none := by
  cases hop : tier.operator? lexeme.kind with
  | none => rfl
  | some op =>
    obtain ⟨sign, rfl, -⟩ := tierOperator_iff.mp hop
    simp at h

theorem logicalOperator_none {lexeme : Lexeme} (h : EndsExpr lexeme) :
    logicalOperator? lexeme.kind = none := by
  cases hop : logicalOperator? lexeme.kind with
  | none => rfl
  | some op =>
    obtain ⟨sign, rfl, -⟩ := logicalOperator_iff.mp hop
    simp [EndsExpr] at h

/-- No atom starts with a unary operator. -/
theorem unaryOperator_none {d : Grammar.Atom} {tokens rest : List Token}
    (h : Takes tokens d.yield rest) (ending : Ending) :
    unaryOperator? (aheadKind ending tokens) = none := by
  rw [h.aheadKind]
  cases d with
  | call inner => cases inner; rfl
  | _ => rfl

/-! ## Names -/

theorem properties_complete {names : List String} {budget : Nat} {tokens rest : List Token}
    (takes : Takes tokens (dotted names) rest)
    (ends : (ahead (.finished position) rest).lexeme ≠ .mark .dot)
    (enough : (dotted names).length < budget) :
    properties (.finished position) budget tokens = .ok (names, rest) := by
  induction names generalizing budget tokens with
  | nil =>
    obtain ⟨b, rfl⟩ : ∃ b, budget = b + 1 := ⟨budget - 1, by omega⟩
    obtain rfl : tokens = rest := takes
    have : aheadKind (.finished position) tokens ≠ .mark .dot :=
      fun h => ends (lexeme_of_kind_mark h)
    simp [properties, this]
  | cons name names ih =>
    obtain ⟨b, rfl⟩ : ∃ b, budget = b + 1 := ⟨budget - 1, by omega⟩
    have hdot : aheadKind (.finished position) tokens = .mark .dot := takes.aheadKind _
    obtain ⟨token, tokens₁, hadvance, -, -, takes₁⟩ := advance_of_takes takes position
    obtain ⟨tokens₂, hword, takes₂⟩ := consumeWord_of_takes takes₁ position (named ".")
    have hrest : properties (.finished position) b tokens₂ = .ok (names, rest) := by
      apply ih takes₂
      simp only [dotted, List.flatMap_cons, List.length_append, List.length_cons,
        List.length_nil] at enough
      simp only [dotted]
      omega
    simp [properties, hdot, hadvance, hword, hrest]

theorem moreParameters_complete {names : List String} {budget : Nat} {tokens rest : List Token}
    (takes : Takes tokens (commaWords names) rest)
    (ends : (ahead (.finished position) rest).lexeme ≠ .mark .comma)
    (enough : (commaWords names).length < budget) :
    moreParameters (.finished position) budget tokens = .ok (names, rest) := by
  induction names generalizing budget tokens with
  | nil =>
    obtain ⟨b, rfl⟩ : ∃ b, budget = b + 1 := ⟨budget - 1, by omega⟩
    obtain rfl : tokens = rest := takes
    have : aheadKind (.finished position) tokens ≠ .mark .comma :=
      fun h => ends (lexeme_of_kind_mark h)
    simp [moreParameters, this]
  | cons name names ih =>
    obtain ⟨b, rfl⟩ : ∃ b, budget = b + 1 := ⟨budget - 1, by omega⟩
    have hcomma : aheadKind (.finished position) tokens = .mark .comma := takes.aheadKind _
    obtain ⟨token, tokens₁, hadvance, -, -, takes₁⟩ := advance_of_takes takes position
    obtain ⟨tokens₂, hword, takes₂⟩ := consumeWord_of_takes takes₁ position (named ",")
    have hrest : moreParameters (.finished position) b tokens₂ = .ok (names, rest) := by
      apply ih takes₂
      simp only [commaWords, List.flatMap_cons, List.length_append, List.length_cons,
        List.length_nil] at enough
      simp only [commaWords]
      omega
    simp [moreParameters, hcomma, hadvance, hword, hrest]

/-- The parameters of a function, in front of its closing parenthesis. -/
theorem parameters_complete {names : List String} {budget : Nat} {tokens rest : List Token}
    (takes : Takes tokens (wordList names) rest)
    (ends : (ahead (.finished position) rest).lexeme = .mark .closeParen)
    (enough : (wordList names).length < budget) :
    parameters (.finished position) budget tokens = .ok (names, rest) := by
  cases names with
  | nil =>
    obtain rfl : tokens = rest := takes
    have : aheadKind (.finished position) tokens = .mark .closeParen := congrArg Lexeme.kind ends
    simp [parameters, this]
  | cons name names =>
    have hkind : aheadKind (.finished position) tokens = .word := takes.aheadKind _
    obtain ⟨tokens₁, hword, takes₁⟩ := consumeWord_of_takes takes position (named "(")
    have hrest : moreParameters (.finished position) budget tokens₁ = .ok (names, rest) := by
      apply moreParameters_complete takes₁ (by simp [ends])
      simp only [wordList, List.length_cons] at enough
      omega
    simp [parameters, hkind, hword, hrest]

/-! ## Expressions -/

/-- Behind an operand of a tier stands a sign of the tier or what follows all of them. -/
theorem moreOperands_ahead {tier : Tier} (d : Grammar.MoreOperands tier) {tokens rest : List Token}
    (takes : Takes tokens d.yield rest)
    (ends : tierLooseness tier < looseness (ahead (.finished position) rest).lexeme) :
    tierLooseness tier ≤ looseness (ahead (.finished position) tokens).lexeme := by
  rw [takes.ahead]
  match d with
  | .done => exact Nat.le_of_lt ends
  | .more sign right others => simp [Grammar.MoreOperands.yield]

/-- Behind an argument stands a comma or the closing parenthesis. -/
theorem moreArguments_ahead (d : Grammar.MoreArguments) {tokens rest : List Token}
    (takes : Takes tokens d.yield rest)
    (ends : (ahead (.finished position) rest).lexeme = .mark .closeParen) :
    EndsExpr (ahead (.finished position) tokens).lexeme := by
  rw [takes.ahead]
  cases d with
  | done => simp [Grammar.MoreArguments.yield, ends, EndsExpr, looseness]
  | more argument others => simp [Grammar.MoreArguments.yield, EndsExpr, looseness]

/-- Behind a name that starts no call stands no parenthesis. -/
theorem dotted_ahead {names : List String} {tokens rest : List Token}
    (takes : Takes tokens (dotted names) rest)
    (ends : 0 < looseness (ahead (.finished position) rest).lexeme) :
    aheadKind (.finished position) tokens ≠ .mark .openParen := by
  intro h
  have hlexeme := lexeme_of_kind_mark h
  rw [takes.ahead] at hlexeme
  cases names with
  | nil =>
    rw [show (ahead (.finished position) rest).lexeme = .mark .openParen from hlexeme] at ends
    simp [looseness] at ends
  | cons name names => simp [dotted] at hlexeme

mutual

theorem expression_complete (d : Grammar.Expr) (budget : Nat) {tokens rest : List Token}
    (takes : Takes tokens d.yield rest)
    (ends : EndsExpr (ahead (.finished position) rest).lexeme)
    (enough : 12 * d.yield.length + 9 ≤ budget) :
    expression (.finished position) budget tokens = .ok (d.tree, rest) := by
  obtain ⟨b, rfl⟩ : ∃ b, budget = b + 1 := ⟨budget - 1, by omega⟩
  cases d with
  | single operand =>
    have loose := Nat.lt_trans (Grammar.tierLooseness_lt_logical .comparison) ends
    have hoperand := operand_complete operand b takes loose
      (by simp only [Grammar.Expr.yield] at enough; simp only [tierLooseness]; omega)
    have hnone : logicalOperator? (aheadKind (.finished position) rest) = none :=
      logicalOperator_none ends
    simp [expression, hoperand, hnone, Grammar.Expr.tree]
  | logical left sign right =>
    obtain ⟨middle, takesLeft, takesRight⟩ := takes_append.mp takes
    simp only [Grammar.Expr.yield, List.length_append, List.length_cons] at enough
    have hahead : (ahead (.finished position) middle).lexeme = sign.lexeme := takesRight.ahead _
    have hleft := operand_complete left b takesLeft
      (by rw [hahead, sign.looseness_lexeme]; exact Grammar.tierLooseness_lt_logical _)
      (by simp only [tierLooseness]; omega)
    have hop : logicalOperator? (aheadKind (.finished position) middle) = some sign.operator :=
      logicalOperator_iff.mpr ⟨sign, hahead.symm, rfl⟩
    obtain ⟨token, tokens₁, hadvance, -, -, takes₁⟩ := advance_of_takes takesRight position
    have hright := expression_complete right b takes₁ ends (by omega)
    simp [expression, hleft, hop, hadvance, hright, Grammar.Expr.tree]
termination_by structural d

theorem operand_complete {tier : Tier} (d : Grammar.Operand tier) (budget : Nat)
    {tokens rest : List Token} (takes : Takes tokens d.yield rest)
    (ends : tierLooseness tier < looseness (ahead (.finished position) rest).lexeme)
    (enough : 12 * d.yield.length + (2 * tierLooseness tier + 2) ≤ budget) :
    operand (.finished position) budget tier tokens = .ok (d.tree, rest) := by
  obtain ⟨b, rfl⟩ : ∃ b, budget = b + 1 := ⟨budget - 1, by omega⟩
  match d, takes, enough with
  | .chain first more, takes, enough =>
    obtain ⟨middle, takesFirst, takesMore⟩ := takes_append.mp takes
    simp only [Grammar.Operand.yield, List.length_append] at enough
    have hfirst := tighterOperand_complete first b takesFirst
      (moreOperands_ahead more takesMore ends) (by omega)
    have hmore := moreOperands_complete more first.tree b takesMore ends (by omega)
    simp [operand, hfirst, hmore, Grammar.Operand.tree]
termination_by structural d

theorem tighterOperand_complete {tier : Tier} (d : Grammar.Tighter tier) (budget : Nat)
    {tokens rest : List Token} (takes : Takes tokens d.yield rest)
    (ends : tierLooseness tier ≤ looseness (ahead (.finished position) rest).lexeme)
    (enough : 12 * d.yield.length + (2 * tierLooseness tier + 1) ≤ budget) :
    tighterOperand (.finished position) budget tier tokens = .ok (d.tree, rest) := by
  obtain ⟨b, rfl⟩ : ∃ b, budget = b + 1 := ⟨budget - 1, by omega⟩
  match tier, d, takes, ends, enough with
  | _, .additive inner, takes, ends, enough =>
    simp only [Grammar.Tighter.yield, tierLooseness] at enough
    have hinner := operand_complete inner b takes ends
      (by simp only [tierLooseness]; omega)
    simp [tighterOperand, Tier.tighter?, hinner, Grammar.Tighter.tree]
  | _, .multiplicative inner, takes, ends, enough =>
    simp only [Grammar.Tighter.yield, tierLooseness] at enough
    have hinner := operand_complete inner b takes ends
      (by simp only [tierLooseness]; omega)
    simp [tighterOperand, Tier.tighter?, hinner, Grammar.Tighter.tree]
  | _, .signed inner, takes, ends, enough =>
    simp only [Grammar.Tighter.yield, tierLooseness] at enough
    have hinner := signed_complete inner b takes ends (by omega)
    simp [tighterOperand, Tier.tighter?, hinner, Grammar.Tighter.tree]
termination_by structural d

theorem moreOperands_complete {tier : Tier} (d : Grammar.MoreOperands tier) (left : Node)
    (budget : Nat) {tokens rest : List Token} (takes : Takes tokens d.yield rest)
    (ends : tierLooseness tier < looseness (ahead (.finished position) rest).lexeme)
    (enough : 12 * d.yield.length + 1 ≤ budget) :
    moreOperands (.finished position) budget tier left tokens = .ok (d.treeFrom left, rest) := by
  obtain ⟨b, rfl⟩ : ∃ b, budget = b + 1 := ⟨budget - 1, by omega⟩
  match d, takes, enough with
  | .done, takes, enough =>
    obtain rfl : tokens = rest := takes
    have hnone : tier.operator? (aheadKind (.finished position) tokens) = none :=
      tierOperator_none ends
    simp [moreOperands, hnone, Grammar.MoreOperands.treeFrom]
  | .more sign right others, takes, enough =>
    have hop : tier.operator? (aheadKind (.finished position) tokens) = some sign.operator :=
      tierOperator_iff.mpr ⟨sign, (takes.ahead _).symm, rfl⟩
    obtain ⟨token, tokens₁, hadvance, -, -, takes₁⟩ := advance_of_takes takes position
    obtain ⟨middle, takesRight, takesMore⟩ := takes_append.mp takes₁
    simp only [Grammar.MoreOperands.yield, List.length_cons, List.length_append] at enough
    have small : tierLooseness tier ≤ 3 := by cases tier <;> decide
    have hright := tighterOperand_complete right b takesRight
      (moreOperands_ahead others takesMore ends) (by omega)
    have hmore := moreOperands_complete others (.binary sign.operator left right.tree)
      b takesMore ends (by omega)
    simp [moreOperands, hop, hadvance, hright, hmore, Grammar.MoreOperands.treeFrom]
termination_by structural d

theorem signed_complete (d : Grammar.Signed) (budget : Nat) {tokens rest : List Token}
    (takes : Takes tokens d.yield rest)
    (ends : 0 < looseness (ahead (.finished position) rest).lexeme)
    (enough : 12 * d.yield.length + 2 ≤ budget) :
    signed (.finished position) budget tokens = .ok (d.tree, rest) := by
  obtain ⟨b, rfl⟩ : ∃ b, budget = b + 1 := ⟨budget - 1, by omega⟩
  cases d with
  | atom inner =>
    simp only [Grammar.Signed.yield] at enough
    have hnone := unaryOperator_none (d := inner) takes (.finished position)
    have hinner := atom_complete inner b takes ends (by omega)
    simp [signed, hnone, hinner, Grammar.Signed.tree]
  | sign sign operand =>
    simp only [Grammar.Signed.yield, List.length_cons] at enough
    have hop : unaryOperator? (aheadKind (.finished position) tokens) = some sign.operator :=
      unaryOperator_iff.mpr ⟨sign, (takes.ahead _).symm, rfl⟩
    obtain ⟨token, tokens₁, hadvance, -, -, takes₁⟩ := advance_of_takes takes position
    have hoperand := signed_complete operand b takes₁ ends (by omega)
    simp [signed, hop, hadvance, hoperand, Grammar.Signed.tree]
termination_by structural d

theorem atom_complete (d : Grammar.Atom) (budget : Nat) {tokens rest : List Token}
    (takes : Takes tokens d.yield rest)
    (ends : 0 < looseness (ahead (.finished position) rest).lexeme)
    (enough : 12 * d.yield.length + 1 ≤ budget) :
    atom (.finished position) budget tokens = .ok (d.tree, rest) := by
  obtain ⟨b, rfl⟩ : ∃ b, budget = b + 1 := ⟨budget - 1, by omega⟩
  cases d with
  | paren inner =>
    simp only [Grammar.Atom.yield, List.length_cons, List.length_append, List.length_nil] at enough
    obtain ⟨token, tokens₁, hadvance, same, -, takes₁⟩ := advance_of_takes takes position
    obtain ⟨middle, takesInner, takesClose⟩ := takes_append.mp takes₁
    have hinner := expression_complete inner b takesInner
      (by rw [takesClose.ahead]; simp [EndsExpr, looseness]) (by omega)
    obtain ⟨closing, tokens₂, hclose, rfl⟩ :=
      consume_of_takes takesClose position "parenthesized expression"
    simp only [Lexeme.kind] at hclose
    simp [atom, hadvance, same, hinner, hclose, Grammar.Atom.tree]
  | path name names =>
    simp only [Grammar.Atom.yield, List.length_cons] at enough
    obtain ⟨token, tokens₁, hadvance, same, -, takes₁⟩ := advance_of_takes takes position
    have hnotCall := dotted_ahead takes₁ ends
    have hnames : properties (.finished position) b tokens₁ = .ok (names, rest) := by
      apply properties_complete takes₁ _ (by omega)
      intro h
      simp [h, looseness] at ends
    simp [atom, hadvance, same, hnotCall, hnames, Grammar.Atom.tree]
  | call inner =>
    match inner with
    | .mk name arguments =>
      simp only [Grammar.Atom.yield, Grammar.Call.yield, List.length_cons, List.length_append,
        List.length_nil] at enough
      obtain ⟨token, tokens₁, hadvance, same, -, takes₁⟩ := advance_of_takes takes position
      have hopen : aheadKind (.finished position) tokens₁ = .mark .openParen := takes₁.aheadKind _
      have harguments := arguments_complete arguments b takes₁ (by omega)
      simp [atom, hadvance, same, hopen, harguments, Grammar.Atom.tree, Grammar.Call.tree]
  | number numeral =>
    obtain ⟨token, tokens₁, hadvance, same, readable, rfl⟩ := advance_of_takes takes position
    obtain ⟨value, hvalue⟩ := Option.isSome_iff_exists.mp readable
    simp [atom, hadvance, same, hvalue, Grammar.Atom.tree, Grammar.numeralValue]
  | text content =>
    obtain ⟨token, tokens₁, hadvance, same, -, rfl⟩ := advance_of_takes takes position
    simp [atom, hadvance, same, Grammar.Atom.tree]
termination_by structural d

theorem arguments_complete (d : Grammar.Arguments) (budget : Nat) {tokens rest : List Token}
    (takes : Takes tokens (.mark .openParen :: (d.yield ++ [.mark .closeParen])) rest)
    (enough : 12 * d.yield.length + 10 ≤ budget) :
    arguments (.finished position) budget tokens = .ok (d.trees, rest) := by
  obtain ⟨b, rfl⟩ : ∃ b, budget = b + 1 := ⟨budget - 1, by omega⟩
  obtain ⟨opening, tokens₁, hopen, takes₁⟩ := consume_of_takes takes position "function name"
  obtain ⟨middle, takesInner, takesClose⟩ := takes_append.mp takes₁
  obtain ⟨closing, tokens₂, hclose, rfl⟩ := consume_of_takes takesClose position "function argument"
  simp only [Lexeme.kind] at hopen hclose
  cases d with
  | none =>
    obtain rfl : tokens₁ = middle := takesInner
    have hkind : aheadKind (.finished position) tokens₁ = .mark .closeParen :=
      takesClose.aheadKind _
    simp [arguments, hopen, hkind, hclose, Grammar.Arguments.trees]
  | some first more =>
    simp only [Grammar.Arguments.yield, List.length_append] at enough
    obtain ⟨middle₁, takesFirst, takesMore⟩ := takes_append.mp takesInner
    have hkind : aheadKind (.finished position) tokens₁ ≠ .mark .closeParen := by
      obtain ⟨lexeme, others, hyield, hstart⟩ := first.starts
      rw [takesFirst.aheadKind, hyield, List.headD_cons]
      intro h
      simp [h, startsExpression] at hstart
    have closes : (ahead (.finished position) middle).lexeme = .mark .closeParen :=
      takesClose.ahead _
    have hfirst := expression_complete first b takesFirst
      (moreArguments_ahead more takesMore closes) (by omega)
    have hmore := moreArguments_complete more b takesMore closes (by omega)
    simp [arguments, hopen, hkind, hfirst, hmore, hclose, Grammar.Arguments.trees]
termination_by structural d

theorem moreArguments_complete (d : Grammar.MoreArguments) (budget : Nat)
    {tokens rest : List Token} (takes : Takes tokens d.yield rest)
    (ends : (ahead (.finished position) rest).lexeme = .mark .closeParen)
    (enough : 12 * d.yield.length + 1 ≤ budget) :
    moreArguments (.finished position) budget tokens = .ok (d.trees, rest) := by
  obtain ⟨b, rfl⟩ : ∃ b, budget = b + 1 := ⟨budget - 1, by omega⟩
  cases d with
  | done =>
    obtain rfl : tokens = rest := takes
    have hkind : aheadKind (.finished position) tokens = .mark .closeParen :=
      congrArg Lexeme.kind ends
    simp [moreArguments, hkind, Grammar.MoreArguments.trees]
  | more argument others =>
    simp only [Grammar.MoreArguments.yield, List.length_cons, List.length_append] at enough
    have hkind : aheadKind (.finished position) tokens = .mark .comma := takes.aheadKind _
    obtain ⟨token, tokens₁, hadvance, -, -, takes₁⟩ := advance_of_takes takes position
    obtain ⟨middle, takesArgument, takesMore⟩ := takes_append.mp takes₁
    have hargument := expression_complete argument b takesArgument
      (moreArguments_ahead others takesMore ends) (by omega)
    have hmore := moreArguments_complete others b takesMore ends (by omega)
    simp [moreArguments, hkind, hadvance, hargument, hmore, Grammar.MoreArguments.trees]
termination_by structural d

end

/-! ## Statements -/

theorem initializer_complete {d : Grammar.Expr} {budget : Nat} {tokens rest : List Token}
    (takes : Takes tokens (.mark .equals :: d.yield) rest)
    (ends : EndsExpr (ahead (.finished position) rest).lexeme)
    (enough : 12 * d.yield.length + 9 ≤ budget) (name : String) :
    initializer (.finished position) budget name tokens = .ok (d.tree, rest) := by
  obtain ⟨token, tokens₁, hequals, takes₁⟩ := consume_of_takes takes position (named name)
  simp only [Lexeme.kind] at hequals
  have hvalue := expression_complete d budget takes₁ ends enough
  simp [initializer, hequals, hvalue]

theorem declaration_complete {isConst : Bool} {name : String} {d : Grammar.Expr} {budget : Nat}
    {tokens rest : List Token} {lexeme : Lexeme}
    (takes : Takes tokens (lexeme :: .word name :: .mark .equals :: d.yield) rest)
    (ends : EndsExpr (ahead (.finished position) rest).lexeme)
    (enough : 12 * d.yield.length + 9 ≤ budget) (keyword : Keyword) :
    declaration (.finished position) budget keyword isConst tokens =
      .ok (.declaration isConst (.text name) d.tree, rest) := by
  obtain ⟨token, tokens₁, hadvance, -, -, takes₁⟩ := advance_of_takes takes position
  obtain ⟨tokens₂, hword, takes₂⟩ := consumeWord_of_takes takes₁ position (named keyword.spelling)
  have hinitial := initializer_complete takes₂ ends enough name
  simp [declaration, hadvance, hword, hinitial]

theorem assignment_complete {name : String} {names : List String} {d : Grammar.Expr} {budget : Nat}
    {tokens rest : List Token}
    (takes : Takes tokens (Grammar.Statement.set name names d).yield rest)
    (ends : EndsExpr (ahead (.finished position) rest).lexeme)
    (enough : 12 * (Grammar.Statement.set name names d).yield.length ≤ budget) :
    assignment (.finished position) budget tokens =
      .ok ((Grammar.Statement.set name names d).tree, rest) := by
  simp only [Grammar.Statement.yield, List.length_cons, List.length_append] at enough
  obtain ⟨token, tokens₁, hadvance, -, -, takes₁⟩ := advance_of_takes takes position
  obtain ⟨tokens₂, hword, takes₂⟩ :=
    consumeWord_of_takes takes₁ position (named (Keyword.spelling .set))
  obtain ⟨middle, takesPath, takesValue⟩ := takes_append.mp takes₂
  have hpath : properties (.finished position) budget tokens₂ = .ok (names, middle) :=
    properties_complete takesPath (by simp [takesValue.ahead]) (by omega)
  have hvalue : initializer (.finished position) budget (Node.path name names) middle =
      .ok (d.tree, rest) := initializer_complete takesValue ends (by omega) _
  simp [assignment, hadvance, hword, hpath, hvalue, Grammar.Statement.tree]

/-- A `return` takes a value because an expression starts behind it. -/
theorem giveBack_complete {d : Grammar.Expr} {budget : Nat} {tokens rest : List Token}
    (takes : Takes tokens (.keyword .return_ :: d.yield) rest)
    (ends : EndsExpr (ahead (.finished position) rest).lexeme)
    (enough : 12 * d.yield.length + 9 ≤ budget) :
    giveBack (.finished position) budget tokens = .ok (.giveBack d.tree, rest) := by
  obtain ⟨token, tokens₁, hadvance, -, -, takes₁⟩ := advance_of_takes takes position
  have hstarts : startsExpression (aheadKind (.finished position) tokens₁) = true := by
    obtain ⟨lexeme, others, hyield, hstart⟩ := d.starts
    rw [takes₁.aheadKind, hyield, List.headD_cons]
    exact hstart
  have hvalue := expression_complete d budget takes₁ ends enough
  simp [giveBack, hadvance, hstarts, hvalue]

/-- A `return` takes no value because no expression starts behind it. -/
theorem bareReturn_complete {budget : Nat} {tokens rest : List Token}
    (takes : Takes tokens [.keyword .return_] rest)
    (greedy : ¬ Grammar.CanStart (ahead (.finished position) rest).lexeme) :
    giveBack (.finished position) budget tokens = .ok (.giveBack .absent, rest) := by
  obtain ⟨token, tokens₁, hadvance, -, -, rfl⟩ := advance_of_takes takes position
  have hstarts : startsExpression (aheadKind (.finished position) tokens₁) = false := by
    rw [← Bool.not_eq_true]
    exact fun starts => greedy ((Grammar.canStart_iff _).mpr starts)
  simp [giveBack, hadvance, hstarts]

theorem callStatement_complete {name : String} {d : Grammar.Arguments} {budget : Nat}
    {tokens rest : List Token} (takes : Takes tokens (Grammar.Call.mk name d).yield rest)
    (enough : 12 * (Grammar.Call.mk name d).yield.length ≤ budget) :
    callStatement (.finished position) budget name tokens =
      .ok (.callStatement (Grammar.Call.mk name d).tree, rest) := by
  simp only [Grammar.Call.yield, List.length_cons, List.length_append, List.length_nil] at enough
  obtain ⟨token, tokens₁, hadvance, -, -, takes₁⟩ := advance_of_takes takes position
  have hopen : aheadKind (.finished position) tokens₁ = .mark .openParen := takes₁.aheadKind _
  have harguments : arguments (.finished position) budget tokens₁ = .ok (d.trees, rest) :=
    arguments_complete d budget takes₁ (by omega)
  simp [callStatement, hadvance, hopen, harguments, Grammar.Call.tree]

/-- The front of a choice, up to its first branch. -/
theorem choice_front {condition : Grammar.Expr} {lexemes : List Lexeme} {budget : Nat}
    {tokens rest : List Token}
    (takes : Takes tokens (.keyword .if_ :: (condition.yield ++ .keyword .then_ :: lexemes)) rest)
    (enough : 12 * condition.yield.length + 9 ≤ budget) (position : Position) :
    ∃ token thenToken tokens₁ tokens₂ tokens₃,
      advance (.finished position) tokens = .ok (token, tokens₁) ∧
      expression (.finished position) budget tokens₁ = .ok (condition.tree, tokens₂) ∧
      consume (.finished position) (.keyword .then_) "'if' condition" tokens₂ =
        .ok (thenToken, tokens₃) ∧
      Takes tokens₃ lexemes rest := by
  obtain ⟨token, tokens₁, hadvance, -, -, takes₁⟩ := advance_of_takes takes position
  obtain ⟨tokens₂, takesCondition, takes₂⟩ := takes_append.mp takes₁
  have hcondition : expression (.finished position) budget tokens₁ =
      .ok (condition.tree, tokens₂) := by
    apply expression_complete condition budget takesCondition _ enough
    simp [takes₂.ahead, EndsExpr, looseness]
  obtain ⟨thenToken, tokens₃, hthen, takes₃⟩ := consume_of_takes takes₂ position "'if' condition"
  exact ⟨token, thenToken, tokens₁, tokens₂, tokens₃, hadvance, hcondition, hthen, takes₃⟩

theorem closes_closeBrace (lexeme : Lexeme) (h : lexeme.kind ∈ [Kind.mark .closeBrace]) :
    Grammar.Closes lexeme := by
  rw [lexeme_of_kind_mark (List.mem_singleton.mp h)]
  rfl

theorem closes_end (lexeme : Lexeme) (h : lexeme.kind ∈ [Kind.keyword .end_]) :
    Grammar.Closes lexeme := by
  rw [lexeme_of_kind_keyword (List.mem_singleton.mp h)]
  exact .inr rfl

theorem closes_else_end (lexeme : Lexeme)
    (h : lexeme.kind ∈ [Kind.keyword .else_, Kind.keyword .end_]) : Grammar.Closes lexeme := by
  rcases List.mem_cons.mp h with h | h
  · rw [lexeme_of_kind_keyword h]
    exact .inl rfl
  · exact closes_end lexeme h

theorem closes_finish (lexeme : Lexeme) (h : lexeme.kind ∈ [Kind.finish]) :
    Grammar.Closes lexeme := by
  rw [lexeme_of_kind_finish (List.mem_singleton.mp h)]
  trivial

/-- Behind a statement of a list stands the next one or what closes the list. -/
theorem statements_ahead (d : Grammar.Statements) {tokens rest : List Token}
    (takes : Takes tokens d.yield rest)
    (closes : Grammar.Closes (ahead (.finished position) rest).lexeme) :
    EndsExpr (ahead (.finished position) tokens).lexeme := by
  have ends := d.endsExpr_next (r := [(ahead (.finished position) rest).lexeme]) closes
  rwa [Grammar.next_append, Grammar.next_cons, ← takes.ahead] at ends

/-- The statements of a block are read up to the lexeme that closes it.  A function and a choice
are read if their blocks are: the induction over statements shows that these are. -/
def ReadsBlock (position : Position) (budget : Nat) (closers : List Kind)
    (unclosed : GrammarProblem) (d : Grammar.Statements) (closing : Lexeme) : Prop :=
  ∀ {tokens rest : List Token}, Takes tokens d.yield rest →
    (ahead (.finished position) rest).lexeme = closing →
    statements (.finished position) budget closers unclosed tokens = .ok (d.trees, rest)

theorem function_complete {name : String} {params : List String} {body : Grammar.Statements}
    {budget : Nat} {tokens rest : List Token}
    (takes : Takes tokens (Grammar.Statement.func name params body).yield rest)
    (bodyReads : ReadsBlock position budget [.mark .closeBrace] .openBody body (.mark .closeBrace))
    (enough : (wordList params).length < budget) :
    function (.finished position) (budget + 1) tokens =
      .ok ((Grammar.Statement.func name params body).tree, rest) := by
  obtain ⟨token, tokens₁, hadvance, -, -, takes₁⟩ := advance_of_takes takes position
  obtain ⟨tokens₂, hword, takes₂⟩ :=
    consumeWord_of_takes takes₁ position (named (Keyword.spelling .func))
  obtain ⟨opening, tokens₃, hopen, takes₃⟩ := consume_of_takes takes₂ position "function name"
  obtain ⟨tokens₄, takesParams, takes₄⟩ := takes_append.mp takes₃
  have hparams : parameters (.finished position) budget tokens₃ = .ok (params, tokens₄) :=
    parameters_complete takesParams (takes₄.ahead _) enough
  obtain ⟨closing, tokens₅, hclose, takes₅⟩ := consume_of_takes takes₄ position "parameter list"
  obtain ⟨brace, tokens₆, hbrace, takes₆⟩ := consume_of_takes takes₅ position "function parameters"
  obtain ⟨tokens₇, takesBody, takesFinal⟩ := takes_append.mp takes₆
  have hbody := bodyReads takesBody (takesFinal.ahead _)
  obtain ⟨final, tokens₈, hfinal, -, -, rfl⟩ := advance_of_takes takesFinal position
  simp only [Lexeme.kind] at hopen hclose hbrace
  simp [function, hadvance, hword, hopen, hparams, hclose, hbrace, hbody, hfinal,
    Grammar.Statement.tree]

theorem choice_complete {condition : Grammar.Expr} {thenPart : Grammar.Statements} {budget : Nat}
    {tokens rest : List Token}
    (takes : Takes tokens (Grammar.Statement.choice condition thenPart).yield rest)
    (thenReads : ReadsBlock position budget [.keyword .else_, .keyword .end_] .openChoice thenPart
      (.keyword .end_))
    (enough : 12 * condition.yield.length + 9 ≤ budget) :
    choice (.finished position) (budget + 1) tokens =
      .ok ((Grammar.Statement.choice condition thenPart).tree, rest) := by
  obtain ⟨token, thenToken, tokens₁, tokens₂, tokens₃, hadvance, hcondition, hthen, takes₃⟩ :=
    choice_front takes enough position
  obtain ⟨tokens₄, takesThen, takesEnd⟩ := takes_append.mp takes₃
  have hthenPart := thenReads takesThen (takesEnd.ahead _)
  have hend : aheadKind (.finished position) tokens₄ = .keyword .end_ := takesEnd.aheadKind _
  obtain ⟨endToken, tokens₅, hconsume, rfl⟩ := consume_of_takes takesEnd position "'if' branch"
  simp only [Lexeme.kind] at hconsume
  simp [Parser.choice, hadvance, hcondition, hthen, hthenPart, hend, hconsume,
    Grammar.Statement.tree]

theorem choiceElse_complete {condition : Grammar.Expr} {thenPart elsePart : Grammar.Statements}
    {budget : Nat} {tokens rest : List Token}
    (takes : Takes tokens (Grammar.Statement.choiceElse condition thenPart elsePart).yield rest)
    (thenReads : ReadsBlock position budget [.keyword .else_, .keyword .end_] .openChoice thenPart
      (.keyword .else_))
    (elseReads : ReadsBlock position budget [.keyword .end_] .openChoice elsePart (.keyword .end_))
    (enough : 12 * condition.yield.length + 9 ≤ budget) :
    choice (.finished position) (budget + 1) tokens =
      .ok ((Grammar.Statement.choiceElse condition thenPart elsePart).tree, rest) := by
  obtain ⟨token, thenToken, tokens₁, tokens₂, tokens₃, hadvance, hcondition, hthen, takes₃⟩ :=
    choice_front takes enough position
  obtain ⟨tokens₄, takesThen, takesElse⟩ := takes_append.mp takes₃
  have hthenPart := thenReads takesThen (takesElse.ahead _)
  have helse : aheadKind (.finished position) tokens₄ = .keyword .else_ := takesElse.aheadKind _
  obtain ⟨elseToken, tokens₅, hadvanceElse, -, -, takes₅⟩ := advance_of_takes takesElse position
  obtain ⟨tokens₆, takesElsePart, takesEnd⟩ := takes_append.mp takes₅
  have helsePart := elseReads takesElsePart (takesEnd.ahead _)
  obtain ⟨endToken, tokens₇, hconsume, rfl⟩ := consume_of_takes takesEnd position "'if' branch"
  simp only [Lexeme.kind] at hconsume
  simp [Parser.choice, hadvance, hcondition, hthen, hthenPart, helse, hadvanceElse, helsePart,
    hconsume, Grammar.Statement.tree]

mutual

theorem statement_complete (d : Grammar.Statement) (budget : Nat) {tokens rest : List Token}
    (takes : Takes tokens d.yield rest)
    (ends : EndsExpr (ahead (.finished position) rest).lexeme)
    (greedy : d.Greedy (ahead (.finished position) rest).lexeme)
    (enough : 12 * d.yield.length + 2 ≤ budget) :
    statement (.finished position) budget tokens = .ok (d.tree, rest) := by
  obtain ⟨b, rfl⟩ : ∃ b, budget = b + 1 := ⟨budget - 1, by omega⟩
  have hahead := takes.ahead (.finished position)
  cases d with
  | declaration isConst name initial =>
    simp only [Grammar.Statement.yield, List.length_cons] at enough
    have hdeclaration : ∀ keyword, declaration (.finished position) b keyword isConst tokens =
        .ok (.declaration isConst (.text name) initial.tree, rest) :=
      declaration_complete takes ends (by omega)
    cases isConst with
    | true =>
      replace hahead : (ahead (.finished position) tokens).lexeme = .keyword .const := hahead
      simp [statement, hahead, hdeclaration, Grammar.Statement.tree]
    | false =>
      replace hahead : (ahead (.finished position) tokens).lexeme = .keyword .var := hahead
      simp [statement, hahead, hdeclaration, Grammar.Statement.tree]
  | set name names value =>
    replace hahead : (ahead (.finished position) tokens).lexeme = .keyword .set := hahead
    have hassignment := assignment_complete takes ends (show _ ≤ b by omega)
    simp [statement, hahead, hassignment]
  | func name params body =>
    replace hahead : (ahead (.finished position) tokens).lexeme = .keyword .func := hahead
    obtain ⟨c, rfl⟩ : ∃ c, b = c + 1 := ⟨b - 1, by simp [Grammar.Statement.yield] at enough; omega⟩
    simp only [Grammar.Statement.yield, List.length_cons, List.length_append,
      List.length_nil] at enough
    have hbody : ReadsBlock position c [.mark .closeBrace] .openBody body (.mark .closeBrace) :=
      fun takesBody closed => statements_complete body c _ _ takesBody closes_closeBrace
        (by simp [aheadKind, closed, Lexeme.kind]) (by rw [closed]; exact greedy) (by omega)
    have hfunction := function_complete takes hbody (by omega)
    simp [statement, hahead, hfunction]
  | bareReturn =>
    replace hahead : (ahead (.finished position) tokens).lexeme = .keyword .return_ := hahead
    have hreturn : giveBack (.finished position) b tokens = .ok (.giveBack .absent, rest) :=
      bareReturn_complete takes greedy
    simp [statement, hahead, hreturn, Grammar.Statement.tree]
  | giveBack value =>
    replace hahead : (ahead (.finished position) tokens).lexeme = .keyword .return_ := hahead
    simp only [Grammar.Statement.yield, List.length_cons] at enough
    have hreturn : giveBack (.finished position) b tokens = .ok (.giveBack value.tree, rest) :=
      giveBack_complete takes ends (by omega)
    simp [statement, hahead, hreturn, Grammar.Statement.tree]
  | choice condition thenPart =>
    replace hahead : (ahead (.finished position) tokens).lexeme = .keyword .if_ := hahead
    obtain ⟨c, rfl⟩ : ∃ c, b = c + 1 := ⟨b - 1, by simp [Grammar.Statement.yield] at enough; omega⟩
    simp only [Grammar.Statement.yield, List.length_cons, List.length_append,
      List.length_nil] at enough
    have hthenPart : ReadsBlock position c [.keyword .else_, .keyword .end_] .openChoice thenPart
        (.keyword .end_) :=
      fun takesThen closed => statements_complete thenPart c _ _ takesThen closes_else_end
        (by simp [aheadKind, closed, Lexeme.kind]) (by rw [closed]; exact greedy) (by omega)
    have hchoice := choice_complete takes hthenPart (by omega)
    simp [statement, hahead, hchoice]
  | choiceElse condition thenPart elsePart =>
    replace hahead : (ahead (.finished position) tokens).lexeme = .keyword .if_ := hahead
    obtain ⟨c, rfl⟩ : ∃ c, b = c + 1 := ⟨b - 1, by simp [Grammar.Statement.yield] at enough; omega⟩
    simp only [Grammar.Statement.yield, List.length_cons, List.length_append,
      List.length_nil] at enough
    have hthenPart : ReadsBlock position c [.keyword .else_, .keyword .end_] .openChoice thenPart
        (.keyword .else_) :=
      fun takesThen closed => statements_complete thenPart c _ _ takesThen closes_else_end
        (by simp [aheadKind, closed, Lexeme.kind]) (by rw [closed]; exact greedy.1) (by omega)
    have helsePart : ReadsBlock position c [.keyword .end_] .openChoice elsePart
        (.keyword .end_) :=
      fun takesElse closed => statements_complete elsePart c _ _ takesElse closes_end
        (by simp [aheadKind, closed, Lexeme.kind]) (by rw [closed]; exact greedy.2) (by omega)
    have hchoice := choiceElse_complete takes hthenPart helsePart (by omega)
    simp [statement, hahead, hchoice]
  | call inner =>
    match inner with
    | .mk name arguments =>
      replace hahead : (ahead (.finished position) tokens).lexeme = .word name := hahead
      simp only [Grammar.Statement.yield] at enough takes
      have hcall : callStatement (.finished position) b name tokens =
          .ok (.callStatement (Grammar.Call.mk name arguments).tree, rest) :=
        callStatement_complete takes (by omega)
      simp [statement, hahead, hcall, Grammar.Statement.tree]
termination_by structural d

theorem statements_complete (d : Grammar.Statements) (budget : Nat) (closers : List Kind)
    (unclosed : GrammarProblem) {tokens rest : List Token} (takes : Takes tokens d.yield rest)
    (close : ∀ lexeme : Lexeme, lexeme.kind ∈ closers → Grammar.Closes lexeme)
    (closed : aheadKind (.finished position) rest ∈ closers)
    (greedy : d.Greedy (ahead (.finished position) rest).lexeme)
    (enough : 12 * d.yield.length + 3 ≤ budget) :
    statements (.finished position) budget closers unclosed tokens = .ok (d.trees, rest) := by
  obtain ⟨b, rfl⟩ : ∃ b, budget = b + 1 := ⟨budget - 1, by omega⟩
  cases d with
  | nil =>
    obtain rfl : tokens = rest := takes
    simp [statements, closed, Grammar.Statements.trees]
  | cons first others =>
    obtain ⟨middle, takesFirst, takesOthers⟩ := takes_append.mp takes
    simp only [Grammar.Statements.yield, List.length_append] at enough
    obtain ⟨lexeme, tail, hyield, hstart⟩ := first.starts
    have hkind : aheadKind (.finished position) tokens = lexeme.kind := by
      rw [takesFirst.aheadKind, hyield, List.headD_cons]
    have hopen : lexeme.kind ∉ closers :=
      fun h => (Grammar.not_starts_of_closes (close lexeme h)).1 hstart
    have hmore : lexeme.kind ≠ .finish := by
      intro h
      simp [lexeme_of_kind_finish h, Grammar.StartsStatement] at hstart
    have positive : 0 < first.yield.length := by simp [hyield]
    have hfirst := statement_complete first b takesFirst
      (statements_ahead others takesOthers (close _ closed))
      (by rw [takesOthers.ahead]; exact greedy.1) (by omega)
    have hothers := statements_complete others b closers unclosed takesOthers close closed
      greedy.2 (by omega)
    simp [statements, hkind, hopen, hmore, hfirst, hothers, Grammar.Statements.trees]
termination_by structural d

end

end ScopeScript.Parser
