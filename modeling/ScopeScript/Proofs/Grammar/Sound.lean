import ScopeScript.Proofs.Grammar.Taking
set_option autoImplicit false

/-!
# Grammar: the parser derives only what the grammar derives

Whatever tokens a parser function takes are the yield of a derivation of its symbol, and what it
returns is the tree of that derivation.  The budget of the functions is what the inductions are on:
each call lowers it by one, so all functions that call each other are treated together.
-/

namespace ScopeScript.Parser

open Grammar (dotted commaWords wordList)

/-- Where the function `parse` succeeds on tokens that are alive, it takes the yield of a
derivation, returns its meaning, and leaves tokens that are alive. -/
def Sound (ending : Ending) {δ α : Type} (parse : List Token → Except Error (α × List Token))
    (yield : δ → List Lexeme) (meaning : δ → α) : Prop :=
  ∀ tokens a rest, Alive ending tokens → parse tokens = .ok (a, rest) →
    ∃ d : δ, Takes tokens (yield d) rest ∧ meaning d = a ∧ Alive ending rest

variable {ending : Ending}

/-! ## Names -/

theorem properties_sound (budget : Nat) : Sound ending (properties ending budget) dotted id := by
  induction budget with
  | zero => intro tokens a rest alive h; simp [properties] at h
  | succ budget ih =>
    intro tokens a rest alive h
    rw [properties] at h
    split at h
    · rename_i hdot
      obtain ⟨⟨token, tokens₁⟩, hadvance, h⟩ := bind_eq_ok.mp h
      obtain ⟨⟨property, tokens₂⟩, hword, h⟩ := bind_eq_ok.mp h
      obtain ⟨⟨others, tokens₃⟩, hrest, h⟩ := bind_eq_ok.mp h
      simp only [Except.ok.injEq, Prod.mk.injEq] at h
      obtain ⟨rfl, rfl⟩ := h
      obtain ⟨takesDot, alive₁⟩ := advance_fixed hadvance (lexeme_of_kind_mark hdot) trivial
      obtain ⟨takesWord, alive₂⟩ := consumeWord_takes hword
      obtain ⟨d, takesRest, rfl, alive₃⟩ := ih tokens₂ others tokens₃ alive₂ hrest
      exact ⟨property :: d, (takesDot.append takesWord).append takesRest, rfl, alive₃⟩
    · simp only [Except.ok.injEq, Prod.mk.injEq] at h
      obtain ⟨rfl, rfl⟩ := h
      exact ⟨[], .refl tokens, rfl, alive⟩

theorem moreParameters_sound (budget : Nat) :
    Sound ending (moreParameters ending budget) commaWords id := by
  induction budget with
  | zero => intro tokens a rest alive h; simp [moreParameters] at h
  | succ budget ih =>
    intro tokens a rest alive h
    rw [moreParameters] at h
    split at h
    · rename_i hcomma
      obtain ⟨⟨token, tokens₁⟩, hadvance, h⟩ := bind_eq_ok.mp h
      obtain ⟨⟨param, tokens₂⟩, hword, h⟩ := bind_eq_ok.mp h
      obtain ⟨⟨others, tokens₃⟩, hrest, h⟩ := bind_eq_ok.mp h
      simp only [Except.ok.injEq, Prod.mk.injEq] at h
      obtain ⟨rfl, rfl⟩ := h
      obtain ⟨takesComma, alive₁⟩ := advance_fixed hadvance (lexeme_of_kind_mark hcomma) trivial
      obtain ⟨takesWord, alive₂⟩ := consumeWord_takes hword
      obtain ⟨d, takesRest, rfl, alive₃⟩ := ih tokens₂ others tokens₃ alive₂ hrest
      exact ⟨param :: d, (takesComma.append takesWord).append takesRest, rfl, alive₃⟩
    · simp only [Except.ok.injEq, Prod.mk.injEq] at h
      obtain ⟨rfl, rfl⟩ := h
      exact ⟨[], .refl tokens, rfl, alive⟩

theorem parameters_sound (budget : Nat) : Sound ending (parameters ending budget) wordList id := by
  intro tokens a rest alive h
  rw [parameters] at h
  split at h
  · simp only [Except.ok.injEq, Prod.mk.injEq] at h
    obtain ⟨rfl, rfl⟩ := h
    exact ⟨[], .refl tokens, rfl, alive⟩
  · obtain ⟨⟨param, tokens₁⟩, hword, h⟩ := bind_eq_ok.mp h
    obtain ⟨⟨others, tokens₂⟩, hrest, h⟩ := bind_eq_ok.mp h
    simp only [Except.ok.injEq, Prod.mk.injEq] at h
    obtain ⟨rfl, rfl⟩ := h
    obtain ⟨takesWord, alive₁⟩ := consumeWord_takes hword
    obtain ⟨d, takesRest, rfl, alive₂⟩ :=
      moreParameters_sound budget tokens₁ others tokens₂ alive₁ hrest
    exact ⟨param :: d, takesWord.append takesRest, rfl, alive₂⟩

/-! ## Expressions -/

/-- All functions that parse parts of expressions are sound at a budget. -/
structure ExpressionsSound (ending : Ending) (budget : Nat) : Prop where
  expression : Sound ending (expression ending budget) Grammar.Expr.yield Grammar.Expr.tree
  operand : ∀ tier, Sound ending (operand ending budget tier)
    (@Grammar.Operand.yield tier) Grammar.Operand.tree
  tighterOperand : ∀ tier, Sound ending (tighterOperand ending budget tier)
    (@Grammar.Tighter.yield tier) Grammar.Tighter.tree
  moreOperands : ∀ tier left, Sound ending (moreOperands ending budget tier left)
    (@Grammar.MoreOperands.yield tier) (·.treeFrom left)
  signed : Sound ending (signed ending budget) Grammar.Signed.yield Grammar.Signed.tree
  atom : Sound ending (atom ending budget) Grammar.Atom.yield Grammar.Atom.tree
  arguments : Sound ending (arguments ending budget)
    (fun d : Grammar.Arguments => .mark .openParen :: (d.yield ++ [.mark .closeParen]))
    Grammar.Arguments.trees
  moreArguments : Sound ending (moreArguments ending budget) Grammar.MoreArguments.yield
    Grammar.MoreArguments.trees

namespace ExpressionsSound

variable {budget : Nat}

theorem expression_succ (ih : ExpressionsSound ending budget) :
    Sound ending (Parser.expression ending (budget + 1)) Grammar.Expr.yield Grammar.Expr.tree := by
  intro tokens a rest alive h
  rw [Parser.expression] at h
  obtain ⟨⟨left, tokens₁⟩, hleft, h⟩ := bind_eq_ok.mp h
  obtain ⟨l, takesLeft, rfl, alive₁⟩ := ih.operand .comparison tokens left tokens₁ alive hleft
  simp only at h
  split at h
  · simp only [Except.ok.injEq, Prod.mk.injEq] at h
    obtain ⟨rfl, rfl⟩ := h
    exact ⟨.single l, takesLeft, rfl, alive₁⟩
  · rename_i op hop
    obtain ⟨sign, hsign, rfl⟩ := logicalOperator_iff.mp hop
    obtain ⟨⟨token, tokens₂⟩, hadvance, h⟩ := bind_eq_ok.mp h
    obtain ⟨⟨right, tokens₃⟩, hright, h⟩ := bind_eq_ok.mp h
    simp only [Except.ok.injEq, Prod.mk.injEq] at h
    obtain ⟨rfl, rfl⟩ := h
    obtain ⟨takesSign, alive₂⟩ := advance_fixed hadvance hsign.symm (fixed_logicalSign sign)
    obtain ⟨r, takesRight, rfl, alive₃⟩ := ih.expression tokens₂ right tokens₃ alive₂ hright
    exact ⟨.logical l sign r, takesLeft.append (takesSign.append takesRight), rfl, alive₃⟩

theorem operand_succ (ih : ExpressionsSound ending budget) (tier : Tier) :
    Sound ending (Parser.operand ending (budget + 1) tier)
      (@Grammar.Operand.yield tier) Grammar.Operand.tree := by
  intro tokens a rest alive h
  rw [Parser.operand] at h
  obtain ⟨⟨left, tokens₁⟩, hleft, h⟩ := bind_eq_ok.mp h
  obtain ⟨first, takesFirst, rfl, alive₁⟩ := ih.tighterOperand tier tokens left tokens₁ alive hleft
  obtain ⟨more, takesMore, rfl, alive₂⟩ := ih.moreOperands tier first.tree tokens₁ a rest alive₁ h
  exact ⟨.chain first more, takesFirst.append takesMore, rfl, alive₂⟩

theorem tighterOperand_succ (ih : ExpressionsSound ending budget) (tier : Tier) :
    Sound ending (Parser.tighterOperand ending (budget + 1) tier)
      (@Grammar.Tighter.yield tier) Grammar.Tighter.tree := by
  intro tokens a rest alive h
  rw [Parser.tighterOperand] at h
  cases tier with
  | comparison =>
    obtain ⟨d, takes, rfl, alive'⟩ := ih.operand .additive tokens a rest alive h
    exact ⟨.additive d, takes, rfl, alive'⟩
  | additive =>
    obtain ⟨d, takes, rfl, alive'⟩ := ih.operand .multiplicative tokens a rest alive h
    exact ⟨.multiplicative d, takes, rfl, alive'⟩
  | multiplicative =>
    obtain ⟨d, takes, rfl, alive'⟩ := ih.signed tokens a rest alive h
    exact ⟨.signed d, takes, rfl, alive'⟩

theorem moreOperands_succ (ih : ExpressionsSound ending budget) (tier : Tier) (left : Node) :
    Sound ending (Parser.moreOperands ending (budget + 1) tier left)
      (@Grammar.MoreOperands.yield tier) (·.treeFrom left) := by
  intro tokens a rest alive h
  rw [Parser.moreOperands] at h
  split at h
  · simp only [Except.ok.injEq, Prod.mk.injEq] at h
    obtain ⟨rfl, rfl⟩ := h
    exact ⟨.done, .refl tokens, rfl, alive⟩
  · rename_i op hop
    obtain ⟨sign, hsign, rfl⟩ := tierOperator_iff.mp hop
    obtain ⟨⟨token, tokens₁⟩, hadvance, h⟩ := bind_eq_ok.mp h
    obtain ⟨⟨right, tokens₂⟩, hright, h⟩ := bind_eq_ok.mp h
    obtain ⟨takesSign, alive₁⟩ := advance_fixed hadvance hsign.symm (fixed_sign sign)
    obtain ⟨r, takesRight, rfl, alive₂⟩ :=
      ih.tighterOperand tier tokens₁ right tokens₂ alive₁ hright
    obtain ⟨more, takesMore, rfl, alive₃⟩ := ih.moreOperands tier _ tokens₂ a rest alive₂ h
    exact ⟨.more sign r more, takesSign.append (takesRight.append takesMore), rfl, alive₃⟩

theorem signed_succ (ih : ExpressionsSound ending budget) :
    Sound ending (Parser.signed ending (budget + 1)) Grammar.Signed.yield Grammar.Signed.tree := by
  intro tokens a rest alive h
  rw [Parser.signed] at h
  split at h
  · obtain ⟨d, takes, rfl, alive'⟩ := ih.atom tokens a rest alive h
    exact ⟨.atom d, takes, rfl, alive'⟩
  · rename_i op hop
    obtain ⟨sign, hsign, rfl⟩ := unaryOperator_iff.mp hop
    obtain ⟨⟨token, tokens₁⟩, hadvance, h⟩ := bind_eq_ok.mp h
    obtain ⟨⟨operand, tokens₂⟩, hoperand, h⟩ := bind_eq_ok.mp h
    simp only [Except.ok.injEq, Prod.mk.injEq] at h
    obtain ⟨rfl, rfl⟩ := h
    obtain ⟨takesSign, alive₁⟩ := advance_fixed hadvance hsign.symm (fixed_unarySign sign)
    obtain ⟨d, takes, rfl, alive₂⟩ := ih.signed tokens₁ operand tokens₂ alive₁ hoperand
    exact ⟨.sign sign d, takesSign.append takes, rfl, alive₂⟩

theorem atom_succ (ih : ExpressionsSound ending budget) :
    Sound ending (Parser.atom ending (budget + 1)) Grammar.Atom.yield Grammar.Atom.tree := by
  intro tokens a rest alive h
  rw [Parser.atom] at h
  obtain ⟨⟨token, tokens₁⟩, hadvance, h⟩ := bind_eq_ok.mp h
  simp only at h
  split at h
  · rename_i hlexeme
    obtain ⟨takesOpen, alive₁⟩ := advance_takes hadvance hlexeme (by simp) trivial
    obtain ⟨⟨inner, tokens₂⟩, hinner, h⟩ := bind_eq_ok.mp h
    obtain ⟨⟨closing, tokens₃⟩, hclose, h⟩ := bind_eq_ok.mp h
    simp only [Except.ok.injEq, Prod.mk.injEq] at h
    obtain ⟨rfl, rfl⟩ := h
    obtain ⟨d, takesInner, rfl, alive₂⟩ := ih.expression tokens₁ inner tokens₂ alive₁ hinner
    obtain ⟨takesClose, alive₃⟩ := consume_mark hclose
    exact ⟨.paren d, takesOpen.append (takesInner.append takesClose), rfl, alive₃⟩
  · rename_i name hlexeme
    obtain ⟨takesName, alive₁⟩ := advance_takes hadvance hlexeme (by simp) trivial
    split at h
    · obtain ⟨⟨arguments, tokens₂⟩, harguments, h⟩ := bind_eq_ok.mp h
      simp only [Except.ok.injEq, Prod.mk.injEq] at h
      obtain ⟨rfl, rfl⟩ := h
      obtain ⟨d, takes, rfl, alive₂⟩ := ih.arguments tokens₁ arguments tokens₂ alive₁ harguments
      exact ⟨.call (.mk name d), takesName.append takes, rfl, alive₂⟩
    · obtain ⟨⟨found, tokens₂⟩, hproperties, h⟩ := bind_eq_ok.mp h
      simp only [Except.ok.injEq, Prod.mk.injEq] at h
      obtain ⟨rfl, rfl⟩ := h
      obtain ⟨d, takes, rfl, alive₂⟩ :=
        properties_sound budget tokens₁ found tokens₂ alive₁ hproperties
      exact ⟨.path name d, takesName.append takes, rfl, alive₂⟩
  · rename_i numeral hlexeme
    split at h
    · rename_i value hvalue
      simp only [Except.ok.injEq, Prod.mk.injEq] at h
      obtain ⟨rfl, rfl⟩ := h
      obtain ⟨takes, alive₁⟩ :=
        advance_takes hadvance hlexeme (by simp) (by simp [Readable, hvalue])
      exact ⟨.number numeral, takes, by simp [Grammar.Atom.tree, Grammar.numeralValue, hvalue],
        alive₁⟩
    · simp at h
  · rename_i content hlexeme
    simp only [Except.ok.injEq, Prod.mk.injEq] at h
    obtain ⟨rfl, rfl⟩ := h
    obtain ⟨takes, alive₁⟩ := advance_takes hadvance hlexeme (by simp) trivial
    exact ⟨.text content, takes, rfl, alive₁⟩
  · simp [reject] at h

theorem arguments_succ (ih : ExpressionsSound ending budget) :
    Sound ending (Parser.arguments ending (budget + 1))
      (fun d : Grammar.Arguments => .mark .openParen :: (d.yield ++ [.mark .closeParen]))
      Grammar.Arguments.trees := by
  intro tokens a rest alive h
  rw [Parser.arguments] at h
  obtain ⟨⟨opening, tokens₁⟩, hopen, h⟩ := bind_eq_ok.mp h
  obtain ⟨takesOpen, alive₁⟩ := consume_mark hopen
  simp only [ok_bind] at h
  split at h
  · obtain ⟨⟨closing, tokens₂⟩, hclose, h⟩ := bind_eq_ok.mp h
    simp only [Except.ok.injEq, Prod.mk.injEq] at h
    obtain ⟨rfl, rfl⟩ := h
    obtain ⟨takesClose, alive₂⟩ := consume_mark hclose
    exact ⟨.none, takesOpen.append takesClose, rfl, alive₂⟩
  · obtain ⟨⟨argument, tokens₂⟩, hargument, h⟩ := bind_eq_ok.mp h
    obtain ⟨⟨others, tokens₃⟩, hothers, h⟩ := bind_eq_ok.mp h
    obtain ⟨⟨closing, tokens₄⟩, hclose, h⟩ := bind_eq_ok.mp h
    simp only [Except.ok.injEq, Prod.mk.injEq] at h
    obtain ⟨rfl, rfl⟩ := h
    obtain ⟨first, takesFirst, rfl, alive₂⟩ :=
      ih.expression tokens₁ argument tokens₂ alive₁ hargument
    obtain ⟨more, takesMore, rfl, alive₃⟩ := ih.moreArguments tokens₂ others tokens₃ alive₂ hothers
    obtain ⟨takesClose, alive₄⟩ := consume_mark hclose
    exact ⟨.some first more,
      takesOpen.append ((takesFirst.append takesMore).append takesClose), rfl, alive₄⟩

theorem moreArguments_succ (ih : ExpressionsSound ending budget) :
    Sound ending (Parser.moreArguments ending (budget + 1)) Grammar.MoreArguments.yield
      Grammar.MoreArguments.trees := by
  intro tokens a rest alive h
  rw [Parser.moreArguments] at h
  split at h
  · rename_i hcomma
    obtain ⟨⟨token, tokens₁⟩, hadvance, h⟩ := bind_eq_ok.mp h
    obtain ⟨⟨argument, tokens₂⟩, hargument, h⟩ := bind_eq_ok.mp h
    obtain ⟨⟨others, tokens₃⟩, hothers, h⟩ := bind_eq_ok.mp h
    simp only [Except.ok.injEq, Prod.mk.injEq] at h
    obtain ⟨rfl, rfl⟩ := h
    obtain ⟨takesComma, alive₁⟩ := advance_fixed hadvance (lexeme_of_kind_mark hcomma) trivial
    obtain ⟨d, takesArgument, rfl, alive₂⟩ :=
      ih.expression tokens₁ argument tokens₂ alive₁ hargument
    obtain ⟨more, takesMore, rfl, alive₃⟩ := ih.moreArguments tokens₂ others tokens₃ alive₂ hothers
    exact ⟨.more d more, takesComma.append (takesArgument.append takesMore), rfl, alive₃⟩
  · simp only [Except.ok.injEq, Prod.mk.injEq] at h
    obtain ⟨rfl, rfl⟩ := h
    exact ⟨.done, .refl tokens, rfl, alive⟩

end ExpressionsSound

/-- At every budget the functions that parse expressions are sound. -/
theorem expressions_sound (ending : Ending) (budget : Nat) : ExpressionsSound ending budget := by
  induction budget with
  | zero =>
    constructor
    · intro tokens a rest alive h; simp [expression] at h
    · intro tier tokens a rest alive h; simp [operand] at h
    · intro tier tokens a rest alive h; simp [tighterOperand] at h
    · intro tier left tokens a rest alive h; simp [moreOperands] at h
    · intro tokens a rest alive h; simp [signed] at h
    · intro tokens a rest alive h; simp [atom] at h
    · intro tokens a rest alive h; simp [arguments] at h
    · intro tokens a rest alive h; simp [moreArguments] at h
  | succ budget ih =>
    exact ⟨ih.expression_succ, ih.operand_succ, ih.tighterOperand_succ, ih.moreOperands_succ,
      ih.signed_succ, ih.atom_succ, ih.arguments_succ, ih.moreArguments_succ⟩

/-! ## Statements -/

/-- Where the function `parse` succeeds on tokens that are alive and satisfy `starts`, it takes the
yield of a greedy derivation of a statement, returns its tree, and leaves tokens that are alive. -/
def StatementSound (ending : Ending) (parse : List Token → Except Error (Node × List Token))
    (starts : List Token → Prop) : Prop :=
  ∀ tokens node rest, Alive ending tokens → starts tokens → parse tokens = .ok (node, rest) →
    ∃ d : Grammar.Statement, Takes tokens d.yield rest ∧ d.tree = node ∧ Alive ending rest ∧
      d.Greedy (ahead ending rest).lexeme

/-- The token ahead is a keyword. -/
def StartsWith (ending : Ending) (keyword : Keyword) (tokens : List Token) : Prop :=
  (ahead ending tokens).lexeme = .keyword keyword

theorem initializer_sound (budget : Nat) (name : String) :
    Sound ending (initializer ending budget name)
      (fun d : Grammar.Expr => .mark .equals :: d.yield) Grammar.Expr.tree := by
  intro tokens a rest alive h
  rw [initializer] at h
  obtain ⟨⟨token, tokens₁⟩, hequals, h⟩ := bind_eq_ok.mp h
  obtain ⟨takesEquals, alive₁⟩ := consume_mark hequals
  obtain ⟨d, takes, rfl, alive₂⟩ :=
    (expressions_sound ending budget).expression tokens₁ a rest alive₁ h
  exact ⟨d, takesEquals.append takes, rfl, alive₂⟩

theorem declaration_sound (budget : Nat) (keyword : Keyword) (isConst : Bool)
    (fits : keyword = if isConst then .const else .var) :
    StatementSound ending (declaration ending budget keyword isConst)
      (StartsWith ending keyword) := by
  intro tokens node rest alive starts h
  rw [declaration] at h
  obtain ⟨⟨token, tokens₁⟩, hadvance, h⟩ := bind_eq_ok.mp h
  obtain ⟨⟨name, tokens₂⟩, hword, h⟩ := bind_eq_ok.mp h
  obtain ⟨⟨initial, tokens₃⟩, hinitial, h⟩ := bind_eq_ok.mp h
  simp only [Except.ok.injEq, Prod.mk.injEq] at h
  obtain ⟨rfl, rfl⟩ := h
  obtain ⟨takesKeyword, alive₁⟩ := advance_fixed hadvance starts trivial
  obtain ⟨takesWord, alive₂⟩ := consumeWord_takes hword
  obtain ⟨d, takesInitial, rfl, alive₃⟩ :=
    initializer_sound budget name tokens₂ initial tokens₃ alive₂ hinitial
  subst fits
  exact ⟨.declaration isConst name d,
    takesKeyword.append (takesWord.append takesInitial), rfl, alive₃, trivial⟩

theorem assignment_sound (budget : Nat) :
    StatementSound ending (assignment ending budget) (StartsWith ending .set) := by
  intro tokens node rest alive starts h
  rw [assignment] at h
  obtain ⟨⟨token, tokens₁⟩, hadvance, h⟩ := bind_eq_ok.mp h
  obtain ⟨⟨name, tokens₂⟩, hword, h⟩ := bind_eq_ok.mp h
  obtain ⟨⟨found, tokens₃⟩, hproperties, h⟩ := bind_eq_ok.mp h
  obtain ⟨⟨value, tokens₄⟩, hvalue, h⟩ := bind_eq_ok.mp h
  simp only [Except.ok.injEq, Prod.mk.injEq] at h
  obtain ⟨rfl, rfl⟩ := h
  obtain ⟨takesKeyword, alive₁⟩ := advance_fixed hadvance starts trivial
  obtain ⟨takesWord, alive₂⟩ := consumeWord_takes hword
  obtain ⟨path, takesPath, rfl, alive₃⟩ :=
    properties_sound budget tokens₂ found tokens₃ alive₂ hproperties
  obtain ⟨d, takesValue, rfl, alive₄⟩ :=
    initializer_sound budget _ tokens₃ value tokens₄ alive₃ hvalue
  exact ⟨.set name path d,
    takesKeyword.append (takesWord.append (takesPath.append takesValue)), rfl, alive₄, trivial⟩

theorem giveBack_sound (budget : Nat) :
    StatementSound ending (giveBack ending budget) (StartsWith ending .return_) := by
  intro tokens node rest alive starts h
  rw [giveBack] at h
  obtain ⟨⟨token, tokens₁⟩, hadvance, h⟩ := bind_eq_ok.mp h
  obtain ⟨takesKeyword, alive₁⟩ := advance_fixed hadvance starts trivial
  simp only at h
  split at h
  · obtain ⟨⟨value, tokens₂⟩, hvalue, h⟩ := bind_eq_ok.mp h
    simp only [Except.ok.injEq, Prod.mk.injEq] at h
    obtain ⟨rfl, rfl⟩ := h
    obtain ⟨d, takes, rfl, alive₂⟩ :=
      (expressions_sound ending budget).expression tokens₁ value tokens₂ alive₁ hvalue
    exact ⟨.giveBack d, takesKeyword.append takes, rfl, alive₂, trivial⟩
  · rename_i bare
    simp only [Except.ok.injEq, Prod.mk.injEq] at h
    obtain ⟨rfl, rfl⟩ := h
    exact ⟨.bareReturn, takesKeyword, rfl, alive₁,
      fun starts => bare ((Grammar.canStart_iff _).mp starts)⟩

theorem callStatement_sound (budget : Nat) (name : String) :
    StatementSound ending (callStatement ending budget name)
      (fun tokens => (ahead ending tokens).lexeme = .word name) := by
  intro tokens node rest alive starts h
  rw [callStatement] at h
  obtain ⟨⟨token, tokens₁⟩, hadvance, h⟩ := bind_eq_ok.mp h
  obtain ⟨takesName, alive₁⟩ := advance_takes hadvance
    ((congrArg Token.lexeme (advance_eq_ok hadvance).1).trans starts) (by simp) trivial
  simp only at h
  split at h
  · obtain ⟨⟨found, tokens₂⟩, harguments, h⟩ := bind_eq_ok.mp h
    simp only [Except.ok.injEq, Prod.mk.injEq] at h
    obtain ⟨rfl, rfl⟩ := h
    obtain ⟨d, takes, rfl, alive₂⟩ :=
      (expressions_sound ending budget).arguments tokens₁ found tokens₂ alive₁ harguments
    exact ⟨.call (.mk name d), takesName.append takes, rfl, alive₂, trivial⟩
  · simp [reject] at h

/-- All functions that parse statements are sound at a budget. -/
structure StatementsSound (ending : Ending) (budget : Nat) : Prop where
  statement : StatementSound ending (statement ending budget) (fun _ => True)
  function : StatementSound ending (function ending budget) (StartsWith ending .func)
  choice : StatementSound ending (choice ending budget) (StartsWith ending .if_)
  statements : ∀ closers unclosed tokens nodes rest, Alive ending tokens →
    statements ending budget closers unclosed tokens = .ok (nodes, rest) →
    ∃ d : Grammar.Statements, Takes tokens d.yield rest ∧ d.trees = nodes ∧ Alive ending rest ∧
      d.Greedy (ahead ending rest).lexeme ∧ aheadKind ending rest ∈ closers

namespace StatementsSound

variable {budget : Nat}

theorem statement_succ (ih : StatementsSound ending budget) :
    StatementSound ending (Parser.statement ending (budget + 1)) (fun _ => True) := by
  intro tokens node rest alive _ h
  rw [Parser.statement] at h
  split at h
  · rename_i starts
    exact declaration_sound budget .const true rfl tokens node rest alive starts h
  · rename_i starts
    exact declaration_sound budget .var false rfl tokens node rest alive starts h
  · rename_i starts
    exact assignment_sound budget tokens node rest alive starts h
  · rename_i starts
    exact ih.function tokens node rest alive starts h
  · rename_i starts
    exact giveBack_sound budget tokens node rest alive starts h
  · rename_i starts
    exact ih.choice tokens node rest alive starts h
  · rename_i name starts
    exact callStatement_sound budget name tokens node rest alive starts h
  · simp [reject] at h
  · simp [reject] at h

theorem function_succ (ih : StatementsSound ending budget) :
    StatementSound ending (Parser.function ending (budget + 1)) (StartsWith ending .func) := by
  intro tokens node rest alive starts h
  rw [Parser.function] at h
  obtain ⟨⟨token, tokens₁⟩, hadvance, h⟩ := bind_eq_ok.mp h
  obtain ⟨⟨name, tokens₂⟩, hword, h⟩ := bind_eq_ok.mp h
  obtain ⟨⟨opening, tokens₃⟩, hopen, h⟩ := bind_eq_ok.mp h
  obtain ⟨⟨params, tokens₄⟩, hparams, h⟩ := bind_eq_ok.mp h
  obtain ⟨⟨closing, tokens₅⟩, hclose, h⟩ := bind_eq_ok.mp h
  obtain ⟨⟨brace, tokens₆⟩, hbrace, h⟩ := bind_eq_ok.mp h
  obtain ⟨⟨body, tokens₇⟩, hbody, h⟩ := bind_eq_ok.mp h
  obtain ⟨⟨final, tokens₈⟩, hfinal, h⟩ := bind_eq_ok.mp h
  simp only [Except.ok.injEq, Prod.mk.injEq] at h
  obtain ⟨rfl, rfl⟩ := h
  obtain ⟨takesKeyword, alive₁⟩ := advance_fixed hadvance starts trivial
  obtain ⟨takesWord, alive₂⟩ := consumeWord_takes hword
  obtain ⟨takesOpen, alive₃⟩ := consume_mark hopen
  obtain ⟨p, takesParams, rfl, alive₄⟩ :=
    parameters_sound budget tokens₃ params tokens₄ alive₃ hparams
  obtain ⟨takesClose, alive₅⟩ := consume_mark hclose
  obtain ⟨takesBrace, alive₆⟩ := consume_mark hbrace
  obtain ⟨d, takesBody, rfl, alive₇, greedy, closed⟩ :=
    ih.statements _ _ tokens₆ body tokens₇ alive₆ hbody
  have hclosed : (ahead ending tokens₇).lexeme = .mark .closeBrace :=
    lexeme_of_kind_mark (List.mem_singleton.mp closed)
  obtain ⟨takesFinal, alive₈⟩ := advance_fixed hfinal hclosed trivial
  rw [hclosed] at greedy
  refine ⟨.func name p d, ?_, rfl, alive₈, greedy⟩
  exact takesKeyword.append (takesWord.append (takesOpen.append (takesParams.append
    (takesClose.append (takesBrace.append (takesBody.append takesFinal))))))

theorem choice_succ (ih : StatementsSound ending budget) :
    StatementSound ending (Parser.choice ending (budget + 1)) (StartsWith ending .if_) := by
  intro tokens node rest alive starts h
  rw [Parser.choice] at h
  obtain ⟨⟨token, tokens₁⟩, hadvance, h⟩ := bind_eq_ok.mp h
  obtain ⟨⟨condition, tokens₂⟩, hcondition, h⟩ := bind_eq_ok.mp h
  obtain ⟨⟨thenToken, tokens₃⟩, hthen, h⟩ := bind_eq_ok.mp h
  obtain ⟨⟨thenPart, tokens₄⟩, hthenPart, h⟩ := bind_eq_ok.mp h
  obtain ⟨takesKeyword, alive₁⟩ := advance_fixed hadvance starts trivial
  obtain ⟨c, takesCondition, rfl, alive₂⟩ :=
    (expressions_sound ending budget).expression tokens₁ condition tokens₂ alive₁ hcondition
  obtain ⟨takesThen, alive₃⟩ := consume_keyword hthen
  obtain ⟨t, takesThenPart, rfl, alive₄, greedyThen, closedThen⟩ :=
    ih.statements _ _ tokens₃ thenPart tokens₄ alive₃ hthenPart
  simp only [ok_bind] at h
  split at h
  · rename_i helse
    obtain ⟨⟨elseToken, tokens₅⟩, hadvanceElse, h⟩ := bind_eq_ok.mp h
    obtain ⟨⟨elsePart, tokens₆⟩, helsePart, h⟩ := bind_eq_ok.mp h
    obtain ⟨⟨endToken, tokens₇⟩, hend, h⟩ := bind_eq_ok.mp h
    simp only [Except.ok.injEq, Prod.mk.injEq] at h
    obtain ⟨rfl, rfl⟩ := h
    obtain ⟨takesElse, alive₅⟩ := advance_fixed hadvanceElse (lexeme_of_kind_keyword helse) trivial
    obtain ⟨e, takesElsePart, rfl, alive₆, greedyElse, closedElse⟩ :=
      ih.statements _ _ tokens₅ elsePart tokens₆ alive₅ helsePart
    obtain ⟨takesEnd, alive₇⟩ := consume_keyword hend
    rw [lexeme_of_kind_keyword helse] at greedyThen
    have hclosed : (ahead ending tokens₆).lexeme = .keyword .end_ :=
      lexeme_of_kind_keyword (List.mem_singleton.mp closedElse)
    rw [hclosed] at greedyElse
    refine ⟨.choiceElse c t e, ?_, rfl, alive₇, greedyThen, greedyElse⟩
    exact takesKeyword.append (takesCondition.append (takesThen.append (takesThenPart.append
      (takesElse.append (takesElsePart.append takesEnd)))))
  · obtain ⟨⟨endToken, tokens₅⟩, hend, h⟩ := bind_eq_ok.mp h
    simp only [Except.ok.injEq, Prod.mk.injEq] at h
    obtain ⟨rfl, rfl⟩ := h
    obtain ⟨takesEnd, alive₅⟩ := consume_keyword hend
    rw [takesEnd.ahead ending, List.headD_cons] at greedyThen
    refine ⟨.choice c t, ?_, rfl, alive₅, greedyThen⟩
    exact takesKeyword.append (takesCondition.append (takesThen.append
      (takesThenPart.append takesEnd)))

theorem statements_succ (ih : StatementsSound ending budget) (closers : List Kind)
    (unclosed : GrammarProblem) (tokens rest : List Token) (nodes : List Node)
    (alive : Alive ending tokens)
    (h : Parser.statements ending (budget + 1) closers unclosed tokens = .ok (nodes, rest)) :
    ∃ d : Grammar.Statements, Takes tokens d.yield rest ∧ d.trees = nodes ∧ Alive ending rest ∧
      d.Greedy (ahead ending rest).lexeme ∧ aheadKind ending rest ∈ closers := by
  rw [Parser.statements] at h
  simp only at h
  split at h
  · rename_i closed
    simp only [Except.ok.injEq, Prod.mk.injEq] at h
    obtain ⟨rfl, rfl⟩ := h
    exact ⟨.nil, .refl tokens, rfl, alive, trivial, closed⟩
  · split at h
    · simp [reject] at h
    · obtain ⟨⟨first, tokens₁⟩, hfirst, h⟩ := bind_eq_ok.mp h
      obtain ⟨⟨others, tokens₂⟩, hothers, h⟩ := bind_eq_ok.mp h
      simp only [Except.ok.injEq, Prod.mk.injEq] at h
      obtain ⟨rfl, rfl⟩ := h
      obtain ⟨s, takesFirst, rfl, alive₁, greedyFirst⟩ :=
        ih.statement tokens first tokens₁ alive trivial hfirst
      obtain ⟨d, takesRest, rfl, alive₂, greedyRest, closed⟩ :=
        ih.statements closers unclosed tokens₁ others tokens₂ alive₁ hothers
      rw [takesRest.ahead ending] at greedyFirst
      exact ⟨.cons s d, takesFirst.append takesRest, rfl, alive₂, ⟨greedyFirst, greedyRest⟩, closed⟩

end StatementsSound

/-- At every budget the functions that parse statements are sound. -/
theorem statements_sound (ending : Ending) (budget : Nat) : StatementsSound ending budget := by
  induction budget with
  | zero =>
    constructor
    · intro tokens node rest alive _ h; simp [statement] at h
    · intro tokens node rest alive _ h; simp [function] at h
    · intro tokens node rest alive _ h; simp [choice] at h
    · intro closers unclosed tokens nodes rest alive h; simp [statements] at h
  | succ budget ih =>
    exact ⟨ih.statement_succ, ih.function_succ, ih.choice_succ,
      fun closers unclosed tokens nodes rest =>
        ih.statements_succ closers unclosed tokens rest nodes⟩

end ScopeScript.Parser
