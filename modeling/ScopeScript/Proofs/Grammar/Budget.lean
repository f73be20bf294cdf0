import ScopeScript.Tree.Parser
set_option autoImplicit false

/-!
# Grammar: what the budget is for

The budget of a parser function bounds its recursion, and decides nothing else.  A function that
does not run out of its budget has the same result at every larger one, so what a function does is
settled as soon as some budget is enough.

A step of the budget is shown to change nothing for all functions that call each other at once: the
results of the calls agree, and a sequence of results that agree ends in results that agree.
-/

namespace ScopeScript.Parser

/-- The result of a run on less budget is the result of a run on more, unless the budget ran out. -/
def Agrees {α : Type} (less more : Except Error α) : Prop := less = .error .depth ∨ more = less

namespace Agrees

variable {α β : Type} {less more : Except Error α}

theorem refl (x : Except Error α) : Agrees x x := .inr rfl

theorem spent (more : Except Error α) : Agrees (.error .depth) more := .inl rfl

theorem trans {most : Except Error α} (h : Agrees less more) (h' : Agrees more most) :
    Agrees less most := by
  rcases h with none | rfl
  · exact .inl none
  · exact h'

theorem bind {f g : α → Except Error β} (h : Agrees less more) (next : ∀ a, Agrees (f a) (g a)) :
    Agrees (less >>= f) (more >>= g) := by
  rcases h with rfl | rfl
  · exact .spent _
  · cases more with
    | error e => exact .refl _
    | ok a => exact next a

/-- A step that does not depend on the budget. -/
theorem same {f g : α → Except Error β} (x : Except Error α) (next : ∀ a, Agrees (f a) (g a)) :
    Agrees (x >>= f) (x >>= g) := .bind (.refl x) next

theorem ite {p : Prop} [Decidable p] {less' more' : Except Error α} (yes : Agrees less more)
    (no : Agrees less' more') : Agrees (if p then less else less') (if p then more else more') := by
  split
  · exact yes
  · exact no

/-- Where every step of the budget agrees, so does any larger budget. -/
theorem le {run : Nat → Except Error α} (step : ∀ b, Agrees (run b) (run (b + 1))) {b c : Nat}
    (more : b ≤ c) : Agrees (run b) (run c) := by
  induction more with
  | refl => exact .refl _
  | step _ ih => exact ih.trans (step _)

end Agrees

variable {ending : Ending} {budget : Nat}

/-! ## Names -/

theorem properties_agrees (ending : Ending) (budget : Nat) (tokens : List Token) :
    Agrees (properties ending budget tokens) (properties ending (budget + 1) tokens) := by
  induction budget generalizing tokens with
  | zero => exact .spent _
  | succ budget ih =>
    rw [properties, properties]
    exact .ite (.same _ fun _ => .same _ fun _ => .bind (ih _) fun _ => .refl _) (.refl _)

theorem moreParameters_agrees (ending : Ending) (budget : Nat) (tokens : List Token) :
    Agrees (moreParameters ending budget tokens) (moreParameters ending (budget + 1) tokens) := by
  induction budget generalizing tokens with
  | zero => exact .spent _
  | succ budget ih =>
    rw [moreParameters, moreParameters]
    exact .ite (.same _ fun _ => .same _ fun _ => .bind (ih _) fun _ => .refl _) (.refl _)

theorem parameters_agrees (ending : Ending) (budget : Nat) (tokens : List Token) :
    Agrees (parameters ending budget tokens) (parameters ending (budget + 1) tokens) :=
  .ite (.refl _) (.same _ fun _ => .bind (moreParameters_agrees ending budget _) fun _ => .refl _)

/-! ## Expressions -/

/-- At a budget and the next one, all functions that parse parts of expressions agree. -/
structure ExpressionsAgree (ending : Ending) (budget : Nat) : Prop where
  expression : ∀ tokens,
    Agrees (expression ending budget tokens) (expression ending (budget + 1) tokens)
  operand : ∀ tier tokens,
    Agrees (operand ending budget tier tokens) (operand ending (budget + 1) tier tokens)
  tighterOperand : ∀ tier tokens, Agrees (tighterOperand ending budget tier tokens)
    (tighterOperand ending (budget + 1) tier tokens)
  moreOperands : ∀ tier left tokens, Agrees (moreOperands ending budget tier left tokens)
    (moreOperands ending (budget + 1) tier left tokens)
  signed : ∀ tokens, Agrees (signed ending budget tokens) (signed ending (budget + 1) tokens)
  atom : ∀ tokens, Agrees (atom ending budget tokens) (atom ending (budget + 1) tokens)
  arguments : ∀ tokens,
    Agrees (arguments ending budget tokens) (arguments ending (budget + 1) tokens)
  moreArguments : ∀ tokens,
    Agrees (moreArguments ending budget tokens) (moreArguments ending (budget + 1) tokens)

namespace ExpressionsAgree

theorem expression_succ (ih : ExpressionsAgree ending budget) (tokens : List Token) :
    Agrees (Parser.expression ending (budget + 1) tokens)
      (Parser.expression ending (budget + 2) tokens) := by
  rw [Parser.expression, Parser.expression]
  refine .bind (ih.operand .comparison tokens) fun ⟨left, rest⟩ => ?_
  dsimp only
  split
  · exact .refl _
  · exact .same _ fun _ => .bind (ih.expression _) fun _ => .refl _

theorem operand_succ (ih : ExpressionsAgree ending budget) (tier : Tier) (tokens : List Token) :
    Agrees (Parser.operand ending (budget + 1) tier tokens)
      (Parser.operand ending (budget + 2) tier tokens) := by
  rw [Parser.operand, Parser.operand]
  exact .bind (ih.tighterOperand tier tokens) fun _ => ih.moreOperands tier _ _

theorem tighterOperand_succ (ih : ExpressionsAgree ending budget) (tier : Tier)
    (tokens : List Token) :
    Agrees (Parser.tighterOperand ending (budget + 1) tier tokens)
      (Parser.tighterOperand ending (budget + 2) tier tokens) := by
  rw [Parser.tighterOperand, Parser.tighterOperand]
  split
  · exact ih.operand _ tokens
  · exact ih.signed tokens

theorem moreOperands_succ (ih : ExpressionsAgree ending budget) (tier : Tier) (left : Node)
    (tokens : List Token) :
    Agrees (Parser.moreOperands ending (budget + 1) tier left tokens)
      (Parser.moreOperands ending (budget + 2) tier left tokens) := by
  rw [Parser.moreOperands, Parser.moreOperands]
  split
  · exact .refl _
  · exact .same _ fun _ => .bind (ih.tighterOperand tier _) fun _ => ih.moreOperands tier _ _

theorem signed_succ (ih : ExpressionsAgree ending budget) (tokens : List Token) :
    Agrees (Parser.signed ending (budget + 1) tokens)
      (Parser.signed ending (budget + 2) tokens) := by
  rw [Parser.signed, Parser.signed]
  split
  · exact ih.atom tokens
  · exact .same _ fun _ => .bind (ih.signed _) fun _ => .refl _

theorem atom_succ (ih : ExpressionsAgree ending budget) (tokens : List Token) :
    Agrees (Parser.atom ending (budget + 1) tokens) (Parser.atom ending (budget + 2) tokens) := by
  rw [Parser.atom, Parser.atom]
  refine .same _ fun ⟨token, rest⟩ => ?_
  dsimp only
  split
  · exact .bind (ih.expression rest) fun _ => .refl _
  · exact .ite (.bind (ih.arguments rest) fun _ => .refl _)
      (.bind (properties_agrees ending budget rest) fun _ => .refl _)
  all_goals exact .refl _

theorem arguments_succ (ih : ExpressionsAgree ending budget) (tokens : List Token) :
    Agrees (Parser.arguments ending (budget + 1) tokens)
      (Parser.arguments ending (budget + 2) tokens) := by
  rw [Parser.arguments, Parser.arguments]
  refine .same _ fun _ => .ite (.refl _) ?_
  exact .bind (ih.expression _) fun _ => .bind (ih.moreArguments _) fun _ => .refl _

theorem moreArguments_succ (ih : ExpressionsAgree ending budget) (tokens : List Token) :
    Agrees (Parser.moreArguments ending (budget + 1) tokens)
      (Parser.moreArguments ending (budget + 2) tokens) := by
  rw [Parser.moreArguments, Parser.moreArguments]
  refine .ite (.same _ fun _ => ?_) (.refl _)
  exact .bind (ih.expression _) fun _ => .bind (ih.moreArguments _) fun _ => .refl _

end ExpressionsAgree

theorem expressions_agree (ending : Ending) (budget : Nat) : ExpressionsAgree ending budget := by
  induction budget with
  | zero =>
    constructor
    all_goals
      intros
      exact .spent _
  | succ budget ih =>
    exact ⟨ih.expression_succ, ih.operand_succ, ih.tighterOperand_succ, ih.moreOperands_succ,
      ih.signed_succ, ih.atom_succ, ih.arguments_succ, ih.moreArguments_succ⟩

/-! ## Statements -/

theorem initializer_agrees (ending : Ending) (budget : Nat) (name : String) (tokens : List Token) :
    Agrees (initializer ending budget name tokens) (initializer ending (budget + 1) name tokens) :=
  .same _ fun _ => (expressions_agree ending budget).expression _

theorem declaration_agrees (ending : Ending) (budget : Nat) (keyword : Keyword) (isConst : Bool)
    (tokens : List Token) : Agrees (declaration ending budget keyword isConst tokens)
      (declaration ending (budget + 1) keyword isConst tokens) :=
  .same _ fun _ => .same _ fun _ => .bind (initializer_agrees ending budget _ _) fun _ => .refl _

theorem assignment_agrees (ending : Ending) (budget : Nat) (tokens : List Token) :
    Agrees (assignment ending budget tokens) (assignment ending (budget + 1) tokens) :=
  .same _ fun _ => .same _ fun _ => .bind (properties_agrees ending budget _) fun _ =>
    .bind (initializer_agrees ending budget _ _) fun _ => .refl _

theorem giveBack_agrees (ending : Ending) (budget : Nat) (tokens : List Token) :
    Agrees (giveBack ending budget tokens) (giveBack ending (budget + 1) tokens) :=
  .same _ fun _ =>
    .ite (.bind ((expressions_agree ending budget).expression _) fun _ => .refl _) (.refl _)

theorem callStatement_agrees (ending : Ending) (budget : Nat) (name : String)
    (tokens : List Token) : Agrees (callStatement ending budget name tokens)
      (callStatement ending (budget + 1) name tokens) :=
  .same _ fun _ =>
    .ite (.bind ((expressions_agree ending budget).arguments _) fun _ => .refl _) (.refl _)

/-- At a budget and the next one, all functions that parse statements agree. -/
structure StatementsAgree (ending : Ending) (budget : Nat) : Prop where
  statement : ∀ tokens,
    Agrees (statement ending budget tokens) (statement ending (budget + 1) tokens)
  function : ∀ tokens, Agrees (function ending budget tokens) (function ending (budget + 1) tokens)
  choice : ∀ tokens, Agrees (choice ending budget tokens) (choice ending (budget + 1) tokens)
  statements : ∀ closers unclosed tokens, Agrees (statements ending budget closers unclosed tokens)
    (statements ending (budget + 1) closers unclosed tokens)

namespace StatementsAgree

theorem statement_succ (ih : StatementsAgree ending budget) (tokens : List Token) :
    Agrees (Parser.statement ending (budget + 1) tokens)
      (Parser.statement ending (budget + 2) tokens) := by
  rw [Parser.statement, Parser.statement]
  split
  · exact declaration_agrees ending budget .const true tokens
  · exact declaration_agrees ending budget .var false tokens
  · exact assignment_agrees ending budget tokens
  · exact ih.function tokens
  · exact giveBack_agrees ending budget tokens
  · exact ih.choice tokens
  · exact callStatement_agrees ending budget _ tokens
  all_goals exact .refl _

theorem function_succ (ih : StatementsAgree ending budget) (tokens : List Token) :
    Agrees (Parser.function ending (budget + 1) tokens)
      (Parser.function ending (budget + 2) tokens) := by
  rw [Parser.function, Parser.function]
  refine .same _ fun _ => .same _ fun _ => .same _ fun _ => ?_
  refine .bind (parameters_agrees ending budget _) fun _ => .same _ fun _ => .same _ fun _ => ?_
  exact .bind (ih.statements _ _ _) fun _ => .refl _

theorem choice_succ (ih : StatementsAgree ending budget) (tokens : List Token) :
    Agrees (Parser.choice ending (budget + 1) tokens)
      (Parser.choice ending (budget + 2) tokens) := by
  rw [Parser.choice, Parser.choice]
  refine .same _ fun _ => .bind ((expressions_agree ending budget).expression _) fun _ => ?_
  refine .same _ fun _ => .bind (ih.statements _ _ _) fun _ => .ite ?_ (.refl _)
  exact .same _ fun _ => .bind (ih.statements _ _ _) fun _ => .refl _

theorem statements_succ (ih : StatementsAgree ending budget) (closers : List Kind)
    (unclosed : GrammarProblem) (tokens : List Token) :
    Agrees (Parser.statements ending (budget + 1) closers unclosed tokens)
      (Parser.statements ending (budget + 2) closers unclosed tokens) := by
  rw [Parser.statements, Parser.statements]
  refine .ite (.refl _) (.ite (.refl _) ?_)
  exact .bind (ih.statement tokens) fun _ => .bind (ih.statements _ _ _) fun _ => .refl _

end StatementsAgree

theorem statements_agree (ending : Ending) (budget : Nat) : StatementsAgree ending budget := by
  induction budget with
  | zero =>
    constructor
    all_goals
      intros
      exact .spent _
  | succ budget ih =>
    exact ⟨ih.statement_succ, ih.function_succ, ih.choice_succ, ih.statements_succ⟩

end ScopeScript.Parser
