import ScopeScript.Proofs.Grammar.Predictive
set_option autoImplicit false

/-!
# Grammar: every parser function predicts

Every parser function predicts the words that its symbol derives.  The proofs follow the functions
step by step, with the rule for each step; what is left to say is which derivation the words taken
so far belong to.  The budget is what the inductions are on, as each call lowers it by one.

For each symbol the shortest words are found first: a function that fails has to know that what it
would have parsed next can be written at all.
-/

namespace ScopeScript.Parser

open Grammar (dotted commaWords wordList Expr Operand Tighter MoreOperands Signed Atom Call
  MoreArguments Statement Statements)

variable {ending : Ending} {limit : Nat}

/-! ## Words of the symbols -/

theorem viable_atom : Viable (Yields Atom.yield) [] :=
  ⟨[.text ""], ⟨.text "", rfl⟩, by decide⟩

theorem viable_signed : Viable (Yields Signed.yield) [] :=
  viable_atom.mono fun _ ⟨d, h⟩ => ⟨.atom d, h⟩

theorem viable_tighter (tier : Tier) : Viable (Yields (@Tighter.yield tier)) [] := by
  have chain : ∀ {tier : Tier}, Viable (Yields (@Tighter.yield tier)) [] →
      Viable (Yields (@Operand.yield tier)) [] := fun viable =>
    viable.mono fun _ ⟨d, h⟩ =>
      ⟨.chain d .done, by simpa [Operand.yield, MoreOperands.yield] using h⟩
  have multiplicative : Viable (Yields (@Tighter.yield .multiplicative)) [] :=
    viable_signed.mono fun _ ⟨d, h⟩ => ⟨.signed d, h⟩
  have additive : Viable (Yields (@Tighter.yield .additive)) [] :=
    (chain multiplicative).mono fun _ ⟨d, h⟩ => ⟨.multiplicative d, h⟩
  cases tier with
  | multiplicative => exact multiplicative
  | additive => exact additive
  | comparison => exact (chain additive).mono fun _ ⟨d, h⟩ => ⟨.additive d, h⟩

theorem viable_operand (tier : Tier) : Viable (Yields (@Operand.yield tier)) [] :=
  (viable_tighter tier).mono fun _ ⟨d, h⟩ =>
    ⟨.chain d .done, by simpa [Operand.yield, MoreOperands.yield] using h⟩

theorem viable_expr : Viable (Yields Expr.yield) [] :=
  (viable_operand .comparison).mono fun _ ⟨d, h⟩ => ⟨.single d, h⟩

theorem viable_statement : Viable (Yields Statement.yield) [] :=
  ⟨[.keyword .return_], ⟨.bareReturn, rfl⟩, by decide⟩

/-! ## Names -/

theorem properties_predicts (ending : Ending) (limit : Nat) :
    Predicts ending limit 1 Any (Yields dotted) Any (properties ending) := by
  induction limit with
  | zero => exact .zero (fun _ => rfl) (.of_word ⟨[], rfl⟩) (by omega)
  | succ limit ih =>
    refine .succ (fun b tokens => properties.eq_2 ending tokens b) (.ite ?_ ?_)
    · refine .take (fun _ h => lexeme_of_kind_mark h.2) trivial fun _ _ => ?_
      refine .bind .consumeName ?_
      rintro _ _ ⟨property, rfl⟩
      refine .bind (ih.call (by omega)) ?_
      rintro _ _ ⟨rest, rfl⟩
      exact .pure ⟨property :: rest, by simp [dotted]⟩ fun _ h => h
    · exact .pure ⟨[], rfl⟩ fun _ _ => trivial

theorem moreParameters_predicts (ending : Ending) (limit : Nat) :
    Predicts ending limit 1 Any (Yields commaWords) Any (moreParameters ending) := by
  induction limit with
  | zero => exact .zero (fun _ => rfl) (.of_word ⟨[], rfl⟩) (by omega)
  | succ limit ih =>
    refine .succ (fun b tokens => moreParameters.eq_2 ending tokens b) (.ite ?_ ?_)
    · refine .take (fun _ h => lexeme_of_kind_mark h.2) trivial fun _ _ => ?_
      refine .bind .consumeName ?_
      rintro _ _ ⟨param, rfl⟩
      refine .bind (ih.call (by omega)) ?_
      rintro _ _ ⟨rest, rfl⟩
      exact .pure ⟨param :: rest, by simp [commaWords]⟩ fun _ h => h
    · exact .pure ⟨[], rfl⟩ fun _ _ => trivial

theorem parameters_predicts (ending : Ending) (limit : Nat) :
    Predicts ending limit 1 Any (Yields wordList) Any (parameters ending) := by
  refine .ite ?_ ?_
  · exact .pure ⟨[], rfl⟩ fun _ _ => trivial
  · refine .bind .consumeName ?_
    rintro _ _ ⟨param, rfl⟩
    refine .bind ((moreParameters_predicts ending limit).call (by omega)) ?_
    rintro _ _ ⟨rest, rfl⟩
    exact .pure ⟨param :: rest, by simp [wordList]⟩ fun _ h => h

/-! ## Expressions -/

/-- All functions that parse parts of expressions predict at a budget. -/
structure ExpressionsPredict (ending : Ending) (limit : Nat) : Prop where
  expression : Predicts ending limit 9 Any (Yields Expr.yield) Any (expression ending)
  operand : ∀ tier, Predicts ending limit (2 * Grammar.tierLooseness tier + 2) Any
    (Yields (@Operand.yield tier)) Any fun b => operand ending b tier
  tighterOperand : ∀ tier, Predicts ending limit (2 * Grammar.tierLooseness tier + 1) Any
    (Yields (@Tighter.yield tier)) Any fun b => tighterOperand ending b tier
  moreOperands : ∀ tier left, Predicts ending limit 1 Any
    (Yields (@MoreOperands.yield tier)) Any fun b => moreOperands ending b tier left
  signed : Predicts ending limit 2 Any (Yields Signed.yield) Any (signed ending)
  atom : Predicts ending limit 1 Any (Yields Atom.yield) Any (atom ending)
  arguments : Predicts ending limit 1 Any
    (Yields fun d : Grammar.Arguments => .mark .openParen :: (d.yield ++ [.mark .closeParen])) Any
    (arguments ending)
  moreArguments : Predicts ending limit 1 Any (Yields MoreArguments.yield) Any
    (moreArguments ending)

namespace ExpressionsPredict

theorem expression_succ (ih : ExpressionsPredict ending limit) :
    Predicts ending (limit + 1) 9 Any (Yields Expr.yield) Any (Parser.expression ending) := by
  refine .succ (fun b tokens => expression.eq_2 ending tokens b) ?_
  refine .bind (ih.operand .comparison) ?_
  rintro _ _ ⟨left, rfl⟩
  have single : Yields Expr.yield (left.yield ++ []) := ⟨.single left, by simp [Expr.yield]⟩
  refine .choose (.of_word single) fun lexeme _ _ => ?_
  cases hop : logicalOperator? lexeme.kind with
  | none =>
    refine .congr (q := ?_) (fun b tokens h => ?_) ?_
    rotate_left
    · dsimp only
      rw [aheadKind, h, hop]
    exact .pure single fun _ _ => trivial
  | some op =>
    obtain ⟨sign, rfl, rfl⟩ := logicalOperator_iff.mp hop
    refine .congr (q := ?_) (fun b tokens h => ?_) ?_
    rotate_left
    · dsimp only
      rw [aheadKind, h, hop]
    refine .take (fun _ h => h) (by cases sign <;> trivial) fun _ _ => ?_
    refine .bind (ih.expression.call (by omega)) ?_
    rintro _ _ ⟨right, rfl⟩
    dsimp only
    exact .pure ⟨.logical left sign right, by simp [Expr.yield]⟩ fun _ h => h

theorem operand_succ (ih : ExpressionsPredict ending limit) (tier : Tier) :
    Predicts ending (limit + 1) (2 * Grammar.tierLooseness tier + 2) Any
      (Yields (@Operand.yield tier)) Any fun b => Parser.operand ending b tier := by
  refine .succ (fun b tokens => operand.eq_2 ending tier tokens b) ?_
  refine .bind (ih.tighterOperand tier) ?_
  rintro left _ ⟨first, rfl⟩
  refine (ih.moreOperands tier left).last (by omega) ?_
  rintro _ ⟨more, rfl⟩
  exact ⟨.chain first more, rfl⟩

theorem tighterOperand_succ (ih : ExpressionsPredict ending limit) (tier : Tier) :
    Predicts ending (limit + 1) (2 * Grammar.tierLooseness tier + 1) Any
      (Yields (@Tighter.yield tier)) Any fun b => Parser.tighterOperand ending b tier := by
  refine .succ (fun b tokens => tighterOperand.eq_2 ending tier tokens b) ?_
  cases tier with
  | comparison =>
    exact (ih.operand .additive).last (Nat.le_refl _) fun _ ⟨d, h⟩ => ⟨.additive d, h⟩
  | additive =>
    exact (ih.operand .multiplicative).last (Nat.le_refl _) fun _ ⟨d, h⟩ => ⟨.multiplicative d, h⟩
  | multiplicative => exact ih.signed.last (Nat.le_refl _) fun _ ⟨d, h⟩ => ⟨.signed d, h⟩

theorem moreOperands_succ (ih : ExpressionsPredict ending limit) (tier : Tier) (left : Node) :
    Predicts ending (limit + 1) 1 Any (Yields (@MoreOperands.yield tier)) Any
      fun b => Parser.moreOperands ending b tier left := by
  refine .succ (fun b tokens => moreOperands.eq_2 ending tier left tokens b) ?_
  have done : Yields (@MoreOperands.yield tier) [] := ⟨.done, rfl⟩
  refine .choose (.of_word done) fun lexeme _ _ => ?_
  cases hop : tier.operator? lexeme.kind with
  | none =>
    refine .congr (q := ?_) (fun b tokens h => ?_) ?_
    rotate_left
    · rw [aheadKind, h, hop]
    exact .pure done fun _ _ => trivial
  | some op =>
    obtain ⟨sign, rfl, rfl⟩ := tierOperator_iff.mp hop
    refine .congr (q := ?_) (fun b tokens h => ?_) ?_
    rotate_left
    · rw [aheadKind, h, hop]
    refine .take (fun _ h => h) (by cases sign <;> trivial) fun _ _ => ?_
    have loose := Grammar.tierLooseness_lt_logical tier
    simp only [Grammar.logicalLooseness] at loose
    refine .bind ((ih.tighterOperand tier).call (by omega)) ?_
    rintro right _ ⟨operand, rfl⟩
    refine (ih.moreOperands tier (.binary sign.operator left right)).last (by omega) ?_
    rintro _ ⟨rest, rfl⟩
    exact ⟨.more sign operand rest, rfl⟩

theorem signed_succ (ih : ExpressionsPredict ending limit) :
    Predicts ending (limit + 1) 2 Any (Yields Signed.yield) Any (Parser.signed ending) := by
  refine .succ (fun b tokens => signed.eq_2 ending tokens b) ?_
  refine .choose viable_signed fun lexeme _ _ => ?_
  cases hop : unaryOperator? lexeme.kind with
  | none =>
    refine .congr (q := ?_) (fun b tokens h => ?_) ?_
    rotate_left
    · rw [aheadKind, h, hop]
    exact ih.atom.last (Nat.le_refl _) fun _ ⟨d, h⟩ => ⟨.atom d, h⟩
  | some op =>
    obtain ⟨sign, rfl, rfl⟩ := unaryOperator_iff.mp hop
    refine .congr (q := ?_) (fun b tokens h => ?_) ?_
    rotate_left
    · rw [aheadKind, h, hop]
    refine .take (fun _ h => h) (by cases sign <;> trivial) fun _ _ => ?_
    refine .bind (ih.signed.call (by omega)) ?_
    rintro _ _ ⟨operand, rfl⟩
    dsimp only
    exact .pure ⟨.sign sign operand, by simp [Signed.yield]⟩ fun _ h => h

theorem atom_succ (ih : ExpressionsPredict ending limit) :
    Predicts ending (limit + 1) 1 Any (Yields Atom.yield) Any (Parser.atom ending) := by
  refine .succ (fun b tokens => atom.eq_2 ending tokens b) ?_
  refine .choose viable_atom fun lexeme _ written => ?_
  cases lexeme with
  | text content =>
    refine .take (fun _ h => h) trivial fun token shown => ?_
    dsimp only
    rw [shown]
    exact .pure ⟨.text content, rfl⟩ fun _ h => h
  | number numeral =>
    have written := written.resolve_right (by simp)
    obtain ⟨d, hread⟩ := Lexer.finite_of_written written
    refine .take (fun _ h => h) written fun token shown => ?_
    dsimp only
    rw [shown]
    dsimp only
    rw [hread]
    exact .pure ⟨.number numeral, rfl⟩ fun _ h => h
  | word name =>
    refine .take (fun _ h => h) (written.resolve_right (by simp)) fun token shown => ?_
    dsimp only
    rw [shown]
    refine .ite ?_ ?_
    · refine .bind (ih.arguments.call (by omega)) ?_
      rintro _ _ ⟨arguments, rfl⟩
      dsimp only
      exact .pure ⟨.call (.mk name arguments), by simp [Atom.yield, Call.yield]⟩ fun _ h => h
    · refine .bind ((properties_predicts ending limit).call (by omega)) ?_
      rintro _ _ ⟨properties, rfl⟩
      dsimp only
      exact .pure ⟨.path name properties, by simp [Atom.yield]⟩ fun _ h => h
  | finish => exact .takeReject .noExpression viable_atom fun token shown b rest => by simp [shown]
  | keyword keyword =>
    exact .takeReject .noExpression viable_atom fun token shown b rest => by simp [shown]
  | mark mark =>
    by_cases paren : mark = .openParen
    · subst paren
      refine .take (fun _ h => h) trivial fun token shown => ?_
      dsimp only
      rw [shown]
      refine .bind (ih.expression.call (by omega)) ?_
      rintro _ _ ⟨inner, rfl⟩
      dsimp only
      refine .bind (.consumeKind (by decide) ⟨.mark .closeParen, rfl, trivial⟩) ?_
      rintro _ _ ⟨lexeme, same, rfl⟩
      obtain rfl := lexeme_of_kind_mark same
      exact .pure ⟨.paren inner, by simp [Atom.yield]⟩ fun _ h => h
    · refine .takeReject .noExpression viable_atom fun token shown b rest => ?_
      cases mark with
      | openParen => exact absurd rfl paren
      | _ => simp [shown]

theorem arguments_succ (ih : ExpressionsPredict ending limit) :
    Predicts ending (limit + 1) 1 Any
      (Yields fun d : Grammar.Arguments => .mark .openParen :: (d.yield ++ [.mark .closeParen])) Any
      (Parser.arguments ending) := by
  refine .succ (fun b tokens => arguments.eq_2 ending tokens b) ?_
  refine .bind (.consumeKind (by decide) ⟨.mark .openParen, rfl, trivial⟩) ?_
  rintro _ _ ⟨lexeme, same, rfl⟩
  obtain rfl := lexeme_of_kind_mark same
  simp only [ok_bind]
  refine .ite ?_ ?_
  · refine .bind (.consumeKind (by decide) ⟨.mark .closeParen, rfl, trivial⟩) ?_
    rintro _ _ ⟨lexeme, same, rfl⟩
    obtain rfl := lexeme_of_kind_mark same
    exact .pure ⟨.none, by simp [Grammar.Arguments.yield]⟩ fun _ h => h
  · refine .bind (ih.expression.call (by simp)) ?_
    rintro _ _ ⟨first, rfl⟩
    dsimp only
    refine .bind (ih.moreArguments.call (by simp only [List.length_singleton]; omega)) ?_
    rintro _ _ ⟨more, rfl⟩
    dsimp only
    refine .bind (.consumeKind (by decide) ⟨.mark .closeParen, rfl, trivial⟩) ?_
    rintro _ _ ⟨lexeme, same, rfl⟩
    obtain rfl := lexeme_of_kind_mark same
    exact .pure ⟨.some first more, by simp [Grammar.Arguments.yield]⟩ fun _ h => h

theorem moreArguments_succ (ih : ExpressionsPredict ending limit) :
    Predicts ending (limit + 1) 1 Any (Yields MoreArguments.yield) Any
      (Parser.moreArguments ending) := by
  refine .succ (fun b tokens => moreArguments.eq_2 ending tokens b) (.ite ?_ ?_)
  · refine .take (fun _ h => lexeme_of_kind_mark h.2) trivial fun _ _ => ?_
    refine .bind (ih.expression.call (by omega)) ?_
    rintro _ _ ⟨argument, rfl⟩
    refine .bind (ih.moreArguments.call (by omega)) ?_
    rintro _ _ ⟨rest, rfl⟩
    exact .pure ⟨.more argument rest, by simp [MoreArguments.yield]⟩ fun _ h => h
  · exact .pure ⟨.done, rfl⟩ fun _ _ => trivial

end ExpressionsPredict

/-- At every budget the functions that parse expressions predict. -/
theorem expressions_predict (ending : Ending) (limit : Nat) : ExpressionsPredict ending limit := by
  induction limit with
  | zero =>
    constructor
    · exact .zero (fun _ => rfl) viable_expr (by omega)
    · exact fun tier => .zero (fun _ => rfl) (viable_operand tier) (by omega)
    · exact fun tier => .zero (fun _ => rfl) (viable_tighter tier) (by omega)
    · exact fun tier left => .zero (fun _ => rfl) (.of_word ⟨.done, rfl⟩) (by omega)
    · exact .zero (fun _ => rfl) viable_signed (by omega)
    · exact .zero (fun _ => rfl) viable_atom (by omega)
    · exact .zero (fun _ => rfl) ⟨[.mark .openParen, .mark .closeParen], ⟨.none, rfl⟩, by decide⟩
        (by omega)
    · exact .zero (fun _ => rfl) (.of_word ⟨.done, rfl⟩) (by omega)
  | succ limit ih =>
    exact ⟨ih.expression_succ, ih.operand_succ, ih.tighterOperand_succ, ih.moreOperands_succ,
      ih.signed_succ, ih.atom_succ, ih.arguments_succ, ih.moreArguments_succ⟩

/-! ## Statements -/

theorem initializer_predicts (ending : Ending) (limit : Nat) (name : String) :
    Predicts ending limit 9 Any (Yields fun d : Expr => .mark .equals :: d.yield) Any
      fun b => initializer ending b name := by
  refine .bind (.consumeKind (by decide) ⟨.mark .equals, rfl, trivial⟩) ?_
  rintro _ _ ⟨lexeme, same, rfl⟩
  obtain rfl := lexeme_of_kind_mark same
  exact (expressions_predict ending limit).expression.last (by omega) fun _ ⟨d, h⟩ =>
    ⟨d, by simp [h]⟩

theorem declaration_predicts (ending : Ending) (limit : Nat) (keyword : Keyword) (isConst : Bool)
    (fits : keyword = if isConst then .const else .var) :
    Predicts ending limit 1 (· = .keyword keyword) (Yields Statement.yield) Any
      fun b => declaration ending b keyword isConst := by
  refine .take (fun _ h => h) trivial fun _ _ => ?_
  refine .bind .consumeName ?_
  rintro found _ ⟨name, rfl⟩
  refine .bind ((initializer_predicts ending limit found).call (by omega)) ?_
  rintro _ _ ⟨initial, rfl⟩
  exact .pure ⟨.declaration isConst name initial, by simp [Statement.yield, fits]⟩ fun _ h => h

theorem assignment_predicts (ending : Ending) (limit : Nat) :
    Predicts ending limit 1 (· = .keyword .set) (Yields Statement.yield) Any
      (assignment ending) := by
  refine .take (fun _ h => h) trivial fun _ _ => ?_
  refine .bind .consumeName ?_
  rintro found _ ⟨name, rfl⟩
  refine .bind ((properties_predicts ending limit).call (by omega)) ?_
  rintro names _ ⟨properties, rfl⟩
  refine .bind ((initializer_predicts ending limit (Node.path found names)).call (by omega)) ?_
  rintro _ _ ⟨value, rfl⟩
  exact .pure ⟨.set name properties value, by simp [Statement.yield]⟩ fun _ h => h

theorem giveBack_predicts (ending : Ending) (limit : Nat) :
    Predicts ending limit 1 (· = .keyword .return_) (Yields Statement.yield) Any
      (giveBack ending) := by
  refine .take (fun _ h => h) trivial fun _ _ => ?_
  have bare : Yields Statement.yield [.keyword .return_] := ⟨.bareReturn, rfl⟩
  refine .choose (.of_word bare) fun lexeme _ _ => ?_
  by_cases starts : startsExpression lexeme.kind = true
  · refine .congr (q := ?_) (fun b tokens h => ?_) ?_
    rotate_left
    · dsimp only
      rw [aheadKind, h, if_pos starts]
    refine .bind ((expressions_predict ending limit).expression.call (by omega)) ?_
    rintro _ _ ⟨value, rfl⟩
    dsimp only
    exact .pure ⟨.giveBack value, by simp [Statement.yield]⟩ fun _ h => h
  · refine .congr (q := ?_) (fun b tokens h => ?_) ?_
    rotate_left
    · dsimp only
      rw [aheadKind, h, if_neg starts]
    exact .pure bare fun _ _ => trivial

theorem callStatement_predicts (ending : Ending) (limit : Nat) {name : String}
    (written : (Lexeme.word name).Written) :
    Predicts ending limit 1 (· = .word name) (Yields Statement.yield) Any
      fun b => callStatement ending b name := by
  refine .take (fun _ h => h) written fun _ _ => .ite ?_ (.rejectAhead ?_)
  · refine .bind ((expressions_predict ending limit).arguments.call (by omega)) ?_
    rintro _ _ ⟨arguments, rfl⟩
    exact .pure ⟨.call (.mk name arguments), by simp [Statement.yield, Call.yield]⟩ fun _ h => h
  · exact ⟨[.mark .openParen, .mark .closeParen], ⟨.call (.mk name .none), rfl⟩, by decide⟩

/-- All functions that parse statements predict at a budget. -/
structure StatementsPredict (ending : Ending) (limit : Nat) : Prop where
  statement : Predicts ending limit 2 Any (Yields Statement.yield) Any (statement ending)
  function : Predicts ending limit 1 (· = .keyword .func) (Yields Statement.yield) Any
    (function ending)
  choice : Predicts ending limit 1 (· = .keyword .if_) (Yields Statement.yield) Any (choice ending)
  statements : ∀ closers unclosed, Predicts ending limit 3 Any (Yields Statements.yield)
    (fun lexeme => lexeme.kind ∈ closers) fun b => statements ending b closers unclosed

namespace StatementsPredict

theorem statement_succ (ih : StatementsPredict ending limit) :
    Predicts ending (limit + 1) 2 Any (Yields Statement.yield) Any (Parser.statement ending) := by
  refine .succ (fun b tokens => statement.eq_2 ending tokens b) ?_
  refine .choose viable_statement fun lexeme _ written => ?_
  have rejects : ∀ problem, Predicts ending limit 1 (· = lexeme) (Yields Statement.yield) Any
      (fun _ tokens => reject problem (ahead ending tokens) : Parse Node) :=
    fun _ => .rejectAhead viable_statement
  cases lexeme with
  | word name =>
    exact .congr (fun b tokens h => by rw [h])
      (callStatement_predicts ending limit (written.resolve_right (by simp)))
  | keyword keyword =>
    cases keyword with
    | const =>
      exact .congr (fun b tokens h => by rw [h])
        (declaration_predicts ending limit .const true rfl)
    | var =>
      exact .congr (fun b tokens h => by rw [h]) (declaration_predicts ending limit .var false rfl)
    | set => exact .congr (fun b tokens h => by rw [h]) (assignment_predicts ending limit)
    | func => exact .congr (fun b tokens h => by rw [h]) ih.function
    | return_ => exact .congr (fun b tokens h => by rw [h]) (giveBack_predicts ending limit)
    | if_ => exact .congr (fun b tokens h => by rw [h]) ih.choice
    | for_ => exact .congr (fun b tokens h => by rw [h]) (rejects .loop)
    | _ => exact .congr (fun b tokens h => by rw [h]) (rejects .noStatement)
  | _ => exact .congr (fun b tokens h => by rw [h]) (rejects .noStatement)

theorem function_succ (ih : StatementsPredict ending limit) :
    Predicts ending (limit + 1) 1 (· = .keyword .func) (Yields Statement.yield) Any
      (Parser.function ending) := by
  refine .succ (fun b tokens => function.eq_2 ending tokens b) ?_
  refine .take (fun _ h => h) trivial fun _ _ => ?_
  refine .bind .consumeName ?_
  rintro _ _ ⟨name, rfl⟩
  refine .bind (.consumeKind (by decide) ⟨.mark .openParen, rfl, trivial⟩) ?_
  rintro _ _ ⟨opening, same, rfl⟩
  obtain rfl := lexeme_of_kind_mark same
  refine .bind ((parameters_predicts ending limit).call (by omega)) ?_
  rintro _ _ ⟨params, rfl⟩
  refine .bind (.consumeKind (by decide) ⟨.mark .closeParen, rfl, trivial⟩) ?_
  rintro _ _ ⟨closing, same, rfl⟩
  obtain rfl := lexeme_of_kind_mark same
  refine .bind (.consumeKind (by decide) ⟨.mark .openBrace, rfl, trivial⟩) ?_
  rintro _ _ ⟨brace, same, rfl⟩
  obtain rfl := lexeme_of_kind_mark same
  refine .bind ((ih.statements [.mark .closeBrace] .openBody).call (by omega)) ?_
  rintro _ _ ⟨body, rfl⟩
  refine .take (fun _ h => lexeme_of_kind_mark (List.mem_singleton.mp h)) trivial fun _ _ => ?_
  exact .pure ⟨.func name params body, by simp [Statement.yield]⟩ fun _ h => h

theorem choice_succ (ih : StatementsPredict ending limit) :
    Predicts ending (limit + 1) 1 (· = .keyword .if_) (Yields Statement.yield) Any
      (Parser.choice ending) := by
  refine .succ (fun b tokens => choice.eq_2 ending tokens b) ?_
  refine .take (fun _ h => h) trivial fun _ _ => ?_
  refine .bind ((expressions_predict ending limit).expression.call (by omega)) ?_
  rintro _ _ ⟨condition, rfl⟩
  refine .bind (.consumeKind (by decide) ⟨.keyword .then_, rfl, trivial⟩) ?_
  rintro _ _ ⟨lexeme, same, rfl⟩
  obtain rfl := lexeme_of_kind_keyword same
  refine .bind ((ih.statements [.keyword .else_, .keyword .end_] .openChoice).call (by omega)) ?_
  rintro _ _ ⟨thenPart, rfl⟩
  simp only [ok_bind]
  refine .ite ?_ ?_
  · refine .take (fun _ h => lexeme_of_kind_keyword h.2) trivial fun _ _ => ?_
    refine .bind ((ih.statements [.keyword .end_] .openChoice).call (by omega)) ?_
    rintro _ _ ⟨elsePart, rfl⟩
    dsimp only
    refine .bind (.consumeKind (by decide) ⟨.keyword .end_, rfl, trivial⟩) ?_
    rintro _ _ ⟨lexeme, same, rfl⟩
    obtain rfl := lexeme_of_kind_keyword same
    exact .pure ⟨.choiceElse condition thenPart elsePart, by simp [Statement.yield]⟩ fun _ h => h
  · refine .bind (.consumeKind (by decide) ⟨.keyword .end_, rfl, trivial⟩) ?_
    rintro _ _ ⟨lexeme, same, rfl⟩
    obtain rfl := lexeme_of_kind_keyword same
    exact .pure ⟨.choice condition thenPart, by simp [Statement.yield]⟩ fun _ h => h

theorem statements_succ (ih : StatementsPredict ending limit) (closers : List Kind)
    (unclosed : GrammarProblem) :
    Predicts ending (limit + 1) 3 Any (Yields Statements.yield)
      (fun lexeme => lexeme.kind ∈ closers)
      fun b => Parser.statements ending b closers unclosed := by
  refine .succ (fun b tokens => statements.eq_2 ending closers unclosed tokens b) ?_
  have nil : Yields Statements.yield [] := ⟨.nil, rfl⟩
  refine .choose (.of_word nil) fun lexeme _ _ => ?_
  by_cases closed : lexeme.kind ∈ closers
  · refine .congr (q := ?_) (fun b tokens h => ?_) ?_
    rotate_left
    · rw [aheadKind, h, if_pos closed]
    refine .pure nil ?_
    rintro _ rfl
    exact closed
  by_cases finish : lexeme.kind = .finish
  · refine .congr (q := ?_) (fun b tokens h => ?_) ?_
    rotate_left
    · rw [aheadKind, h, if_neg closed, if_pos finish]
    exact .rejectAhead (.of_word nil)
  · refine .congr (q := ?_) (fun b tokens h => ?_) ?_
    rotate_left
    · rw [aheadKind, h, if_neg closed, if_neg finish]
    refine .bind (ih.statement.call (by omega)) ?_
    rintro _ _ ⟨first, rfl⟩
    obtain ⟨start, others, hyield, -⟩ := first.starts
    refine .bind ((ih.statements closers unclosed).call (by simp [hyield]; omega)) ?_
    rintro _ _ ⟨rest, rfl⟩
    exact .pure ⟨.cons first rest, by simp [Statements.yield]⟩ fun _ h => h

end StatementsPredict

/-- At every budget the functions that parse statements predict. -/
theorem statements_predict (ending : Ending) (limit : Nat) : StatementsPredict ending limit := by
  induction limit with
  | zero =>
    constructor
    · exact .zero (fun _ => rfl) viable_statement (by omega)
    · exact .zero (fun _ => rfl) viable_statement (by omega)
    · exact .zero (fun _ => rfl) viable_statement (by omega)
    · exact fun closers unclosed => .zero (fun _ => rfl) (.of_word ⟨.nil, rfl⟩) (by omega)
  | succ limit ih =>
    exact ⟨ih.statement_succ, ih.function_succ, ih.choice_succ, ih.statements_succ⟩

end ScopeScript.Parser
