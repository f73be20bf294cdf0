import ScopeScript.Proofs.Eval.Activity
import ScopeScript.Proofs.Eval.Concatenation
import ScopeScript.Proofs.Eval.ScriptValues
import ScopeScript.Proofs.Tree.WellFormed
set_option autoImplicit false

/-!
# Eval: returned expressions

To evaluate an expression and to run a script that returns it are the same.  A source is an
expression exactly if it is the value of a `return` that is put in front of it: the blank behind the
keyword keeps the lexemes as they are, and the kinds of tokens in front of which a `return` takes a
value are those that expressions start with.

The two runs only differ in what they call an expression that has no value.
-/

namespace ScopeScript

/-! ## Lexemes -/

namespace Lexer

variable {rest : List Char} {lexemes : List Lexeme}

theorem lexes_blank_iff {c : Char} (isBlank : Text.isBlank c = true) :
    Lexes (c :: rest) lexemes ↔ Lexes rest lexemes := by
  refine ⟨fun h => ?_, .blank isBlank⟩
  cases h with
  | blank _ h => exact h
  | lexeme notBlank => exact absurd isBlank (by simp [notBlank])

/-- What starts with a keyword and a blank splits into the keyword and what is behind the blank. -/
theorem lexes_keyword_iff (keyword : Keyword) :
    Lexes (keyword.spelling.toList ++ ' ' :: rest) lexemes ↔
      ∃ behind, lexemes = .keyword keyword :: behind ∧ Lexes rest behind := by
  have stops : ∀ c ∈ (' ' :: rest).head?, isWordChar c = false := by
    intro c hc
    obtain rfl : ' ' = c := by simpa using hc
    decide
  constructor
  · intro h
    have same : wordLexeme keyword.spelling = .keyword keyword := by simp [wordLexeme]
    have spelled : isSpelled keyword.spelling = true := by cases keyword <;> decide
    have hscan := scan_wordLexeme spelled stops
    obtain ⟨c, run, hspelling, letter, -⟩ := isSpelled_iff.mp spelled
    rw [same, hspelling, List.cons_append] at hscan
    rw [hspelling, List.cons_append] at h
    cases h with
    | blank isBlank => exact absurd isBlank (by simp [(letter_facts letter).1])
    | lexeme notBlank hscan' real shorter h =>
      rw [hscan] at hscan'
      cases hscan'
      exact ⟨_, rfl, (lexes_blank_iff (by decide)).mp h⟩
  · rintro ⟨behind, rfl, h⟩
    exact lexes_keyword keyword stops (lexes_space h)

end Lexer

theorem tokenize_lexes_iff {source : String} {lexemes : List Lexeme} :
    (∃ tokens, tokenize source = .ok tokens ∧ tokens.map Token.lexeme = lexemes) ↔
      Lexer.Lexes source.toList lexemes := by
  constructor
  · rintro ⟨tokens, htokens, rfl⟩
    exact (tiled_of_tokenize htokens).lexes
  · exact tokenize_of_lexes

/-! ## Parses -/

open Grammar (Expr Statement Statements)

theorem parseExpression_lexes_iff {source : String} {tree : Node} :
    parseExpression source = .ok tree ↔
      ∃ e : Expr, Lexer.Lexes source.toList e.yield ∧ e.tree = tree := by
  rw [parseExpression_eq_ok_iff]
  constructor
  · rintro ⟨tokens, htokens, e, hyield, htree⟩
    exact ⟨e, tokenize_lexes_iff.mp ⟨tokens, htokens, hyield.symm⟩, htree⟩
  · rintro ⟨e, lexes, htree⟩
    obtain ⟨tokens, htokens, hyield⟩ := tokenize_lexes_iff.mpr lexes
    exact ⟨tokens, htokens, e, hyield.symm, htree⟩

theorem parseProgram_lexes_iff {source : String} {tree : Node} :
    parseProgram source = .ok tree ↔
      ∃ d : Statements, Lexer.Lexes source.toList d.yield ∧ d.Greedy .finish ∧ d.script = tree := by
  rw [parseProgram_eq_ok_iff]
  constructor
  · rintro ⟨tokens, htokens, d, hyield, greedy, htree⟩
    exact ⟨d, tokenize_lexes_iff.mp ⟨tokens, htokens, hyield.symm⟩, greedy, htree⟩
  · rintro ⟨d, lexes, greedy, htree⟩
    obtain ⟨tokens, htokens, hyield⟩ := tokenize_lexes_iff.mpr lexes
    exact ⟨tokens, htokens, d, hyield.symm, greedy, htree⟩

theorem parseExpression_ne_absent {source : String} {tree : Node}
    (h : parseExpression source = .ok tree) : tree ≠ .absent := by
  obtain ⟨tokens, htokens, e, hyield, htree⟩ := parseExpression_eq_ok_iff.mp h
  have ok := e.exprOk_tree (Grammar.allWritten_of_tokenize htokens hyield)
  rintro rfl
  rw [htree] at ok
  cases ok

/-- A `return` with a value is derived in one way only. -/
theorem Grammar.Statements.eq_giveBack {d : Statements} {tree : Node} (present : tree ≠ .absent)
    (h : d.script = .block [.giveBack tree]) :
    ∃ e : Expr, d = .cons (.giveBack e) .nil ∧ e.tree = tree := by
  have trees := Node.block.inj h
  cases d with
  | nil => cases trees
  | cons first rest =>
    obtain ⟨hfirst, hrest⟩ := List.cons.inj trees
    cases rest with
    | cons => cases hrest
    | nil =>
      cases first with
      | giveBack e => exact ⟨e, rfl, Node.giveBack.inj hfirst⟩
      | bareReturn => exact absurd (Node.giveBack.inj hfirst).symm present
      | _ => cases hfirst

theorem Grammar.Statements.yield_giveBack (e : Expr) :
    (Statements.cons (.giveBack e) .nil).yield = .keyword .return_ :: e.yield := by
  simp [yield, Statement.yield]

/-- A source is an expression if and only if a `return` in front of it takes it for its value. -/
theorem parseExpression_iff_return {source : String} {tree : Node} :
    parseExpression source = .ok tree ↔
      parseProgram ("return " ++ source) = .ok (.block [.giveBack tree]) ∧ tree ≠ .absent := by
  have text : ("return " ++ source).toList =
      Keyword.return_.spelling.toList ++ ' ' :: source.toList := String.toList_append
  constructor
  · intro h
    refine ⟨?_, parseExpression_ne_absent h⟩
    obtain ⟨e, lexes, rfl⟩ := parseExpression_lexes_iff.mp h
    refine parseProgram_lexes_iff.mpr ⟨.cons (.giveBack e) .nil, ?_, ⟨trivial, trivial⟩, rfl⟩
    rw [text, Lexer.lexes_keyword_iff]
    exact ⟨e.yield, Statements.yield_giveBack e, lexes⟩
  · rintro ⟨h, present⟩
    obtain ⟨d, lexes, -, hscript⟩ := parseProgram_lexes_iff.mp h
    obtain ⟨e, rfl, rfl⟩ := d.eq_giveBack present hscript
    rw [text, Lexer.lexes_keyword_iff, Statements.yield_giveBack] at lexes
    obtain ⟨behind, hyield, lexes⟩ := lexes
    obtain ⟨-, rfl⟩ := List.cons.inj hyield
    exact parseExpression_lexes_iff.mpr ⟨e, lexes, rfl⟩

/-! ## The first token -/

/-- Some expression starts with a token of the kind. -/
def StartsSomeExpression (kind : Kind) : Prop :=
  ∃ source token rest tree, tokenize source = .ok (token :: rest) ∧ token.lexeme.kind = kind ∧
    parseExpression source = .ok tree

/-- The kinds in front of which a `return` takes a value are those that expressions start with. -/
theorem startsExpression_iff (kind : Kind) :
    Parser.startsExpression kind = true ↔ StartsSomeExpression kind := by
  constructor
  · intro starts
    match kind with
    | .word => exact ⟨"a", _, _, _, rfl, rfl, rfl⟩
    | .text => exact ⟨"\"\"", _, _, _, rfl, rfl, rfl⟩
    | .number => exact ⟨"0", _, _, _, rfl, rfl, rfl⟩
    | .mark .openParen => exact ⟨"(0)", _, _, _, rfl, rfl, rfl⟩
    | .mark .plus => exact ⟨"+0", _, _, _, rfl, rfl, rfl⟩
    | .mark .minus => exact ⟨"-0", _, _, _, rfl, rfl, rfl⟩
    | .keyword .not => exact ⟨"not 0", _, _, _, rfl, rfl, rfl⟩
  · rintro ⟨source, token, rest, tree, htokens, rfl, parsed⟩
    obtain ⟨tokens, htokens', e, hyield, -⟩ := parseExpression_eq_ok_iff.mp parsed
    obtain rfl := Except.ok.inj (htokens.symm.trans htokens')
    exact (Grammar.canStart_iff _).mp ⟨e, by rw [hyield]; rfl⟩

/-! ## Runs -/

namespace Eval

variable {settings : Settings} {scope : ScopeId} {source : String} {tree : Node} {m : Machine}

theorem evaluateSource_of_parsed (h : parseExpression source = .ok tree) :
    evaluateSource settings scope source =
      evaluateValue settings settings.caller scope "expression" tree := by
  rw [evaluateSource, h]
  rfl

/-- To run a `return` of an expression is to evaluate it, under another name. -/
theorem run_giveBack (present : tree ≠ .absent) :
    run settings scope (.block [.giveBack tree]) =
      (do let value ← evaluateValue settings settings.caller scope "returned expression" tree
          pure (some value)) := by
  rw [run, execute, executeAll, execute_giveBack present]
  simp only [bind_assoc, pure_bind]

/-- The value of an expression is asked for behind its evaluation. -/
theorem evaluateValue_apply (settings : Settings) (call : Caller) (scope : ScopeId)
    (description : String) (tree : Node) (m : Machine) :
    evaluateValue settings call scope description tree m =
      match evaluate settings call scope tree m with
      | .ok value m' =>
        if value.isSentinel then .error (.noValue description) m' else .ok value m'
      | .error error m' => .error error m' := by
  rw [evaluateValue, bind_apply]
  cases evaluate settings call scope tree m with
  | error error m' => rfl
  | ok value m' =>
    simp only [demand]
    split <;> rfl

end Eval

/-- Returning an expression and evaluating it agree.

A source is an expression exactly if a script that starts with `return` has it for its value, and
the kinds of tokens in front of which a `return` looks for a value are exactly those that start some
expression.  From any state, to evaluate an expression and to run a script that returns it do the
same and end alike: with one value, or with one error, which names the expression itself differently
if that has no value. -/
theorem returned_expressions_are_evaluated :
    (∀ source tree, parseExpression source = .ok tree ↔
      parseProgram ("return " ++ source) = .ok (.block [.giveBack tree]) ∧ tree ≠ .absent) ∧
    (∀ kind, Parser.startsExpression kind = true ↔ StartsSomeExpression kind) ∧
    ∀ source tree, parseExpression source = .ok tree →
      ∀ (settings : Settings) (scope : ScopeId) (m : Machine),
        let evaluated := Eval.evaluateSource settings scope source m
        let returned := Eval.runSource settings scope ("return " ++ source) m
        match Eval.evaluate settings settings.caller scope tree m with
        | .ok value m' =>
          if value.isSentinel then
            evaluated = .error (.noValue "expression") m' ∧
              returned = .error (.noValue "returned expression") m'
          else evaluated = .ok value m' ∧ returned = .ok (some value) m'
        | .error error m' => evaluated = .error error m' ∧ returned = .error error m' := by
  refine ⟨fun _ _ => parseExpression_iff_return, startsExpression_iff, ?_⟩
  intro source tree parsed settings scope m evaluated returned
  obtain ⟨parsed', present⟩ := parseExpression_iff_return.mp parsed
  have evaluation : evaluated =
      Eval.evaluateValue settings settings.caller scope "expression" tree m := by
    rw [← Eval.evaluateSource_of_parsed parsed]
  have run : returned = (do
      let value ← Eval.evaluateValue settings settings.caller scope "returned expression" tree
      pure (some value)) m := by
    rw [← Eval.run_giveBack present, ← Eval.runSource_of_parsed parsed']
  rw [Eval.evaluateValue_apply] at evaluation
  rw [Eval.bind_apply, Eval.evaluateValue_apply] at run
  rw [evaluation, run]
  cases Eval.evaluate settings settings.caller scope tree m with
  | error error m' => exact ⟨rfl, rfl⟩
  | ok value m' => cases h : value.isSentinel <;> simp [h]

/-- A call that gives nothing back is refused either way. -/
theorem returned_expressions_are_evaluated_boxMachine :
    parseExpression "f()" = .ok (.call (.text "f") []) ∧ ∃ m',
      Eval.evaluateSource {} globalScope "f()" boxMachine = .error (.noValue "expression") m' ∧
      Eval.runSource {} globalScope "return f()" boxMachine =
        .error (.noValue "returned expression") m' := by
  have parsed : parseExpression "f()" = .ok (.call (.text "f") []) := rfl
  have outcome := returned_expressions_are_evaluated.2.2 "f()" _ parsed {} globalScope boxMachine
  exact ⟨parsed, _, outcome⟩

end ScopeScript
