import ScopeScript.Proofs.Grammar.Budget
import ScopeScript.Proofs.Grammar.EarliestError
set_option autoImplicit false

/-!
# Grammar: progress

Reading a source ends.  The lexer comes nearer to the end of the text with every token, and the
parser comes nearer to the end of the tokens: whatever stands in front of a parser function, it
takes tokens and leaves others that parsing can go on with, or it fails with one of the errors that
a source can be refused with.

One measure carries all loops and recursions of the parser, those on malformed sources too.  Twelve
times the number of tokens that are left, and a rank of the function besides, is a budget that does
not run out.  A call in front of which no token was taken goes to a function of a lower rank, and
all ranks are below twelve.
-/

namespace ScopeScript

namespace Parser

open Grammar (dotted commaWords wordList MoreArguments Statement Statements)

/-! ## Errors -/

/-- The errors that a source with the ending can be refused with: its lexical error, or an error of
grammar. -/
inductive Refusal (ending : Ending) : Error → Prop
  | lexical {error : LexicalError} (broken : ending = .broken error) :
      Refusal ending (.lexical error)
  | grammar (error : GrammarError) : Refusal ending (.grammar error)

/-- From the budget `enough` on, a run has one result, and no error but one of a source. -/
def Settles {α : Type} (ending : Ending) (enough : Nat) (run : Nat → Except Error α) : Prop :=
  ∃ result, (∀ e, result = .error e → Refusal ending e) ∧ ∀ b, enough ≤ b → run b = result

/-- Where the lexeme ahead is one of `starts`, a function that succeeds takes at least as many
tokens as `least` says for its result, and leaves tokens that parsing can go on with.  A budget of
twelve for each token, and the rank of the function besides, is enough for it. -/
structure Progresses {α : Type} (ending : Ending) (rank : Nat) (starts : Lexeme → Prop)
    (least : α → Nat) (parse : Parse α) : Prop where
  takes : ∀ {b : Nat} {tokens : List Token} {a : α} {rest : List Token}, Fit ending tokens →
    starts (ahead ending tokens).lexeme → parse b tokens = .ok (a, rest) →
    ∃ taken, tokens = taken ++ rest ∧ least a ≤ taken.length ∧ Fit ending rest
  ends : ∀ {tokens : List Token}, Fit ending tokens → starts (ahead ending tokens).lexeme →
    Settles ending (12 * tokens.length + rank) fun b => parse b tokens

theorem Takes.exists_append {lexemes : List Lexeme} {tokens rest : List Token}
    (h : Takes tokens lexemes rest) :
    ∃ taken, tokens = taken ++ rest ∧ taken.length = lexemes.length := by
  induction lexemes generalizing tokens with
  | nil => exact ⟨[], h, rfl⟩
  | cons lexeme lexemes ih =>
    obtain ⟨token, behind, rfl, -, -, more⟩ := h
    obtain ⟨taken, rfl, length⟩ := ih more
    exact ⟨token :: taken, rfl, congrArg (· + 1) length⟩

theorem one_le_length {lexemes : List Lexeme} {starts : Lexeme → Prop}
    (h : ∃ first rest, lexemes = first :: rest ∧ starts first) : 1 ≤ lexemes.length := by
  obtain ⟨first, rest, rfl, -⟩ := h
  exact Nat.le_add_left 1 _

namespace Progresses

variable {α δ : Type} {ending : Ending} {rank : Nat} {starts ends : Lexeme → Prop}
  {words : List Lexeme → Prop} {least : α → Nat} {parse : Parse α}

section
variable (predicts : ∀ limit, Predicts ending limit rank starts words ends parse)
  (agrees : ∀ b tokens, Agrees (parse b tokens) (parse (b + 1) tokens))
include predicts agrees

/-- A function that predicts, and that a larger budget does not change, settles. -/
theorem settles {tokens : List Token} (fit : Fit ending tokens)
    (start : starts (ahead ending tokens).lexeme) :
    Settles ending (12 * tokens.length + rank) fun b => parse b tokens := by
  have refused : ∀ e, parse (12 * tokens.length + rank) tokens = .error e → Refusal ending e := by
    intro e failed
    cases (predicts _).stop tokens e fit start failed with
    | depth short => exact absurd short (Nat.lt_irrefl _)
    | lexical broken => exact .lexical broken
    | token | finish => exact .grammar _
  refine ⟨_, refused, fun b enough => ?_⟩
  rcases Agrees.le (fun b => agrees b tokens) enough with spent | same
  · cases refused _ spent
  · exact same

/-- A function progresses if it takes the yields of derivations that are long enough. -/
theorem of_takes (yield : δ → List Lexeme)
    (takes : ∀ {b : Nat} {tokens : List Token} {a : α} {rest : List Token}, Alive ending tokens →
      starts (ahead ending tokens).lexeme → parse b tokens = .ok (a, rest) →
      ∃ d, Takes tokens (yield d) rest ∧ least a ≤ (yield d).length ∧ Alive ending rest) :
    Progresses ending rank starts least parse where
  takes := by
    intro b tokens a rest fit start ok
    obtain ⟨d, taking, long, alive⟩ := takes fit.alive start ok
    obtain ⟨taken, rfl, length⟩ := taking.exists_append
    exact ⟨taken, rfl, by rwa [length], fit.rest alive⟩
  ends := settles predicts agrees

theorem of_sound {yield : δ → List Lexeme} {meaning : δ → α}
    (sound : ∀ b, Sound ending (parse b) yield meaning)
    (long : ∀ d, least (meaning d) ≤ (yield d).length) :
    Progresses ending rank starts least parse := by
  refine .of_takes predicts agrees yield fun alive _ ok => ?_
  obtain ⟨d, takes, rfl, alive'⟩ := sound _ _ _ _ alive ok
  exact ⟨d, takes, long d, alive'⟩

end

theorem of_statementSound {parse : Parse Node}
    (predicts : ∀ limit, Predicts ending limit rank starts words ends parse)
    (agrees : ∀ b tokens, Agrees (parse b tokens) (parse (b + 1) tokens))
    (sound : ∀ b, StatementSound ending (parse b) fun tokens =>
      starts (ahead ending tokens).lexeme) :
    Progresses ending rank starts (fun _ => 1) parse := by
  refine .of_takes predicts agrees Statement.yield fun alive start ok => ?_
  obtain ⟨d, takes, -, alive', -⟩ := sound _ _ _ _ alive start ok
  exact ⟨d, takes, one_le_length d.starts, alive'⟩

end Progresses

/-! ## Lengths of yields -/

theorem length_dotted (names : List String) : (dotted names).length = 2 * names.length := by
  simp [dotted, List.map_const', Nat.mul_comm]

theorem length_commaWords (names : List String) :
    (commaWords names).length = 2 * names.length := by
  simp [commaWords, List.map_const', Nat.mul_comm]

theorem length_wordList (names : List String) :
    (wordList names).length = 2 * names.length - 1 := by
  cases names with
  | nil => rfl
  | cons name names =>
    simp only [wordList, List.length_cons, length_commaWords]
    omega

theorem length_moreArguments : ∀ d : MoreArguments, 2 * d.trees.length ≤ d.yield.length
  | .done => Nat.le_refl 0
  | .more argument rest => by
    have := length_moreArguments rest
    have := one_le_length argument.starts
    simp only [MoreArguments.trees, MoreArguments.yield, List.length_cons, List.length_append]
    omega

theorem length_arguments (d : Grammar.Arguments) : 2 * d.trees.length ≤ d.yield.length + 1 := by
  cases d with
  | none => exact Nat.zero_le _
  | some first more =>
    have := length_moreArguments more
    have := one_le_length first.starts
    simp only [Grammar.Arguments.trees, Grammar.Arguments.yield, List.length_cons,
      List.length_append]
    omega

theorem length_statements : ∀ d : Statements, d.trees.length ≤ d.yield.length
  | .nil => Nat.le_refl 0
  | .cons first rest => by
    have := length_statements rest
    have := one_le_length first.starts
    simp only [Statements.trees, Statements.yield, List.length_cons, List.length_append]
    omega

/-! ## Every parser function -/

/-- Every parser function progresses.  What parses expressions or statements takes a token at least,
and what goes on behind the first of several things takes some for each that it finds. -/
structure Progress (ending : Ending) : Prop where
  properties : Progresses ending 1 Any (fun names => 2 * names.length) (properties ending)
  moreParameters : Progresses ending 1 Any (fun names => 2 * names.length) (moreParameters ending)
  parameters : Progresses ending 1 Any (fun names => 2 * names.length - 1) (parameters ending)
  expression : Progresses ending 9 Any (fun _ => 1) (expression ending)
  operand : ∀ tier, Progresses ending (2 * Grammar.tierLooseness tier + 2) Any (fun _ => 1)
    fun b => operand ending b tier
  tighterOperand : ∀ tier, Progresses ending (2 * Grammar.tierLooseness tier + 1) Any (fun _ => 1)
    fun b => tighterOperand ending b tier
  moreOperands : ∀ tier left, Progresses ending 1 Any (fun _ => 0)
    fun b => moreOperands ending b tier left
  signed : Progresses ending 2 Any (fun _ => 1) (signed ending)
  atom : Progresses ending 1 Any (fun _ => 1) (atom ending)
  arguments : Progresses ending 1 Any (fun trees => 2 * trees.length + 1) (arguments ending)
  moreArguments : Progresses ending 1 Any (fun trees => 2 * trees.length) (moreArguments ending)
  initializer : ∀ name, Progresses ending 9 Any (fun _ => 2) fun b => initializer ending b name
  declaration : ∀ isConst, Progresses ending 1 (· = .keyword (if isConst then .const else .var))
    (fun _ => 1) fun b => declaration ending b (if isConst then .const else .var) isConst
  assignment : Progresses ending 1 (· = .keyword .set) (fun _ => 1) (assignment ending)
  giveBack : Progresses ending 1 (· = .keyword .return_) (fun _ => 1) (giveBack ending)
  callStatement : ∀ name, (Lexeme.word name).Written →
    Progresses ending 1 (· = .word name) (fun _ => 1) fun b => callStatement ending b name
  function : Progresses ending 1 (· = .keyword .func) (fun _ => 1) (function ending)
  choice : Progresses ending 1 (· = .keyword .if_) (fun _ => 1) (choice ending)
  statement : Progresses ending 2 Any (fun _ => 1) (statement ending)
  statements : ∀ closers unclosed, Progresses ending 3 Any List.length
    fun b => statements ending b closers unclosed

theorem progress (ending : Ending) : Progress ending where
  properties := .of_sound (properties_predicts ending) (properties_agrees ending) properties_sound
    fun names => Nat.le_of_eq (length_dotted names).symm
  moreParameters := .of_sound (moreParameters_predicts ending) (moreParameters_agrees ending)
    moreParameters_sound fun names => Nat.le_of_eq (length_commaWords names).symm
  parameters := .of_sound (parameters_predicts ending) (parameters_agrees ending) parameters_sound
    fun names => Nat.le_of_eq (length_wordList names).symm
  expression := .of_sound (fun b => (expressions_predict ending b).expression)
    (fun b => (expressions_agree ending b).expression)
    (fun b => (expressions_sound ending b).expression) fun d => one_le_length d.starts
  operand tier := .of_sound (fun b => (expressions_predict ending b).operand tier)
    (fun b => (expressions_agree ending b).operand tier)
    (fun b => (expressions_sound ending b).operand tier) fun d => one_le_length d.starts
  tighterOperand tier := .of_sound (fun b => (expressions_predict ending b).tighterOperand tier)
    (fun b => (expressions_agree ending b).tighterOperand tier)
    (fun b => (expressions_sound ending b).tighterOperand tier) fun d => one_le_length d.starts
  moreOperands tier left := .of_sound
    (fun b => (expressions_predict ending b).moreOperands tier left)
    (fun b => (expressions_agree ending b).moreOperands tier left)
    (fun b => (expressions_sound ending b).moreOperands tier left) fun _ => Nat.zero_le _
  signed := .of_sound (fun b => (expressions_predict ending b).signed)
    (fun b => (expressions_agree ending b).signed)
    (fun b => (expressions_sound ending b).signed) fun d => one_le_length d.starts
  atom := .of_sound (fun b => (expressions_predict ending b).atom)
    (fun b => (expressions_agree ending b).atom)
    (fun b => (expressions_sound ending b).atom) fun d => one_le_length d.starts
  arguments := .of_sound (fun b => (expressions_predict ending b).arguments)
    (fun b => (expressions_agree ending b).arguments)
    (fun b => (expressions_sound ending b).arguments) fun d => by
      have := length_arguments d
      simp only [List.length_cons, List.length_append, List.length_nil]
      omega
  moreArguments := .of_sound (fun b => (expressions_predict ending b).moreArguments)
    (fun b => (expressions_agree ending b).moreArguments)
    (fun b => (expressions_sound ending b).moreArguments) length_moreArguments
  initializer name := .of_sound (fun b => initializer_predicts ending b name)
    (fun b => initializer_agrees ending b name) (fun b => initializer_sound b name) fun d =>
      Nat.succ_le_succ (one_le_length d.starts)
  declaration isConst := .of_statementSound
    (fun b => declaration_predicts ending b _ isConst rfl)
    (fun b => declaration_agrees ending b _ isConst) fun b => declaration_sound b _ isConst rfl
  assignment := .of_statementSound (assignment_predicts ending) (assignment_agrees ending)
    assignment_sound
  giveBack := .of_statementSound (giveBack_predicts ending) (giveBack_agrees ending) giveBack_sound
  callStatement name written := .of_statementSound
    (fun b => callStatement_predicts ending b written)
    (fun b => callStatement_agrees ending b name) fun b => callStatement_sound b name
  function := .of_statementSound (fun b => (statements_predict ending b).function)
    (fun b => (statements_agree ending b).function) fun b => (statements_sound ending b).function
  choice := .of_statementSound (fun b => (statements_predict ending b).choice)
    (fun b => (statements_agree ending b).choice) fun b => (statements_sound ending b).choice
  statement := .of_statementSound (fun b => (statements_predict ending b).statement)
    (fun b => (statements_agree ending b).statement) fun b => (statements_sound ending b).statement
  statements closers unclosed := by
    refine .of_takes (fun b => (statements_predict ending b).statements closers unclosed)
      (fun b => (statements_agree ending b).statements closers unclosed) Statements.yield ?_
    intro b tokens nodes rest alive _ ok
    obtain ⟨d, takes, rfl, alive', -⟩ :=
      (statements_sound ending b).statements closers unclosed tokens nodes rest alive ok
    exact ⟨d, takes, length_statements d, alive'⟩

end Parser

/-! ## Whole sources -/

/-- Taking a token moves the reader on, unless the end of the source comes to be ahead. -/
theorem Lookahead.advance_moves {view later : Lookahead} (h : view.advance = (later, none)) :
    later.following.lexeme = .finish ∨
      view.cursor.position.offset < later.cursor.position.offset := by
  unfold advance at h
  split at h
  · rename_i cursor token hread
    obtain ⟨rfl, -⟩ := Prod.mk.inj h
    unfold Cursor.read at hread
    dsimp only at hread
    split at hread
    · obtain ⟨-, htoken⟩ := Prod.mk.inj hread
      obtain rfl := Except.ok.inj htoken
      exact .inl rfl
    · rename_i lexeme taken rest hscan
      obtain ⟨rfl, -⟩ := Prod.mk.inj hread
      have some_ := List.length_pos_iff.mpr
        (Lexer.spells_ne_nil (Lexer.scan_eq_lexeme_iff.mp hscan).2.1)
      right
      simp only [Cursor.skipBlanks, Position.offset_after]
      omega
    · cases hread
  · cases h

/-- Parsing a source gives a tree, the lexical error of the source, or an error of grammar. -/
def Answers (parse : String → Except Error Node) (source : String) : Prop :=
  (∃ tree, parse source = .ok tree) ∨
    (∃ error, tokenize source = .error error ∧ parse source = .error (.lexical error)) ∨
    ∃ error, parse source = .error (.grammar error)

theorem StopsEarliest.answers {parse : String → Except Error Node} {source : String}
    (stops : StopsEarliest parse source) : Answers parse source := by
  cases hparse : parse source with
  | ok tree => exact .inl ⟨tree, hparse⟩
  | error e =>
    right
    cases htokens : tokenize source with
    | ok tokens =>
      obtain ⟨problem, before, found, rfl, -⟩ := stops.grammar tokens e htokens hparse
      exact .inr ⟨_, hparse⟩
    | error lexical =>
      rcases stops.lexical lexical htokens with failed | ⟨problem, found, failed, -⟩
      · exact .inl ⟨lexical, rfl, failed⟩
      · exact .inr ⟨_, failed⟩

open ScopeScript.Parser (Alive Fit Progress)

/-- Reading a source ends, in the lexer and in the parser. -/
structure ReadsToEnd (source : String) : Prop where
  /-- Taking token by token ends, at the end of the source or at a lexical error. -/
  tokens : ∃ problem, Delivered source (Source.ofString source).tokens problem ∧
    tokenize source = problem.elim (.ok (Source.ofString source).tokens) .error
  /-- All numerals are read as numbers. -/
  numerals : ∀ numeral position, ⟨.number numeral, position⟩ ∈ (Source.ofString source).tokens →
    ∃ d, Number.read? numeral = some (.finite d)
  program : Answers parseProgram source
  expression : Answers parseExpression source
  /-- Wherever the parser stands in the source, its functions can go on. -/
  fit : ∀ tokens, tokens <:+ (Source.ofString source).tokens →
    Alive (Source.ofString source).ending tokens → Fit (Source.ofString source).ending tokens
  /-- They take tokens, and have a result as soon as the budget is large enough. -/
  progress : Progress (Source.ofString source).ending

/-- Reading any source ends: its tokens are delivered up to its end or to a lexical error, the
parser makes progress with every statement and every part of an expression, and a parse is answered
with a tree, the lexical error or an error of grammar.  Each token taken moves the lexer on. -/
theorem reading_ends :
    (∀ source, ReadsToEnd source) ∧
    ∀ view later : Lookahead, view.advance = (later, none) → later.following.lexeme = .finish ∨
      view.cursor.position.offset < later.cursor.position.offset := by
  refine ⟨fun source => ?_, fun view later => Lookahead.advance_moves⟩
  refine ⟨⟨_, delivered_ofString source, ?_⟩, ?_, ?_, ?_, ?_, Parser.progress _⟩
  · unfold tokenize
    obtain ⟨tokens, ending⟩ := Source.ofString source
    cases ending <;> rfl
  · intro numeral position mem
    exact Lexer.finite_of_written (Source.written_of_mem mem)
  · exact (Parser.program_reading.stopsEarliest source).answers
  · exact (Parser.expression_reading.stopsEarliest source).answers
  · intro tokens suffix alive
    exact ⟨alive, fun token mem => Source.written_of_mem (suffix.mem mem)⟩

/-- A source that breaks off inside an argument list.  Its numerals are numbers, its first token
moves the lexer on, and its parse settles with a budget of twelve for each of its six tokens and
three besides. -/
theorem reading_ends_openArguments :
    (∃ d, Number.read? "1." = some (.finite d)) ∧
    (∃ view later, Lookahead.start "return f(1.,.5" = .ok view ∧ view.advance = (later, none) ∧
      view.cursor.position.offset < later.cursor.position.offset) ∧
    Parser.Settles (Source.ofString "return f(1.,.5").ending (12 * 6 + 3) fun b =>
      Parser.statements (Source.ofString "return f(1.,.5").ending b [.finish] .noStatement
        (Source.ofString "return f(1.,.5").tokens := by
  obtain ⟨sources, advances⟩ := reading_ends
  have ends := sources "return f(1.,.5"
  have count : (Source.ofString "return f(1.,.5").tokens.length = 6 := rfl
  have fit := ends.fit _ (List.suffix_refl _) fun empty => by
    rw [empty] at count
    contradiction
  have settles := (ends.progress.statements [.finish] .noStatement).ends fit trivial
  rw [count] at settles
  exact ⟨ends.numerals "1." ⟨9, 1, 10⟩ (by decide),
    ⟨_, _, rfl, rfl, (advances _ _ rfl).resolve_left (by decide)⟩, settles⟩

end ScopeScript
