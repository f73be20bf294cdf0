import ScopeScript.Proofs.Grammar.PredictiveParser
import ScopeScript.Proofs.Source.Partition
import ScopeScript.Proofs.Source.Serialized
set_option autoImplicit false

/-!
# Grammar: errors are at the earliest token

A parse fails at the first token that no program goes on with.  What stands in front of it starts a
program, which is written down here: the source up to the token, a blank, and the lexemes that are
missing with blanks between them.  And no program starts with what stands up to it, since the parser
would fail on that program, too, as soon as it gets there.

A lexical error is not skipped: a source that has one fails there, or at a token in front of it.
-/

namespace ScopeScript

/-! ## Sources that go on differently -/

/-- A blank behind a lexeme does not go on with it. -/
theorem Lexeme.Stops.append {lexeme : Lexeme} {rest : List Char} (h : lexeme.Stops rest) {c : Char}
    (blank : Text.isBlank c = true) (more : List Char) : lexeme.Stops (rest ++ c :: more) := by
  intro d hd
  cases rest with
  | nil =>
    obtain rfl : c = d := by simpa using hd
    exact Lexer.goesOn_blank blank lexeme
  | cons e rest => exact h d (by simpa using hd)

namespace Tiled

variable {front text : List Char} {tokens : List Token}

theorem written (h : Tiled Stopped front text tokens) :
    ∀ token ∈ tokens, token.lexeme.Written := by
  induction h with
  | finish => simp
  | token _ spells _ _ _ ih => simpa using ⟨spells.1, ih⟩

/-- The text up to any token. -/
theorem cut {before after : List Token} (h : Tiled Stopped front text (before ++ after)) :
    ∃ cut, cut <+: text ∧ Tiled Stopped front cut before := by
  induction before generalizing front text with
  | nil => exact ⟨[], List.nil_prefix, .finish (by simp [Text.Blanks])⟩
  | cons token before ih =>
    cases h with
    | token blanks spells some_ stops more =>
      rename_i gap taken rest lexeme
      obtain ⟨cut, inside, tiled⟩ := ih more
      refine ⟨gap ++ (taken ++ cut), ?_, .token blanks spells some_ (stops.of_prefix inside) tiled⟩
      rwa [List.prefix_append_right_inj, List.prefix_append_right_inj]

/-- More text behind a blank. -/
theorem append {c : Char} {more : List Char} {others : List Token}
    (h : Tiled Stopped front text tokens) (blank : Text.isBlank c = true)
    (behind : Tiled Stopped (front ++ text) (c :: more) others) :
    Tiled Stopped front (text ++ c :: more) (tokens ++ others) := by
  induction h with
  | finish blanks =>
    rename_i front gap
    generalize c :: more = text at behind
    cases behind with
    | finish blanks' =>
      refine .finish fun d hd => ?_
      rcases List.mem_append.mp hd with hd | hd
      · exact blanks d hd
      · exact blanks' d hd
    | token blanks' spells some_ stops behind =>
      rename_i gap' taken rest lexeme others
      rw [← List.append_assoc, List.nil_append]
      rw [List.append_assoc front] at behind ⊢
      refine .token (fun d hd => ?_) spells some_ stops behind
      rcases List.mem_append.mp hd with hd | hd
      · exact blanks d hd
      · exact blanks' d hd
  | token blanks spells some_ stops _ ih =>
    rename_i front gap taken rest lexeme tokens _
    have place : front ++ (gap ++ (taken ++ rest)) = front ++ gap ++ taken ++ rest := by simp
    rw [place] at behind
    rw [List.append_assoc, List.append_assoc, List.cons_append]
    exact .token blanks spells some_ (stops.append blank more) (ih behind)

end Tiled

theorem tiled_of_tokenize {source : String} {tokens : List Token}
    (h : tokenize source = .ok tokens) : Tiled Stopped [] source.toList tokens := by
  have split := split_ofString source
  obtain ⟨position, hsource⟩ := tokenize_eq_ok_iff.mp h
  rw [hsource] at split
  cases split with
  | finished tiled => exact tiled

theorem tiled_of_lexes {text : List Char} {lexemes : List Lexeme} (h : Lexer.Lexes text lexemes)
    (front : List Char) :
    ∃ tokens, Tiled Stopped front text tokens ∧ tokens.map Token.lexeme = lexemes := by
  obtain ⟨tokens, ending, hread, shows⟩ :=
    Source.readFrom_of_lexes h (.behind front) (text.length + 1) (by omega)
  have split : Split front text _ := @Source.readFrom_split (text.length + 1) front text (by omega)
  rw [hread] at split
  cases split with
  | finished tiled => exact ⟨tokens, tiled, shows⟩

/-- A source that starts like another one up to a token and goes on with given lexemes. -/
theorem exists_source {text : List Char} {before after : List Token} {more : List Lexeme}
    (h : Tiled Stopped [] text (before ++ after)) (written : ∀ lexeme ∈ more, lexeme.Written) :
    ∃ source tokens, tokenize source = .ok tokens ∧ before <+: tokens ∧
      tokens.map Token.lexeme = before.map Token.lexeme ++ more := by
  obtain ⟨cut, -, tiled⟩ := h.cut
  let items := more.map fun lexeme => (lexeme, [' '])
  have blanks : Text.Blanks [' '] := by decide
  have lexes : Lexer.Lexes (serialize [' '] items) (items.map Prod.fst) := by
    refine lexes_serialize blanks ?_ ?_ ?_
    · simp [items, blanks]
    · simpa [items] using written
    · intro item hitem
      obtain ⟨lexeme, -, rfl⟩ := List.mem_map.mp ((List.dropLast_sublist items).mem hitem)
      simp
  obtain ⟨others, tiled', shows⟩ := tiled_of_lexes lexes cut
  obtain ⟨text', htext⟩ : ∃ text', serialize [' '] items = ' ' :: text' := by
    cases items <;> exact ⟨_, rfl⟩
  rw [htext] at tiled'
  have whole := tiled.append (by decide) tiled'
  refine ⟨String.ofList (cut ++ ' ' :: text'), before ++ others, ?_, List.prefix_append _ _, ?_⟩
  · exact tokenize_of_tiled whole
  · simp [shows, items, Function.comp_def]

/-! ## Where a parse fails -/

/-- The tokens of a source that is parsed without an error. -/
def Accepted (parse : String → Except Error Node) (tokens : List Token) : Prop :=
  ∃ source tree, parse source = .ok tree ∧ tokenize source = .ok tokens

/-- A parse of the source that fails does so at the earliest token.  The end of the input counts as
a token behind all others. -/
structure StopsEarliest (parse : String → Except Error Node) (source : String) : Prop where
  /-- A token of the source or the end of the input is at fault.  What stands in front of it starts
  the tokens of a source that is parsed, and no tokens of such a source show the same lexemes up to
  the one at fault. -/
  grammar : ∀ tokens error, tokenize source = .ok tokens → parse source = .error error →
    ∃ problem before found, error = .grammar ⟨problem, found⟩ ∧
      ((∃ after, tokens = before ++ found :: after) ∨
        tokens = before ∧ found = ⟨.finish, .behind source.toList⟩) ∧
      (∃ program, Accepted parse program ∧ before <+: program) ∧
      ∀ program, Accepted parse program →
        ¬ (before ++ [found]).map Token.lexeme <+: program.map Token.lexeme ++ [.finish]
  /-- A lexical error is raised, unless a token in front of it is at fault. -/
  lexical : ∀ error, tokenize source = .error error →
    parse source = .error (.lexical error) ∨
    ∃ problem found, parse source = .error (.grammar ⟨problem, found⟩) ∧
      found ∈ (Source.ofString source).tokens ∧ found.position.offset < error.position.offset

namespace Parser

open Grammar (Expr Statements)

/-- What `parse` does with a source: it runs `body` on its tokens.  It accepts the words of a
language and predicts them, and `body` takes them at any budget that is large enough. -/
structure Reading (parse : String → Except Error Node) (words : List Lexeme → Prop)
    (body : Ending → Parse Node) : Prop where
  runs : ∀ source tokens ending, Source.ofString source = ⟨tokens, ending⟩ →
    parse source = (do
      checkStart ⟨tokens, ending⟩
      let (node, _) ← body ending (budget tokens) tokens
      .ok node)
  accepts : ∀ source, (∃ tree, parse source = .ok tree) ↔
    ∃ tokens, tokenize source = .ok tokens ∧ words (tokens.map Token.lexeme)
  predicts : ∀ ending limit, Predicts ending limit 9 Any words (· = .finish) (body ending)
  complete : ∀ position (tokens : List Token),
    (∀ lexeme ∈ tokens.map Token.lexeme, lexeme.Written) → words (tokens.map Token.lexeme) →
    ∃ limit, ∀ b, limit ≤ b → ∃ a, body (.finished position) b tokens = .ok a

namespace Reading

variable {parse : String → Except Error Node} {words : List Lexeme → Prop}
  {body : Ending → Parse Node}

theorem word_of_accepted (reading : Reading parse words body) {program : List Token}
    (h : Accepted parse program) :
    words (program.map Token.lexeme) ∧ ∀ lexeme ∈ program.map Token.lexeme, lexeme.Written := by
  obtain ⟨source, tree, ok, htokens⟩ := h
  obtain ⟨tokens, htokens', word⟩ := (reading.accepts source).mp ⟨tree, ok⟩
  obtain rfl := Except.ok.inj (htokens.symm.trans htokens')
  exact ⟨word, by simpa using (tiled_of_tokenize htokens).written⟩

/-- What can be completed to a word starts a source that is accepted. -/
theorem exists_accepted (reading : Reading parse words body) {text : List Char}
    {before after : List Token} (tiled : Tiled Stopped [] text (before ++ after))
    (viable : Viable words (before.map Token.lexeme)) :
    ∃ program, Accepted parse program ∧ before <+: program := by
  obtain ⟨more, word, written⟩ := viable
  obtain ⟨source, program, htokens, starts, shows⟩ := exists_source tiled written
  obtain ⟨tree, ok⟩ := (reading.accepts source).mpr ⟨program, htokens, by rwa [shows]⟩
  exact ⟨program, ⟨source, tree, ok, htokens⟩, starts⟩

/-- No program shows lexemes that `body` fails on, whatever is behind them. -/
theorem not_accepted (reading : Reading parse words body) {position : Position} {limit : Nat}
    {before : List Token} {found : Token} (real : found.lexeme ≠ .finish)
    (fails : ∀ b after, limit ≤ b →
      ∃ e, body (.finished position) b (before ++ found :: after) = .error e)
    {program : List Token} (accepted : Accepted parse program) :
    ¬ (before ++ [found]).map Token.lexeme <+: program.map Token.lexeme ++ [.finish] := by
  intro starts
  obtain ⟨word, written⟩ := reading.word_of_accepted accepted
  rw [List.map_append, List.map_singleton, List.prefix_concat_iff] at starts
  rcases starts with whole | ⟨others, shows⟩
  · exact real (List.append_inj_right' whole rfl |> List.head_eq_of_cons_eq)
  -- the tokens at hand with the rest of the program behind them
  have same : (before ++ found :: program.drop (before.length + 1)).map Token.lexeme =
      program.map Token.lexeme := by
    have length : before.length + 1 = (before.map Token.lexeme ++ [found.lexeme]).length := by simp
    rw [List.map_append, List.map_cons, List.map_drop, ← shows, length, List.drop_left]
    simp
  obtain ⟨enough, complete⟩ := reading.complete position
    (before ++ found :: program.drop (before.length + 1)) (by rwa [same]) (by rwa [same])
  obtain ⟨a, ok⟩ := complete (max limit enough) (Nat.le_max_right _ _)
  obtain ⟨e, failed⟩ := fails (max limit enough) (program.drop (before.length + 1))
    (Nat.le_max_left _ _)
  rw [ok] at failed
  contradiction

/-- A parse that fails on the tokens of a source. -/
theorem run_eq_error (reading : Reading parse words body) {source : String} {tokens : List Token}
    {ending : Ending} {error : Error} (hsource : Source.ofString source = ⟨tokens, ending⟩)
    (started : checkStart ⟨tokens, ending⟩ = .ok ()) (failed : parse source = .error error) :
    body ending (budget tokens) tokens = .error error := by
  rw [reading.runs source tokens ending hsource, started, ok_bind] at failed
  rcases bind_eq_error.mp failed with failed | ⟨⟨node, rest⟩, -, impossible⟩
  · exact failed
  · simp at impossible

theorem grammar_error (reading : Reading parse words body) {source : String}
    {tokens : List Token} {error : Error} (htokens : tokenize source = .ok tokens)
    (failed : parse source = .error error) :
    ∃ problem before found, error = .grammar ⟨problem, found⟩ ∧
      ((∃ after, tokens = before ++ found :: after) ∨
        tokens = before ∧ found = ⟨.finish, .behind source.toList⟩) ∧
      (∃ program, Accepted parse program ∧ before <+: program) ∧
      ∀ program, Accepted parse program →
        ¬ (before ++ [found]).map Token.lexeme <+: program.map Token.lexeme ++ [.finish] := by
  obtain ⟨position, hsource⟩ := tokenize_eq_ok_iff.mp htokens
  have split := split_ofString source
  rw [hsource] at split
  cases split with
  | finished tiled =>
  have hbody := reading.run_eq_error hsource (checkStart_finished _ _) failed
  have fit : Fit (.finished (.behind source.toList)) tokens :=
    ⟨fun _ => ⟨_, rfl⟩, tiled.written⟩
  cases (reading.predicts _ (budget tokens)).stop tokens error fit trivial hbody with
  | depth short =>
    simp only [budget] at short
    omega
  | lexical broken => simp at broken
  | @token before after found problem split viable fails =>
    subst split
    refine ⟨problem, before, found, rfl, .inl ⟨after, rfl⟩,
      reading.exists_accepted tiled viable, fun program => ?_⟩
    have real : found.lexeme ≠ .finish := by
      intro finish
      have written := tiled.written found (by simp)
      rw [finish] at written
      exact written
    exact reading.not_accepted real fails
  | @finish position problem ended viable =>
    refine ⟨problem, tokens, _, rfl, .inr ⟨rfl, rfl⟩,
      reading.exists_accepted ((List.append_nil tokens).symm ▸ tiled) viable, ?_⟩
    intro program accepted starts
    obtain ⟨word, written⟩ := reading.word_of_accepted accepted
    rw [List.map_append, List.map_singleton, List.prefix_concat_iff] at starts
    rcases starts with whole | inside
    · -- the program has the same lexemes as the source, which would be accepted
      have same := List.append_inj_left' whole rfl
      obtain ⟨tree, ok⟩ := (reading.accepts source).mpr ⟨tokens, htokens, by rwa [same]⟩
      rw [ok] at failed
      contradiction
    · exact written .finish (inside.mem (by simp [Ending.token]))

theorem lexical_error (reading : Reading parse words body) {source : String} {error : LexicalError}
    (h : tokenize source = .error error) :
    parse source = .error (.lexical error) ∨
    ∃ problem found, parse source = .error (.grammar ⟨problem, found⟩) ∧
      found ∈ (Source.ofString source).tokens ∧ found.position.offset < error.position.offset := by
  cases failed : parse source with
  | ok tree =>
    obtain ⟨tokens, htokens, -⟩ := (reading.accepts source).mp ⟨tree, failed⟩
    rw [h] at htokens
    contradiction
  | error e =>
  have split := split_ofString source
  unfold tokenize at h
  cases hsource : Source.ofString source with
  | mk tokens ending =>
  rw [hsource] at h split
  cases split with
  | finished => simp at h
  | @broken cut rest _ problem _ tiled _ =>
  obtain rfl := Except.error.inj h
  cases tokens with
  | nil =>
    rw [reading.runs source _ _ hsource] at failed
    exact .inl (congrArg Except.error (Except.error.inj failed).symm)
  | cons first others =>
    have hbody := reading.run_eq_error hsource rfl failed
    have fit : Fit (.broken ⟨problem, .behind ([] ++ cut)⟩) (first :: others) :=
      ⟨by simp [Alive], tiled.written⟩
    cases (reading.predicts _ _).stop _ e fit trivial hbody with
    | depth short =>
      simp only [budget] at short
      omega
    | lexical broken =>
      obtain rfl := Ending.broken.inj broken
      exact .inl rfl
    | @token before after found problem split viable fails =>
      have mem : found ∈ first :: others := by simp [split]
      have inside := tiled.offset_lt found mem
      exact .inr ⟨problem, found, rfl, mem, by simpa [Position.behind] using inside⟩
    | finish ended => simp at ended

theorem stopsEarliest (reading : Reading parse words body) (source : String) :
    StopsEarliest parse source :=
  ⟨fun _ _ => reading.grammar_error, fun _ => reading.lexical_error⟩

end Reading

theorem takes_of_written {tokens : List Token}
    (written : ∀ lexeme ∈ tokens.map Token.lexeme, lexeme.Written) :
    Takes tokens (tokens.map Token.lexeme) [] :=
  takes_all fun token mem =>
    (Lexer.finite_of_written (written token.lexeme (List.mem_map_of_mem mem))).readable

/-- What is parsed of a script. -/
theorem program_reading : Reading parseProgram (Yields Statements.yield) fun ending b tokens => do
    let (nodes, rest) ← statements ending b [.finish] .noStatement tokens
    .ok (.block nodes, rest) where
  runs := by
    intro source tokens ending hsource
    rw [parseProgram, hsource, parseScript]
    cases statements ending (budget tokens) [.finish] .noStatement tokens <;> rfl
  accepts := by
    intro source
    constructor
    · rintro ⟨tree, ok⟩
      obtain ⟨tokens, htokens, d, hyield, -⟩ := parseProgram_eq_ok_iff.mp ok
      exact ⟨tokens, htokens, d, hyield⟩
    · rintro ⟨tokens, htokens, d, hyield⟩
      exact ⟨_, parseProgram_eq_ok_iff.mpr ⟨tokens, htokens, d.settle,
        d.yield_settle.trans hyield, d.greedy_settle trivial, rfl⟩⟩
  predicts := by
    intro ending limit
    refine .bind (((statements_predict ending limit).statements [.finish] .noStatement).call
      (by omega)) ?_
    rintro _ _ ⟨d, rfl⟩
    refine .pure ⟨d, by simp⟩ fun lexeme closed => ?_
    exact lexeme_of_kind_finish (List.mem_singleton.mp closed)
  complete := by
    rintro position tokens written ⟨d, hyield⟩
    have takes : Takes tokens d.settle.yield [] := by
      rw [d.yield_settle, hyield]
      exact takes_of_written written
    refine ⟨12 * d.settle.yield.length + 3, fun b enough => ?_⟩
    have ok : statements (.finished position) b [.finish] .noStatement tokens =
        .ok (d.settle.trees, []) :=
      statements_complete d.settle b _ _ takes closes_finish (List.mem_singleton.mpr rfl)
        (d.greedy_settle trivial) enough
    exact ⟨_, by rw [ok, ok_bind]⟩

/-- What is parsed of an expression. -/
theorem expression_reading : Reading parseExpression (Yields Expr.yield) fun ending b tokens => do
    let (node, rest) ← expression ending b tokens
    if aheadKind ending rest = .finish then .ok (node, rest)
    else reject .trailing (ahead ending rest) where
  runs := by
    intro source tokens ending hsource
    rw [parseExpression, hsource, parseOne]
    cases expression ending (budget tokens) tokens with
    | error e => rfl
    | ok found =>
      obtain ⟨node, rest⟩ := found
      simp only [ok_bind]
      split <;> rfl
  accepts := by
    intro source
    constructor
    · rintro ⟨tree, ok⟩
      obtain ⟨tokens, htokens, e, hyield, -⟩ := parseExpression_eq_ok_iff.mp ok
      exact ⟨tokens, htokens, e, hyield⟩
    · rintro ⟨tokens, htokens, e, hyield⟩
      exact ⟨_, parseExpression_eq_ok_iff.mpr ⟨tokens, htokens, e, hyield, rfl⟩⟩
  predicts := by
    intro ending limit
    refine .bind ((expressions_predict ending limit).expression.call (by omega)) ?_
    rintro _ _ ⟨e, rfl⟩
    have whole : Yields Expr.yield (e.yield ++ []) := ⟨e, by simp⟩
    exact .ite (.pure whole fun lexeme h => lexeme_of_kind_finish h.2)
      (.rejectAhead (.of_word whole))
  complete := by
    rintro position tokens written ⟨e, hyield⟩
    have takes : Takes tokens e.yield [] := by
      rw [hyield]
      exact takes_of_written written
    refine ⟨12 * e.yield.length + 9, fun b enough => ?_⟩
    have ok : expression (.finished position) b tokens = .ok (e.tree, []) :=
      expression_complete e b takes
        (by simp [ahead, Ending.token, Grammar.EndsExpr, Grammar.looseness]) enough
    exact ⟨_, by rw [ok, ok_bind]; rfl⟩

end Parser

/-- Where a script or an expression cannot be parsed, the error is at the earliest token. -/
theorem parse_stops_at_earliest_token (source : String) :
    StopsEarliest parseProgram source ∧ StopsEarliest parseExpression source :=
  ⟨Parser.program_reading.stopsEarliest source, Parser.expression_reading.stopsEarliest source⟩

/-- Behind the first argument of a call a parenthesis or a comma may follow, another number may
not. -/
theorem parse_stops_at_earliest_token_argument :
    parseProgram "f(1 2)" = .error (.grammar
      ⟨.expected (.mark .closeParen) "function argument", ⟨.number "2", ⟨4, 1, 5⟩⟩⟩) ∧
    StopsEarliest parseProgram "f(1 2)" :=
  ⟨rfl, (parse_stops_at_earliest_token "f(1 2)").1⟩

end ScopeScript
