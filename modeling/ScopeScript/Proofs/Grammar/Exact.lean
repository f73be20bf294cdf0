import ScopeScript.Proofs.Grammar.Complete
import ScopeScript.Proofs.Grammar.Sound
import ScopeScript.Proofs.Source.Spelling
set_option autoImplicit false

/-!
# Grammar: the parser accepts exactly the grammar

The tokens of a source never show the end of the input, and their numerals can be read.  With that,
soundness and completeness of the parser on lists of tokens become one equivalence on sources: a
parse succeeds when the source splits into tokens and the grammar derives their lexemes, and then it
returns the tree of the one greedy derivation.

The grammar needs no greedy derivation to accept: where some derivation leaves a call behind a bare
`return`, another takes the call as the value returned.
-/

namespace ScopeScript

/-! ## The tokens of a source -/

namespace Lexer

/-- If the lexeme is a number, its numeral is read as a finite number. -/
def Finite : Lexeme → Prop
  | .number numeral => ∃ d, Number.read? numeral = some (.finite d)
  | _ => True

theorem Finite.readable {lexeme : Lexeme} (h : Finite lexeme) : Parser.Readable lexeme := by
  cases lexeme with
  | number numeral =>
    obtain ⟨d, hread⟩ := h
    exact Option.isSome_of_eq_some hread
  | _ => trivial

/-- A numeral is read as a number without a sign, and with no exponent but one that counts digits
behind the point. -/
theorem IsNumeral.exists_read {text : List Char} (h : IsNumeral text) :
    ∃ d, Number.read? (String.ofList text) = some (.finite d) ∧ d.negative = false ∧
      d.exponent ≤ 0 := by
  have digits : ∀ {run : List Char}, (∀ c ∈ run, isDigit c = true) →
      ∀ c ∈ run, c.isDigit = true := fun all c hc => (isDigit_eq c).symm.trans (all c hc)
  cases h with
  | whole all some_ => exact ⟨_, Number.read?_whole (digits all) some_, rfl, Int.le_refl 0⟩
  | point all all' some_ =>
    exact ⟨_, Number.read?_point (digits all) (digits all') some_, rfl, by simp⟩

theorem finite_of_written {lexeme : Lexeme} (h : lexeme.Written) : Finite lexeme := by
  cases lexeme with
  | number numeral =>
    obtain ⟨d, hread, -⟩ := IsNumeral.exists_read h
    exact ⟨d, by rwa [String.ofList_toList] at hread⟩
  | _ => trivial

end Lexer

namespace Source

theorem written_readFrom (fuel : Nat) (cursor : Cursor) :
    ∀ token ∈ (readFrom fuel cursor).tokens, token.lexeme.Written := by
  induction fuel generalizing cursor with
  | zero => simp [readFrom]
  | succ fuel ih =>
    rw [readFrom]
    split
    · simp
    · rename_i behind token hread
      split
      · simp
      · rename_i real
        intro other hother
        rcases List.mem_cons.mp hother with rfl | hother
        · unfold Cursor.read at hread
          simp only at hread
          split at hread
          · simp only [Prod.mk.injEq, Except.ok.injEq] at hread
            exact absurd (congrArg Token.lexeme hread.2.symm) real
          · rename_i hscan
            simp only [Prod.mk.injEq, Except.ok.injEq] at hread
            rw [← hread.2]
            exact (Lexer.scan_eq_lexeme_iff.mp hscan).2.1.1
          · simp at hread
        · exact ih behind other hother

theorem written_of_mem {source : String} {token : Token} (h : token ∈ (ofString source).tokens) :
    token.lexeme.Written :=
  written_readFrom _ _ token h

end Source

theorem tokenize_eq_ok_iff {source : String} {tokens : List Token} :
    tokenize source = .ok tokens ↔
      ∃ position, Source.ofString source = ⟨tokens, .finished position⟩ := by
  unfold tokenize
  obtain ⟨found, ending⟩ := Source.ofString source
  cases ending with
  | finished position => simp
  | broken error => simp

theorem tokenize_of_finished {source : String} {position : Position}
    (h : (Source.ofString source).ending = .finished position) :
    tokenize source = .ok (Source.ofString source).tokens := by
  simp [tokenize, h]

namespace Parser

theorem written_of_tokenize {source : String} {tokens : List Token}
    (h : tokenize source = .ok tokens) : ∀ token ∈ tokens, token.lexeme.Written := by
  obtain ⟨position, hsource⟩ := tokenize_eq_ok_iff.mp h
  intro token htoken
  have mem : token ∈ (Source.ofString source).tokens := by rw [hsource]; exact htoken
  exact Source.written_of_mem mem

theorem readable_of_tokenize {source : String} {tokens : List Token}
    (h : tokenize source = .ok tokens) : ∀ token ∈ tokens, Readable token.lexeme :=
  fun token htoken => (Lexer.finite_of_written (written_of_tokenize h token htoken)).readable

theorem checkStart_eq_ok {source : Source} (h : checkStart source = .ok ()) :
    Alive source.ending source.tokens := by
  intro empty
  unfold checkStart at h
  cases hending : source.ending with
  | finished position => exact ⟨position, rfl⟩
  | broken error => simp [empty, hending] at h

@[simp] theorem checkStart_finished (tokens : List Token) (position : Position) :
    checkStart ⟨tokens, .finished position⟩ = .ok () := by
  unfold checkStart
  split
  · contradiction
  · rfl

/-- In front of the end of the input no token is left. -/
theorem rest_eq_nil {source : String} {lexemes : List Lexeme} {rest : List Token} {ending : Ending}
    (takes : Takes (Source.ofString source).tokens lexemes rest)
    (finish : aheadKind ending rest = .finish) : rest = [] := by
  cases rest with
  | nil => rfl
  | cons token others =>
    have mem : token.lexeme ∈ (Source.ofString source).tokens.map Token.lexeme := by
      simp [takes.map_lexeme]
    obtain ⟨shown, hmem, same⟩ := List.mem_map.mp mem
    have hfinish : token.lexeme = .finish := lexeme_of_kind_finish finish
    have written := Source.written_of_mem hmem
    rw [same, hfinish] at written
    exact absurd written id

end Parser

/-! ## Scripts -/

open Grammar ScopeScript.Parser

/-- A script parses to the tree of a greedy derivation of its tokens. -/
theorem parseProgram_eq_ok_iff {source : String} {tree : Node} :
    parseProgram source = .ok tree ↔
      ∃ tokens, tokenize source = .ok tokens ∧
        ∃ d : Statements, d.yield = tokens.map Token.lexeme ∧ d.Greedy .finish ∧
          d.script = tree := by
  constructor
  · intro h
    rw [parseProgram, parseScript] at h
    obtain ⟨⟨⟩, hstart, h⟩ := bind_eq_ok.mp h
    obtain ⟨⟨nodes, rest⟩, hnodes, h⟩ := bind_eq_ok.mp h
    obtain rfl : Node.block nodes = tree := Except.ok.inj h
    obtain ⟨d, takes, rfl, alive, greedy, closed⟩ :=
      (statements_sound _ _).statements _ _ _ nodes rest (checkStart_eq_ok hstart) hnodes
    have finish := List.mem_singleton.mp closed
    obtain rfl := rest_eq_nil takes finish
    obtain ⟨position, hending⟩ := alive rfl
    refine ⟨_, tokenize_of_finished hending, d, ?_, ?_, rfl⟩
    · simpa using takes.map_lexeme.symm
    · rwa [lexeme_of_kind_finish finish] at greedy
  · rintro ⟨tokens, htokens, d, hyield, greedy, rfl⟩
    obtain ⟨position, hsource⟩ := tokenize_eq_ok_iff.mp htokens
    have takes : Takes tokens d.yield [] := hyield ▸ takes_all (readable_of_tokenize htokens)
    have enough : 12 * d.yield.length + 3 ≤ budget tokens := by
      simp only [hyield, List.length_map, budget]
      omega
    have hparse : statements (.finished position) (budget tokens) [.finish] .noStatement tokens =
        .ok (d.trees, []) :=
      statements_complete d _ _ _ takes closes_finish (List.mem_singleton.mpr rfl) greedy enough
    simp [parseProgram, parseScript, hsource, hparse, Statements.script]

/-- An expression parses to the tree of a derivation of its tokens. -/
theorem parseExpression_eq_ok_iff {source : String} {tree : Node} :
    parseExpression source = .ok tree ↔
      ∃ tokens, tokenize source = .ok tokens ∧
        ∃ e : Expr, e.yield = tokens.map Token.lexeme ∧ e.tree = tree := by
  constructor
  · intro h
    rw [parseExpression, parseOne] at h
    obtain ⟨⟨⟩, hstart, h⟩ := bind_eq_ok.mp h
    obtain ⟨⟨node, rest⟩, hnode, h⟩ := bind_eq_ok.mp h
    simp only at h
    split at h
    · rename_i finish
      obtain rfl : node = tree := Except.ok.inj h
      obtain ⟨e, takes, rfl, alive⟩ :=
        (expressions_sound _ _).expression _ node rest (checkStart_eq_ok hstart) hnode
      obtain rfl := rest_eq_nil takes finish
      obtain ⟨position, hending⟩ := alive rfl
      exact ⟨_, tokenize_of_finished hending, e, by simpa using takes.map_lexeme.symm, rfl⟩
    · simp [reject] at h
  · rintro ⟨tokens, htokens, e, hyield, rfl⟩
    obtain ⟨position, hsource⟩ := tokenize_eq_ok_iff.mp htokens
    have takes : Takes tokens e.yield [] := hyield ▸ takes_all (readable_of_tokenize htokens)
    have enough : 12 * e.yield.length + 9 ≤ budget tokens := by
      simp only [hyield, List.length_map, budget]
      omega
    have hparse : expression (.finished position) (budget tokens) tokens = .ok (e.tree, []) :=
      expression_complete e _ takes (by simp [ahead, Ending.token, EndsExpr, looseness]) enough
    have hfinish : aheadKind (.finished position) [] = .finish := rfl
    simp [parseExpression, parseOne, hsource, hparse, hfinish]

/-- Greedy derivations of the same lexemes are the same. -/
theorem greedy_unique {d d' : Statements} (h : d.yield = d'.yield) (greedy : d.Greedy .finish)
    (greedy' : d'.Greedy .finish) : d = d' :=
  (Statements.unique d d' (congrArg (· ++ []) h) trivial trivial greedy greedy').1

theorem expr_unique {e e' : Expr} (h : e.yield = e'.yield) : e = e' := by
  have ends : EndsExpr (next []) := by simp [EndsExpr, looseness]
  exact (Expr.unique e e' (congrArg (· ++ []) h) ends ends).1

/-- The parser accepts exactly the grammar.  A source is accepted as a script when it splits into
tokens and some derivation yields them; the block returned is then the tree of the one derivation in
which every `return` takes a value whenever an expression can start behind it.  The same holds of a
source that is parsed as an expression. -/
theorem parse_accepts_exactly_grammar (source : String) :
    ((∃ tree, parseProgram source = .ok tree) ↔
      ∃ tokens, tokenize source = .ok tokens ∧
        ∃ d : Statements, d.yield = tokens.map Token.lexeme) ∧
    (∀ tree, parseProgram source = .ok tree →
      ∃ tokens, tokenize source = .ok tokens ∧
        ∃ d : Statements, (d.yield = tokens.map Token.lexeme ∧ d.Greedy .finish) ∧
          d.script = tree ∧
          ∀ d' : Statements, d'.yield = tokens.map Token.lexeme → d'.Greedy .finish → d' = d) ∧
    ((∃ tree, parseExpression source = .ok tree) ↔
      ∃ tokens, tokenize source = .ok tokens ∧
        ∃ e : Expr, e.yield = tokens.map Token.lexeme) ∧
    (∀ tree, parseExpression source = .ok tree →
      ∃ tokens, tokenize source = .ok tokens ∧
        ∃ e : Expr, e.yield = tokens.map Token.lexeme ∧ e.tree = tree ∧
          ∀ e' : Expr, e'.yield = tokens.map Token.lexeme → e' = e) := by
  refine ⟨⟨?_, ?_⟩, ?_, ⟨?_, ?_⟩, ?_⟩
  · rintro ⟨tree, h⟩
    obtain ⟨tokens, htokens, d, hyield, -⟩ := parseProgram_eq_ok_iff.mp h
    exact ⟨tokens, htokens, d, hyield⟩
  · rintro ⟨tokens, htokens, d, hyield⟩
    -- a derivation that passes up values is settled first
    have hsettled : d.settle.yield = tokens.map Token.lexeme := d.yield_settle.trans hyield
    exact ⟨d.settle.script, parseProgram_eq_ok_iff.mpr
      ⟨tokens, htokens, d.settle, hsettled, d.greedy_settle trivial, rfl⟩⟩
  · intro tree h
    obtain ⟨tokens, htokens, d, hyield, greedy, hscript⟩ := parseProgram_eq_ok_iff.mp h
    refine ⟨tokens, htokens, d, ⟨hyield, greedy⟩, hscript, ?_⟩
    intro d' hyield' greedy'
    exact greedy_unique (hyield'.trans hyield.symm) greedy' greedy
  · rintro ⟨tree, h⟩
    obtain ⟨tokens, htokens, e, hyield, -⟩ := parseExpression_eq_ok_iff.mp h
    exact ⟨tokens, htokens, e, hyield⟩
  · rintro ⟨tokens, htokens, e, hyield⟩
    exact ⟨e.tree, parseExpression_eq_ok_iff.mpr ⟨tokens, htokens, e, hyield, rfl⟩⟩
  · intro tree h
    obtain ⟨tokens, htokens, e, hyield, htree⟩ := parseExpression_eq_ok_iff.mp h
    refine ⟨tokens, htokens, e, hyield, htree, ?_⟩
    intro e' hyield'
    exact expr_unique (hyield'.trans hyield.symm)

end ScopeScript
