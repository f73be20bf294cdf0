import ScopeScript.Proofs.Grammar.Unique
set_option autoImplicit false

/-!
# Grammar: tokens and the lexemes they show

The parser works on tokens, the grammar on lexemes.  `Takes tokens lexemes rest` says that tokens
which show the lexemes stand in front of `rest`.  Every parser function is described by it: what it
takes is the yield of a derivation.

A lexical error shows behind the last token that can be formed, so taking that token fails.  Where a
parser got by without failing, the tokens it leaves are alive: if there are none, the source has
ended.
-/

namespace ScopeScript.Parser

/-! ## Taking tokens -/

/-- If the lexeme is a number, its numeral can be read. -/
def Readable : Lexeme → Prop
  | .number numeral => (Number.read? numeral).isSome = true
  | _ => True

/-- Tokens that show the lexemes stand in front of `rest`. -/
def Takes : List Token → List Lexeme → List Token → Prop
  | tokens, [], rest => tokens = rest
  | tokens, lexeme :: lexemes, rest =>
    ∃ token behind, tokens = token :: behind ∧ token.lexeme = lexeme ∧ Readable lexeme ∧
      Takes behind lexemes rest

@[simp] theorem takes_nil (tokens rest : List Token) : Takes tokens [] rest ↔ tokens = rest :=
  Iff.rfl

theorem Takes.refl (tokens : List Token) : Takes tokens [] tokens := rfl

theorem Takes.cons {token : Token} {lexeme : Lexeme} {lexemes : List Lexeme}
    {behind rest : List Token} (same : token.lexeme = lexeme) (readable : Readable lexeme)
    (h : Takes behind lexemes rest) : Takes (token :: behind) (lexeme :: lexemes) rest :=
  ⟨token, behind, rfl, same, readable, h⟩

theorem takes_append {a b : List Lexeme} {tokens rest : List Token} :
    Takes tokens (a ++ b) rest ↔ ∃ middle, Takes tokens a middle ∧ Takes middle b rest := by
  induction a generalizing tokens with
  | nil => simp
  | cons lexeme a ih =>
    constructor
    · rintro ⟨token, behind, rfl, same, readable, h⟩
      obtain ⟨middle, ha, hb⟩ := ih.mp h
      exact ⟨middle, .cons same readable ha, hb⟩
    · rintro ⟨middle, ⟨token, behind, rfl, same, readable, ha⟩, hb⟩
      exact .cons same readable (ih.mpr ⟨middle, ha, hb⟩)

theorem Takes.append {a b : List Lexeme} {tokens middle rest : List Token}
    (ha : Takes tokens a middle) (hb : Takes middle b rest) : Takes tokens (a ++ b) rest :=
  takes_append.mpr ⟨middle, ha, hb⟩

theorem Takes.map_lexeme {lexemes : List Lexeme} {tokens rest : List Token}
    (h : Takes tokens lexemes rest) :
    tokens.map Token.lexeme = lexemes ++ rest.map Token.lexeme := by
  induction lexemes generalizing tokens with
  | nil =>
    obtain rfl : tokens = rest := h
    rfl
  | cons lexeme lexemes ih =>
    obtain ⟨token, behind, rfl, same, -, h⟩ := h
    simp [same, ih h]

/-- Tokens that can be read show their own lexemes. -/
theorem takes_all {tokens : List Token} (h : ∀ token ∈ tokens, Readable token.lexeme) :
    Takes tokens (tokens.map Token.lexeme) [] := by
  induction tokens with
  | nil => rfl
  | cons token rest ih =>
    simp only [List.mem_cons, forall_eq_or_imp] at h
    exact .cons rfl h.1 (ih h.2)

/-- The token ahead shows the first lexeme that is taken, if there is one. -/
theorem Takes.ahead {lexemes : List Lexeme} {tokens rest : List Token}
    (h : Takes tokens lexemes rest) (ending : Ending) :
    (ahead ending tokens).lexeme = lexemes.headD (ahead ending rest).lexeme := by
  cases lexemes with
  | nil =>
    obtain rfl : tokens = rest := h
    rfl
  | cons lexeme lexemes =>
    obtain ⟨token, behind, rfl, same, -⟩ := h
    exact same

/-! ## The front of the tokens -/

/-- Behind these tokens the source ends without a lexical error, if they are all taken. -/
def Alive (ending : Ending) (tokens : List Token) : Prop :=
  tokens = [] → ∃ position, ending = .finished position

/-- At the end of a source nothing fails. -/
theorem advance_finished (position : Position) (tokens : List Token) :
    advance (.finished position) tokens = .ok (ahead (.finished position) tokens, tokens.tail) := by
  unfold advance
  split
  · contradiction
  · rfl

theorem advance_eq_ok {ending : Ending} {tokens rest : List Token} {token : Token}
    (h : advance ending tokens = .ok (token, rest)) :
    token = ahead ending tokens ∧ rest = tokens.tail ∧ Alive ending rest := by
  cases ending with
  | finished position =>
    simp only [advance_finished, Except.ok.injEq, Prod.mk.injEq] at h
    exact ⟨h.1.symm, h.2.symm, fun _ => ⟨position, rfl⟩⟩
  | broken error =>
    unfold advance at h
    split at h
    · exact absurd h (by simp)
    · rename_i notBroken
      simp only [Except.ok.injEq, Prod.mk.injEq] at h
      refine ⟨h.1.symm, h.2.symm, fun empty => ?_⟩
      exact absurd rfl (notBroken error (h.2.trans empty))

/-- Taking a token that is not the end of the input takes the lexeme it shows. -/
theorem advance_takes {ending : Ending} {tokens rest : List Token} {token : Token}
    {lexeme : Lexeme} (h : advance ending tokens = .ok (token, rest))
    (same : token.lexeme = lexeme) (real : lexeme ≠ .finish) (readable : Readable lexeme) :
    Takes tokens [lexeme] rest ∧ Alive ending rest := by
  obtain ⟨rfl, rfl, alive⟩ := advance_eq_ok h
  cases tokens with
  | nil =>
    cases ending <;> exact absurd same.symm real
  | cons token behind => exact ⟨.cons same readable rfl, alive⟩

theorem consume_eq_ok {ending : Ending} {kind : Kind} {context : String}
    {tokens rest : List Token} {token : Token}
    (h : consume ending kind context tokens = .ok (token, rest)) :
    advance ending tokens = .ok (token, rest) ∧ token.lexeme.kind = kind := by
  rw [consume, bind_eq_ok] at h
  obtain ⟨⟨token', rest'⟩, hadvance, h⟩ := h
  simp only at h
  split at h
  · rename_i hkind
    simp only [Except.ok.injEq, Prod.mk.injEq] at h
    obtain ⟨rfl, rfl⟩ := h
    exact ⟨hadvance, hkind⟩
  · exact absurd h (by simp [reject])

/-- A kind without a text has one lexeme. -/
theorem lexeme_of_kind_mark {lexeme : Lexeme} {mark : Mark} (h : lexeme.kind = .mark mark) :
    lexeme = .mark mark := by
  cases lexeme <;> simp_all [Lexeme.kind]

theorem lexeme_of_kind_keyword {lexeme : Lexeme} {keyword : Keyword}
    (h : lexeme.kind = .keyword keyword) : lexeme = .keyword keyword := by
  cases lexeme <;> simp_all [Lexeme.kind]

theorem lexeme_of_kind_finish {lexeme : Lexeme} (h : lexeme.kind = .finish) :
    lexeme = .finish := by
  cases lexeme <;> simp_all [Lexeme.kind]

theorem consume_mark {ending : Ending} {mark : Mark} {context : String}
    {tokens rest : List Token} {token : Token}
    (h : consume ending (.mark mark) context tokens = .ok (token, rest)) :
    Takes tokens [.mark mark] rest ∧ Alive ending rest := by
  obtain ⟨hadvance, hkind⟩ := consume_eq_ok h
  exact advance_takes hadvance (lexeme_of_kind_mark hkind) (by simp) trivial

theorem consume_keyword {ending : Ending} {keyword : Keyword} {context : String}
    {tokens rest : List Token} {token : Token}
    (h : consume ending (.keyword keyword) context tokens = .ok (token, rest)) :
    Takes tokens [.keyword keyword] rest ∧ Alive ending rest := by
  obtain ⟨hadvance, hkind⟩ := consume_eq_ok h
  exact advance_takes hadvance (lexeme_of_kind_keyword hkind) (by simp) trivial

theorem consumeWord_takes {ending : Ending} {context : String} {tokens rest : List Token}
    {name : String} (h : consumeWord ending context tokens = .ok (name, rest)) :
    Takes tokens [.word name] rest ∧ Alive ending rest := by
  rw [consumeWord, bind_eq_ok] at h
  obtain ⟨⟨token, rest'⟩, hconsume, h⟩ := h
  obtain ⟨hadvance, hkind⟩ := consume_eq_ok hconsume
  simp only [Except.ok.injEq, Prod.mk.injEq] at h
  obtain ⟨rfl, rfl⟩ := h
  refine advance_takes hadvance ?_ (by simp) trivial
  cases hlexeme : token.lexeme with
  | word name => rfl
  | _ => simp [hlexeme, Lexeme.kind] at hkind

/-- The lexeme is a mark or a keyword. -/
def Fixed : Lexeme → Prop
  | .mark _ | .keyword _ => True
  | _ => False

/-- Taking a mark or a keyword that is ahead. -/
theorem advance_fixed {ending : Ending} {tokens rest : List Token} {token : Token}
    {lexeme : Lexeme} (h : advance ending tokens = .ok (token, rest))
    (same : (ahead ending tokens).lexeme = lexeme) (fixed : Fixed lexeme) :
    Takes tokens [lexeme] rest ∧ Alive ending rest := by
  have shown : token.lexeme = lexeme := (congrArg Token.lexeme (advance_eq_ok h).1).trans same
  cases lexeme with
  | mark mark => exact advance_takes h shown (by simp) trivial
  | keyword keyword => exact advance_takes h shown (by simp) trivial
  | _ => exact fixed.elim

/-! ## Operators -/

theorem fixed_sign {tier : Tier} (sign : Grammar.Sign tier) : Fixed sign.lexeme := by
  cases sign <;> trivial

theorem fixed_logicalSign (sign : Grammar.LogicalSign) : Fixed sign.lexeme := by
  cases sign <;> trivial

theorem fixed_unarySign (sign : Grammar.UnarySign) : Fixed sign.lexeme := by
  cases sign <;> trivial

/-- The parser and the grammar have the same operators on every tier. -/
theorem tierOperator_iff {tier : Tier} {lexeme : Lexeme} {op : BinaryOp} :
    tier.operator? lexeme.kind = some op ↔
      ∃ sign : Grammar.Sign tier, sign.lexeme = lexeme ∧ sign.operator = op := by
  constructor
  · intro h
    cases tier <;> cases lexeme with
    | mark mark =>
      cases mark <;> simp only [Lexeme.kind, Tier.operator?, Option.some.injEq, reduceCtorEq] at h
      all_goals subst h
      all_goals first
        | exact ⟨.equal, rfl, rfl⟩
        | exact ⟨.unequal, rfl, rfl⟩
        | exact ⟨.less, rfl, rfl⟩
        | exact ⟨.greater, rfl, rfl⟩
        | exact ⟨.add, rfl, rfl⟩
        | exact ⟨.subtract, rfl, rfl⟩
        | exact ⟨.multiply, rfl, rfl⟩
        | exact ⟨.divide, rfl, rfl⟩
    | _ => simp [Lexeme.kind, Tier.operator?] at h
  · rintro ⟨sign, rfl, rfl⟩
    cases sign <;> rfl

theorem logicalOperator_iff {lexeme : Lexeme} {op : BinaryOp} :
    logicalOperator? lexeme.kind = some op ↔
      ∃ sign : Grammar.LogicalSign, sign.lexeme = lexeme ∧ sign.operator = op := by
  constructor
  · intro h
    cases lexeme with
    | keyword keyword =>
      cases keyword with
      | and => exact ⟨.and, rfl, Option.some.inj h⟩
      | or => exact ⟨.or, rfl, Option.some.inj h⟩
      | _ => simp [Lexeme.kind, logicalOperator?] at h
    | _ => simp [Lexeme.kind, logicalOperator?] at h
  · rintro ⟨sign, rfl, rfl⟩
    cases sign <;> rfl

theorem unaryOperator_iff {lexeme : Lexeme} {op : UnaryOp} :
    unaryOperator? lexeme.kind = some op ↔
      ∃ sign : Grammar.UnarySign, sign.lexeme = lexeme ∧ sign.operator = op := by
  constructor
  · intro h
    cases lexeme with
    | mark mark =>
      cases mark with
      | plus => exact ⟨.plus, rfl, Option.some.inj h⟩
      | minus => exact ⟨.minus, rfl, Option.some.inj h⟩
      | _ => simp [Lexeme.kind, unaryOperator?] at h
    | keyword keyword =>
      cases keyword with
      | not => exact ⟨.not, rfl, Option.some.inj h⟩
      | _ => simp [Lexeme.kind, unaryOperator?] at h
    | _ => simp [Lexeme.kind, unaryOperator?] at h
  · rintro ⟨sign, rfl, rfl⟩
    cases sign <;> rfl

end ScopeScript.Parser
