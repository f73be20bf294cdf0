import ScopeScript.Proofs.Grammar.Derivation
set_option autoImplicit false

/-!
# Grammar: exactly one greedy derivation

Two derivations of one symbol from the front of the same lexemes are equal, provided that what is
left behind each of them cannot go on with it.  How far a lexeme can go on with what stands in front
of it is a number, its looseness: a dot or a parenthesis goes on with an atom, a sign with operands
of its tier, and what is looser than all operators ends an expression.

The `return` without a value is the one place where the grammar itself leaves a choice.  There the
two derivations have to be greedy.  Nothing is lost by that: what follows such a `return` can only
be a call, and a call is an expression with the same lexemes.
-/

namespace ScopeScript.Grammar

open ScopeScript.Parser (Tier)

/-! ## What may stand behind a derivation -/

/-- The first of some lexemes; behind the last one stands the end of the input. -/
def next (lexemes : List Lexeme) : Lexeme := lexemes.headD .finish

@[simp] theorem next_nil : next [] = .finish := rfl

@[simp] theorem next_cons (lexeme : Lexeme) (rest : List Lexeme) : next (lexeme :: rest) = lexeme :=
  rfl

theorem next_append (front rest : List Lexeme) :
    next (front ++ rest) = front.headD (next rest) := by
  cases front <;> rfl

/-- How loosely operators of a tier bind. -/
def tierLooseness : Tier → Nat
  | .multiplicative => 1
  | .additive => 2
  | .comparison => 3

/-- How loosely `and` and `or` bind. -/
def logicalLooseness : Nat := 4

/-- How loosely a lexeme binds what stands in front of it; lexemes that end every expression bind
loosest. -/
def looseness : Lexeme → Nat
  | .mark .dot | .mark .openParen => 0
  | .mark .times | .mark .slash => tierLooseness .multiplicative
  | .mark .plus | .mark .minus => tierLooseness .additive
  | .mark .equals | .mark .unequal | .mark .less | .mark .greater => tierLooseness .comparison
  | .keyword .and | .keyword .or => logicalLooseness
  | _ => logicalLooseness + 1

/-- The lexeme ends an expression in front of it. -/
def EndsExpr (lexeme : Lexeme) : Prop := logicalLooseness < looseness lexeme

@[simp] theorem Sign.looseness_lexeme {tier : Tier} (sign : Sign tier) :
    looseness sign.lexeme = tierLooseness tier := by
  cases sign <;> rfl

@[simp] theorem LogicalSign.looseness_lexeme (sign : LogicalSign) :
    looseness sign.lexeme = logicalLooseness := by
  cases sign <;> rfl

theorem tierLooseness_lt_logical (tier : Tier) : tierLooseness tier < logicalLooseness := by
  cases tier <;> decide

/-! ## Signs and words -/

theorem Sign.lexeme_injective {tier : Tier} {a b : Sign tier} (h : a.lexeme = b.lexeme) :
    a = b := by
  cases a <;> cases b <;> first | rfl | simp [Sign.lexeme] at h

theorem LogicalSign.lexeme_injective {a b : LogicalSign} (h : a.lexeme = b.lexeme) : a = b := by
  cases a <;> cases b <;> first | rfl | simp [LogicalSign.lexeme] at h

theorem UnarySign.lexeme_injective {a b : UnarySign} (h : a.lexeme = b.lexeme) : a = b := by
  cases a <;> cases b <;> first | rfl | simp [UnarySign.lexeme] at h

/-- Words behind a mark each are told apart from what follows them by that mark. -/
theorem marked_unique {mark : Mark} :
    ∀ {words words' : List String} {r r' : List Lexeme},
      (words.flatMap fun word => [Lexeme.mark mark, .word word]) ++ r =
        (words'.flatMap fun word => [Lexeme.mark mark, .word word]) ++ r' →
      next r ≠ .mark mark → next r' ≠ .mark mark → words = words' ∧ r = r' := by
  intro words
  induction words with
  | nil =>
    intro words' r r' h hr hr'
    cases words' with
    | nil => exact ⟨rfl, by simpa using h⟩
    | cons word rest =>
      subst h
      simp at hr
  | cons word rest ih =>
    intro words' r r' h hr hr'
    cases words' with
    | nil =>
      subst h
      simp at hr'
    | cons word' rest' =>
      simp only [List.flatMap_cons, List.cons_append, List.nil_append, List.cons.injEq,
        Lexeme.word.injEq, true_and] at h
      obtain ⟨hrest, hr⟩ := ih h.2 hr hr'
      exact ⟨by rw [h.1, hrest], hr⟩

/-- A list of words ends where no comma follows. -/
theorem wordList_unique {words words' : List String} {r r' : List Lexeme}
    (h : wordList words ++ .mark .closeParen :: r = wordList words' ++ .mark .closeParen :: r') :
    words = words' ∧ r = r' := by
  cases words with
  | nil =>
    cases words' with
    | nil => exact ⟨rfl, by simpa [wordList] using h⟩
    | cons word' rest' => simp [wordList] at h
  | cons word rest =>
    cases words' with
    | nil => simp [wordList] at h
    | cons word' rest' =>
      simp only [wordList, commaWords, List.cons_append, List.cons.injEq, Lexeme.word.injEq] at h
      obtain ⟨hrest, hr⟩ := marked_unique h.2 (by simp) (by simp)
      exact ⟨by rw [h.1, hrest], by simpa using hr⟩

/-! ## How expressions start -/

/-- An atom starts with a lexeme that an expression can start with. -/
theorem Atom.starts (d : Atom) :
    ∃ first rest, d.yield = first :: rest ∧ Parser.startsExpression first.kind = true := by
  cases d with
  | paren inner => exact ⟨_, _, rfl, rfl⟩
  | path name properties => exact ⟨_, _, rfl, rfl⟩
  | call inner =>
    cases inner with
    | mk name arguments => exact ⟨_, _, rfl, rfl⟩
  | number numeral => exact ⟨_, _, rfl, rfl⟩
  | text content => exact ⟨_, _, rfl, rfl⟩

theorem Signed.starts (d : Signed) :
    ∃ first rest, d.yield = first :: rest ∧ Parser.startsExpression first.kind = true := by
  cases d with
  | atom inner => exact inner.starts
  | sign sign operand => exact ⟨_, _, rfl, by cases sign <;> rfl⟩

mutual

theorem Operand.starts {tier : Tier} (d : Operand tier) :
    ∃ first rest, d.yield = first :: rest ∧ Parser.startsExpression first.kind = true := by
  match d with
  | .chain first more =>
    obtain ⟨lexeme, rest, hyield, hstart⟩ := Tighter.starts first
    exact ⟨lexeme, rest ++ more.yield, by simp [Operand.yield, hyield], hstart⟩
termination_by structural d

theorem Tighter.starts {tier : Tier} (d : Tighter tier) :
    ∃ first rest, d.yield = first :: rest ∧ Parser.startsExpression first.kind = true := by
  match tier, d with
  | _, .additive inner => exact Operand.starts inner
  | _, .multiplicative inner => exact Operand.starts inner
  | _, .signed inner => exact inner.starts
termination_by structural d

end

theorem Expr.starts (d : Expr) :
    ∃ first rest, d.yield = first :: rest ∧ Parser.startsExpression first.kind = true := by
  cases d with
  | single operand => exact operand.starts
  | logical left sign right =>
    obtain ⟨lexeme, rest, hyield, hstart⟩ := left.starts
    exact ⟨lexeme, _, by rw [Expr.yield, hyield]; rfl, hstart⟩

/-- The expression that is nothing but a signed atom. -/
def Expr.ofSigned (inner : Signed) : Expr :=
  .single (.chain (.additive (.chain (.multiplicative (.chain (.signed inner) .done)) .done)) .done)

@[simp] theorem Expr.yield_ofSigned (inner : Signed) :
    (Expr.ofSigned inner).yield = inner.yield := by
  simp [Expr.ofSigned, Expr.yield, Operand.yield, Tighter.yield, MoreOperands.yield]

@[simp] theorem Expr.tree_ofSigned (inner : Signed) : (Expr.ofSigned inner).tree = inner.tree := by
  simp [Expr.ofSigned, Expr.tree, Operand.tree, Tighter.tree, MoreOperands.treeFrom]

/-- The kinds in front of which a `return` takes a value are those that start some expression. -/
theorem canStart_iff (lexeme : Lexeme) :
    CanStart lexeme ↔ Parser.startsExpression lexeme.kind = true := by
  constructor
  · rintro ⟨e, he⟩
    obtain ⟨first, rest, hyield, hstart⟩ := e.starts
    rw [hyield, List.head?_cons, Option.some.injEq] at he
    rwa [← he]
  · intro h
    have ofSigned : ∀ inner : Signed, inner.yield.head? = some lexeme → CanStart lexeme :=
      fun inner hinner => ⟨.ofSigned inner, by rw [Expr.yield_ofSigned, hinner]⟩
    let zero : Signed := .atom (.number "0")
    cases lexeme with
    | word name => exact ofSigned (.atom (.path name [])) rfl
    | text content => exact ofSigned (.atom (.text content)) rfl
    | number numeral => exact ofSigned (.atom (.number numeral)) rfl
    | finish => simp [Lexeme.kind, Parser.startsExpression] at h
    | mark mark =>
      cases mark with
      | openParen => exact ofSigned (.atom (.paren (.ofSigned zero))) rfl
      | plus => exact ofSigned (.sign .plus zero) rfl
      | minus => exact ofSigned (.sign .minus zero) rfl
      | _ => simp [Lexeme.kind, Parser.startsExpression] at h
    | keyword keyword =>
      cases keyword with
      | not => exact ofSigned (.sign .not zero) rfl
      | _ => simp [Lexeme.kind, Parser.startsExpression] at h

/-! ## Expressions -/

/-- An atom does not start with a unary sign. -/
theorem Atom.yield_ne_sign (atom : Atom) (sign : UnarySign) (r r' : List Lexeme) :
    atom.yield ++ r ≠ sign.lexeme :: r' := by
  intro h
  cases atom with
  | call inner => cases inner; cases sign <;> simp [Atom.yield, Call.yield, UnarySign.lexeme] at h
  | _ => cases sign <;> simp [Atom.yield, UnarySign.lexeme] at h

/-- Behind an operand of a tier stands a sign of the tier or what follows all of them. -/
theorem MoreOperands.looseness_next {tier : Tier} (more : MoreOperands tier) {r : List Lexeme}
    (hr : tierLooseness tier < looseness (next r)) :
    tierLooseness tier ≤ looseness (next (more.yield ++ r)) := by
  cases more with
  | done => exact Nat.le_of_lt hr
  | more sign right rest => simp [MoreOperands.yield]

/-- Behind an argument stands a comma or what follows all of them. -/
theorem MoreArguments.endsExpr_next (more : MoreArguments) {r : List Lexeme}
    (hr : EndsExpr (next r)) : EndsExpr (next (more.yield ++ r)) := by
  cases more with
  | done => exact hr
  | more argument rest => simp [MoreArguments.yield, EndsExpr, looseness]

mutual

theorem Expr.unique (d d' : Expr) {r r' : List Lexeme} (h : d.yield ++ r = d'.yield ++ r')
    (hr : EndsExpr (next r)) (hr' : EndsExpr (next r')) : d = d' ∧ r = r' := by
  have loose : ∀ {l : Lexeme}, EndsExpr l → tierLooseness .comparison < looseness l :=
    fun hl => Nat.lt_trans (tierLooseness_lt_logical _) hl
  have signLoose : ∀ sign : LogicalSign, tierLooseness .comparison < looseness sign.lexeme := by
    intro sign
    rw [sign.looseness_lexeme]
    exact tierLooseness_lt_logical _
  cases d with
  | single operand =>
    cases d' with
    | single operand' =>
      obtain ⟨rfl, rfl⟩ := Operand.unique operand operand' h (loose hr) (loose hr')
      exact ⟨rfl, rfl⟩
    | logical left' sign' right' =>
      simp only [Expr.yield, List.append_assoc, List.cons_append] at h
      obtain ⟨-, rfl⟩ := Operand.unique operand left' h (loose hr) (signLoose sign')
      simp [EndsExpr] at hr
  | logical left sign right =>
    simp only [Expr.yield, List.append_assoc, List.cons_append] at h
    cases d' with
    | single operand' =>
      obtain ⟨-, rfl⟩ := Operand.unique left operand' h (signLoose sign) (loose hr')
      simp [EndsExpr] at hr'
    | logical left' sign' right' =>
      simp only [Expr.yield, List.append_assoc, List.cons_append] at h
      obtain ⟨rfl, htail⟩ := Operand.unique left left' h (signLoose sign) (signLoose sign')
      simp only [List.cons.injEq] at htail
      obtain ⟨rfl, rfl⟩ := Expr.unique right right' htail.2 hr hr'
      exact ⟨by rw [LogicalSign.lexeme_injective htail.1], rfl⟩
termination_by structural d

theorem Operand.unique {tier : Tier} (d d' : Operand tier) {r r' : List Lexeme}
    (h : d.yield ++ r = d'.yield ++ r') (hr : tierLooseness tier < looseness (next r))
    (hr' : tierLooseness tier < looseness (next r')) : d = d' ∧ r = r' := by
  match d, d', h with
  | .chain first more, .chain first' more', h =>
    simp only [Operand.yield, List.append_assoc] at h
    obtain ⟨rfl, hmore⟩ := Tighter.unique first first' h (more.looseness_next hr)
      (more'.looseness_next hr')
    obtain ⟨rfl, rfl⟩ := MoreOperands.unique more more' hmore hr hr'
    exact ⟨rfl, rfl⟩
termination_by structural d

theorem Tighter.unique {tier : Tier} (d d' : Tighter tier) {r r' : List Lexeme}
    (h : d.yield ++ r = d'.yield ++ r') (hr : tierLooseness tier ≤ looseness (next r))
    (hr' : tierLooseness tier ≤ looseness (next r')) : d = d' ∧ r = r' := by
  match tier, d, d', h, hr, hr' with
  | _, .additive inner, .additive inner', h, hr, hr' =>
    obtain ⟨rfl, rfl⟩ := Operand.unique inner inner' h hr hr'
    exact ⟨rfl, rfl⟩
  | _, .multiplicative inner, .multiplicative inner', h, hr, hr' =>
    obtain ⟨rfl, rfl⟩ := Operand.unique inner inner' h hr hr'
    exact ⟨rfl, rfl⟩
  | _, .signed inner, .signed inner', h, hr, hr' =>
    obtain ⟨rfl, rfl⟩ := Signed.unique inner inner' h hr hr'
    exact ⟨rfl, rfl⟩
termination_by structural d

theorem MoreOperands.unique {tier : Tier} (d d' : MoreOperands tier) {r r' : List Lexeme}
    (h : d.yield ++ r = d'.yield ++ r') (hr : tierLooseness tier < looseness (next r))
    (hr' : tierLooseness tier < looseness (next r')) : d = d' ∧ r = r' := by
  match d, d', h with
  | .done, .done, h => exact ⟨rfl, h⟩
  | .done, .more sign' right' rest', h =>
    simp only [MoreOperands.yield, List.nil_append, List.cons_append] at h
    subst h
    simp at hr
  | .more sign right rest, .done, h =>
    simp only [MoreOperands.yield, List.nil_append, List.cons_append] at h
    subst h
    simp at hr'
  | .more sign right rest, .more sign' right' rest', h =>
    simp only [MoreOperands.yield, List.cons_append, List.append_assoc, List.cons.injEq] at h
    obtain ⟨rfl, hrest⟩ := Tighter.unique right right' h.2 (rest.looseness_next hr)
      (rest'.looseness_next hr')
    obtain ⟨rfl, rfl⟩ := MoreOperands.unique rest rest' hrest hr hr'
    exact ⟨by rw [Sign.lexeme_injective h.1], rfl⟩
termination_by structural d

theorem Signed.unique (d d' : Signed) {r r' : List Lexeme} (h : d.yield ++ r = d'.yield ++ r')
    (hr : 0 < looseness (next r)) (hr' : 0 < looseness (next r')) : d = d' ∧ r = r' := by
  cases d with
  | atom inner =>
    cases d' with
    | atom inner' =>
      obtain ⟨rfl, rfl⟩ := Atom.unique inner inner' h hr hr'
      exact ⟨rfl, rfl⟩
    | sign sign' operand' => exact absurd h (inner.yield_ne_sign sign' _ _)
  | sign sign operand =>
    cases d' with
    | atom inner' => exact absurd h.symm (inner'.yield_ne_sign sign _ _)
    | sign sign' operand' =>
      simp only [Signed.yield, List.cons_append, List.cons.injEq] at h
      obtain ⟨rfl, rfl⟩ := Signed.unique operand operand' h.2 hr hr'
      exact ⟨by rw [UnarySign.lexeme_injective h.1], rfl⟩
termination_by structural d

theorem Atom.unique (d d' : Atom) {r r' : List Lexeme} (h : d.yield ++ r = d'.yield ++ r')
    (hr : 0 < looseness (next r)) (hr' : 0 < looseness (next r')) : d = d' ∧ r = r' := by
  have noDot : ∀ {l : Lexeme}, 0 < looseness l → l ≠ .mark .dot := by
    rintro l hl rfl
    simp [looseness] at hl
  -- a path is never followed by the parenthesis that would make it a call
  have path_ne_call : ∀ (name : String) (properties : List String) (inner : Call)
      {s s' : List Lexeme}, 0 < looseness (next s) →
      Lexeme.word name :: dotted properties ++ s ≠ inner.yield ++ s' := by
    intro name properties inner s s' hs same
    cases inner with
    | mk name' arguments =>
      cases properties with
      | nil =>
        simp only [dotted, List.flatMap_nil, Call.yield, List.cons_append, List.nil_append,
          List.cons.injEq] at same
        rw [same.2] at hs
        simp [looseness] at hs
      | cons property rest => simp [dotted, Call.yield] at same
  cases d with
  | paren inner =>
    cases d' with
    | paren inner' =>
      simp only [Atom.yield, List.cons_append, List.append_assoc, List.nil_append,
        List.cons.injEq, true_and] at h
      obtain ⟨rfl, htail⟩ := Expr.unique inner inner' h (by simp [EndsExpr, looseness])
        (by simp [EndsExpr, looseness])
      exact ⟨rfl, by simpa using htail⟩
    | call inner' => cases inner'; simp [Atom.yield, Call.yield] at h
    | _ => simp [Atom.yield] at h
  | path name properties =>
    cases d' with
    | path name' properties' =>
      simp only [Atom.yield, List.cons_append, List.cons.injEq, Lexeme.word.injEq] at h
      obtain ⟨rfl, rfl⟩ := marked_unique h.2 (noDot hr) (noDot hr')
      exact ⟨by rw [h.1], rfl⟩
    | call inner' => exact absurd h (path_ne_call name properties inner' hr)
    | _ => simp [Atom.yield] at h
  | call inner =>
    cases d' with
    | path name' properties' => exact absurd h.symm (path_ne_call name' properties' inner hr')
    | call inner' =>
      obtain ⟨rfl, rfl⟩ := Call.unique inner inner' h
      exact ⟨rfl, rfl⟩
    | _ => cases inner; simp [Atom.yield, Call.yield] at h
  | number numeral =>
    cases d' with
    | number numeral' => simpa [Atom.yield] using h
    | call inner' => cases inner'; simp [Atom.yield, Call.yield] at h
    | _ => simp [Atom.yield] at h
  | text content =>
    cases d' with
    | text content' => simpa [Atom.yield] using h
    | call inner' => cases inner'; simp [Atom.yield, Call.yield] at h
    | _ => simp [Atom.yield] at h
termination_by structural d

theorem Call.unique (d d' : Call) {r r' : List Lexeme} (h : d.yield ++ r = d'.yield ++ r') :
    d = d' ∧ r = r' := by
  cases d with
  | mk name arguments =>
    cases d' with
    | mk name' arguments' =>
      simp only [Call.yield, List.cons_append, List.append_assoc, List.nil_append,
        List.cons.injEq, Lexeme.word.injEq, true_and] at h
      obtain ⟨rfl, rfl⟩ := Arguments.unique arguments arguments' h.2
      exact ⟨by rw [h.1], rfl⟩
termination_by structural d

theorem Arguments.unique (d d' : Arguments) {r r' : List Lexeme}
    (h : d.yield ++ .mark .closeParen :: r = d'.yield ++ .mark .closeParen :: r') :
    d = d' ∧ r = r' := by
  cases d with
  | none =>
    cases d' with
    | none => exact ⟨rfl, by simpa [Arguments.yield] using h⟩
    | some first' more' =>
      obtain ⟨lexeme, rest, hyield, hstart⟩ := first'.starts
      simp only [Arguments.yield, hyield, List.nil_append, List.cons_append, List.cons.injEq] at h
      rw [← h.1] at hstart
      simp [Lexeme.kind, Parser.startsExpression] at hstart
  | some first more =>
    cases d' with
    | none =>
      obtain ⟨lexeme, rest, hyield, hstart⟩ := first.starts
      simp only [Arguments.yield, hyield, List.nil_append, List.cons_append, List.cons.injEq] at h
      rw [h.1] at hstart
      simp [Lexeme.kind, Parser.startsExpression] at hstart
    | some first' more' =>
      simp only [Arguments.yield, List.append_assoc] at h
      have closes : ∀ s : List Lexeme, EndsExpr (next (.mark .closeParen :: s)) := by
        intro s
        simp [EndsExpr, looseness]
      obtain ⟨rfl, hmore⟩ := Expr.unique first first' h (more.endsExpr_next (closes r))
        (more'.endsExpr_next (closes r'))
      obtain ⟨rfl, rfl⟩ := MoreArguments.unique more more' hmore
      exact ⟨rfl, rfl⟩
termination_by structural d

theorem MoreArguments.unique (d d' : MoreArguments) {r r' : List Lexeme}
    (h : d.yield ++ .mark .closeParen :: r = d'.yield ++ .mark .closeParen :: r') :
    d = d' ∧ r = r' := by
  cases d with
  | done =>
    cases d' with
    | done => exact ⟨rfl, by simpa [MoreArguments.yield] using h⟩
    | more argument' rest' => simp [MoreArguments.yield] at h
  | more argument rest =>
    cases d' with
    | done => simp [MoreArguments.yield] at h
    | more argument' rest' =>
      simp only [MoreArguments.yield, List.cons_append, List.append_assoc, List.cons.injEq,
        true_and] at h
      have closes : ∀ s : List Lexeme, EndsExpr (next (.mark .closeParen :: s)) := by
        intro s
        simp [EndsExpr, looseness]
      obtain ⟨rfl, hrest⟩ := Expr.unique argument argument' h (rest.endsExpr_next (closes r))
        (rest'.endsExpr_next (closes r'))
      obtain ⟨rfl, rfl⟩ := MoreArguments.unique rest rest' hrest
      exact ⟨rfl, rfl⟩
termination_by structural d

end

/-! ## Statements -/

/-- A statement can start with the lexeme. -/
def StartsStatement : Lexeme → Prop
  | .word _ => True
  | .keyword keyword => keyword ∈ [.const, .var, .set, .func, .return_, .if_]
  | _ => False

/-- Statements one after the other can end in front of the lexeme. -/
def Closes : Lexeme → Prop
  | .finish => True
  | .mark mark => mark = .closeBrace
  | .keyword keyword => keyword = .else_ ∨ keyword = .end_
  | _ => False

theorem Statement.starts (d : Statement) :
    ∃ first rest, d.yield = first :: rest ∧ StartsStatement first := by
  cases d with
  | call inner =>
    cases inner with
    | mk name arguments => exact ⟨_, _, rfl, trivial⟩
  | declaration isConst name initial =>
    exact ⟨_, _, rfl, by cases isConst <;> simp [StartsStatement]⟩
  | _ => exact ⟨_, _, rfl, by simp [StartsStatement]⟩

/-- The sorts of statements that the first lexeme tells apart. -/
inductive StatementSort
  | declaration
  | set
  | func
  | giveBack
  | choice
  | call

/-- The sort of the statements that start with a lexeme. -/
def statementSort : Lexeme → StatementSort
  | .keyword .var | .keyword .const => .declaration
  | .keyword .set => .set
  | .keyword .func => .func
  | .keyword .return_ => .giveBack
  | .keyword .if_ => .choice
  | _ => .call

/-- The sort of a statement. -/
def Statement.sort : Statement → StatementSort
  | .declaration _ _ _ => .declaration
  | .set _ _ _ => .set
  | .func _ _ _ => .func
  | .bareReturn | .giveBack _ => .giveBack
  | .choice _ _ | .choiceElse _ _ _ => .choice
  | .call _ => .call

theorem Statement.statementSort_next (d : Statement) (r : List Lexeme) :
    statementSort (next (d.yield ++ r)) = d.sort := by
  cases d with
  | declaration isConst name initial => cases isConst <;> rfl
  | call inner => cases inner with
    | mk name arguments => rfl
  | _ => rfl

/-- The condition in front of a `then` reads in one way. -/
theorem condition_unique {condition condition' : Expr} {r r' : List Lexeme}
    (h : condition.yield ++ .keyword .then_ :: r = condition'.yield ++ .keyword .then_ :: r') :
    condition = condition' ∧ r = r' := by
  have ends : EndsExpr (.keyword .then_) := by simp [EndsExpr, looseness]
  obtain ⟨rfl, hrest⟩ := condition.unique condition' h ends ends
  simp only [List.cons.injEq, true_and] at hrest
  exact ⟨rfl, hrest⟩

/-- What starts a statement ends the expression in front of it. -/
theorem endsExpr_of_startsStatement {lexeme : Lexeme} (h : StartsStatement lexeme) :
    EndsExpr lexeme := by
  cases lexeme with
  | word name => simp [EndsExpr, looseness]
  | keyword keyword => cases keyword <;> simp_all [StartsStatement, EndsExpr, looseness]
  | _ => exact absurd h (by simp [StartsStatement])

/-- What closes statements ends the expression in front of it. -/
theorem endsExpr_of_closes {lexeme : Lexeme} (h : Closes lexeme) : EndsExpr lexeme := by
  cases lexeme with
  | finish => simp [EndsExpr, looseness]
  | mark mark => cases mark <;> simp_all [Closes, EndsExpr, looseness]
  | keyword keyword => cases keyword <;> simp_all [Closes, EndsExpr, looseness]
  | _ => exact absurd h (by simp [Closes])

/-- What closes statements neither starts one nor starts an expression. -/
theorem not_starts_of_closes {lexeme : Lexeme} (h : Closes lexeme) :
    ¬ StartsStatement lexeme ∧ ¬ CanStart lexeme := by
  rw [canStart_iff]
  cases lexeme with
  | finish => simp [StartsStatement, Lexeme.kind, Parser.startsExpression]
  | mark mark =>
    obtain rfl : mark = .closeBrace := h
    simp [StartsStatement, Lexeme.kind, Parser.startsExpression]
  | keyword keyword =>
    rcases h with rfl | rfl <;> simp [StartsStatement, Lexeme.kind, Parser.startsExpression]
  | _ => exact absurd h (by simp [Closes])

/-- Behind a statement in a list stands the next one or what closes the list. -/
theorem Statements.endsExpr_next (d : Statements) {r : List Lexeme} (hr : Closes (next r)) :
    EndsExpr (next (d.yield ++ r)) := by
  cases d with
  | nil => exact endsExpr_of_closes hr
  | cons first rest =>
    obtain ⟨lexeme, tail, hyield, hstart⟩ := first.starts
    simpa [Statements.yield, hyield] using endsExpr_of_startsStatement hstart

/-- A `return` without a value is not greedy where the lexemes read as one with a value. -/
theorem not_greedy_bareReturn {value : Expr} {r r' : List Lexeme}
    (h : Statement.bareReturn.yield ++ r = (Statement.giveBack value).yield ++ r') :
    ¬ Statement.bareReturn.Greedy (next r) := by
  obtain ⟨lexeme, rest, hyield, hstart⟩ := value.starts
  simp only [Statement.yield, hyield, List.cons_append, List.nil_append, List.cons.injEq,
    true_and] at h
  rw [h, next_cons]
  exact fun greedy => greedy ((canStart_iff lexeme).mpr hstart)

/-- Behind the first branch a choice ends or goes on with `else`: where the branch reads in one
way, the two sorts of choices are told apart. -/
theorem choice_ne_choiceElse {condition condition' : Expr}
    {thenPart thenPart' elsePart : Statements} {r r' : List Lexeme}
    (branch : ∀ {s s' : List Lexeme},
      thenPart.yield ++ .keyword .end_ :: s = thenPart'.yield ++ .keyword .else_ :: s' →
        Lexeme.keyword .end_ :: s = .keyword .else_ :: s') :
    (Statement.choice condition thenPart).yield ++ r ≠
      (Statement.choiceElse condition' thenPart' elsePart).yield ++ r' := by
  intro h
  simp only [Statement.yield, List.cons_append, List.append_assoc, List.nil_append,
    List.cons.injEq, true_and] at h
  obtain ⟨-, hthen⟩ := condition_unique h
  exact absurd (branch hthen) (by simp)

mutual

theorem Statement.unique (d d' : Statement) {r r' : List Lexeme}
    (h : d.yield ++ r = d'.yield ++ r') (hr : EndsExpr (next r)) (hr' : EndsExpr (next r'))
    (hd : d.Greedy (next r)) (hd' : d'.Greedy (next r')) : d = d' ∧ r = r' := by
  -- the first lexeme tells all statements apart but returns and choices among themselves
  have sorts : d.sort = d'.sort := by
    rw [← d.statementSort_next r, h, d'.statementSort_next]
  cases d with
  | declaration isConst name initial =>
    cases d' with
    | declaration isConst' name' initial' =>
      simp only [Statement.yield, List.cons_append, List.cons.injEq, Lexeme.keyword.injEq,
        Lexeme.word.injEq, true_and] at h
      obtain ⟨rfl, rfl⟩ := initial.unique initial' h.2.2 hr hr'
      have same : isConst = isConst' := by
        cases isConst <;> cases isConst' <;> simp_all
      exact ⟨by rw [same, h.2.1], rfl⟩
    | _ => cases sorts
  | set name properties value =>
    cases d' with
    | set name' properties' value' =>
      simp only [Statement.yield, List.cons_append, List.append_assoc, List.cons.injEq,
        Lexeme.word.injEq, true_and] at h
      obtain ⟨rfl, htail⟩ := marked_unique h.2 (by simp) (by simp)
      simp only [List.cons.injEq, true_and] at htail
      obtain ⟨rfl, rfl⟩ := value.unique value' htail hr hr'
      exact ⟨by rw [h.1], rfl⟩
    | _ => cases sorts
  | func name params body =>
    cases d' with
    | func name' params' body' =>
      simp only [Statement.yield, List.cons_append, List.append_assoc, List.nil_append,
        List.cons.injEq, Lexeme.word.injEq, true_and] at h
      obtain ⟨rfl, hbody⟩ := wordList_unique h.2
      simp only [List.cons.injEq, true_and] at hbody
      obtain ⟨rfl, htail⟩ := Statements.unique body body' hbody (by simp [Closes])
        (by simp [Closes]) hd hd'
      exact ⟨by rw [h.1], by simpa using htail⟩
    | _ => cases sorts
  | bareReturn =>
    cases d' with
    | bareReturn => exact ⟨rfl, by simpa [Statement.yield] using h⟩
    | giveBack value' => exact absurd hd (not_greedy_bareReturn h)
    | _ => cases sorts
  | giveBack value =>
    cases d' with
    | bareReturn => exact absurd hd' (not_greedy_bareReturn h.symm)
    | giveBack value' =>
      simp only [Statement.yield, List.cons_append, List.cons.injEq, true_and] at h
      obtain ⟨rfl, rfl⟩ := value.unique value' h hr hr'
      exact ⟨rfl, rfl⟩
    | _ => cases sorts
  | choice condition thenPart =>
    cases d' with
    | choice condition' thenPart' =>
      simp only [Statement.yield, List.cons_append, List.append_assoc, List.nil_append,
        List.cons.injEq, true_and] at h
      obtain ⟨rfl, hthen⟩ := condition_unique h
      obtain ⟨rfl, htail⟩ := Statements.unique thenPart thenPart' hthen (by simp [Closes])
        (by simp [Closes]) hd hd'
      exact ⟨rfl, by simpa using htail⟩
    | choiceElse condition' thenPart' elsePart' =>
      refine absurd h (choice_ne_choiceElse fun hthen => ?_)
      exact (Statements.unique thenPart thenPart' hthen (by simp [Closes]) (by simp [Closes])
        hd hd'.1).2
    | _ => cases sorts
  | choiceElse condition thenPart elsePart =>
    cases d' with
    | choice condition' thenPart' =>
      refine absurd h.symm (choice_ne_choiceElse fun hthen => ?_)
      exact (Statements.unique thenPart thenPart' hthen.symm (by simp [Closes])
        (by simp [Closes]) hd.1 hd').2.symm
    | choiceElse condition' thenPart' elsePart' =>
      simp only [Statement.yield, List.cons_append, List.append_assoc, List.nil_append,
        List.cons.injEq, true_and] at h
      obtain ⟨rfl, hthen⟩ := condition_unique h
      obtain ⟨rfl, helse⟩ := Statements.unique thenPart thenPart' hthen (by simp [Closes])
        (by simp [Closes]) hd.1 hd'.1
      simp only [List.cons.injEq, true_and] at helse
      obtain ⟨rfl, htail⟩ := Statements.unique elsePart elsePart' helse (by simp [Closes])
        (by simp [Closes]) hd.2 hd'.2
      exact ⟨rfl, by simpa using htail⟩
    | _ => cases sorts
  | call inner =>
    cases d' with
    | call inner' =>
      obtain ⟨rfl, rfl⟩ := inner.unique inner' h
      exact ⟨rfl, rfl⟩
    | _ => cases sorts
termination_by structural d

theorem Statements.unique (d d' : Statements) {r r' : List Lexeme}
    (h : d.yield ++ r = d'.yield ++ r') (hr : Closes (next r)) (hr' : Closes (next r'))
    (hd : d.Greedy (next r)) (hd' : d'.Greedy (next r')) : d = d' ∧ r = r' := by
  cases d with
  | nil =>
    cases d' with
    | nil => exact ⟨rfl, h⟩
    | cons first' rest' =>
      obtain ⟨lexeme, tail, hyield, hstart⟩ := first'.starts
      simp only [Statements.yield, hyield, List.nil_append, List.cons_append] at h
      rw [h, next_cons] at hr
      exact absurd hstart (not_starts_of_closes hr).1
  | cons first rest =>
    cases d' with
    | nil =>
      obtain ⟨lexeme, tail, hyield, hstart⟩ := first.starts
      simp only [Statements.yield, hyield, List.nil_append, List.cons_append] at h
      rw [← h, next_cons] at hr'
      exact absurd hstart (not_starts_of_closes hr').1
    | cons first' rest' =>
      simp only [Statements.yield, List.append_assoc] at h
      obtain ⟨rfl, hrest⟩ := Statement.unique first first' h (rest.endsExpr_next hr)
        (rest'.endsExpr_next hr') (by rw [next_append]; exact hd.1)
        (by rw [next_append]; exact hd'.1)
      obtain ⟨rfl, rfl⟩ := Statements.unique rest rest' hrest hr hr' hd.2 hd'.2
      exact ⟨rfl, rfl⟩
termination_by structural d

end

/-! ## Statements with others behind them -/

namespace Statements

/-- Statements with others behind them. -/
def append : Statements → Statements → Statements
  | .nil, others => others
  | .cons first rest, others => .cons first (rest.append others)

@[simp] theorem yield_append (d others : Statements) :
    (d.append others).yield = d.yield ++ others.yield := by
  cases d with
  | nil => rfl
  | cons first rest => simp [append, yield, yield_append rest others]
termination_by structural d

@[simp] theorem trees_append (d others : Statements) :
    (d.append others).trees = d.trees ++ others.trees := by
  cases d with
  | nil => rfl
  | cons first rest => simp [append, trees, trees_append rest others]
termination_by structural d

end Statements

/-! ## From any derivation to a greedy one -/

/-- The expression that is nothing but a call. -/
def Expr.ofCall (call : Call) : Expr := .ofSigned (.atom (.call call))

@[simp] theorem Expr.yield_ofCall (call : Call) : (Expr.ofCall call).yield = call.yield := by
  simp [Expr.ofCall, Signed.yield, Atom.yield]

/-- A statement in front of others; a call behind a `return` is taken as the value returned. -/
def Statements.join : Statement → Statements → Statements
  | .bareReturn, .cons (.call inner) rest => .cons (.giveBack (.ofCall inner)) rest
  | first, rest => .cons first rest

mutual

/-- The statement with every call behind a `return` inside it taken as the value returned. -/
def Statement.settle : Statement → Statement
  | .func name params body => .func name params body.settle
  | .choice condition thenPart => .choice condition thenPart.settle
  | .choiceElse condition thenPart elsePart =>
    .choiceElse condition thenPart.settle elsePart.settle
  | statement => statement

/-- The statements with every call behind a `return` taken as the value returned. -/
def Statements.settle : Statements → Statements
  | .nil => .nil
  | .cons first rest => .join first.settle rest.settle

end

theorem Statements.yield_join (first : Statement) (rest : Statements) :
    (Statements.join first rest).yield = first.yield ++ rest.yield := by
  unfold Statements.join
  split
  · simp [Statements.yield, Statement.yield]
  · rfl

mutual

theorem Statement.yield_settle (d : Statement) : d.settle.yield = d.yield := by
  cases d with
  | func name params body =>
    simp only [Statement.settle, Statement.yield, Statements.yield_settle body]
  | choice condition thenPart =>
    simp only [Statement.settle, Statement.yield, Statements.yield_settle thenPart]
  | choiceElse condition thenPart elsePart =>
    simp only [Statement.settle, Statement.yield, Statements.yield_settle thenPart,
      Statements.yield_settle elsePart]
  | _ => rfl
termination_by structural d

theorem Statements.yield_settle (d : Statements) : d.settle.yield = d.yield := by
  cases d with
  | nil => rfl
  | cons first rest =>
    rw [Statements.settle, Statements.yield_join, Statement.yield_settle first,
      Statements.yield_settle rest, Statements.yield]
termination_by structural d

end

/-- The one statement that starts like an expression is a call. -/
theorem Statements.eq_call_of_canStart {d : Statements} {next : Lexeme} (hnext : Closes next)
    (starts : CanStart (d.yield.headD next)) : ∃ inner rest, d = .cons (.call inner) rest := by
  cases d with
  | nil => exact absurd starts (not_starts_of_closes hnext).2
  | cons first rest =>
    rw [canStart_iff] at starts
    cases first with
    | call inner => exact ⟨inner, rest, rfl⟩
    | declaration isConst name initial =>
      cases isConst <;>
        simp [Statements.yield, Statement.yield, Lexeme.kind, Parser.startsExpression] at starts
    | _ => simp [Statements.yield, Statement.yield, Lexeme.kind, Parser.startsExpression] at starts

/-- Only a call makes a `return` in front of it pass up a value. -/
theorem Statements.greedy_join {first : Statement} {rest : Statements} {next : Lexeme}
    (hnext : Closes next) (hfirst : first = .bareReturn ∨ ∀ l, first.Greedy l)
    (hrest : rest.Greedy next) : (Statements.join first rest).Greedy next := by
  unfold Statements.join
  split
  · exact ⟨trivial, hrest.2⟩
  · rename_i notCall
    refine ⟨?_, hrest⟩
    rcases hfirst with rfl | hfirst
    · intro starts
      obtain ⟨inner, others, rfl⟩ := Statements.eq_call_of_canStart hnext starts
      exact notCall inner others rfl rfl
    · exact hfirst _

mutual

theorem Statement.greedy_settle (d : Statement) :
    d.settle = .bareReturn ∨ ∀ next, d.settle.Greedy next := by
  cases d with
  | func name params body => exact .inr fun _ => Statements.greedy_settle body (by simp [Closes])
  | bareReturn => exact .inl rfl
  | choice condition thenPart =>
    exact .inr fun _ => Statements.greedy_settle thenPart (by simp [Closes])
  | choiceElse condition thenPart elsePart =>
    exact .inr fun _ => ⟨Statements.greedy_settle thenPart (by simp [Closes]),
      Statements.greedy_settle elsePart (by simp [Closes])⟩
  | _ => exact .inr fun _ => trivial
termination_by structural d

theorem Statements.greedy_settle (d : Statements) {next : Lexeme} (hnext : Closes next) :
    d.settle.Greedy next := by
  cases d with
  | nil => trivial
  | cons first rest =>
    exact Statements.greedy_join hnext (Statement.greedy_settle first)
      (Statements.greedy_settle rest hnext)
termination_by structural d

end

end ScopeScript.Grammar
