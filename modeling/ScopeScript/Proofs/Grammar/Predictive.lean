import ScopeScript.Proofs.Grammar.Exact
set_option autoImplicit false

/-!
# Grammar: parsers that predict

What a parser function does depends on the tokens it takes and on the one it sees ahead, and where
it fails it has not gone too far.  `Predicts` states both of a function, by what it does at a
budget, and there is one rule for each way in which parser functions are built: to return, to reject
the token ahead, to take it, to go on with another function, and to choose by the token ahead.

A function predicts the words of a language.  The lexemes it has taken when it fails start one of
them: the words of what it was doing, put in front of some word of all that it would have done next.
The rules therefore give the function that goes on only the rest of the words that start with what
was taken.
-/

namespace ScopeScript.Parser

/-- A parser function, by its budget. -/
abbrev Parse (α : Type) : Type := Nat → List Token → Except Error (α × List Token)

/-- The words that a symbol derives. -/
def Yields {δ : Type} (yield : δ → List Lexeme) (word : List Lexeme) : Prop := ∃ d, yield d = word

/-- Lexemes that a source can hold complete the front part to a word. -/
def Viable (words : List Lexeme → Prop) (front : List Lexeme) : Prop :=
  ∃ more, words (front ++ more) ∧ ∀ lexeme ∈ more, lexeme.Written

/-- Any lexeme. -/
def Any (_lexeme : Lexeme) : Prop := True

/-- Tokens of a source that parsing can go on with. -/
structure Fit (ending : Ending) (tokens : List Token) : Prop where
  alive : Alive ending tokens
  written : ∀ token ∈ tokens, token.lexeme.Written

section
variable {α : Type} (ending : Ending) (limit : Nat)

/-- What a function has done that succeeds: it took a word, and with more budget and other tokens
behind the one ahead it does the same. -/
def Took (words : List Lexeme → Prop) (ends : Lexeme → Prop) (parse : Parse α)
    (tokens : List Token) (a : α) (rest : List Token) : Prop :=
  ∃ taken, tokens = taken ++ rest ∧ words (taken.map Token.lexeme) ∧ Alive ending rest ∧
    ends (ahead ending rest).lexeme ∧
    ∀ b rest', limit ≤ b → rest'.head? = rest.head? → parse b (taken ++ rest') = .ok (a, rest')

/-- Why a function fails.  The budget was too small for the tokens, a lexical error showed, or a
token does not fit: then a word starts with what stands in front of it, and with more budget and
other tokens behind it the function fails as well.  The token may be the end of the input. -/
inductive Stop (rank : Nat) (words : List Lexeme → Prop) (parse : Parse α) (tokens : List Token) :
    Error → Prop
  | depth (short : limit < 12 * tokens.length + rank) : Stop rank words parse tokens .depth
  | lexical {error : LexicalError} (broken : ending = .broken error) :
      Stop rank words parse tokens (.lexical error)
  | token {before after : List Token} {found : Token} {problem : GrammarProblem}
      (split : tokens = before ++ found :: after)
      (viable : Viable words (before.map Token.lexeme))
      (fails : ∀ b after', limit ≤ b → ∃ e, parse b (before ++ found :: after') = .error e) :
      Stop rank words parse tokens (.grammar ⟨problem, found⟩)
  | finish {position : Position} {problem : GrammarProblem} (ended : ending = .finished position)
      (viable : Viable words (tokens.map Token.lexeme)) :
      Stop rank words parse tokens (.grammar ⟨problem, ending.token⟩)

/-- At the budget `limit` and where one of the lexemes `starts` is ahead, the function takes words
up to one of the lexemes `ends`, and decides by the token ahead. -/
structure Predicts (rank : Nat) (starts : Lexeme → Prop) (words : List Lexeme → Prop)
    (ends : Lexeme → Prop) (parse : Parse α) : Prop where
  productive : Viable words []
  ok : ∀ tokens a rest, Fit ending tokens → starts (ahead ending tokens).lexeme →
    parse limit tokens = .ok (a, rest) → Took ending limit words ends parse tokens a rest
  stop : ∀ tokens e, Fit ending tokens → starts (ahead ending tokens).lexeme →
    parse limit tokens = .error e → Stop ending limit rank words parse tokens e

end

/-! ## Facts about tokens -/

theorem Viable.mono {u words : List Lexeme → Prop} {front : List Lexeme} (h : Viable u front)
    (sub : ∀ word, u word → words word) : Viable words front := by
  obtain ⟨more, word, written⟩ := h
  exact ⟨more, sub _ word, written⟩

theorem Viable.of_word {words : List Lexeme → Prop} (h : words []) : Viable words [] :=
  ⟨[], h, by simp⟩

theorem Fit.rest {ending : Ending} {taken rest : List Token} (h : Fit ending (taken ++ rest))
    (alive : Alive ending rest) : Fit ending rest :=
  ⟨alive, fun token mem => h.written token (List.mem_append_right _ mem)⟩

theorem Fit.tail {ending : Ending} {token : Token} {rest : List Token}
    (h : Fit ending (token :: rest)) (alive : Alive ending rest) : Fit ending rest :=
  ⟨alive, fun other mem => h.written other (List.mem_cons_of_mem _ mem)⟩

/-- The token ahead is the end of the input only where no token is left. -/
theorem Fit.ahead {ending : Ending} {tokens : List Token} (h : Fit ending tokens) :
    (∃ token rest, tokens = token :: rest ∧ token.lexeme.Written) ∨
      tokens = [] ∧ ∃ position, ending = .finished position := by
  cases tokens with
  | nil => exact .inr ⟨rfl, h.alive rfl⟩
  | cons token rest => exact .inl ⟨token, rest, rfl, h.written token (by simp)⟩

theorem Alive.append {ending : Ending} {taken rest rest' : List Token} (alive : Alive ending rest)
    (head : rest'.head? = rest.head?) : Alive ending (taken ++ rest') := by
  intro empty
  obtain ⟨-, rfl⟩ := List.append_eq_nil_iff.mp empty
  exact alive (List.head?_eq_none_iff.mp head.symm)

theorem advance_cons {ending : Ending} {rest : List Token} (alive : Alive ending rest)
    (token : Token) : advance ending (token :: rest) = .ok (token, rest) := by
  cases rest with
  | nil =>
    obtain ⟨position, rfl⟩ := alive rfl
    rfl
  | cons next rest => cases ending <;> rfl

theorem advance_eq_error {ending : Ending} {tokens : List Token} {e : Error}
    (h : advance ending tokens = .error e) :
    ∃ error, ending = .broken error ∧ e = .lexical error := by
  unfold advance at h
  split at h
  · exact ⟨_, rfl, (Except.error.inj h).symm⟩
  · simp at h

namespace Predicts

variable {α β : Type} {ending : Ending} {limit rank : Nat} {starts middle ends : Lexeme → Prop}
  {words : List Lexeme → Prop}

/-! ## Rules -/

/-- A function returns without taking anything. -/
theorem pure {a : α} (word : words []) (sub : ∀ lexeme, starts lexeme → ends lexeme) :
    Predicts ending limit rank starts words ends (fun _ tokens => .ok (a, tokens)) where
  productive := .of_word word
  ok := by
    intro tokens a' rest fit start h
    simp only [Except.ok.injEq, Prod.mk.injEq] at h
    obtain ⟨rfl, rfl⟩ := h
    exact ⟨[], rfl, word, fit.alive, sub _ start, fun _ _ _ _ => rfl⟩
  stop := by simp

/-- A function rejects the token ahead. -/
theorem rejectAhead {problem : GrammarProblem} (productive : Viable words []) :
    Predicts ending limit rank starts words ends
      (fun _ tokens => reject problem (ahead ending tokens) : Parse α) where
  productive := productive
  ok := by simp [reject]
  stop := by
    intro tokens e fit _ h
    obtain rfl := Except.error.inj h
    obtain ⟨token, rest, rfl, -⟩ | ⟨rfl, position, ended⟩ := fit.ahead
    · exact .token (List.nil_append _).symm productive fun _ _ _ => ⟨_, rfl⟩
    · exact .finish ended productive

/-- A function takes the token ahead, which is known, and goes on. -/
theorem take {f : Nat → Token × List Token → Except Error (α × List Token)} {lexeme : Lexeme}
    (known : ∀ shown, starts shown → shown = lexeme) (written : lexeme.Written)
    (next : ∀ token : Token, token.lexeme = lexeme → Predicts ending limit (rank + 12) Any
      (fun word => words (lexeme :: word)) ends fun b rest => f b (token, rest)) :
    Predicts ending limit rank starts words ends
      (fun b tokens => advance ending tokens >>= f b) where
  productive := by
    obtain ⟨more, word, written'⟩ := (next ⟨lexeme, {}⟩ rfl).productive
    exact ⟨lexeme :: more, word, by simpa using ⟨written, written'⟩⟩
  ok := by
    intro tokens a rest fit start h
    obtain ⟨⟨token, behind⟩, hadvance, hf⟩ := bind_eq_ok.mp h
    obtain ⟨rfl, rfl, alive⟩ := advance_eq_ok hadvance
    have same := known _ start
    obtain ⟨token, behind, rfl, -⟩ | ⟨rfl, position, rfl⟩ := fit.ahead
    · obtain ⟨taken, rfl, word, alive', finish, again⟩ :=
        (next token same).ok behind a rest (fit.tail alive) trivial hf
      refine ⟨token :: taken, rfl, ?_, alive', finish, fun b rest' le head => ?_⟩
      · rwa [List.map_cons, show token.lexeme = lexeme from same]
      · show advance ending (token :: (taken ++ rest')) >>= f b = _
        rw [advance_cons (alive'.append head)]
        exact again b rest' le head
    · rw [← same] at written
      exact written.elim
  stop := by
    intro tokens e fit start h
    have same := known _ start
    rcases bind_eq_error.mp h with failed | ⟨⟨token, behind⟩, hadvance, hf⟩
    · obtain ⟨error, broken, rfl⟩ := advance_eq_error failed
      exact .lexical broken
    obtain ⟨rfl, rfl, alive⟩ := advance_eq_ok hadvance
    obtain ⟨token, behind, rfl, -⟩ | ⟨rfl, position, rfl⟩ := fit.ahead
    · have shown : token.lexeme = lexeme := same
      cases (next token same).stop behind e (fit.tail alive) trivial hf with
      | depth short => exact .depth (by simp only [List.length_cons]; omega)
      | lexical broken => exact .lexical broken
      | @token before after found problem split viable fails =>
        have split' : token :: behind = (token :: before) ++ found :: after := by rw [split]; rfl
        refine .token split' (by rw [List.map_cons, shown]; exact viable) fun b after' le => ?_
        show ∃ e, advance ending (token :: (before ++ found :: after')) >>= f b = .error e
        rw [advance_cons (by simp [Alive])]
        exact fails b after' le
      | finish ended viable => exact .finish ended (by rw [List.map_cons, shown]; exact viable)
    · rw [← same] at written
      exact written.elim

/-- A function takes the token ahead only to reject it. -/
theorem takeReject {f : Nat → Token × List Token → Except Error (α × List Token)}
    (problem : GrammarProblem) (productive : Viable words [])
    (rejects : ∀ token : Token, starts token.lexeme →
      ∀ b rest, f b (token, rest) = reject problem token) :
    Predicts ending limit rank starts words ends
      (fun b tokens => advance ending tokens >>= f b) where
  productive := productive
  ok := by
    intro tokens a rest fit start h
    obtain ⟨⟨token, behind⟩, hadvance, hf⟩ := bind_eq_ok.mp h
    obtain ⟨rfl, -, -⟩ := advance_eq_ok hadvance
    rw [rejects _ start] at hf
    exact absurd hf (by simp [reject])
  stop := by
    intro tokens e fit start h
    rcases bind_eq_error.mp h with failed | ⟨⟨token, behind⟩, hadvance, hf⟩
    · obtain ⟨error, broken, rfl⟩ := advance_eq_error failed
      exact .lexical broken
    obtain ⟨rfl, -, -⟩ := advance_eq_ok hadvance
    rw [rejects _ start] at hf
    obtain rfl := Except.error.inj hf
    obtain ⟨token, behind, rfl, -⟩ | ⟨rfl, position, ended⟩ := fit.ahead
    · refine .token (List.nil_append _).symm productive fun b after' _ => ?_
      show ∃ e, advance ending (token :: after') >>= f b = .error e
      cases hagain : advance ending (token :: after') with
      | error e => exact ⟨e, rfl⟩
      | ok found =>
        obtain ⟨token', behind'⟩ := found
        obtain ⟨rfl, -, -⟩ := advance_eq_ok hagain
        exact ⟨_, rejects _ start b behind'⟩
    · exact .finish ended productive

/-- A function goes on with another one. -/
theorem bind [Inhabited α] {p : Parse α} {f : Nat → α × List Token → Except Error (β × List Token)}
    {u : List Lexeme → Prop} (first : Predicts ending limit rank starts u middle p)
    (next : ∀ a taken, u taken → Predicts ending limit (rank + 12 * taken.length) middle
      (fun word => words (taken ++ word)) ends fun b rest => f b (a, rest)) :
    Predicts ending limit rank starts words ends (fun b tokens => p b tokens >>= f b) := by
  -- whatever the first function has taken, a word goes on behind it
  have viable : ∀ {front : List Lexeme}, Viable u front → Viable words front := by
    rintro front ⟨more, word, written⟩
    obtain ⟨more', word', written'⟩ := (next default _ word).productive
    refine ⟨more ++ more', by simpa using word', ?_⟩
    simpa [or_imp, forall_and] using ⟨written, written'⟩
  refine ⟨viable first.productive, ?_, ?_⟩
  · intro tokens a rest fit start h
    obtain ⟨⟨x, between⟩, hfirst, hnext⟩ := bind_eq_ok.mp h
    obtain ⟨taken, rfl, word, alive, finish, again⟩ := first.ok _ x between fit start hfirst
    obtain ⟨taken', rfl, word', alive', finish', again'⟩ :=
      (next x _ word).ok between a rest (fit.rest alive) finish hnext
    refine ⟨taken ++ taken', by simp, by simpa using word', alive', finish', ?_⟩
    intro b rest' le head
    show p b (taken ++ taken' ++ rest') >>= f b = _
    rw [List.append_assoc, again b (taken' ++ rest') le (by simp [head])]
    exact again' b rest' le head
  · intro tokens e fit start h
    rcases bind_eq_error.mp h with failed | ⟨⟨x, between⟩, hfirst, hnext⟩
    · cases first.stop tokens e fit start failed with
      | depth short => exact .depth short
      | lexical broken => exact .lexical broken
      | token split viable' fails =>
        refine .token split (viable viable') fun b after' le => ?_
        obtain ⟨e, failed⟩ := fails b after' le
        exact ⟨e, by simp [failed, Bind.bind, Except.bind]⟩
      | finish ended viable' => exact .finish ended (viable viable')
    · obtain ⟨taken, rfl, word, alive, finish, again⟩ := first.ok _ x between fit start hfirst
      cases (next x _ word).stop between e (fit.rest alive) finish hnext with
      | depth short =>
        refine .depth ?_
        simp only [List.length_map, List.length_append] at short ⊢
        omega
      | lexical broken => exact .lexical broken
      | @token before after found problem split viable' fails =>
        have split' : taken ++ between = (taken ++ before) ++ found :: after := by
          rw [split, List.append_assoc]
        refine .token split' (by simpa [Viable] using viable') fun b after' le => ?_
        show ∃ e, p b (taken ++ before ++ found :: after') >>= f b = .error e
        rw [List.append_assoc, again b (before ++ found :: after') le (by simp [split])]
        exact fails b after' le
      | finish ended viable' => exact .finish ended (by simpa [Viable] using viable')

/-- The tokens that a function is run on when it is run again start like those it was run on. -/
theorem ahead_append {taken rest rest' : List Token} (head : rest'.head? = rest.head?) :
    ahead ending (taken ++ rest') = ahead ending (taken ++ rest) := by
  cases taken with
  | nil => cases rest <;> cases rest' <;> simp_all [ahead]
  | cons token taken => rfl

/-- Functions that do the same where they are used. -/
theorem congr {p q : Parse α}
    (same : ∀ b tokens, starts (ahead ending tokens).lexeme → p b tokens = q b tokens)
    (h : Predicts ending limit rank starts words ends q) :
    Predicts ending limit rank starts words ends p where
  productive := h.productive
  ok := by
    intro tokens a rest fit start hp
    rw [same limit tokens start] at hp
    obtain ⟨taken, rfl, word, alive, finish, again⟩ := h.ok _ a rest fit start hp
    refine ⟨taken, rfl, word, alive, finish, fun b rest' le head => ?_⟩
    rw [same b _ (by rwa [ahead_append head])]
    exact again b rest' le head
  stop := by
    intro tokens e fit start hp
    rw [same limit tokens start] at hp
    cases h.stop tokens e fit start hp with
    | depth short => exact .depth short
    | lexical broken => exact .lexical broken
    | @token before after found problem split viable fails =>
      refine .token split viable fun b after' le => ?_
      have head : (found :: after').head? = (found :: after).head? := rfl
      rw [same b _ (by rwa [ahead_append head, ← split])]
      exact fails b after' le
    | finish ended viable => exact .finish ended viable

/-- A function chooses by the token ahead, which is one of a source or the end of the input. -/
theorem choose {p : Parse α} (productive : Viable words [])
    (h : ∀ lexeme, starts lexeme → lexeme.Written ∨ lexeme = .finish →
      Predicts ending limit rank (· = lexeme) words ends p) :
    Predicts ending limit rank starts words ends p := by
  have real : ∀ {tokens : List Token}, Fit ending tokens →
      (ahead ending tokens).lexeme.Written ∨ (ahead ending tokens).lexeme = .finish := by
    intro tokens fit
    obtain ⟨token, rest, rfl, written⟩ | ⟨rfl, position, rfl⟩ := fit.ahead
    · exact .inl written
    · exact .inr rfl
  exact ⟨productive, fun tokens a rest fit start => (h _ start (real fit)).ok tokens a rest fit rfl,
    fun tokens e fit start => (h _ start (real fit)).stop tokens e fit rfl⟩

/-- A function that predicts less is one that predicts more. -/
theorem weaken {p : Parse α} {r : Nat} {first : Lexeme → Prop} {u : List Lexeme → Prop}
    (h : Predicts ending limit r first u ends p) (le : r ≤ rank)
    (fits : ∀ lexeme, starts lexeme → first lexeme) (sub : ∀ word, u word → words word) :
    Predicts ending limit rank starts words ends p where
  productive := h.productive.mono sub
  ok := by
    intro tokens a rest fit start hp
    obtain ⟨taken, split, word, others⟩ := h.ok tokens a rest fit (fits _ start) hp
    exact ⟨taken, split, sub _ word, others⟩
  stop := by
    intro tokens e fit start hp
    cases h.stop tokens e fit (fits _ start) hp with
    | depth short => exact .depth (by omega)
    | lexical broken => exact .lexical broken
    | token split viable fails => exact .token split (viable.mono sub) fails
    | finish ended viable => exact .finish ended (viable.mono sub)

/-- A function that may be used anywhere, as the last one. -/
theorem last {p : Parse α} {r : Nat} {u : List Lexeme → Prop}
    (h : Predicts ending limit r Any u ends p) (le : r ≤ rank) (sub : ∀ word, u word → words word) :
    Predicts ending limit rank starts words ends p := h.weaken le (fun _ _ => trivial) sub

/-- A function that may be used anywhere, with others behind it. -/
theorem call {p : Parse α} {r : Nat} (h : Predicts ending limit r Any words ends p)
    (le : r ≤ rank) : Predicts ending limit rank starts words ends p := h.last le fun _ word => word

/-- A function asks whether a token of one kind is ahead. -/
theorem ite {p q : Parse α} {kind : Kind}
    (yes : Predicts ending limit rank (fun shown => starts shown ∧ shown.kind = kind) words ends p)
    (no : Predicts ending limit rank (fun shown => starts shown ∧ shown.kind ≠ kind) words ends q) :
    Predicts ending limit rank starts words ends
      (fun b tokens => if aheadKind ending tokens = kind then p b tokens else q b tokens) := by
  refine .choose yes.productive fun lexeme start _ => ?_
  by_cases same : lexeme.kind = kind
  · refine .congr (fun b tokens h => if_pos ?_) (yes.weaken (Nat.le_refl _) ?_ fun _ word => word)
    · exact (congrArg Lexeme.kind h).trans same
    · rintro _ rfl
      exact ⟨start, same⟩
  · refine .congr (fun b tokens h => if_neg ?_) (no.weaken (Nat.le_refl _) ?_ fun _ word => word)
    · exact fun found => same ((congrArg Lexeme.kind h).symm.trans found)
    · rintro _ rfl
      exact ⟨start, same⟩

/-- The one lexeme of a kind. -/
def OfKind (kind : Kind) (word : List Lexeme) : Prop :=
  ∃ lexeme : Lexeme, lexeme.kind = kind ∧ word = [lexeme]

/-- A function takes a token of one kind. -/
theorem consumeKind {kind : Kind} {context : String} (real : kind ≠ .finish)
    (sample : ∃ lexeme : Lexeme, lexeme.kind = kind ∧ lexeme.Written) :
    Predicts ending limit rank starts (OfKind kind) Any
      (fun _ tokens => consume ending kind context tokens) := by
  have productive : Viable (OfKind kind) [] := by
    obtain ⟨lexeme, same, written⟩ := sample
    exact ⟨[lexeme], ⟨lexeme, same, rfl⟩, by simpa using written⟩
  refine .choose productive fun lexeme _ written => ?_
  by_cases same : lexeme.kind = kind
  · have isWritten : lexeme.Written := written.resolve_right (by
      rintro rfl
      exact real same.symm)
    refine .take (fun _ h => h) isWritten fun token shown => ?_
    refine .congr (q := fun _ rest => .ok (token, rest)) (fun b rest _ => if_pos ?_) ?_
    · rw [shown, same]
    · exact .pure ⟨lexeme, same, rfl⟩ fun _ h => h
  · refine .takeReject (.expected kind context) productive fun token shown b rest => ?_
    exact if_neg (by rw [shown]; exact same)

/-- A function takes a name. -/
theorem consumeName {context : String} :
    Predicts ending limit rank starts (fun word => ∃ name, word = [.word name]) Any
      (fun _ tokens => consumeWord ending context tokens) := by
  refine .bind (.consumeKind (by simp) ⟨.word "a", rfl, by decide⟩) ?_
  rintro token _ ⟨lexeme, same, rfl⟩
  cases lexeme with
  | word name => exact .pure ⟨name, rfl⟩ fun _ h => h
  | _ => simp [Lexeme.kind] at same

/-- Without a budget a function fails. -/
theorem zero {p : Parse α} (none_ : ∀ tokens, p 0 tokens = .error .depth)
    (productive : Viable words []) (positive : 0 < rank) :
    Predicts ending 0 rank starts words ends p where
  productive := productive
  ok := by simp [none_]
  stop := by
    intro tokens e _ _ h
    rw [none_] at h
    obtain rfl := Except.error.inj h
    exact .depth (by omega)

/-- A function lowers its budget by one. -/
theorem succ {p q : Parse α} (same : ∀ b tokens, p (b + 1) tokens = q b tokens)
    (h : Predicts ending limit rank starts words ends q) :
    Predicts ending (limit + 1) (rank + 1) starts words ends p where
  productive := h.productive
  ok := by
    intro tokens a rest fit start hp
    rw [same] at hp
    obtain ⟨taken, split, word, alive, finish, again⟩ := h.ok tokens a rest fit start hp
    refine ⟨taken, split, word, alive, finish, fun b rest' le head => ?_⟩
    obtain ⟨b, rfl⟩ : ∃ n, b = n + 1 := ⟨b - 1, by omega⟩
    rw [same]
    exact again b rest' (by omega) head
  stop := by
    intro tokens e fit start hp
    rw [same] at hp
    cases h.stop tokens e fit start hp with
    | depth short => exact .depth (by omega)
    | lexical broken => exact .lexical broken
    | token split viable fails =>
      refine .token split viable fun b after' le => ?_
      obtain ⟨b, rfl⟩ : ∃ n, b = n + 1 := ⟨b - 1, by omega⟩
      rw [same]
      exact fails b after' (by omega)
    | finish ended viable => exact .finish ended viable

end Predicts

end ScopeScript.Parser
