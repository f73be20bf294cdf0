import ScopeScript.Interpreter
import ScopeScript.Proofs.Eval.Outcome
import ScopeScript.Proofs.Grammar.EarliestError
set_option autoImplicit false

/-!
# Eval: scripts one behind the other

Statements need no separator, and two scripts with a blank between them are one script, that of all
their statements.  The blank keeps the lexemes apart, and a statement that is complete ends in front
of anything that another one starts with.  There is one exception: a `return` at the end of the
first script takes a call at the start of the second one for its value.

The statements of the second script are executed where the first one leaves off.  If it fails or
returns, none of them is; a `return` at its end that was never reached may therefore take the call
all the same.
-/

namespace ScopeScript

/-! ## Lexemes -/

theorem Tiled.lexes {front text : List Char} {tokens : List Token}
    (h : Tiled Stopped front text tokens) : Lexer.Lexes text (tokens.map Token.lexeme) := by
  induction h with
  | finish blanks => simpa using Lexer.lexes_blanks blanks .nil
  | token blanks spells _ stops _ ih =>
    exact Lexer.lexes_blanks blanks (Lexer.lexes_spells spells stops ih)

/-- Blanks between two sources keep their lexemes apart, and add none. -/
theorem tokenize_append {front gap behind : String} {tokens others : List Token}
    (h : tokenize front = .ok tokens) (h' : tokenize behind = .ok others)
    (blanks : Text.Blanks gap.toList) (some_ : gap ≠ "") :
    ∃ joined, tokenize (front ++ gap ++ behind) = .ok joined ∧
      joined.map Token.lexeme = tokens.map Token.lexeme ++ others.map Token.lexeme := by
  have lexes := Lexer.lexes_blanks blanks (tiled_of_tokenize h').lexes
  obtain ⟨moved, tiled, shows⟩ := tiled_of_lexes lexes front.toList
  obtain ⟨c, rest, hgap⟩ : ∃ c rest, gap.toList = c :: rest :=
    List.exists_cons_of_ne_nil (by simpa using some_)
  have blank : Text.isBlank c = true := blanks c (by simp [hgap])
  rw [hgap, List.cons_append] at tiled
  have whole := tokenize_of_tiled ((tiled_of_tokenize h).append blank tiled)
  refine ⟨tokens ++ moved, ?_, by simp [shows]⟩
  rwa [← List.cons_append, ← hgap, String.ofList_append, String.ofList_append, String.ofList_toList,
    String.ofList_toList, String.ofList_toList, ← String.append_assoc] at whole

/-! ## Derivations -/

namespace Grammar

namespace Statements

theorem greedy_append {d others : Statements} {next : Lexeme} :
    (d.append others).Greedy next ↔ d.Greedy (others.yield.headD next) ∧ others.Greedy next := by
  cases d with
  | nil => simp [append, Greedy]
  | cons first rest =>
    have behind : (rest.yield ++ others.yield).headD next =
        rest.yield.headD (others.yield.headD next) := by
      cases rest.yield <;> rfl
    simp only [append, Greedy, yield_append, behind, @greedy_append rest others, and_assoc]
termination_by structural d

/-- What is behind statements matters to none of them but a `return` at their end. -/
theorem Greedy.of_next {d : Statements} {next : Lexeme} (h : d.Greedy next) (other : Lexeme) :
    d.Greedy other ∨ CanStart other ∧ ∃ front, d = append front (.cons .bareReturn .nil) := by
  cases d with
  | nil => exact .inl trivial
  | cons first rest =>
    rcases h.2.of_next other with greedy | ⟨starts, front, rfl⟩
    · cases rest with
      | nil =>
        cases first with
        | bareReturn =>
          by_cases starts : CanStart other
          · exact .inr ⟨starts, .nil, rfl⟩
          · exact .inl ⟨starts, trivial⟩
        | _ => exact .inl ⟨h.1, trivial⟩
      | cons second more =>
        obtain ⟨lexeme, lexemes, hyield, -⟩ := second.starts
        have same : ∀ next, (Statements.cons second more).yield.headD next = lexeme := by
          simp [yield, hyield]
        refine .inl ⟨?_, greedy⟩
        rw [same]
        exact same next ▸ h.1
    · exact .inr ⟨starts, .cons first front, rfl⟩
termination_by structural d

/-- Greedy derivations one behind the other are greedy, or a `return` at the end of the first one
passes up a call at the start of the second one. -/
theorem greedy_append_or {d others : Statements} (greedy : d.Greedy .finish)
    (greedy' : others.Greedy .finish) :
    (d.append others).Greedy .finish ∨
      ∃ front inner rest, d = append front (.cons .bareReturn .nil) ∧
        others = .cons (.call inner) rest ∧
        (append front (.cons (.giveBack (.ofCall inner)) rest)).Greedy .finish := by
  rcases greedy.of_next (others.yield.headD .finish) with greedy | ⟨starts, front, rfl⟩
  · exact .inl (greedy_append.mpr ⟨greedy, greedy'⟩)
  · have closes : Closes .finish := trivial
    obtain ⟨inner, rest, rfl⟩ := eq_call_of_canStart closes starts
    exact .inr ⟨front, inner, rest, rfl, rfl,
      greedy_append.mpr ⟨(greedy_append.mp greedy).1, trivial, greedy'.2⟩⟩

end Statements

end Grammar

/-! ## Parses -/

open Grammar (Statement Statements)

/-- The first source ends in a `return`, and the second one starts with a name. -/
def ReturnsName (front behind : String) : Prop :=
  (Source.ofString front).tokens.getLast?.map (·.lexeme.kind) = some (.keyword .return_) ∧
    (Source.ofString behind).tokens.head?.map (·.lexeme.kind) = some .word

instance (front behind : String) : Decidable (ReturnsName front behind) :=
  inferInstanceAs (Decidable (_ ∧ _))

theorem returnsName_of_lexemes {front behind : String} {tokens others : List Token}
    {lexemes lexemes' : List Lexeme} {name : String} (h : tokenize front = .ok tokens)
    (h' : tokenize behind = .ok others)
    (ends : tokens.map Token.lexeme = lexemes ++ [.keyword .return_])
    (starts : others.map Token.lexeme = .word name :: lexemes') : ReturnsName front behind := by
  obtain ⟨position, hfront⟩ := tokenize_eq_ok_iff.mp h
  obtain ⟨position', hbehind⟩ := tokenize_eq_ok_iff.mp h'
  have last : tokens.getLast?.map Token.lexeme = some (.keyword .return_) := by
    rw [← List.getLast?_map, ends, List.getLast?_concat]
  have head : others.head?.map Token.lexeme = some (.word name) := by
    rw [← List.head?_map, starts, List.head?_cons]
  have kinds := congrArg (Option.map Lexeme.kind) last
  have kinds' := congrArg (Option.map Lexeme.kind) head
  rw [Option.map_map] at kinds kinds'
  rw [ReturnsName, hfront, hbehind]
  exact ⟨kinds, kinds'⟩

/-- The statements of two sources with blanks between them are those of the one and of the other,
unless a `return` at the end of the first source takes a call for its value. -/
theorem parseProgram_append {front gap behind : String} {first second : Node}
    (accepted : parseProgram front = .ok first) (accepted' : parseProgram behind = .ok second)
    (blanks : Text.Blanks gap.toList) (some_ : gap ≠ "") :
    ∃ xs ys, first = .block xs ∧ second = .block ys ∧
      (parseProgram (front ++ gap ++ behind) = .ok (.block (xs ++ ys)) ∨
        ReturnsName front behind ∧ ∃ zs others, xs = zs ++ [.giveBack .absent] ∧
          parseProgram (front ++ gap ++ behind) = .ok (.block (zs ++ others))) := by
  obtain ⟨tokens, htokens, d, hyield, greedy, rfl⟩ := parseProgram_eq_ok_iff.mp accepted
  obtain ⟨tokens', htokens', d', hyield', greedy', rfl⟩ := parseProgram_eq_ok_iff.mp accepted'
  obtain ⟨joined, hjoined, shows⟩ := tokenize_append htokens htokens' blanks some_
  rw [← hyield, ← hyield'] at shows
  refine ⟨d.trees, d'.trees, rfl, rfl, ?_⟩
  rcases Statements.greedy_append_or greedy greedy' with whole | ⟨pre, inner, rest, rfl, rfl, whole⟩
  · refine .inl (parseProgram_eq_ok_iff.mpr ⟨joined, hjoined, d.append d', ?_, whole, ?_⟩)
    · rw [shows, Statements.yield_append]
    · rw [Statements.script, Statements.trees_append]
  · -- the call is the value of the `return` in front of it
    obtain ⟨name, arguments⟩ := inner
    have returnsName : ReturnsName front behind := returnsName_of_lexemes htokens htokens'
      (hyield.symm.trans (Statements.yield_append _ _)) hyield'.symm
    have hyield : (pre.append (.cons (.giveBack (.ofCall ⟨name, arguments⟩)) rest)).yield =
        joined.map Token.lexeme := by
      simp [shows, Statements.yield, Statement.yield]
    have parsed := parseProgram_eq_ok_iff.mpr ⟨joined, hjoined, _, hyield, whole, rfl⟩
    rw [Statements.script, Statements.trees_append] at parsed
    exact .inr ⟨returnsName, pre.trees, _, Statements.trees_append _ _, parsed⟩

/-! ## Runs -/

namespace Eval

/-- The tree returns when it is executed from the state. -/
def ReturnsFrom (settings : Settings) (call : Caller) (scope : ScopeId) (tree : Node)
    (m : Machine) : Prop :=
  ∃ value left, execute settings call scope tree m = .ok (.returned value) left

/-- Statements behind others are executed where those leave off, if none of them fails or
returns. -/
theorem execute_append (settings : Settings) (call : Caller) (scope : ScopeId)
    (xs ys : List Node) (m : Machine) :
    execute settings call scope (.block (xs ++ ys)) m =
      match execute settings call scope (.block xs) m with
      | .ok .normal left => execute settings call scope (.block ys) left
      | outcome => outcome := by
  simp only [execute]
  induction xs generalizing m with
  | nil => rfl
  | cons statement rest ih =>
    rw [List.cons_append, executeAll, executeAll, bind_apply, bind_apply]
    cases execute settings call scope statement m with
    | error error left => rfl
    | ok completion left =>
      cases completion with
      | normal => exact ih left
      | returned value => rfl

variable {settings : Settings} {scope : ScopeId}

/-- Statements that do not return although a `return` stands behind them end in an error. -/
theorem error_of_not_returnsFrom {call : Caller} {zs : List Node} {m : Machine}
    (h : ¬ ReturnsFrom settings call scope (.block (zs ++ [.giveBack .absent])) m) :
    ∃ error left, execute settings call scope (.block zs) m = .error error left := by
  cases hzs : execute settings call scope (.block zs) m with
  | error error left => exact ⟨error, left, rfl⟩
  | ok completion left =>
    have whole := execute_append settings call scope zs [.giveBack .absent] m
    rw [hzs] at whole
    cases completion with
    | normal => exact absurd ⟨none, left, whole⟩ h
    | returned value => exact absurd ⟨value, left, whole⟩ h

theorem runSource_of_parsed {source : String} {tree : Node} (h : parseProgram source = .ok tree) :
    runSource settings scope source = run settings scope tree := by
  rw [runSource, h]
  rfl

theorem run_of_error {tree : Node} {m left : Machine} {error : Error}
    (h : execute settings settings.caller scope tree m = .error error left) :
    run settings scope tree m = .error error left := by
  rw [run, bind_of_error h]

/-- One script and then another is the script of all their statements, unless the first one
returns. -/
theorem run_append {xs : List Node} {m : Machine}
    (h : ¬ ReturnsFrom settings settings.caller scope (.block xs) m) (ys : List Node) :
    run settings scope (.block (xs ++ ys)) m =
      (do let _ ← run settings scope (.block xs)
          run settings scope (.block ys)) m := by
  have whole := execute_append settings settings.caller scope xs ys m
  cases hxs : execute settings settings.caller scope (.block xs) m with
  | error error left =>
    rw [hxs] at whole
    rw [run_of_error whole, bind_of_error (run_of_error hxs)]
  | ok completion left =>
    cases completion with
    | returned value => exact absurd ⟨value, left, hxs⟩ h
    | normal =>
      rw [hxs] at whole
      have first : run settings scope (.block xs) m = .ok none left := by
        rw [run, bind_of_ok hxs]
        rfl
      rw [bind_of_ok first, run, run, bind_apply, bind_apply, whole]

end Eval

/-- Scripts concatenate.

Two sources that are accepted, with blanks between them, are parsed as the statements of the one and
then of the other, unless the first one ends in a `return` and the second one starts with a name.

Statements behind others are executed where those leave off; if those fail or return, that is the
outcome.  So one script and then another is the two as one script, unless the first one returns. -/
theorem scripts_concatenate :
    (∀ (front gap behind : String) (first second : Node),
      parseProgram front = .ok first → parseProgram behind = .ok second →
      Text.Blanks gap.toList → gap ≠ "" →
      (¬ ReturnsName front behind →
        ∃ xs ys, first = .block xs ∧ second = .block ys ∧
          parseProgram (front ++ gap ++ behind) = .ok (.block (xs ++ ys))) ∧
      ∀ (settings : Settings) (scope : ScopeId) (m : Machine),
        ¬ Eval.ReturnsFrom settings settings.caller scope first m →
        Eval.runSource settings scope (front ++ gap ++ behind) m =
          (do let _ ← Eval.runSource settings scope front
              Eval.runSource settings scope behind) m) ∧
    ∀ (settings : Settings) (call : Caller) (scope : ScopeId) (xs ys : List Node) (m : Machine),
      Eval.execute settings call scope (.block (xs ++ ys)) m =
        match Eval.execute settings call scope (.block xs) m with
        | .ok .normal left => Eval.execute settings call scope (.block ys) left
        | outcome => outcome := by
  refine ⟨?_, Eval.execute_append⟩
  intro front gap behind first second accepted accepted' blanks some_
  obtain ⟨xs, ys, rfl, rfl, parsed⟩ := parseProgram_append accepted accepted' blanks some_
  refine ⟨?_, ?_⟩
  · intro apart
    rcases parsed with joined | ⟨returns, -⟩
    · exact ⟨xs, ys, rfl, rfl, joined⟩
    · exact absurd returns apart
  · intro settings scope m notReturned
    rw [Eval.runSource_of_parsed accepted, Eval.runSource_of_parsed accepted']
    rcases parsed with joined | ⟨-, zs, others, rfl, joined⟩
    · rw [Eval.runSource_of_parsed joined]
      exact Eval.run_append notReturned ys
    · -- the `return` that took the call is not reached
      obtain ⟨error, left, fails⟩ := Eval.error_of_not_returnsFrom notReturned
      have fails' : ∀ others, Eval.run settings scope (.block (zs ++ others)) m =
          .error error left := by
        intro others
        refine Eval.run_of_error ?_
        rw [Eval.execute_append, fails]
      rw [Eval.runSource_of_parsed joined, Eval.bind_of_error (fails' _), fails']

/-- Declarations, the last of which ends in a name. -/
def declareStep : List Node :=
  [.declaration false (.text "total") (.literal (.number (.finite ⟨false, 2, 0⟩))),
   .function (.text "add") (.ofWords ["n"]) (.block [
     .assignment (.identifier (.text "total") (.ofWords []))
       (.binary .add (.identifier (.text "total") (.ofWords []))
         (.identifier (.text "n") (.ofWords []))),
     .giveBack .absent]),
   .declaration true (.text "step") (.identifier (.text "total") (.ofWords []))]

/-- A call, and what it comes to. -/
def addStep : List Node :=
  [.callStatement (.call (.text "add") [.identifier (.text "step") (.ofWords [])]),
   .giveBack (.identifier (.text "total") (.ofWords []))]

theorem scripts_concatenate_declareStep :
    ∃ front behind,
      parseProgram front = .ok (.block declareStep) ∧ parseProgram behind = .ok (.block addStep) ∧
      ¬ ReturnsName front behind ∧
      parseProgram (front ++ "\n" ++ behind) = .ok (.block (declareStep ++ addStep)) ∧
      ¬ Eval.ReturnsFrom {} ({} : Settings).caller globalScope (.block declareStep) {} ∧
      Eval.runSource {} globalScope (front ++ "\n" ++ behind) {} =
        (do let _ ← Eval.runSource {} globalScope front
            Eval.runSource {} globalScope behind) {} := by
  obtain ⟨front, accepted, behind, accepted', apart⟩ : ∃ front,
      parseProgram front = .ok (.block declareStep) ∧ ∃ behind,
        parseProgram behind = .ok (.block addStep) ∧ ¬ ReturnsName front behind :=
    ⟨"var total = 2 func add(n) { set total = total + n return } const step = total", rfl,
      "add(step) return total", rfl, by decide +kernel⟩
  have normal : ∃ left, Eval.execute {} ({} : Settings).caller globalScope (.block declareStep) {} =
      .ok .normal left := ⟨_, rfl⟩
  have notReturned :
      ¬ Eval.ReturnsFrom {} ({} : Settings).caller globalScope (.block declareStep) {} := by
    obtain ⟨left, normal⟩ := normal
    rintro ⟨value, left', returned⟩
    rw [normal] at returned
    cases returned
  obtain ⟨parsed, runs⟩ :=
    scripts_concatenate.1 front "\n" behind _ _ accepted accepted' (by decide) (by decide)
  obtain ⟨xs, ys, hxs, hys, joined⟩ := parsed apart
  obtain rfl := Node.block.inj hxs
  obtain rfl := Node.block.inj hys
  exact ⟨front, behind, accepted, accepted', apart, joined, notReturned,
    runs {} globalScope {} notReturned⟩

/-- Behind a `return` the call is its value. -/
example : parseProgram "return add(2)" = .ok (.block [.giveBack (.call (.text "add")
    [.literal (.number (.finite ⟨false, 2, 0⟩))])]) := rfl

end ScopeScript
