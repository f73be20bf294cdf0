import ScopeScript.Proofs.Source.Spelling
set_option autoImplicit false

/-!
# Source: what is read, and where

`Reads` says once what reading at a cursor can come to: blanks and then the end of the text, a
lexeme, or something that no lexeme can be formed of.  All positions in it are those behind a front
part of the source, counted from the start: `Position.behind` counts line breaks and the characters
of the last line, and does not depend on how the source was read.

From that follow what a reader that takes one token at a time can see, and how a whole source is
split.  `Tiled` says that a text is made of blanks and of the lexemes of tokens in turn.
-/

namespace ScopeScript

/-! ## Positions -/

namespace Position

/-- The index behind the last line break of a text. -/
def lineStart (text : List Char) : Nat := text.length - text.reverse.idxOf '\n'

/-- The place behind the front part of a source. -/
def behind (front : List Char) : Position :=
  ⟨front.length, 1 + front.count '\n', front.length - lineStart front + 1⟩

theorem lineStart_le (text : List Char) : lineStart text ≤ text.length := Nat.sub_le _ _

theorem lineStart_break (text : List Char) : lineStart (text ++ ['\n']) = text.length + 1 := by
  simp [lineStart]

theorem lineStart_other {c : Char} (h : c ≠ '\n') (text : List Char) :
    lineStart (text ++ [c]) = lineStart text := by
  have other : (c == '\n') = false := by simpa using h
  simp [lineStart, List.idxOf_cons, other]

theorem next_behind (front : List Char) (c : Char) :
    (behind front).next c = behind (front ++ [c]) := by
  by_cases h : c = '\n'
  · subst h
    simp [next, behind, lineStart_break]
    omega
  · have le := lineStart_le front
    simp [next, behind, h, lineStart_other h, List.count_append]
    omega

theorem after_behind (front more : List Char) :
    (behind front).after more = behind (front ++ more) := by
  induction more generalizing front with
  | nil => simp
  | cons c more ih => rw [after_cons, next_behind, ih, List.append_assoc, List.singleton_append]

end Position

/-! ## Reading at a cursor -/

/-- No lexeme can be formed at the start of the text: none starts with its character, or a string
starts there that is never closed, since all quotes behind the first one are doubled. -/
inductive Unformable : List Char → LexicalProblem → Prop
  | unexpected {c : Char} {rest : List Char} (notBlank : Text.isBlank c = false)
      (none : ∀ (lexeme : Lexeme) (more : List Char), ¬ lexeme.Spells (c :: more)) :
      Unformable (c :: rest) (.unexpected c)
  | unterminated {content : List Char} :
      Unformable ('"' :: Text.doubleQuotes content)
        (.unterminated (String.ofList ('"' :: Text.doubleQuotes content)))

theorem Lexer.unformable_of_scan {text : List Char} {problem : LexicalProblem}
    (notBlank : ∀ c ∈ text.head?, Text.isBlank c = false) (h : scan text = .problem problem) :
    Unformable text problem := by
  revert h
  fun_cases scan text with
  | case10 rest hspan =>
    intro h
    obtain rfl := Scan.problem.inj h
    obtain ⟨content, rfl⟩ := spanString_eq_none hspan
    exact .unterminated
  | case11 c rest notLess unmarked notDot notLetter notDigit notQuote =>
    intro h
    obtain rfl := Scan.problem.inj h
    refine .unexpected (notBlank c rfl) fun lexeme more spells => ?_
    have follows := follows_of_spells spells
    simp [Follows, notLess, unmarked, notDot, notLetter, notDigit, notQuote] at follows
  | _ => simp

theorem Lexer.eq_nil_of_scan {text : List Char} (h : scan text = .finished) : text = [] := by
  revert h
  fun_cases scan text with
  | case1 => simp
  | _ => simp

/-- What reading the text behind the front part of a source can come to. -/
inductive Reads (front text : List Char) : Cursor × Except LexicalError Token → Prop
  | finish (blanks : Text.Blanks text) :
      Reads front text
        (⟨.behind (front ++ text), []⟩, .ok ⟨.finish, .behind (front ++ text)⟩)
  | lexeme {gap taken rest : List Char} {lexeme : Lexeme} (split : text = gap ++ (taken ++ rest))
      (blanks : Text.Blanks gap) (spells : lexeme.Spells taken) (stops : lexeme.Stops rest) :
      Reads front text
        (⟨.behind (front ++ gap ++ taken), rest⟩, .ok ⟨lexeme, .behind (front ++ gap)⟩)
  | problem {gap rest : List Char} {problem : LexicalProblem} (split : text = gap ++ rest)
      (blanks : Text.Blanks gap) (unformable : Unformable rest problem) :
      Reads front text
        (Cursor.afterProblem ⟨.behind (front ++ gap), rest⟩ problem,
          .error ⟨problem, .behind (front ++ gap)⟩)

theorem Cursor.reads (front text : List Char) :
    Reads front text (Cursor.read ⟨.behind front, text⟩) := by
  have split : text = text.takeWhile Text.isBlank ++ text.dropWhile Text.isBlank :=
    List.takeWhile_append_dropWhile.symm
  have blanks : Text.Blanks (text.takeWhile Text.isBlank) :=
    List.all_eq_true.mp List.all_takeWhile
  simp only [Cursor.read, Cursor.skipBlanks, Position.after_behind]
  split
  · rename_i hscan
    rw [Lexer.eq_nil_of_scan hscan, List.append_nil] at split
    rw [← split] at blanks ⊢
    rw [Lexer.eq_nil_of_scan hscan]
    exact .finish blanks
  · rename_i lexeme taken rest hscan
    obtain ⟨hrest, spells, stops⟩ := Lexer.scan_eq_lexeme_iff.mp hscan
    rw [hrest] at split
    exact .lexeme split blanks spells stops
  · rename_i problem hscan
    exact .problem split blanks (Lexer.unformable_of_scan Lexer.notDropped hscan)

/-- Wherever reading leaves the cursor, it stands behind a front part of the source. -/
theorem Reads.cursor {front text : List Char} {result : Cursor × Except LexicalError Token}
    (h : Reads front text result) :
    ∃ taken, text = taken ++ result.1.rest ∧ result.1.position = .behind (front ++ taken) := by
  cases h with
  | finish blanks => exact ⟨text, by simp, rfl⟩
  | lexeme split blanks spells stops =>
    rename_i gap taken rest lexeme
    exact ⟨gap ++ taken, by simp [split], by simp⟩
  | problem split blanks unformable =>
    rename_i gap rest problem
    cases unformable with
    | unexpected => exact ⟨gap, split, rfl⟩
    | unterminated =>
      refine ⟨text, by simp [Cursor.afterProblem], ?_⟩
      rw [Cursor.afterProblem, Position.after_behind, split, List.append_assoc]

/-! ## One token ahead -/

namespace Lookahead

/-- A reader gets from one state to another by taking tokens, whether that fails or not. -/
inductive Reaches (view : Lookahead) : Lookahead → Prop
  | refl : Reaches view view
  | advance {later : Lookahead} (h : Reaches view later) : Reaches view later.advance.1

/-- The states of a reader of a source. -/
def Reached (source : String) (view : Lookahead) : Prop :=
  ∃ first, start source = .ok first ∧ first.Reaches view

/-- The reader stands behind a front part of the source. -/
def Placed (source : List Char) (view : Lookahead) : Prop :=
  ∃ front, source = front ++ view.cursor.rest ∧ view.cursor.position = .behind front

theorem cursor_advance (view : Lookahead) : view.advance.1.cursor = view.cursor.read.1 := by
  unfold advance
  split <;> simp_all

theorem Placed.advance {source : List Char} {view : Lookahead} (h : view.Placed source) :
    view.advance.1.Placed source := by
  obtain ⟨front, rfl, place⟩ := h
  have reads := Cursor.reads front view.cursor.rest
  rw [← place] at reads
  obtain ⟨taken, split, place'⟩ := reads.cursor
  rw [Placed, cursor_advance]
  exact ⟨front ++ taken, by rw [List.append_assoc, ← split], place'⟩

theorem placed_start {source : String} {view : Lookahead} (h : start source = .ok view) :
    view.Placed source.toList := by
  have reads : Reads [] source.toList (Cursor.start source).read := Cursor.reads [] source.toList
  obtain ⟨taken, split, place⟩ := reads.cursor
  unfold start at h
  split at h
  · rename_i cursor token hread
    obtain rfl := Except.ok.inj h
    rw [hread] at split place
    exact ⟨taken, split, place⟩
  · simp at h

theorem Reached.placed {source : String} {view : Lookahead} (h : Reached source view) :
    view.Placed source.toList := by
  obtain ⟨first, started, reaches⟩ := h
  induction reaches with
  | refl => exact placed_start started
  | advance _ ih => exact ih.advance

/-- Once the end of the source is seen ahead, there is nothing left behind it. -/
theorem Reached.finish {source : String} {view : Lookahead} (h : Reached source view)
    (ahead : view.following.lexeme = .finish) :
    view.following = ⟨.finish, view.cursor.position⟩ ∧ view.cursor.rest = [] := by
  have ofReads : ∀ {front text : List Char} {cursor : Cursor} {token : Token},
      Reads front text (cursor, .ok token) → token.lexeme = .finish →
      token = ⟨.finish, cursor.position⟩ ∧ cursor.rest = [] := by
    intro front text cursor token reads finish
    cases reads with
    | finish => exact ⟨rfl, rfl⟩
    | lexeme split blanks spells stops =>
      obtain rfl := finish
      exact spells.1.elim
  obtain ⟨first, started, reaches⟩ := h
  induction reaches with
  | refl =>
    have reads : Reads [] source.toList (Cursor.start source).read := Cursor.reads [] source.toList
    unfold start at started
    split at started
    · rename_i cursor token hread
      obtain rfl := Except.ok.inj started
      rw [hread] at reads
      exact ofReads reads ahead
    · simp at started
  | advance reaches ih =>
    rename_i later
    obtain ⟨front, split, place⟩ := Reached.placed ⟨first, started, reaches⟩
    have reads := Cursor.reads front later.cursor.rest
    rw [← place] at reads
    unfold Lookahead.advance at ahead ⊢
    split at ahead
    · rename_i cursor token hread
      simp only [hread] at reads ⊢
      exact ofReads reads ahead
    · -- the end was already seen ahead, and reading at the end does not fail
      rename_i cursor error hread
      obtain ⟨-, empty⟩ := ih ahead
      simp [Cursor.read, Cursor.skipBlanks, empty, Lexer.scan] at hread

/-- At the end of the source, taking tokens does not fail and leaves the end ahead. -/
theorem Reaches.finish {view later : Lookahead} (h : view.Reaches later)
    (ahead : view.following = ⟨.finish, view.cursor.position⟩) (empty : view.cursor.rest = []) :
    later.following = view.following ∧ later.cursor = view.cursor ∧
      later.advance = (⟨some view.following, view.following, view.cursor⟩, none) := by
  have stays : ∀ {later : Lookahead}, later.following = view.following →
      later.cursor = view.cursor →
      later.advance = (⟨some view.following, view.following, view.cursor⟩, none) := by
    intro later following cursor
    have same : (⟨view.cursor.position, []⟩ : Cursor) = view.cursor := by rw [← empty]
    simp [Lookahead.advance, following, cursor, Cursor.read, Cursor.skipBlanks, empty, Lexer.scan,
      same, ← ahead]
  induction h with
  | refl => exact ⟨rfl, rfl, stays rfl rfl⟩
  | advance _ ih =>
    obtain ⟨-, -, step⟩ := ih
    rw [step]
    exact ⟨rfl, rfl, stays rfl rfl⟩

/-- The tokens that a reader delivers in turn, and the problem that stops it, if one does.  When
reading ahead fails, the token in front of the problem has been delivered: it has become the current
one, though it was not returned (`Delivers.returned`). -/
inductive Delivers : Lookahead → List Token → Option LexicalError → Prop
  | finish {view : Lookahead} (ahead : view.following.lexeme = .finish) : Delivers view [] none
  | next {view later : Lookahead} {tokens : List Token} {problem : Option LexicalError}
      (ahead : view.following.lexeme ≠ .finish) (step : view.advance = (later, none))
      (more : Delivers later tokens problem) : Delivers view (view.following :: tokens) problem
  | fail {view later : Lookahead} {error : LexicalError} (ahead : view.following.lexeme ≠ .finish)
      (step : view.advance = (later, some error)) : Delivers view [view.following] (some error)

/-- Taking tokens, without a failure, returns the tokens in turn and leads to another reader. -/
inductive Returns : Lookahead → List Token → Lookahead → Prop
  | none {view : Lookahead} : Returns view [] view
  | next {view later last : Lookahead} {tokens : List Token} (step : view.advance = (later, none))
      (more : Returns later tokens last) : Returns view (view.following :: tokens) last

/-- Of what is delivered up to the end, everything was returned.  Of what is delivered up to a
problem, everything was returned but the last token: taking that one failed, and left it as the
current one. -/
theorem Delivers.returned {view : Lookahead} {tokens : List Token} {problem : Option LexicalError}
    (h : view.Delivers tokens problem) :
    match problem with
    | .none => ∃ last, view.Returns tokens last ∧ last.following.lexeme = .finish
    | some error => ∃ returned last later, tokens = returned ++ [last.following] ∧
        view.Returns returned last ∧ last.advance = (later, some error) ∧
        later.current = some last.following := by
  induction h with
  | finish ahead => exact ⟨_, .none, ahead⟩
  | @next view later tokens problem ahead step more ih =>
    cases problem with
    | none =>
      obtain ⟨last, returns, finish⟩ := ih
      exact ⟨last, .next step returns, finish⟩
    | some error =>
      obtain ⟨returned, last, later, rfl, returns, fails, current⟩ := ih
      exact ⟨_ :: returned, last, later, rfl, .next step returns, fails, current⟩
  | @fail view later error ahead step =>
    refine ⟨[], view, later, rfl, .none, step, ?_⟩
    unfold advance at step
    split at step
    · cases step
    · cases step
      rfl

end Lookahead

/-- What reading a source token by token delivers. -/
inductive Delivered (source : String) : List Token → Option LexicalError → Prop
  | read {view : Lookahead} {tokens : List Token} {problem : Option LexicalError}
      (started : Lookahead.start source = .ok view) (delivers : view.Delivers tokens problem) :
      Delivered source tokens problem
  | none {error : LexicalError} (failed : Lookahead.start source = .error error) :
      Delivered source [] (some error)

/-! ## The parts of a source -/

/-- What is behind a lexeme does not go on with it. -/
def Stopped (lexeme : Lexeme) (_taken rest : List Char) : Prop := lexeme.Stops rest

/-- No lexeme at the start of the text is longer than what was taken. -/
def Longest (_lexeme : Lexeme) (taken rest : List Char) : Prop :=
  ∀ (other : Lexeme) (longer : List Char), other.Spells longer → longer <+: taken ++ rest →
    longer.length ≤ taken.length

/-- The text behind the front part of a source is blanks and the lexemes of the tokens in turn, with
nothing left out and nothing used twice.  Each token says where its lexeme starts; where the lexeme
ends is for `Bound` to say. -/
inductive Tiled (Bound : Lexeme → List Char → List Char → Prop) :
    List Char → List Char → List Token → Prop
  | finish {front gap : List Char} (blanks : Text.Blanks gap) : Tiled Bound front gap []
  | token {front gap taken rest : List Char} {lexeme : Lexeme} {tokens : List Token}
      (blanks : Text.Blanks gap) (spells : lexeme.Spells taken) (some_ : taken ≠ [])
      (bound : Bound lexeme taken rest) (more : Tiled Bound (front ++ gap ++ taken) rest tokens) :
      Tiled Bound front (gap ++ (taken ++ rest)) (⟨lexeme, .behind (front ++ gap)⟩ :: tokens)

theorem Tiled.longest {front text : List Char} {tokens : List Token}
    (h : Tiled Stopped front text tokens) : Tiled Longest front text tokens := by
  induction h with
  | finish blanks => exact .finish blanks
  | token blanks spells some_ bound _ ih =>
    exact .token blanks spells some_
      (fun _ _ spells' front => Lexer.length_le_of_stops spells bound spells' front) ih

/-- The tokens start inside the text. -/
theorem Tiled.offset_lt {Bound : Lexeme → List Char → List Char → Prop} {front text : List Char}
    {tokens : List Token} (h : Tiled Bound front text tokens) :
    ∀ token ∈ tokens, token.position.offset < front.length + text.length := by
  induction h with
  | finish => simp
  | token _ _ some_ _ _ ih =>
    have := List.length_pos_iff.mpr some_
    intro token htoken
    rcases List.mem_cons.mp htoken with rfl | htoken
    · simp [Position.behind]
      omega
    · have := ih token htoken
      simp at this ⊢
      omega

/-- How a text behind the front part of a source is split: to its end, or to what no lexeme can be
formed of. -/
inductive Split (front text : List Char) : Source → Prop
  | finished {tokens : List Token} (tiled : Tiled Stopped front text tokens) :
      Split front text ⟨tokens, .finished (.behind (front ++ text))⟩
  | broken {cut rest : List Char} {tokens : List Token} {problem : LexicalProblem}
      (split : text = cut ++ rest) (tiled : Tiled Stopped front cut tokens)
      (unformable : Unformable rest problem) :
      Split front text ⟨tokens, .broken ⟨problem, .behind (front ++ cut)⟩⟩

theorem Source.readFrom_split {fuel : Nat} {front text : List Char} (enough : text.length < fuel) :
    Split front text (readFrom fuel ⟨.behind front, text⟩) := by
  induction fuel generalizing front text with
  | zero => omega
  | succ fuel ih =>
    have reads := Cursor.reads front text
    unfold readFrom
    cases hread : Cursor.read ⟨.behind front, text⟩ with
    | mk behind result =>
    rw [hread] at reads
    cases reads with
    | finish blanks => exact .finished (.finish blanks)
    | problem split blanks unformable => exact .broken split (.finish blanks) unformable
    | lexeme split blanks spells stops =>
      rename_i gap taken rest lexeme
      have real := spells.ne_finish
      have some_ := Lexer.spells_ne_nil spells
      have shorter : rest.length < fuel := by
        have := List.length_pos_iff.mpr some_
        simp [split] at enough
        omega
      simp only [real, if_false]
      have more : Split (front ++ gap ++ taken) rest
          (readFrom fuel ⟨.behind (front ++ gap ++ taken), rest⟩) := ih shorter
      subst split
      revert more
      cases readFrom fuel ⟨.behind (front ++ gap ++ taken), rest⟩ with
      | mk tokens ending =>
      intro more
      cases more with
      | finished tiled =>
        have place : front ++ gap ++ taken ++ rest = front ++ (gap ++ (taken ++ rest)) := by simp
        rw [place]
        exact .finished (.token blanks spells some_ stops tiled)
      | broken split tiled unformable =>
        rename_i cut behind problem
        have place : front ++ gap ++ taken ++ cut = front ++ (gap ++ (taken ++ cut)) := by simp
        rw [place]
        refine .broken (by simp [split]) (.token blanks spells some_ ?_ tiled) unformable
        exact stops.of_prefix ⟨behind, split.symm⟩

/-- The parts of a text are the ones it is split into. -/
theorem Source.readFrom_of_tiled {front text : List Char} {tokens : List Token}
    (h : Tiled Stopped front text tokens) {fuel : Nat} (enough : text.length < fuel) :
    readFrom fuel ⟨.behind front, text⟩ = ⟨tokens, .finished (.behind (front ++ text))⟩ := by
  induction h generalizing fuel with
  | finish blanks =>
    rename_i front gap
    obtain ⟨fuel, rfl⟩ : ∃ n, fuel = n + 1 := ⟨fuel - 1, by omega⟩
    obtain ⟨htake, hdrop⟩ := @Lexer.span_append Text.isBlank gap [] blanks (by simp)
    rw [List.append_nil] at htake hdrop
    simp [readFrom, Cursor.read, Cursor.skipBlanks, htake, hdrop, Lexer.scan,
      Position.after_behind]
  | token blanks spells some_ stops _ ih =>
    rename_i front gap taken rest lexeme tokens _
    obtain ⟨fuel, rfl⟩ : ∃ n, fuel = n + 1 := ⟨fuel - 1, by omega⟩
    have real := spells.ne_finish
    have notBlank : ∀ c ∈ (taken ++ rest).head?, Text.isBlank c = false := by
      obtain ⟨c, run, rfl, notBlank⟩ := Lexer.spells_head spells
      intro d hd
      obtain rfl : c = d := by simpa using hd
      exact notBlank
    obtain ⟨htake, hdrop⟩ := Lexer.span_append blanks notBlank
    have hread : Cursor.read ⟨.behind front, gap ++ (taken ++ rest)⟩ =
        (⟨.behind (front ++ gap ++ taken), rest⟩, .ok ⟨lexeme, .behind (front ++ gap)⟩) := by
      simp only [Cursor.read, Cursor.skipBlanks, htake, hdrop, Position.after_behind,
        Lexer.scan_eq_lexeme_iff.mpr ⟨rfl, spells, stops⟩]
    have shorter : rest.length < fuel := by
      have := List.length_pos_iff.mpr some_
      simp at enough
      omega
    have place : front ++ gap ++ taken ++ rest = front ++ (gap ++ (taken ++ rest)) := by simp
    simp only [readFrom, hread, real, if_false, ih shorter, place]

theorem tokenize_of_tiled {text : List Char} {tokens : List Token}
    (h : Tiled Stopped [] text tokens) : tokenize (String.ofList text) = .ok tokens := by
  have whole : Source.ofString (String.ofList text) = ⟨tokens, .finished (.behind text)⟩ := by
    rw [Source.ofString, Cursor.start, String.toList_ofList]
    exact Source.readFrom_of_tiled h (Nat.lt_succ_self _)
  simp [tokenize, whole]

/-- The problem at which the tokens of a text end. -/
def Ending.problem? : Ending → Option LexicalError
  | .finished _ => none
  | .broken error => some error

/-- A reader delivers the tokens of the text, one by one. -/
theorem Lookahead.delivers_readFrom {fuel : Nat} {front text : List Char} {cursor : Cursor}
    {token : Token} (enough : text.length < fuel)
    (hread : Cursor.read ⟨.behind front, text⟩ = (cursor, .ok token)) (current : Option Token) :
    Delivers ⟨current, token, cursor⟩ (Source.readFrom fuel ⟨.behind front, text⟩).tokens
      (Source.readFrom fuel ⟨.behind front, text⟩).ending.problem? := by
  induction fuel generalizing front text cursor token current with
  | zero => omega
  | succ fuel ih =>
    have reads := Cursor.reads front text
    rw [hread] at reads
    simp only [Source.readFrom, hread]
    cases reads with
    | finish blanks => exact .finish rfl
    | lexeme split blanks spells stops =>
      rename_i gap taken rest lexeme
      have real := spells.ne_finish
      have some_ := Lexer.spells_ne_nil spells
      have shorter : rest.length < fuel := by
        have := List.length_pos_iff.mpr some_
        simp [split] at enough
        omega
      simp only [real, if_false]
      cases hnext : Cursor.read ⟨.behind (front ++ gap ++ taken), rest⟩ with
      | mk cursor result =>
      cases result with
      | ok token =>
        refine .next real ?_ (ih shorter hnext (some ⟨lexeme, .behind (front ++ gap)⟩))
        simp only [advance, hnext]
      | error error =>
        obtain ⟨fuel, rfl⟩ : ∃ n, fuel = n + 1 := ⟨fuel - 1, by omega⟩
        simp only [Source.readFrom, hnext]
        refine .fail real (Prod.ext rfl ?_)
        simp only [advance, hnext]

theorem delivered_ofString (source : String) :
    Delivered source (Source.ofString source).tokens (Source.ofString source).ending.problem? := by
  cases hread : (Cursor.start source).read with
  | mk cursor result =>
  cases result with
  | ok token =>
    exact .read (by simp [Lookahead.start, hread])
      (@Lookahead.delivers_readFrom _ [] _ _ _ (Nat.lt_succ_self _) hread none)
  | error error =>
    simp only [Source.ofString, Source.readFrom, hread]
    exact .none (by simp [Lookahead.start, hread])

theorem split_ofString (source : String) : Split [] source.toList (Source.ofString source) :=
  @Source.readFrom_split _ [] _ (Nat.lt_succ_self _)

/-- The whole of what splitting does to a source.  A reader always stands where its line and column
say; the tokens are the parts of the source, each the longest lexeme there; a problem stands where
no lexeme can be formed, and the source up to there has the tokens delivered before it; and the end
of the source, once seen, stays ahead. -/
theorem source_is_partitioned (source : String) :
    (∀ view, Lookahead.Reached source view →
      view.cursor.rest = source.toList.drop view.cursor.position.offset ∧
      view.cursor.position.offset ≤ source.toList.length ∧
      view.cursor.position = .behind (source.toList.take view.cursor.position.offset)) ∧
    (∀ tokens, tokenize source = .ok tokens →
      Delivered source tokens none ∧ Tiled Longest [] source.toList tokens) ∧
    (∀ error, tokenize source = .error error → ∃ tokens cut rest,
      Delivered source tokens (some error) ∧ source.toList = cut ++ rest ∧
      Unformable rest error.problem ∧ error.position = .behind cut ∧
      tokenize (String.ofList cut) = .ok tokens) ∧
    (∀ view later, Lookahead.Reached source view → view.following.lexeme = .finish →
      view.Reaches later → later.following = view.following ∧ later.cursor = view.cursor ∧
        later.advance = (⟨some view.following, view.following, view.cursor⟩, none)) := by
  have delivered := delivered_ofString source
  have split := split_ofString source
  refine ⟨?_, ?_, ?_, ?_⟩
  · intro view reached
    obtain ⟨front, whole, place⟩ := reached.placed
    have offset : view.cursor.position.offset = front.length := by rw [place]; rfl
    rw [offset, whole, List.take_left, List.drop_left]
    exact ⟨rfl, by simp, place⟩
  · intro tokens ok
    unfold tokenize at ok
    cases hsource : Source.ofString source with
    | mk tokens' ending =>
    rw [hsource] at ok delivered split
    cases split with
    | finished tiled =>
      obtain rfl := Except.ok.inj ok
      exact ⟨delivered, tiled.longest⟩
    | broken => simp at ok
  · intro error failed
    unfold tokenize at failed
    cases hsource : Source.ofString source with
    | mk tokens' ending =>
    rw [hsource] at failed delivered split
    cases split with
    | finished tiled => simp at failed
    | broken split tiled unformable =>
      obtain rfl := Except.error.inj failed
      rename_i cut rest problem
      exact ⟨tokens', cut, rest, delivered, split, unformable, rfl, tokenize_of_tiled tiled⟩
  · intro view later reached ahead reaches
    obtain ⟨same, empty⟩ := reached.finish ahead
    exact reaches.finish same empty

/-- A line break inside a string counts for what stands behind it: the parts of a source, and the
problem that ends it when a character is added that starts no lexeme. -/
theorem source_is_partitioned_line_break :
    Tiled Longest [] "a \"\n\"<".toList
      [⟨.word "a", ⟨0, 1, 1⟩⟩, ⟨.text "\n", ⟨2, 1, 3⟩⟩, ⟨.mark .less, ⟨5, 2, 2⟩⟩] ∧
    ∃ tokens cut rest, Delivered "a \"\n\"<#" tokens (some ⟨.unexpected '#', ⟨6, 2, 3⟩⟩) ∧
      "a \"\n\"<#".toList = cut ++ rest ∧ Unformable rest (.unexpected '#') ∧
      ⟨6, 2, 3⟩ = Position.behind cut ∧ tokenize (String.ofList cut) = .ok tokens :=
  ⟨((source_is_partitioned "a \"\n\"<").2.1 _ rfl).2,
    (source_is_partitioned "a \"\n\"<#").2.2.1 ⟨.unexpected '#', ⟨6, 2, 3⟩⟩ rfl⟩

end ScopeScript
