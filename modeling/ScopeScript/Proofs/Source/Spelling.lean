import ScopeScript.Proofs.Source.Lexing
set_option autoImplicit false

/-!
# Source: how lexemes are written

A lexeme is written in one way, its spelling: a mark or a keyword as it always is, a name or a
numeral as itself, a string between quotes.  Whether a character that stands right behind a lexeme
goes on with it depends on the lexeme and the character alone.

`scan_eq_lexeme_iff` says all there is to know about the scanner where it finds a lexeme: the text
starts with the spelling, and what is behind does not go on with it.  A longer lexeme would have to
go on with the shorter one (`goesOn_of_longer`), so the one that is found is the longest.
-/

namespace ScopeScript

/-! ## Numerals -/

namespace Lexer

/-- Numerals: digits, or digits around a point, of which there is at least one. -/
inductive IsNumeral : List Char → Prop
  | whole {digits : List Char} (all : ∀ c ∈ digits, isDigit c = true) (some_ : digits ≠ []) :
      IsNumeral digits
  | point {whole places : List Char} (all : ∀ c ∈ whole, isDigit c = true)
      (all' : ∀ c ∈ places, isDigit c = true) (some_ : whole ≠ [] ∨ places ≠ []) :
      IsNumeral (whole ++ '.' :: places)

namespace IsNumeral

variable {text : List Char}

theorem ne_nil (h : IsNumeral text) : text ≠ [] := by
  cases h with
  | whole all some_ => exact some_
  | point all all' some_ => simp

theorem digit_or_point (h : IsNumeral text) : ∀ c ∈ text, isDigit c = true ∨ c = '.' := by
  intro c hc
  cases h with
  | whole all some_ => exact .inl (all c hc)
  | point all all' some_ =>
    simp only [List.mem_append, List.mem_cons] at hc
    rcases hc with hc | hc | hc
    · exact .inl (all c hc)
    · exact .inr hc
    · exact .inl (all' c hc)

theorem point_notMem {digits : List Char} (all : ∀ c ∈ digits, isDigit c = true) :
    '.' ∉ digits := by
  intro h
  exact absurd (all '.' h) (by decide)

theorem count_point (h : IsNumeral text) : text.count '.' ≤ 1 := by
  cases h with
  | whole all some_ => simp [List.count_eq_zero_of_not_mem (point_notMem all)]
  | point all all' some_ =>
    simp [List.count_append, List.count_eq_zero_of_not_mem (point_notMem all),
      List.count_eq_zero_of_not_mem (point_notMem all')]

/-- A numeral goes on with a digit, or with its only point. -/
theorem next {front more : List Char} {c : Char} (h : IsNumeral (front ++ c :: more)) :
    isDigit c = true ∨ c = '.' ∧ '.' ∉ front := by
  rcases h.digit_or_point c (by simp) with digit | rfl
  · exact .inl digit
  · have once := h.count_point
    simp only [List.count_append, List.count_cons_self] at once
    exact .inr ⟨rfl, List.count_eq_zero.mp (by omega)⟩

/-- Numerals are made of digits and at most one point, with at least one digit. -/
theorem iff_count : IsNumeral text ↔
    (∀ c ∈ text, isDigit c = true ∨ c = '.') ∧ text.count '.' ≤ 1 ∧
      ∃ c ∈ text, isDigit c = true := by
  constructor
  · intro h
    refine ⟨h.digit_or_point, h.count_point, ?_⟩
    cases h with
    | whole all some_ =>
      obtain ⟨c, hc⟩ := List.exists_mem_of_ne_nil _ some_
      exact ⟨c, hc, all c hc⟩
    | point all all' some_ =>
      rcases some_ with some_ | some_ <;> obtain ⟨c, hc⟩ := List.exists_mem_of_ne_nil _ some_
      · exact ⟨c, by simp [hc], all c hc⟩
      · exact ⟨c, by simp [hc], all' c hc⟩
  · rintro ⟨plain, once, c, hc, digit⟩
    have digits : ∀ {run : List Char}, (∀ d ∈ run, d ∈ text) → run.count '.' = 0 →
        ∀ d ∈ run, isDigit d = true := by
      intro run inside none_ d hd
      refine (plain d (inside d hd)).resolve_right ?_
      rintro rfl
      exact List.count_eq_zero.mp none_ hd
    by_cases point : '.' ∈ text
    · obtain ⟨whole, places, rfl⟩ := List.append_of_mem point
      simp only [List.count_append, List.count_cons_self] at once
      refine .point (digits (by simp +contextual) (by omega))
        (digits (by simp +contextual) (by omega)) ?_
      have notPoint : c ≠ '.' := by
        rintro rfl
        exact absurd digit (by decide)
      simp only [List.mem_append, List.mem_cons, notPoint, false_or] at hc
      exact hc.imp List.ne_nil_of_mem List.ne_nil_of_mem
    · exact .whole (digits (fun _ h => h) (List.count_eq_zero.mpr point)) (List.ne_nil_of_mem hc)

-- decided by one pass over the list: there is also a way to ask every character there is
instance (text : List Char) : Decidable (IsNumeral text) :=
  decidable_of_iff (text.all (fun c => isDigit c || c == '.') = true ∧ text.count '.' ≤ 1 ∧
    text.any isDigit = true) (by simp [iff_count])

end IsNumeral

end Lexer

/-! ## Spellings -/

namespace Lexeme

/-- How a lexeme is written. -/
def spelling : Lexeme → List Char
  | .finish => []
  | .word name => name.toList
  | .text content => (Text.quote content).toList
  | .number numeral => numeral.toList
  | .mark m => m.spelling.toList
  | .keyword k => k.spelling.toList

/-- A source can hold the lexeme: words are names and numbers numerals, and the end of the input is
not written at all. -/
def Written : Lexeme → Prop
  | .finish => False
  | .word name => Lexer.isName name = true
  | .number numeral => Lexer.IsNumeral numeral.toList
  | _ => True

/-- The lexeme is written as the text. -/
def Spells (lexeme : Lexeme) (text : List Char) : Prop := lexeme.Written ∧ lexeme.spelling = text

/-- Whether a character right behind a lexeme goes on with it. -/
def goesOn : Lexeme → Char → Bool
  | .word _, c | .keyword _, c => Lexer.isWordChar c
  | .number numeral, c => Lexer.isDigit c || (c == '.' && !numeral.toList.contains '.')
  | .text _, c => c == '"'
  | .mark .less, c => c == '>'
  | .mark .dot, c => Lexer.isDigit c
  | _, _ => false

/-- What is behind the lexeme does not go on with it. -/
def Stops (lexeme : Lexeme) (rest : List Char) : Prop := ∀ c ∈ rest.head?, lexeme.goesOn c = false

instance (lexeme : Lexeme) : Decidable lexeme.Written :=
  match lexeme with
  | .finish => inferInstanceAs (Decidable False)
  | .word name => inferInstanceAs (Decidable (Lexer.isName name = true))
  | .number numeral => inferInstanceAs (Decidable (Lexer.IsNumeral numeral.toList))
  | .text _ | .mark _ | .keyword _ => inferInstanceAs (Decidable True)

theorem Spells.ne_finish {lexeme : Lexeme} {text : List Char} (h : lexeme.Spells text) :
    lexeme ≠ .finish := by
  rintro rfl
  exact h.1

theorem stops_nil (lexeme : Lexeme) : lexeme.Stops [] := by simp [Stops]

/-- Less behind a lexeme does not go on with it either. -/
theorem Stops.of_prefix {lexeme : Lexeme} {rest cut : List Char} (h : lexeme.Stops rest)
    (front : cut <+: rest) : lexeme.Stops cut := by
  intro c hc
  obtain ⟨more, rfl⟩ := front
  apply h c
  cases cut with
  | nil => simp at hc
  | cons d cut => simpa using hc

end Lexeme

namespace Lexer

/-! ## Scanning numerals -/

/-- A run that is split off goes as far as it can. -/
theorem notDropped {p : Char → Bool} {text : List Char} :
    ∀ c ∈ (text.dropWhile p).head?, p c = false := by
  intro c hc
  have stop := List.head?_dropWhile_not p text
  rw [Option.mem_def.mp hc] at stop
  simpa using stop

theorem scan_places {places rest : List Char} (all : ∀ c ∈ places, isDigit c = true)
    (some_ : places ≠ []) (behind : ∀ c ∈ rest.head?, isDigit c = false) :
    scan ('.' :: (places ++ rest)) =
      .lexeme (.number (String.ofList ('.' :: places))) ('.' :: places) rest := by
  obtain ⟨htake, hdrop⟩ := span_append all behind
  have known : Mark.ofChar? '.' = none := by decide
  simp [scan, known, htake, hdrop, some_]

theorem scan_numeral {text rest : List Char} (h : IsNumeral text)
    (stops : (Lexeme.number (String.ofList text)).Stops rest) :
    scan (text ++ rest) = .lexeme (.number (String.ofList text)) text rest := by
  have digits : ∀ {run : List Char}, (∀ c ∈ run, isDigit c = true) →
      ∀ c ∈ run, c.isDigit = true := fun all c hc => (isDigit_eq c).symm.trans (all c hc)
  have notDigit : ∀ c ∈ rest.head?, isDigit c = false := by
    intro c hc
    have := stops c hc
    simp only [Lexeme.goesOn, Bool.or_eq_false_iff] at this
    exact this.1
  cases h with
  | whole all some_ =>
    have behind : ∀ c ∈ rest.head?, isDigit c = false ∧ c ≠ '.' := by
      intro c hc
      refine ⟨notDigit c hc, ?_⟩
      rintro rfl
      have := stops '.' hc
      simp [Lexeme.goesOn, IsNumeral.point_notMem all] at this
    have hspan := spanNumeral_whole (digits all) behind
    cases text with
    | nil => exact absurd rfl some_
    | cons c run => exact scan_spanNumeral (digits all c (by simp)) hspan
  | point all all' some_ =>
    rename_i whole places
    rw [List.append_assoc, List.cons_append]
    cases whole with
    | nil => exact scan_places all' (some_.resolve_left (by simp)) notDigit
    | cons c run =>
      exact scan_spanNumeral (digits all c (by simp))
        (spanNumeral_point (digits all) (digits all') notDigit)

theorem isNumeral_spanNumeral {c : Char} {text taken rest : List Char} (digit : isDigit c = true)
    (h : spanNumeral (c :: text) = (taken, rest)) :
    c :: text = taken ++ rest ∧ IsNumeral taken ∧
      (Lexeme.number (String.ofList taken)).Stops rest := by
  have parts := List.takeWhile_append_dropWhile (p := isDigit) (l := c :: text)
  have all : ∀ d ∈ (c :: text).takeWhile isDigit, isDigit d = true :=
    List.all_eq_true.mp List.all_takeWhile
  have some_ : (c :: text).takeWhile isDigit ≠ [] := by simp [digit]
  unfold spanNumeral at h
  split at h
  · rename_i behind hdrop
    obtain ⟨rfl, rfl⟩ := Prod.mk.inj h
    have all' : ∀ d ∈ behind.takeWhile isDigit, isDigit d = true :=
      List.all_eq_true.mp List.all_takeWhile
    refine ⟨?_, .point all all' (.inl some_), ?_⟩
    · rw [List.append_assoc, List.cons_append, List.takeWhile_append_dropWhile, ← hdrop, parts]
    · intro d hd
      simp [Lexeme.goesOn, notDropped d hd]
  · rename_i noPoint
    obtain ⟨rfl, rfl⟩ := Prod.mk.inj h
    refine ⟨parts.symm, .whole all some_, ?_⟩
    intro d hd
    have notPoint : d ≠ '.' := by
      rintro rfl
      obtain ⟨behind, hbehind⟩ := List.head?_eq_some_iff.mp (Option.mem_def.mp hd)
      exact noPoint behind hbehind
    simp [Lexeme.goesOn, notDropped d hd, notPoint]

/-! ## Scanning strings -/

/-- A string ends at the first quote that is not doubled. -/
theorem spanString_eq_some {text content taken behind : List Char}
    (h : spanString text = some (content, taken, behind)) :
    text = taken ++ behind ∧ taken = Text.doubleQuotes content ++ ['"'] ∧
      ∀ c ∈ behind.head?, c ≠ '"' := by
  induction text using spanString.induct generalizing content taken with
  | case1 => simp [spanString] at h
  | case2 rest ih =>
    simp only [spanString, Option.map_eq_some_iff, Prod.mk.injEq, Prod.exists] at h
    obtain ⟨content, taken, behind, hrest, rfl, rfl, rfl⟩ := h
    obtain ⟨rfl, rfl, stops⟩ := ih hrest
    exact ⟨rfl, by simp [Text.doubleQuotes], stops⟩
  | case3 rest single =>
    rw [spanString.eq_3 rest single] at h
    simp only [Option.some.injEq, Prod.mk.injEq] at h
    obtain ⟨rfl, rfl, rfl⟩ := h
    refine ⟨rfl, rfl, ?_⟩
    rintro c hc rfl
    obtain ⟨more, rfl⟩ := List.head?_eq_some_iff.mp (Option.mem_def.mp hc)
    exact single more rfl
  | case4 c rest notDouble notQuote ih =>
    rw [spanString.eq_4 c rest notDouble notQuote] at h
    simp only [Option.map_eq_some_iff, Prod.mk.injEq, Prod.exists] at h
    obtain ⟨content, taken, behind, hrest, rfl, rfl, rfl⟩ := h
    obtain ⟨rfl, rfl, stops⟩ := ih hrest
    have other : c ≠ '"' := notQuote
    exact ⟨rfl, by simp [Text.doubleQuotes, other], stops⟩

/-- A text has no closing quote if all its quotes are doubled. -/
theorem spanString_eq_none {text : List Char} (h : spanString text = none) :
    ∃ content, text = Text.doubleQuotes content := by
  induction text using spanString.induct with
  | case1 => exact ⟨[], rfl⟩
  | case2 rest ih =>
    simp only [spanString, Option.map_eq_none_iff] at h
    obtain ⟨content, rfl⟩ := ih h
    exact ⟨'"' :: content, by simp [Text.doubleQuotes]⟩
  | case3 rest single => simp [spanString.eq_3 rest single] at h
  | case4 c rest notDouble notQuote ih =>
    rw [spanString.eq_4 c rest notDouble notQuote, Option.map_eq_none_iff] at h
    obtain ⟨content, rfl⟩ := ih h
    have other : c ≠ '"' := notQuote
    exact ⟨c :: content, by simp [Text.doubleQuotes, other]⟩

/-! ## The scanner and the spellings -/

theorem isSpelled_keyword (keyword : Keyword) : isSpelled keyword.spelling = true := by
  cases keyword <;> decide

theorem isSpelled_of_isName {name : String} (h : isName name = true) : isSpelled name = true := by
  simp only [isName, Bool.and_eq_true] at h
  exact h.1

theorem wordLexeme_of_isName {name : String} (h : isName name = true) :
    wordLexeme name = .word name := by
  simp only [isName, Bool.and_eq_true, Option.isNone_iff_eq_none] at h
  simp [wordLexeme, h.2]

/-- A mark is one character that tells it, or one of three that need a look behind them. -/
theorem mark_cases (mark : Mark) :
    (∃ c, Mark.ofChar? c = some mark) ∨ mark = .dot ∨ mark = .less ∨ mark = .unequal := by
  cases mark with
  | comma => exact .inl ⟨',', rfl⟩
  | openParen => exact .inl ⟨'(', rfl⟩
  | closeParen => exact .inl ⟨')', rfl⟩
  | openBrace => exact .inl ⟨'\x7b', rfl⟩
  | closeBrace => exact .inl ⟨'\x7d', rfl⟩
  | plus => exact .inl ⟨'+', rfl⟩
  | minus => exact .inl ⟨'-', rfl⟩
  | times => exact .inl ⟨'*', rfl⟩
  | slash => exact .inl ⟨'/', rfl⟩
  | equals => exact .inl ⟨'=', rfl⟩
  | greater => exact .inl ⟨'>', rfl⟩
  | dot => exact .inr (.inl rfl)
  | less => exact .inr (.inr (.inl rfl))
  | unequal => exact .inr (.inr (.inr rfl))

/-- The scanner finds a lexeme that nothing goes on with. -/
theorem scan_of_spells {lexeme : Lexeme} {taken rest : List Char} (h : lexeme.Spells taken)
    (stops : lexeme.Stops rest) : scan (taken ++ rest) = .lexeme lexeme taken rest := by
  obtain ⟨written, rfl⟩ := h
  cases lexeme with
  | finish => exact written.elim
  | word name =>
    have hscan := scan_wordLexeme (isSpelled_of_isName written) stops
    rwa [wordLexeme_of_isName written] at hscan
  | text content =>
    exact scan_quote content fun c hc => by simpa [Lexeme.goesOn] using stops c hc
  | number numeral =>
    have stops' : (Lexeme.number (String.ofList numeral.toList)).Stops rest := by
      rwa [String.ofList_toList]
    have hscan := scan_numeral written stops'
    rwa [String.ofList_toList] at hscan
  | keyword keyword =>
    have hscan := scan_wordLexeme (isSpelled_keyword keyword) stops
    rwa [show wordLexeme keyword.spelling = .keyword keyword by simp [wordLexeme]] at hscan
  | mark mark =>
    rcases mark_cases mark with ⟨c, known⟩ | rfl | rfl | rfl
    · rw [Lexeme.spelling, (ofChar_facts known).1]
      exact scan_ofChar known rest
    · exact scan_dot stops
    · exact scan_less fun c hc => by simpa [Lexeme.goesOn] using stops c hc
    · rfl

theorem spells_wordLexeme {text : String} (spelled : isSpelled text = true) :
    (wordLexeme text).Spells text.toList ∧
      ∀ c, (wordLexeme text).goesOn c = isWordChar c := by
  unfold wordLexeme
  split
  · rename_i keyword known
    have same : keyword.spelling = text := by
      simpa using List.find?_some (show Keyword.all.find? _ = _ from known)
    exact ⟨⟨trivial, congrArg String.toList same⟩, fun _ => rfl⟩
  · rename_i unknown
    exact ⟨⟨by simp [Lexeme.Written, isName, spelled, unknown], rfl⟩, fun _ => rfl⟩

theorem goesOn_ofChar {c : Char} {mark : Mark} (known : Mark.ofChar? c = some mark) (d : Char) :
    (Lexeme.mark mark).goesOn d = false := by
  obtain ⟨spelled, -, notLess, notDot, -⟩ := ofChar_facts known
  cases mark with
  | dot => exact absurd (List.head_eq_of_cons_eq spelled).symm notDot
  | less => exact absurd (List.head_eq_of_cons_eq spelled).symm notLess
  | _ => rfl

/-- What the scanner finds stands at the start of the text, and nothing goes on with it. -/
theorem spells_of_scan {lexeme : Lexeme} {text taken rest : List Char}
    (h : scan text = .lexeme lexeme taken rest) :
    text = taken ++ rest ∧ lexeme.Spells taken ∧ lexeme.Stops rest := by
  revert h
  fun_cases scan text with
  | case1 => simp
  | case2 behind =>
    intro h
    obtain ⟨rfl, rfl, rfl⟩ := Scan.lexeme.inj h
    exact ⟨rfl, ⟨trivial, rfl⟩, fun c _ => rfl⟩
  | case3 behind single =>
    intro h
    obtain ⟨rfl, rfl, rfl⟩ := Scan.lexeme.inj h
    refine ⟨rfl, ⟨trivial, rfl⟩, fun c hc => ?_⟩
    obtain ⟨more, rfl⟩ := List.head?_eq_some_iff.mp (Option.mem_def.mp hc)
    have : c ≠ '>' := fun same => single more (by rw [same])
    simpa [Lexeme.goesOn] using this
  | case4 c behind notLess mark known =>
    intro h
    obtain ⟨rfl, rfl, rfl⟩ := Scan.lexeme.inj h
    exact ⟨rfl, ⟨trivial, (ofChar_facts known).1⟩, fun d _ => goesOn_ofChar known d⟩
  | case5 behind digits none_ =>
    intro h
    obtain ⟨rfl, rfl, rfl⟩ := Scan.lexeme.inj h
    refine ⟨rfl, ⟨trivial, rfl⟩, fun c hc => ?_⟩
    obtain ⟨more, rfl⟩ := List.head?_eq_some_iff.mp (Option.mem_def.mp hc)
    show isDigit c = false
    cases digit : isDigit c with
    | false => rfl
    | true => simp [digits, digit] at none_
  | case6 behind digits some_ =>
    intro h
    obtain ⟨rfl, rfl, rfl⟩ := Scan.lexeme.inj h
    have all : ∀ d ∈ digits, isDigit d = true := List.all_eq_true.mp List.all_takeWhile
    have numeral : IsNumeral ('.' :: digits) :=
      @IsNumeral.point [] digits (by simp) all (.inr (by simpa using some_))
    refine ⟨by simp [digits], ⟨by simpa [Lexeme.Written] using numeral, by simp [Lexeme.spelling]⟩,
      fun d hd => ?_⟩
    simp [Lexeme.goesOn, notDropped d hd]
  | case7 c behind notLess notMark notDot letter =>
    intro h
    obtain ⟨rfl, rfl, rfl⟩ := Scan.lexeme.inj h
    have word : isWordChar c = true := by simp [isWordChar, letter]
    have spelled : isSpelled (String.ofList ((c :: behind).takeWhile isWordChar)) = true := by
      simp [isSpelled, word, letter]
    obtain ⟨spells, continues⟩ := spells_wordLexeme spelled
    rw [String.toList_ofList] at spells
    exact ⟨List.takeWhile_append_dropWhile.symm, spells,
      fun d hd => (continues d).trans (notDropped d hd)⟩
  | case8 c behind _ _ _ _ digit =>
    intro h
    obtain ⟨rfl, rfl, rfl⟩ := Scan.lexeme.inj h
    have whole : spanNumeral (c :: behind) = _ := rfl
    obtain ⟨split, numeral, stops⟩ := isNumeral_spanNumeral digit whole
    exact ⟨split, ⟨by rw [Lexeme.Written, String.toList_ofList]; exact numeral,
      String.toList_ofList⟩, stops⟩
  | case9 behind content taken after hspan =>
    intro h
    obtain ⟨rfl, rfl, rfl⟩ := Scan.lexeme.inj h
    obtain ⟨rfl, rfl, stops⟩ := spanString_eq_some hspan
    refine ⟨rfl, ⟨trivial, by simp [Lexeme.spelling]⟩, fun d hd => ?_⟩
    simpa [Lexeme.goesOn] using stops d hd
  | case10 | case11 => simp

theorem scan_eq_lexeme_iff {lexeme : Lexeme} {text taken rest : List Char} :
    scan text = .lexeme lexeme taken rest ↔
      text = taken ++ rest ∧ lexeme.Spells taken ∧ lexeme.Stops rest := by
  constructor
  · exact spells_of_scan
  · rintro ⟨rfl, spells, stops⟩
    exact scan_of_spells spells stops

/-! ## The longest lexeme -/

/-- What may stand behind the first character of a lexeme. -/
def Follows (c : Char) (more : List Char) : Prop :=
  if c = '<' then more = [] ∨ more = ['>']
  else if (Mark.ofChar? c).isSome then more = []
  else if c = '.' then ∀ d ∈ more, isDigit d = true
  else if isLetter c then ∀ d ∈ more, isWordChar d = true
  else if isDigit c then IsNumeral (c :: more)
  else if c = '"' then ∃ content, more = Text.doubleQuotes content ++ ['"']
  else False

section Follows

variable {c : Char} {more : List Char}

theorem follows_less : Follows '<' more ↔ more = [] ∨ more = ['>'] := by
  simp [Follows]

theorem follows_mark {mark : Mark} (known : Mark.ofChar? c = some mark) :
    Follows c more ↔ more = [] := by
  obtain ⟨-, -, notLess, -⟩ := ofChar_facts known
  simp [Follows, notLess, known]

theorem follows_point : Follows '.' more ↔ ∀ d ∈ more, isDigit d = true := by
  have unmarked : Mark.ofChar? '.' = none := by decide
  simp [Follows, unmarked]

theorem follows_letter (letter : isLetter c = true) :
    Follows c more ↔ ∀ d ∈ more, isWordChar d = true := by
  obtain ⟨-, notLess, unmarked, notDot, -⟩ := letter_facts letter
  simp [Follows, notLess, unmarked, notDot, letter]

theorem follows_digit (digit : isDigit c = true) : Follows c more ↔ IsNumeral (c :: more) := by
  obtain ⟨-, notLess, unmarked, notDot, notLetter⟩ :=
    digit_facts ((isDigit_eq c).symm.trans digit)
  simp [Follows, notLess, unmarked, notDot, notLetter, digit]

theorem follows_quote :
    Follows '"' more ↔ ∃ content, more = Text.doubleQuotes content ++ ['"'] := by
  have unmarked : Mark.ofChar? '"' = none := by decide
  have notLetter : isLetter '"' = false := by decide
  have notDigit : isDigit '"' = false := by decide
  simp [Follows, unmarked, notLetter, notDigit]

end Follows

theorem follows_of_isSpelled {text : String} (spelled : isSpelled text = true) :
    ∃ c more, text.toList = c :: more ∧ isLetter c = true ∧ Follows c more := by
  obtain ⟨c, run, htext, letter, word⟩ := isSpelled_iff.mp spelled
  refine ⟨c, run, htext, letter, (follows_letter letter).mpr ?_⟩
  exact fun d hd => word d (List.mem_cons_of_mem c hd)

theorem follows_of_isNumeral {c : Char} {more : List Char} (h : IsNumeral (c :: more)) :
    Follows c more := by
  rcases h.digit_or_point c (by simp) with digit | rfl
  · exact (follows_digit digit).mpr h
  · rw [follows_point]
    intro d hd
    rcases List.append_of_mem hd with ⟨front, behind, rfl⟩
    -- the only point of the numeral is in front
    have whole : IsNumeral (('.' :: front) ++ d :: behind) := h
    exact whole.next.resolve_right (by simp)

theorem follows_of_spells {lexeme : Lexeme} {c : Char} {more : List Char}
    (h : lexeme.Spells (c :: more)) : Follows c more := by
  obtain ⟨written, spelled⟩ := h
  cases lexeme with
  | finish => exact written.elim
  | word name =>
    obtain ⟨d, run, htext, -, follows⟩ := follows_of_isSpelled (isSpelled_of_isName written)
    obtain ⟨rfl, rfl⟩ := List.cons.inj (htext.symm.trans spelled)
    exact follows
  | keyword keyword =>
    obtain ⟨d, run, htext, -, follows⟩ := follows_of_isSpelled (isSpelled_keyword keyword)
    obtain ⟨rfl, rfl⟩ := List.cons.inj (htext.symm.trans spelled)
    exact follows
  | number numeral =>
    have isNumeral : IsNumeral numeral.toList := written
    rw [show numeral.toList = c :: more from spelled] at isNumeral
    exact follows_of_isNumeral isNumeral
  | text content =>
    obtain ⟨rfl, rfl⟩ := List.cons.inj ((Text.toList_quote content).symm.trans spelled)
    exact follows_quote.mpr ⟨content.toList, rfl⟩
  | mark mark =>
    rcases mark_cases mark with ⟨d, known⟩ | rfl | rfl | rfl
    · obtain ⟨rfl, rfl⟩ := List.cons.inj ((ofChar_facts known).1.symm.trans spelled)
      exact (follows_mark known).mpr rfl
    · obtain ⟨rfl, rfl⟩ := List.cons.inj (show ['.'] = c :: more from spelled)
      exact follows_point.mpr (by simp)
    · obtain ⟨rfl, rfl⟩ := List.cons.inj (show ['<'] = c :: more from spelled)
      exact follows_less.mpr (.inl rfl)
    · obtain ⟨rfl, rfl⟩ := List.cons.inj (show ['<', '>'] = c :: more from spelled)
      exact follows_less.mpr (.inr rfl)

/-- A lexeme that is longer than another goes on with it. -/
theorem goesOn_of_longer {lexeme other : Lexeme} {taken more : List Char} {c : Char}
    (h : lexeme.Spells taken) (longer : other.Spells (taken ++ c :: more)) :
    lexeme.goesOn c = true := by
  obtain ⟨written, rfl⟩ := h
  have ofSpelled : ∀ {text : String}, isSpelled text = true →
      other.Spells (text.toList ++ c :: more) → isWordChar c = true := by
    intro text spelled longer
    obtain ⟨d, run, htext, letter, -⟩ := follows_of_isSpelled spelled
    rw [htext, List.cons_append] at longer
    exact (follows_letter letter).mp (follows_of_spells longer) c (by simp)
  cases lexeme with
  | finish => exact written.elim
  | word name => exact ofSpelled (isSpelled_of_isName written) longer
  | keyword keyword => exact ofSpelled (isSpelled_keyword keyword) longer
  | number numeral =>
    have isNumeral : IsNumeral numeral.toList := written
    rw [Lexeme.spelling] at longer
    rw [Lexeme.goesOn]
    cases htext : numeral.toList with
    | nil => exact absurd htext isNumeral.ne_nil
    | cons d run =>
      rw [htext] at longer isNumeral
      have follows := follows_of_spells longer
      rcases isNumeral.digit_or_point d (by simp) with digit | rfl
      · have whole : IsNumeral ((d :: run) ++ c :: more) := (follows_digit digit).mp follows
        rcases whole.next with digit | ⟨rfl, once⟩
        · simp [digit]
        · simp [once]
      · simp [follows_point.mp follows c (by simp)]
  | text content =>
    rw [Lexeme.spelling, Text.toList_quote, List.cons_append] at longer
    obtain ⟨content', same⟩ := follows_quote.mp (follows_of_spells longer)
    by_cases quote : c = '"'
    · simp [Lexeme.goesOn, quote]
    · -- otherwise the shorter string ends in front of the character
      have behind : ∀ d ∈ (c :: more).head?, d ≠ '"' := by simpa using quote
      have short := @spanString_doubleQuotes (c :: more) content.toList behind
      have long := @spanString_doubleQuotes [] content' (by simp)
      rw [← same, List.append_assoc, List.singleton_append, short] at long
      simp at long
  | mark mark =>
    rw [Lexeme.spelling] at longer
    rcases mark_cases mark with ⟨d, known⟩ | rfl | rfl | rfl
    · rw [(ofChar_facts known).1] at longer
      have nothing := (follows_mark known).mp (follows_of_spells longer)
      simp at nothing
    · exact follows_point.mp (follows_of_spells longer) c (by simp)
    · have follows := follows_less.mp (follows_of_spells longer)
      have same : c :: more = ['>'] := follows.resolve_left (by simp)
      simp [Lexeme.goesOn, (List.cons.inj same).1]
    · have follows := follows_less.mp (follows_of_spells longer)
      simp at follows

/-- The lexeme that a text splits into is the longest at its start. -/
theorem length_le_of_stops {lexeme other : Lexeme} {taken rest longer : List Char}
    (h : lexeme.Spells taken) (stops : lexeme.Stops rest) (spells : other.Spells longer)
    (front : longer <+: taken ++ rest) : longer.length ≤ taken.length := by
  rcases List.prefix_or_prefix_of_prefix front (List.prefix_append taken rest) with short | long
  · exact short.length_le
  · obtain ⟨more, rfl⟩ := long
    obtain ⟨behind, rfl⟩ := (List.prefix_append_right_inj taken).mp front
    cases more with
    | nil => simp
    | cons c more =>
      have continues := goesOn_of_longer h spells
      rw [stops c rfl] at continues
      contradiction

/-! ## Blanks -/

theorem notBlank_of_follows {c : Char} {more : List Char} (h : Follows c more) :
    Text.isBlank c = false := by
  unfold Follows at h
  split at h
  · subst c
    decide
  · split at h
    · rename_i known
      obtain ⟨mark, known⟩ := Option.isSome_iff_exists.mp known
      exact (ofChar_facts known).2.1
    · split at h
      · subst c
        decide
      · split at h
        · rename_i letter
          exact (letter_facts letter).1
        · split at h
          · rename_i digit
            exact (digit_facts ((isDigit_eq c).symm.trans digit)).1
          · split at h
            · subst c
              decide
            · exact h.elim

theorem spells_ne_nil {lexeme : Lexeme} {taken : List Char} (h : lexeme.Spells taken) :
    taken ≠ [] := by
  obtain ⟨written, rfl⟩ := h
  cases lexeme with
  | finish => exact written.elim
  | word name =>
    obtain ⟨c, run, htext, -⟩ := follows_of_isSpelled (isSpelled_of_isName written)
    simp [Lexeme.spelling, htext]
  | text content => simp [Lexeme.spelling]
  | number numeral => exact IsNumeral.ne_nil written
  | mark mark => cases mark <;> decide
  | keyword keyword => cases keyword <;> decide

/-- A lexeme starts with a character that is no blank. -/
theorem spells_head {lexeme : Lexeme} {taken : List Char} (h : lexeme.Spells taken) :
    ∃ c run, taken = c :: run ∧ Text.isBlank c = false := by
  cases taken with
  | nil => exact absurd rfl (spells_ne_nil h)
  | cons c run => exact ⟨c, run, rfl, notBlank_of_follows (follows_of_spells h)⟩

/-- A blank goes on with no lexeme. -/
theorem goesOn_blank {c : Char} (blank : Text.isBlank c = true) (lexeme : Lexeme) :
    lexeme.goesOn c = false := by
  have notLetter : isLetter c = false := by
    cases h : isLetter c with
    | false => rfl
    | true => exact absurd (letter_facts h).1 (by simp [blank])
  have notDigit : isDigit c = false := by
    cases h : isDigit c with
    | false => rfl
    | true =>
      exact absurd (digit_facts ((isDigit_eq c).symm.trans h)).1 (by simp [blank])
  have others : c ≠ '.' ∧ c ≠ '"' ∧ c ≠ '>' := by
    refine ⟨?_, ?_, ?_⟩ <;> (rintro rfl; exact absurd blank (by decide))
  cases lexeme with
  | finish => rfl
  | word name => simp [Lexeme.goesOn, isWordChar, notLetter, notDigit]
  | keyword keyword => simp [Lexeme.goesOn, isWordChar, notLetter, notDigit]
  | text content => simp [Lexeme.goesOn, others]
  | number numeral => simp [Lexeme.goesOn, notDigit, others]
  | mark mark => cases mark <;> simp [Lexeme.goesOn, notDigit, others]

end Lexer

namespace Text

/-- The text is made of blanks, if of anything. -/
def Blanks (text : List Char) : Prop := ∀ c ∈ text, isBlank c = true

instance (text : List Char) : Decidable (Blanks text) :=
  decidable_of_iff (text.all isBlank = true) List.all_eq_true

end Text

end ScopeScript
