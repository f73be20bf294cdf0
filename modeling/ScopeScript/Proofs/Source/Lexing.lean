import ScopeScript.Proofs.Source.Numeral
import ScopeScript.Text.Margin
import ScopeScript.Text.Quoted
set_option autoImplicit false

/-!
# Source: texts that split into given lexemes

`Lexes text lexemes` says that a text splits into lexemes, positions apart.  It is built up from the
end of the text: for each form in which a lexeme is written there is a lemma that puts it in front
of a text whose lexemes are known.  The longest lexeme counts, so each of them asks that what
follows does not go on with the lexeme; in front of a clean text none does.
-/

namespace ScopeScript.Lexer

/-- The text splits into the lexemes. -/
inductive Lexes : List Char → List Lexeme → Prop
  | nil : Lexes [] []
  | blank {c : Char} {text : List Char} {lexemes : List Lexeme} (isBlank : Text.isBlank c = true)
      (h : Lexes text lexemes) : Lexes (c :: text) lexemes
  | lexeme {c : Char} {text taken rest : List Char} {lexeme : Lexeme} {lexemes : List Lexeme}
      (notBlank : Text.isBlank c = false) (hscan : scan (c :: text) = .lexeme lexeme taken rest)
      (real : lexeme ≠ .finish) (shorter : rest.length ≤ text.length) (h : Lexes rest lexemes) :
      Lexes (c :: text) (lexeme :: lexemes)

end Lexer

/-! ## Splitting a source -/

namespace Cursor

/-- Blanks in front of a cursor do not change what is read. -/
theorem read_blank {c : Char} (h : Text.isBlank c = true) (position : Position) (text : List Char) :
    read ⟨position, c :: text⟩ = read ⟨position.next c, text⟩ := by
  have : skipBlanks ⟨position, c :: text⟩ = skipBlanks ⟨position.next c, text⟩ := by
    simp [skipBlanks, h]
  rw [read, read, this]

theorem read_lexeme {c : Char} {text taken rest : List Char} {lexeme : Lexeme}
    (notBlank : Text.isBlank c = false)
    (hscan : Lexer.scan (c :: text) = .lexeme lexeme taken rest) (position : Position) :
    read ⟨position, c :: text⟩ = (⟨position.after taken, rest⟩, .ok ⟨lexeme, position⟩) := by
  have : skipBlanks ⟨position, c :: text⟩ = ⟨position, c :: text⟩ := by
    simp [skipBlanks, notBlank]
  simp [read, this, hscan]

end Cursor

/-- A text that splits into lexemes is read as tokens that show them. -/
theorem Source.readFrom_of_lexes {text : List Char} {lexemes : List Lexeme}
    (h : Lexer.Lexes text lexemes) (position : Position) (fuel : Nat)
    (enough : text.length < fuel) :
    ∃ tokens ending, readFrom fuel ⟨position, text⟩ = ⟨tokens, .finished ending⟩ ∧
      tokens.map Token.lexeme = lexemes := by
  obtain ⟨fuel, rfl⟩ : ∃ n, fuel = n + 1 := ⟨fuel - 1, by omega⟩
  induction h generalizing position fuel with
  | nil => exact ⟨[], position, rfl, rfl⟩
  | blank isBlank h ih =>
    rename_i c text lexemes
    have same : readFrom (fuel + 1) ⟨position, c :: text⟩ =
        readFrom (fuel + 1) ⟨position.next c, text⟩ := by
      rw [readFrom, readFrom, Cursor.read_blank isBlank]
    rw [same]
    exact ih _ fuel (by simp at enough; omega)
  | lexeme notBlank hscan real shorter h ih =>
    rename_i c text taken rest lexeme lexemes
    simp only [List.length_cons] at enough
    obtain ⟨fuel, rfl⟩ : ∃ n, fuel = n + 1 := ⟨fuel - 1, by omega⟩
    obtain ⟨tokens, ending, hread, hlexemes⟩ := ih (position.after taken) fuel (by omega)
    refine ⟨⟨lexeme, position⟩ :: tokens, ending, ?_, by simp [hlexemes]⟩
    rw [readFrom, Cursor.read_lexeme notBlank hscan]
    simp [real, hread]

theorem tokenize_of_lexes {source : String} {lexemes : List Lexeme}
    (h : Lexer.Lexes source.toList lexemes) :
    ∃ tokens, tokenize source = .ok tokens ∧ tokens.map Token.lexeme = lexemes := by
  obtain ⟨tokens, ending, hread, hlexemes⟩ :=
    Source.readFrom_of_lexes h {} (source.toList.length + 1) (by omega)
  exact ⟨tokens, by simp [tokenize, Source.ofString, Cursor.start, hread], hlexemes⟩

namespace Lexer

/-! ## What may follow a lexeme -/

/-- Nothing that goes on with a word, a numeral, a string or a mark stands at the start of the
text. -/
def Clean (text : List Char) : Prop :=
  ∀ c ∈ text.head?, isWordChar c = false ∧ c ≠ '.' ∧ c ≠ '"' ∧ c ≠ '>'

theorem clean_nil : Clean [] := by simp [Clean]

theorem clean_cons {c : Char} (text : List Char)
    (h : isWordChar c = false ∧ c ≠ '.' ∧ c ≠ '"' ∧ c ≠ '>') : Clean (c :: text) := by
  intro d hd
  obtain rfl : c = d := by simpa using hd
  exact h

/-- A run that a predicate holds of is split off up to where it fails. -/
theorem span_append {p : Char → Bool} {run rest : List Char} (h : ∀ c ∈ run, p c = true)
    (behind : ∀ c ∈ rest.head?, p c = false) :
    (run ++ rest).takeWhile p = run ∧ (run ++ rest).dropWhile p = rest := by
  rw [List.takeWhile_append_of_pos h, List.dropWhile_append_of_pos h]
  cases rest with
  | nil => simp
  | cons c rest => simp [behind c rfl]

/-! ## Blanks and marks -/

variable {rest : List Char} {lexemes : List Lexeme}

theorem lexes_space (h : Lexes rest lexemes) : Lexes (' ' :: rest) lexemes :=
  .blank (by decide) h

theorem lexes_line (h : Lexes rest lexemes) : Lexes ('\n' :: rest) lexemes :=
  .blank (by decide) h

theorem lexes_margin (level : Int) (h : Lexes rest lexemes) :
    Lexes ((Text.margin level).toList ++ rest) lexemes := by
  rw [Text.toList_margin]
  induction 2 * level.toNat with
  | zero => exact h
  | succ n ih => exact lexes_space ih

/-- A mark of one character that no longer mark starts with, and what tells it from the start of any
other lexeme. -/
theorem ofChar_facts {c : Char} {mark : Mark} (known : Mark.ofChar? c = some mark) :
    mark.spelling.toList = [c] ∧ Text.isBlank c = false ∧ c ≠ '<' ∧ c ≠ '.' ∧ c ≠ '"' ∧
      isWordChar c = false := by
  have written : c = ',' ∨ c = '(' ∨ c = ')' ∨ c = '\x7b' ∨ c = '\x7d' ∨ c = '+' ∨ c = '-' ∨
      c = '*' ∨ c = '/' ∨ c = '=' ∨ c = '>' := by
    unfold Mark.ofChar? at known
    grind
  rcases written with rfl | rfl | rfl | rfl | rfl | rfl | rfl | rfl | rfl | rfl | rfl
  all_goals
    obtain rfl := Option.some.inj known
    decide

theorem scan_ofChar {c : Char} {mark : Mark} (known : Mark.ofChar? c = some mark)
    (rest : List Char) : scan (c :: rest) = .lexeme (.mark mark) [c] rest := by
  obtain ⟨-, -, notLess, -⟩ := ofChar_facts known
  simp [scan, notLess, known]

theorem lexes_ofChar {c : Char} {mark : Mark} (known : Mark.ofChar? c = some mark)
    (h : Lexes rest lexemes) : Lexes (c :: rest) (.mark mark :: lexemes) :=
  .lexeme (ofChar_facts known).2.1 (scan_ofChar known rest) (by simp) (Nat.le_refl _) h

theorem lexes_unequal (h : Lexes rest lexemes) :
    Lexes ('<' :: '>' :: rest) (.mark .unequal :: lexemes) :=
  .lexeme (by decide) rfl (by simp) (by simp) h

theorem scan_less (behind : ∀ c ∈ rest.head?, c ≠ '>') :
    scan ('<' :: rest) = .lexeme (.mark .less) ['<'] rest := by
  unfold scan
  simp only [if_true]
  split
  · exact absurd rfl (behind '>' rfl)
  · rfl

theorem lexes_less (clean : Clean rest) (h : Lexes rest lexemes) :
    Lexes ('<' :: rest) (.mark .less :: lexemes) :=
  .lexeme (by decide) (scan_less fun c hc => (clean c hc).2.2.2) (by simp) (Nat.le_refl _) h

theorem takeWhile_eq_nil {p : Char → Bool} (behind : ∀ c ∈ rest.head?, p c = false) :
    rest.takeWhile p = [] := by
  cases rest with
  | nil => rfl
  | cons c rest => simp [behind c rfl]

theorem scan_dot (behind : ∀ c ∈ rest.head?, isDigit c = false) :
    scan ('.' :: rest) = .lexeme (.mark .dot) ['.'] rest := by
  have known : Mark.ofChar? '.' = .none := by decide
  simp [scan, known, takeWhile_eq_nil behind]

/-- A dot in front of a word. -/
theorem lexes_dot (behind : ∀ c ∈ rest.head?, isDigit c = false) (h : Lexes rest lexemes) :
    Lexes ('.' :: rest) (.mark .dot :: lexemes) :=
  .lexeme (by decide) (scan_dot behind) (by simp) (Nat.le_refl _) h

/-! ## Words -/

/-- Whether a text is a letter with letters and digits behind it. -/
def isSpelled (text : String) : Bool := text.toList.head?.any isLetter && text.toList.all isWordChar

/-- Whether a text can be the name of something. -/
def isName (text : String) : Bool := isSpelled text && (Keyword.ofSpelling? text).isNone

/-- What tells a letter from the start of any other lexeme. -/
theorem letter_facts {c : Char} (h : isLetter c = true) :
    Text.isBlank c = false ∧ c ≠ '<' ∧ Mark.ofChar? c = none ∧ c ≠ '.' ∧ isDigit c = false := by
  have ascii : c.toNat < 128 := ascii_of_isWordChar (by simp [isWordChar, h])
  refine ascii_forall (P := fun c => isLetter c = true →
    Text.isBlank c = false ∧ c ≠ '<' ∧ Mark.ofChar? c = none ∧ c ≠ '.' ∧ isDigit c = false) ?_
    ascii h
  decide +kernel

theorem isSpelled_iff {text : String} :
    isSpelled text = true ↔ ∃ c run, text.toList = c :: run ∧ isLetter c = true ∧
      ∀ d ∈ c :: run, isWordChar d = true := by
  unfold isSpelled
  cases text.toList with
  | nil => simp
  | cons c run =>
    constructor
    · intro h
      simp only [List.head?_cons, Option.any_some, Bool.and_eq_true, List.all_eq_true] at h
      exact ⟨c, run, rfl, h.1, h.2⟩
    · rintro ⟨d, run', heq, letter, word⟩
      obtain ⟨rfl, rfl⟩ := List.cons.inj heq
      simp only [List.head?_cons, Option.any_some, Bool.and_eq_true, List.all_eq_true]
      exact ⟨letter, word⟩

theorem scan_wordLexeme {text : String} (spelled : isSpelled text = true)
    (behind : ∀ c ∈ rest.head?, isWordChar c = false) :
    scan (text.toList ++ rest) = .lexeme (wordLexeme text) text.toList rest := by
  obtain ⟨c, run, htext, letter, word⟩ := isSpelled_iff.mp spelled
  obtain ⟨-, notLess, notMark, notDot, -⟩ := letter_facts letter
  obtain ⟨htake, hdrop⟩ := span_append word behind
  have same : String.ofList (c :: run) = text := by rw [← htext, String.ofList_toList]
  rw [htext]
  simp only [List.cons_append] at htake hdrop
  simp [scan, notLess, notMark, notDot, letter, htake, hdrop, same]

/-- Letters and digits form a keyword or a name. -/
theorem lexes_wordLexeme {text : String} (spelled : isSpelled text = true)
    (behind : ∀ c ∈ rest.head?, isWordChar c = false) (h : Lexes rest lexemes) :
    Lexes (text.toList ++ rest) (wordLexeme text :: lexemes) := by
  have hscan := scan_wordLexeme spelled behind
  obtain ⟨c, run, htext, letter, -⟩ := isSpelled_iff.mp spelled
  have real : wordLexeme text ≠ .finish := by
    unfold wordLexeme
    split <;> simp
  rw [htext] at hscan ⊢
  exact .lexeme (letter_facts letter).1 hscan real (by simp) h

theorem lexes_word {name : String} (hname : isName name = true)
    (behind : ∀ c ∈ rest.head?, isWordChar c = false) (h : Lexes rest lexemes) :
    Lexes (name.toList ++ rest) (.word name :: lexemes) := by
  simp only [isName, Bool.and_eq_true, Option.isNone_iff_eq_none] at hname
  have same : wordLexeme name = .word name := by simp [wordLexeme, hname.2]
  exact same ▸ lexes_wordLexeme hname.1 behind h

theorem lexes_keyword (keyword : Keyword) (behind : ∀ c ∈ rest.head?, isWordChar c = false)
    (h : Lexes rest lexemes) :
    Lexes (keyword.spelling.toList ++ rest) (.keyword keyword :: lexemes) := by
  have same : wordLexeme keyword.spelling = .keyword keyword := by simp [wordLexeme]
  have spelled : isSpelled keyword.spelling = true := by cases keyword <;> decide
  exact same ▸ lexes_wordLexeme spelled behind h

/-- A name starts with no digit, so a dot may stand in front of it. -/
theorem name_head {name : String} (hname : isName name = true) (rest : List Char) :
    ∀ c ∈ (name.toList ++ rest).head?, isDigit c = false := by
  simp only [isName, Bool.and_eq_true] at hname
  obtain ⟨c, run, htext, letter, -⟩ := isSpelled_iff.mp hname.1
  intro d hd
  obtain rfl : c = d := by simpa [htext] using hd
  exact (letter_facts letter).2.2.2.2

/-! ## Numerals -/

theorem digit_facts {c : Char} (h : c.isDigit = true) :
    Text.isBlank c = false ∧ c ≠ '<' ∧ Mark.ofChar? c = none ∧ c ≠ '.' ∧ isLetter c = false := by
  have ascii : c.toNat < 128 := ascii_of_isWordChar (isWordChar_of_isDigit h)
  refine ascii_forall (P := fun c => c.isDigit = true →
    Text.isBlank c = false ∧ c ≠ '<' ∧ Mark.ofChar? c = none ∧ c ≠ '.' ∧ isLetter c = false) ?_
    ascii h
  decide +kernel

theorem Clean.notDigit (clean : Clean rest) : ∀ c ∈ rest.head?, isDigit c = false := by
  intro c hc
  have := (clean c hc).1
  simp only [isWordChar, Bool.or_eq_false_iff] at this
  exact this.2

/-- What a digit starts is a numeral. -/
theorem scan_spanNumeral {c : Char} {text taken : List Char} (digit : c.isDigit = true)
    (hspan : spanNumeral (c :: text) = (taken, rest)) :
    scan (c :: text) = .lexeme (.number (String.ofList taken)) taken rest := by
  obtain ⟨-, notLess, notMark, notDot, notLetter⟩ := digit_facts digit
  have digit' : isDigit c = true := (isDigit_eq c).trans digit
  simp [scan, notLess, notMark, notDot, notLetter, digit', hspan]

theorem lexes_spanNumeral {c : Char} {text taken : List Char} (digit : c.isDigit = true)
    (hspan : spanNumeral (c :: text) = (taken, rest)) (shorter : rest.length ≤ text.length)
    (h : Lexes rest lexemes) :
    Lexes (c :: text) (.number (String.ofList taken) :: lexemes) :=
  .lexeme (digit_facts digit).1 (scan_spanNumeral digit hspan) (by simp) shorter h

theorem spanNumeral_whole {whole : List Char} (digits : ∀ c ∈ whole, c.isDigit = true)
    (behind : ∀ c ∈ rest.head?, isDigit c = false ∧ c ≠ '.') :
    spanNumeral (whole ++ rest) = (whole, rest) := by
  obtain ⟨htake, hdrop⟩ := span_append (p := isDigit)
    (fun c hc => (isDigit_eq c).trans (digits c hc)) fun c hc => (behind c hc).1
  unfold spanNumeral
  rw [hdrop, htake]
  split
  · exact absurd rfl (behind '.' rfl).2
  · rfl

theorem lexes_whole {whole : List Char} (digits : ∀ c ∈ whole, c.isDigit = true)
    (some_ : whole ≠ []) (clean : Clean rest) (h : Lexes rest lexemes) :
    Lexes (whole ++ rest) (.number (String.ofList whole) :: lexemes) := by
  have hspan := spanNumeral_whole digits fun c hc => ⟨clean.notDigit c hc, (clean c hc).2.1⟩
  cases whole with
  | nil => exact absurd rfl some_
  | cons c run => exact lexes_spanNumeral (digits c (by simp)) hspan (by simp) h

theorem spanNumeral_point {whole places : List Char} (digits : ∀ c ∈ whole, c.isDigit = true)
    (digits' : ∀ c ∈ places, c.isDigit = true) (behind : ∀ c ∈ rest.head?, isDigit c = false) :
    spanNumeral (whole ++ '.' :: (places ++ rest)) = (whole ++ '.' :: places, rest) := by
  have dot : ∀ c ∈ ('.' :: (places ++ rest)).head?, isDigit c = false := by simp [isDigit]
  obtain ⟨htake, hdrop⟩ := span_append (fun c hc => (isDigit_eq c).trans (digits c hc)) dot
  obtain ⟨htake', hdrop'⟩ := span_append (p := isDigit)
    (fun c hc => (isDigit_eq c).trans (digits' c hc)) behind
  simp [spanNumeral, hdrop, htake, htake', hdrop']

theorem lexes_point {whole places : List Char} (digits : ∀ c ∈ whole, c.isDigit = true)
    (digits' : ∀ c ∈ places, c.isDigit = true) (some_ : whole ≠ []) (clean : Clean rest)
    (h : Lexes rest lexemes) :
    Lexes (whole ++ '.' :: (places ++ rest))
      (.number (String.ofList (whole ++ '.' :: places)) :: lexemes) := by
  have hspan := spanNumeral_point digits digits' clean.notDigit
  cases whole with
  | nil => exact absurd rfl some_
  | cons c run => exact lexes_spanNumeral (digits c (by simp)) hspan (by simp; omega) h

/-- The fixed-point text of a number without a sign is one numeral. -/
theorem lexes_fixed {d : Decimal} (sign : d.negative = false) (small : d.exponent ≤ 0)
    (clean : Clean rest) (h : Lexes rest lexemes) :
    Lexes (d.fixed.toList ++ rest) (.number d.fixed :: lexemes) := by
  rw [Decimal.fixed_of_nonneg sign, String.toList_ofList]
  rcases Int.lt_or_eq_of_le small with point | whole
  · obtain ⟨whole, places, zeros, hdigits, some_, hpadded, -⟩ := Decimal.fixedDigits_point point
    have digits : ∀ c ∈ whole ++ places, c.isDigit = true := by
      rw [hpadded]
      exact fun c => Decimal.isDigit_of_mem_padded
    rw [hdigits, List.append_assoc, List.cons_append]
    exact lexes_point (fun c hc => digits c (List.mem_append_left _ hc))
      (fun c hc => digits c (List.mem_append_right _ hc)) some_ clean h
  · rw [Decimal.fixedDigits_whole whole]
    exact lexes_whole (fun c => Nat.isDigit_of_mem_toDigits (by decide) (by decide))
      Nat.toDigits_ne_nil clean h

/-! ## Strings -/

theorem spanString_doubleQuotes {content : List Char} (behind : ∀ c ∈ rest.head?, c ≠ '"') :
    spanString (Text.doubleQuotes content ++ '"' :: rest) =
      some (content, Text.doubleQuotes content ++ ['"'], rest) := by
  induction content with
  | nil =>
    simp only [Text.doubleQuotes, List.nil_append]
    unfold spanString
    split
    · contradiction
    · rename_i heq
      simp only [List.cons.injEq, true_and] at heq
      subst heq
      exact absurd rfl (behind '"' rfl)
    · simp_all
    · rename_i notQuote heq
      exact absurd (List.cons.inj heq).1.symm notQuote
  | cons c content ih =>
    by_cases quote : c = '"'
    · subst quote
      simp [Text.doubleQuotes, spanString, ih]
    · simp [Text.doubleQuotes, quote, spanString, ih]

theorem scan_quote (content : String) (behind : ∀ c ∈ rest.head?, c ≠ '"') :
    scan ((Text.quote content).toList ++ rest) =
      .lexeme (.text content) (Text.quote content).toList rest := by
  have known : Mark.ofChar? '"' = none := by decide
  have letter : isLetter '"' = false := by decide
  have digit : isDigit '"' = false := by decide
  rw [Text.toList_quote, List.cons_append, List.append_assoc, List.singleton_append]
  simp [scan, known, letter, digit, spanString_doubleQuotes behind]

/-- A string of any content, whatever lines it runs over. -/
theorem lexes_quote (content : String) (clean : Clean rest) (h : Lexes rest lexemes) :
    Lexes ((Text.quote content).toList ++ rest) (.text content :: lexemes) := by
  have hscan := scan_quote content fun c hc => (clean c hc).2.2.1
  rw [Text.toList_quote, List.cons_append] at hscan ⊢
  exact .lexeme (by decide) hscan (by simp) (by simp; omega) h

end Lexer

end ScopeScript
