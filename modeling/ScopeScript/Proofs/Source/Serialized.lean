import ScopeScript.Proofs.Source.Spelling
set_option autoImplicit false

/-!
# Source: lexemes written one behind the other

Lexemes are written with blanks between them, and with blanks or nothing at the two ends.  Splitting
such a text gives the lexemes back, whatever they are and whatever blanks stand between them: no
lexeme goes on with a blank, and none starts with one.
-/

namespace ScopeScript

namespace Lexer

variable {rest : List Char} {lexemes : List Lexeme}

theorem lexes_blanks {gap : List Char} (blanks : Text.Blanks gap) (h : Lexes rest lexemes) :
    Lexes (gap ++ rest) lexemes := by
  induction gap with
  | nil => exact h
  | cons c gap ih =>
    simp only [Text.Blanks, List.mem_cons, forall_eq_or_imp] at blanks
    exact .blank blanks.1 (ih blanks.2)

/-- Any lexeme in front of a text that does not go on with it. -/
theorem lexes_spells {lexeme : Lexeme} {taken : List Char} (spells : lexeme.Spells taken)
    (stops : lexeme.Stops rest) (h : Lexes rest lexemes) :
    Lexes (taken ++ rest) (lexeme :: lexemes) := by
  have hscan := scan_eq_lexeme_iff.mpr ⟨rfl, spells, stops⟩
  have real := spells.ne_finish
  obtain ⟨c, run, rfl, notBlank⟩ := spells_head spells
  exact .lexeme notBlank hscan real (by simp) h

/-- Nothing but blanks in front of more, or nothing at all. -/
theorem stops_blanks {gap : List Char} (blanks : Text.Blanks gap) (some_ : gap = [] → rest = [])
    (lexeme : Lexeme) : lexeme.Stops (gap ++ rest) := by
  cases gap with
  | nil =>
    rw [some_ rfl]
    exact lexeme.stops_nil
  | cons c gap =>
    intro d hd
    obtain rfl : c = d := by simpa using hd
    exact goesOn_blank (blanks c (by simp)) lexeme

end Lexer

/-- The text of lexemes in order, each with what stands behind it; `front` stands in front. -/
def serialize (front : List Char) : List (Lexeme × List Char) → List Char
  | [] => front
  | (lexeme, gap) :: rest => front ++ (lexeme.spelling ++ serialize gap rest)

theorem lexes_serialize {front : List Char} {items : List (Lexeme × List Char)}
    (blanks : Text.Blanks front) (gaps : ∀ item ∈ items, Text.Blanks item.2)
    (written : ∀ item ∈ items, item.1.Written) (apart : ∀ item ∈ items.dropLast, item.2 ≠ []) :
    Lexer.Lexes (serialize front items) (items.map Prod.fst) := by
  induction items generalizing front with
  | nil => simpa [serialize] using Lexer.lexes_blanks blanks .nil
  | cons item rest ih =>
    obtain ⟨lexeme, gap⟩ := item
    simp only [List.mem_cons, forall_eq_or_imp] at gaps written
    have apart' : ∀ item ∈ rest.dropLast, item.2 ≠ [] := by
      cases rest with
      | nil => simp
      | cons next others => exact fun item hitem => apart item (List.mem_cons_of_mem _ hitem)
    have stops : lexeme.Stops (serialize gap rest) := by
      cases rest with
      | nil =>
        have stops : lexeme.Stops (gap ++ []) := Lexer.stops_blanks gaps.1 (fun _ => rfl) lexeme
        rwa [List.append_nil] at stops
      | cons next others =>
        have some_ : gap ≠ [] := apart (lexeme, gap) (by simp)
        exact Lexer.stops_blanks gaps.1 (fun none => absurd none some_) lexeme
    exact Lexer.lexes_blanks blanks
      (Lexer.lexes_spells ⟨written.1, rfl⟩ stops (ih gaps.1 gaps.2 written.2 apart'))

/-- Splitting undoes writing: lexemes that are written with blanks between them are read back as
they were, kind and text, in order. -/
theorem tokenize_serialize (front : List Char) (items : List (Lexeme × List Char))
    (blanks : Text.Blanks front) (gaps : ∀ item ∈ items, Text.Blanks item.2)
    (written : ∀ item ∈ items, item.1.Written) (apart : ∀ item ∈ items.dropLast, item.2 ≠ []) :
    ∃ tokens, tokenize (String.ofList (serialize front items)) = .ok tokens ∧
      tokens.map Token.lexeme = items.map Prod.fst := by
  apply tokenize_of_lexes
  rw [String.toList_ofList]
  exact lexes_serialize blanks gaps written apart

/-- Lexemes that would run into each other without the blanks between them. -/
def closeItems : List (Lexeme × List Char) :=
  [(.number "1.", ['\n']), (.mark .dot, [' ']), (.number ".5", ['\t', '\u2028']),
   (.mark .less, ['\r', '\n']), (.mark .greater, [' ']), (.text "", [' ']),
   (.text "say \"if\"\n", ['\u00A0']), (.keyword .if_, [' ']), (.word "iff", [])]

theorem tokenize_serialize_closeItems :
    ∃ tokens, tokenize (String.ofList (serialize ['\n'] closeItems)) = .ok tokens ∧
      tokens.map Token.lexeme = closeItems.map Prod.fst :=
  tokenize_serialize ['\n'] closeItems (by decide) (by decide) (by decide) (by decide)

end ScopeScript
