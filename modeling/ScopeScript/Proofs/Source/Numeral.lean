import ScopeScript.Number.Reading
import ScopeScript.Number.Text
import ScopeScript.Token.Lexer
set_option autoImplicit false

/-!
# Source: numerals are read exactly

A script writes a number as ASCII digits with at most one point.  The reader of number texts takes
blanks, separators, signs, exponents and digits of other scripts besides; none of that stands in a
numeral, so its coefficient is that of its digits and its exponent counts the digits behind the
point.
-/

namespace ScopeScript

namespace Lexer

/-- A property of ASCII characters can be checked for one after the other. -/
theorem ascii_forall {P : Char → Prop} (h : ∀ n < 128, P (Char.ofNat n)) {c : Char}
    (ascii : c.toNat < 128) : P c := by
  have := h c.toNat ascii
  rwa [Char.ofNat_toNat] at this

theorem isDigit_eq (c : Char) : isDigit c = c.isDigit := by
  simp only [isDigit, Char.isDigit, Char.le_def, ge_iff_le]

theorem ascii_of_isWordChar {c : Char} (h : isWordChar c = true) : c.toNat < 128 := by
  simp only [isWordChar, isLetter, isDigit, Char.le_def, UInt32.le_iff_toNat_le, Bool.or_eq_true,
    Bool.and_eq_true, decide_eq_true_eq] at h
  have : 'z'.val.toNat = 122 := rfl
  have : 'Z'.val.toNat = 90 := rfl
  have : '9'.val.toNat = 57 := rfl
  have : c.toNat = c.val.toNat := rfl
  omega

theorem isWordChar_of_isDigit {c : Char} (h : c.isDigit = true) : isWordChar c = true := by
  simp [isWordChar, isDigit_eq, h]

end Lexer

namespace Number

/-! ## What the reader of number texts leaves alone -/

/-- The characters of numerals. -/
def IsPlain (c : Char) : Prop := c.isDigit = true ∨ c = '.'

instance (c : Char) : Decidable (IsPlain c) :=
  inferInstanceAs (Decidable (_ ∨ _))

theorem ascii_of_plain {c : Char} (h : IsPlain c) : c.toNat < 128 := by
  rcases h with h | rfl
  · exact Lexer.ascii_of_isWordChar (Lexer.isWordChar_of_isDigit h)
  · decide

/-- A character of a numeral is no blank, no separator, no sign and a digit only of ASCII. -/
theorem plain_facts {c : Char} (h : IsPlain c) :
    Text.isBlank c = false ∧ c ≠ '_' ∧ asciiDigit c = c ∧ c ≠ '-' ∧ c ≠ '+' := by
  refine Lexer.ascii_forall (P := fun c => IsPlain c →
    Text.isBlank c = false ∧ c ≠ '_' ∧ asciiDigit c = c ∧ c ≠ '-' ∧ c ≠ '+') ?_ (ascii_of_plain h) h
  decide +kernel

theorem dropWhile_eq_self {p : Char → Bool} {text : List Char} (h : ∀ c ∈ text, p c = false) :
    text.dropWhile p = text := by
  cases text with
  | nil => rfl
  | cons c rest => simp [h c (by simp)]

/-- A text without blanks and separators and with digits of ASCII only is plain as it is. -/
theorem plainText_of_forall {text : List Char}
    (h : ∀ c ∈ text, Text.isBlank c = false ∧ c ≠ '_' ∧ asciiDigit c = c) :
    plainText text = text := by
  have notBlank : ∀ c ∈ text, Text.isBlank c = false := fun c hc => (h c hc).1
  have trimmed : Text.trimBlanks text = text := by
    rw [Text.trimBlanks, dropWhile_eq_self notBlank, dropWhile_eq_self, List.reverse_reverse]
    simpa using notBlank
  have kept : text.filter (· != '_') = text := by
    rw [List.filter_eq_self]
    intro c hc
    simpa using (h c hc).2.1
  have same : text.map asciiDigit = text := by
    rw [List.map_congr_left fun c hc => (h c hc).2.2, List.map_id']
  rw [plainText, trimmed, kept, same]

theorem plainText_eq_self {text : List Char} (h : ∀ c ∈ text, IsPlain c) :
    plainText text = text := by
  refine plainText_of_forall fun c hc => ?_
  obtain ⟨notBlank, noSeparator, ascii, -, -⟩ := plain_facts (h c hc)
  exact ⟨notBlank, noSeparator, ascii⟩

theorem readSign_eq_self {text : List Char} (h : ∀ c ∈ text, IsPlain c) :
    readSign text = (false, text) := by
  unfold readSign
  split
  · exact absurd rfl (plain_facts (h '-' (by simp))).2.2.2.1
  · exact absurd rfl (plain_facts (h '+' (by simp))).2.2.2.2
  · rfl

/-! ## Numerals -/

theorem spanDigits_append {digits rest : List Char} (h : ∀ c ∈ digits, c.isDigit = true)
    (behind : ∀ c ∈ rest.head?, c.isDigit = false) :
    spanDigits (digits ++ rest) = (digits, rest) := by
  have hrest : rest.takeWhile Char.isDigit = [] ∧ rest.dropWhile Char.isDigit = rest := by
    cases rest with
    | nil => simp
    | cons c rest => simp [behind c rfl]
  rw [spanDigits, List.takeWhile_append_of_pos h, List.dropWhile_append_of_pos h, hrest.1, hrest.2,
    List.append_nil]

theorem readNumeral?_whole {whole : List Char} (digits : ∀ c ∈ whole, c.isDigit = true)
    (some_ : whole ≠ []) : readNumeral? whole = some ⟨whole, [], none⟩ := by
  have hspan : spanDigits whole = (whole, []) := by
    simpa using spanDigits_append digits (by simp : ∀ c ∈ ([] : List Char).head?, c.isDigit = false)
  simp [readNumeral?, hspan, some_, readPower?]

theorem readNumeral?_point {whole places : List Char} (digits : ∀ c ∈ whole, c.isDigit = true)
    (digits' : ∀ c ∈ places, c.isDigit = true) (some_ : whole ≠ [] ∨ places ≠ []) :
    readNumeral? (whole ++ '.' :: places) = some ⟨whole, places, none⟩ := by
  have hwhole : spanDigits (whole ++ '.' :: places) = (whole, '.' :: places) :=
    spanDigits_append digits (by simp)
  have hplaces : spanDigits places = (places, []) := by
    simpa using spanDigits_append digits'
      (by simp : ∀ c ∈ ([] : List Char).head?, c.isDigit = false)
  have notBoth : (whole.isEmpty && places.isEmpty) = false := by
    rcases some_ with h | h <;> simp [h]
  simp [readNumeral?, hwhole, hplaces, notBoth, readPower?]

/-- A numeral without a point is read as a number without decimals. -/
theorem read?_whole {whole : List Char} (digits : ∀ c ∈ whole, c.isDigit = true)
    (some_ : whole ≠ []) :
    read? (String.ofList whole) = some (.finite ⟨false, Nat.ofDigitChars 10 whole 0, 0⟩) := by
  have plain : ∀ c ∈ whole, IsPlain c := fun c hc => .inl (digits c hc)
  simp [read?, plainText_eq_self plain, readSign_eq_self plain, readNumeral?_whole digits some_,
    Numeral.toDecimal]

/-- A numeral with a point is read as a number with as many decimals as it shows. -/
theorem read?_point {whole places : List Char} (digits : ∀ c ∈ whole, c.isDigit = true)
    (digits' : ∀ c ∈ places, c.isDigit = true) (some_ : whole ≠ [] ∨ places ≠ []) :
    read? (String.ofList (whole ++ '.' :: places)) =
      some (.finite ⟨false, Nat.ofDigitChars 10 (whole ++ places) 0, -places.length⟩) := by
  have plain : ∀ c ∈ whole ++ '.' :: places, IsPlain c := by
    intro c hc
    simp only [List.mem_append, List.mem_cons] at hc
    rcases hc with hc | rfl | hc
    · exact .inl (digits c hc)
    · exact .inr rfl
    · exact .inl (digits' c hc)
  simp [read?, plainText_eq_self plain, readSign_eq_self plain,
    readNumeral?_point digits digits' some_, Numeral.toDecimal]

end Number

/-! ## Fixed-point texts -/

namespace Decimal

/-- Without decimals, the digits of a magnitude are those of its coefficient. -/
theorem fixedDigits_whole {d : Decimal} (h : d.exponent = 0) :
    d.fixedDigits = Nat.toDigits 10 d.coefficient := by
  by_cases zero : d.coefficient = 0
  · simp [fixedDigits, h, zero]
  · simp [fixedDigits, h, zero]

/-- With decimals, the digits of a magnitude are those of its coefficient behind as many zeros as
there have to be for one of them to stand before the point. -/
theorem fixedDigits_point {d : Decimal} (h : d.exponent < 0) :
    ∃ whole places zeros, d.fixedDigits = whole ++ '.' :: places ∧ whole ≠ [] ∧
      whole ++ places = List.replicate zeros '0' ++ Nat.toDigits 10 d.coefficient ∧
      (places.length : Int) = -d.exponent := by
  have notWhole : ¬ 0 ≤ d.exponent := by omega
  let count := (-d.exponent).toNat
  let digits := Nat.toDigits 10 d.coefficient
  let padded := List.replicate (count + 1 - digits.length) '0' ++ digits
  have long : count < padded.length := by
    simp only [padded, List.length_append, List.length_replicate]
    omega
  refine ⟨padded.take (padded.length - count), padded.drop (padded.length - count),
    count + 1 - digits.length, ?_, ?_, List.take_append_drop _ _, ?_⟩
  · simp only [fixedDigits, if_neg notWhole]
    rfl
  · intro empty
    have := congrArg List.length empty
    simp only [List.length_take, List.length_nil] at this
    omega
  · simp only [List.length_drop]
    omega

theorem isDigit_of_mem_padded {zeros n : Nat} {c : Char}
    (h : c ∈ List.replicate zeros '0' ++ Nat.toDigits 10 n) : c.isDigit = true := by
  rcases List.mem_append.mp h with h | h
  · rw [List.eq_of_mem_replicate h]
    decide
  · exact Nat.isDigit_of_mem_toDigits (by decide) (by decide) h

theorem fixed_of_nonneg {d : Decimal} (h : d.negative = false) :
    d.fixed = String.ofList d.fixedDigits := by
  simp [fixed, showsSign, h]

/-- The fixed-point text of a number without a sign is read as that number, trailing zeros and
all. -/
theorem read?_fixed {d : Decimal} (sign : d.negative = false) (small : d.exponent ≤ 0) :
    Number.read? d.fixed = some (.finite d) := by
  rw [fixed_of_nonneg sign]
  rcases Int.lt_or_eq_of_le small with point | whole
  · obtain ⟨whole, places, zeros, hdigits, some_, hpadded, hlength⟩ := fixedDigits_point point
    have digits : ∀ c ∈ whole ++ places, c.isDigit = true := by
      rw [hpadded]
      exact fun c => isDigit_of_mem_padded
    have value : Nat.ofDigitChars 10 (whole ++ places) 0 = d.coefficient := by
      rw [hpadded, Nat.ofDigitChars_append, Nat.ofDigitChars_replicate_zero, Nat.mul_zero,
        Nat.ofDigitChars_ten_toDigits]
    rw [hdigits, Number.read?_point (fun c hc => digits c (List.mem_append_left _ hc))
      (fun c hc => digits c (List.mem_append_right _ hc)) (.inl some_), value, hlength, Int.neg_neg]
    rw [← sign]
  · have digits : ∀ c ∈ Nat.toDigits 10 d.coefficient, c.isDigit = true :=
      fun c => Nat.isDigit_of_mem_toDigits (by decide) (by decide)
    rw [fixedDigits_whole whole, Number.read?_whole digits Nat.toDigits_ne_nil,
      Nat.ofDigitChars_ten_toDigits, ← sign, ← whole]

end Decimal

end ScopeScript
