import ScopeScript.Number.Decimal
import ScopeScript.Text.Blank
import ScopeScript.Text.Digit
set_option autoImplicit false

/-!
# Number: reading number texts

A number text is an optional sign before one of

* digits, with a point before, between or after them, and then an optional exponent;
* `Inf` or `Infinity`;
* `NaN` or `sNaN` with an optional payload of digits,

in any letter case.  Blanks may stand at both ends, `_` anywhere, and digits may be those of any
script.  The value is read exactly.  An exponent may not move the leading or the last digit to a
place beyond any arithmetic context.
-/

namespace ScopeScript.Number

/-- The greatest exponent that a leading digit may have. -/
def greatestAdjusted : Int := 999999999999999999

/-- The least exponent that a last digit may have. -/
def leastExponent : Int := -1999999999999999997

/-- The character as an ASCII digit, if it is a digit of any script. -/
def asciiDigit (c : Char) : Char :=
  match Text.digitValue? c with
  | some value => Nat.digitChar value
  | none => c

/-- The text with its blanks and separators taken out and its digits in ASCII. -/
def plainText (text : List Char) : List Char :=
  ((Text.trimBlanks text).filter (· != '_')).map asciiDigit

/-- Reads an optional sign: whether it is a minus, and what follows it. -/
def readSign : List Char → Bool × List Char
  | '-' :: rest => (true, rest)
  | '+' :: rest => (false, rest)
  | text => (false, text)

/-- Reads an exponent, which has to take up the whole text; the empty text is no exponent. -/
def readPower? (text : List Char) : Option (Option Int) :=
  match text with
  | [] => some none
  | mark :: rest =>
    if mark = 'e' || mark = 'E' then
      let (negative, digits) := readSign rest
      if !digits.isEmpty && digits.all Char.isDigit then
        let magnitude := Nat.ofDigitChars 10 digits 0
        some (some (if negative then -(magnitude : Int) else magnitude))
      else none
    else none

/-- Splits off the digits at the start of a text. -/
def spanDigits (text : List Char) : List Char × List Char :=
  (text.takeWhile Char.isDigit, text.dropWhile Char.isDigit)

/-- An unsigned decimal as it is written: the digits before and behind the point and the power of
ten after them. -/
structure Numeral where
  whole : List Char
  places : List Char
  power : Option Int
  deriving DecidableEq, Repr, Inhabited

/-- The decimal that a numeral stands for. -/
def Numeral.toDecimal (numeral : Numeral) (negative : Bool) : Decimal :=
  { negative := negative
    coefficient := Nat.ofDigitChars 10 (numeral.whole ++ numeral.places) 0
    exponent := numeral.power.getD 0 - numeral.places.length }

/-- Reads a numeral that takes up the whole text. -/
def readNumeral? (text : List Char) : Option Numeral :=
  let (whole, rest) := spanDigits text
  let (places, rest) := match rest with
    | '.' :: behind => spanDigits behind
    | other => ([], other)
  if whole.isEmpty && places.isEmpty then none
  else (readPower? rest).map fun power => ⟨whole, places, power⟩

/-- What follows a word, whatever the case of its letters; `word` is in lower case. -/
def afterWord? (word text : List Char) : Option (List Char) :=
  if (text.take word.length).map Char.toLower = word then some (text.drop word.length) else none

/-- Reads the special values. -/
def readSpecial? (negative : Bool) (text : List Char) : Option Number :=
  if afterWord? "inf".toList text = some [] || afterWord? "infinity".toList text = some [] then
    some (.infinity negative)
  else
    let payload? (signaling : Bool) (digits : List Char) : Option Number :=
      if digits.all Char.isDigit then
        some (.nan signaling negative (Nat.ofDigitChars 10 digits 0))
      else none
    match afterWord? "nan".toList text, afterWord? "snan".toList text with
    | some digits, _ => payload? false digits
    | none, some digits => payload? true digits
    | none, none => none

/-- Whether the leading and the last digit stand at places that some context has. -/
def inReach (d : Decimal) : Bool :=
  decide (d.adjusted ≤ greatestAdjusted) && decide (leastExponent ≤ d.exponent)

/-- Reads a number text, exactly. -/
def read? (text : String) : Option Number :=
  let (negative, body) := readSign (plainText text.toList)
  match readNumeral? body with
  | some numeral =>
    let d := numeral.toDecimal negative
    if numeral.power.isNone || inReach d then some (.finite d) else none
  | none => readSpecial? negative body

end ScopeScript.Number
