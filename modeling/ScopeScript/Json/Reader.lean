import ScopeScript.Entries
import ScopeScript.Json.Basic
import ScopeScript.Number.Reading
set_option autoImplicit false

/-!
# Json: reading documents

The reader accepts standard JSON and, besides, the words `NaN`, `Infinity` and `-Infinity` for the
floating-point values that have no other spelling.  Of several members of one name the last value
counts.  Control characters may not stand in a string unescaped.
-/

namespace ScopeScript.Json

/-- Why a text is not read as a document. -/
inductive Fault where
  /-- the text is no JSON document -/
  | malformed
  /-- an integer has more digits than are read -/
  | tooLong
  deriving DecidableEq, Repr, Inhabited

/-- A step reads a part of the text and returns the rest. -/
abbrev Step (α : Type) : Type := List Char → Except Fault (α × List Char)

/-- The blanks between the parts of a document. -/
def isGap (c : Char) : Bool := c == ' ' || c == '\t' || c == '\n' || c == '\r'

/-- The text after the blanks at its start. -/
def skipGap (text : List Char) : List Char := text.dropWhile isGap

/-- The most digits of an integer that is read. -/
def mostDigits : Nat := 4300

/-! ## Strings -/

/-- The value of a hexadecimal digit. -/
def hexValue? (c : Char) : Option Nat :=
  if '0' ≤ c ∧ c ≤ '9' then some (c.toNat - '0'.toNat)
  else if 'a' ≤ c ∧ c ≤ 'f' then some (c.toNat - 'a'.toNat + 10)
  else if 'A' ≤ c ∧ c ≤ 'F' then some (c.toNat - 'A'.toNat + 10)
  else none

/-- The value of four hexadecimal digits at the start of a text. -/
def hexQuad? : List Char → Option (Nat × List Char)
  | a :: b :: c :: d :: rest => do
    let high ← hexValue? a
    let second ← hexValue? b
    let third ← hexValue? c
    let low ← hexValue? d
    some (((high * 16 + second) * 16 + third) * 16 + low, rest)
  | _ => none

/-- The character of an escaped code unit; two units may stand for one character.  A surrogate that
is not one half of such a pair is no character, and becomes U+FFFD; JSON readers with texts that may
hold surrogates keep it. -/
def unitChar? (text : List Char) : Option (Char × List Char) := do
  let (first, rest) ← hexQuad? text
  if 0xD800 ≤ first ∧ first < 0xDC00 then
    match rest with
    | '\\' :: 'u' :: more =>
      match hexQuad? more with
      | some (second, rest') =>
        if 0xDC00 ≤ second ∧ second < 0xE000 then
          some (Char.ofNat (0x10000 + (first - 0xD800) * 0x400 + (second - 0xDC00)), rest')
        else some (Char.ofNat 0xFFFD, rest)
      | none => some (Char.ofNat 0xFFFD, rest)
    | _ => some (Char.ofNat 0xFFFD, rest)
  else if 0xDC00 ≤ first ∧ first < 0xE000 then some (Char.ofNat 0xFFFD, rest)
  else some (Char.ofNat first, rest)

/-- The character of an escape, after its backslash. -/
def escapeChar? : List Char → Option (Char × List Char)
  | '"' :: rest => some ('"', rest)
  | '\\' :: rest => some ('\\', rest)
  | '/' :: rest => some ('/', rest)
  | 'b' :: rest => some ('\x08', rest)
  | 'f' :: rest => some ('\x0c', rest)
  | 'n' :: rest => some ('\n', rest)
  | 'r' :: rest => some ('\r', rest)
  | 't' :: rest => some ('\t', rest)
  | 'u' :: rest => unitChar? rest
  | _ => none

/-- Reads the characters of a string up to the closing quote; `done` holds those already read, last
first. -/
def readChars : Nat → List Char → Step String
  | 0, _, _ => .error .malformed
  | fuel + 1, done, text =>
    match text with
    | [] => .error .malformed
    | '"' :: rest => .ok (String.ofList done.reverse, rest)
    | '\\' :: rest =>
      match escapeChar? rest with
      | some (c, rest') => readChars fuel (c :: done) rest'
      | none => .error .malformed
    | c :: rest => if c.toNat < 32 then .error .malformed else readChars fuel (c :: done) rest

/-! ## Numbers -/

/-- Splits off the digits of an integer part: a zero alone, or digits that do not start with one. -/
def spanInteger : List Char → List Char × List Char
  | '0' :: rest => (['0'], rest)
  | text => Number.spanDigits text

/-- Splits off a fraction, point included, if there is a complete one. -/
def spanFraction : List Char → List Char × List Char
  | '.' :: rest =>
    let (digits, rest') := Number.spanDigits rest
    if digits.isEmpty then ([], '.' :: rest) else ('.' :: digits, rest')
  | text => ([], text)

/-- Splits off an exponent, its mark included, if there is a complete one. -/
def spanExponent : List Char → List Char × List Char
  | [] => ([], [])
  | mark :: rest =>
    if mark = 'e' || mark = 'E' then
      let (sign, rest') := match rest with
        | '+' :: more => (['+'], more)
        | '-' :: more => (['-'], more)
        | more => ([], more)
      let (digits, rest'') := Number.spanDigits rest'
      if digits.isEmpty then ([], mark :: rest) else (mark :: (sign ++ digits), rest'')
    else ([], mark :: rest)

/-- Reads a number after its sign. -/
def readNumber (negative : Bool) : Step Json := fun text =>
  let (whole, rest) := spanInteger text
  if whole.isEmpty then .error .malformed
  else
    let (fraction, rest) := spanFraction rest
    let (exponent, rest) := spanExponent rest
    if fraction.isEmpty && exponent.isEmpty then
      if mostDigits < whole.length then .error .tooLong
      else
        let magnitude : Int := Nat.ofDigitChars 10 whole 0
        .ok (.integer (if negative then -magnitude else magnitude), rest)
    else
      match Number.readNumeral? (whole ++ fraction ++ exponent) with
      | some numeral => .ok (.float (Binary64.ofDecimal (numeral.toDecimal negative)), rest)
      | none => .error .malformed

/-! ## Documents -/

/-- What follows a word at the start of a text. -/
def afterWord? (word text : List Char) : Option (List Char) :=
  if text.take word.length = word then some (text.drop word.length) else none

/-- The documents that are words. -/
def words : List (String × Json) :=
  [("null", .null), ("true", .bool true), ("false", .bool false), ("NaN", .float .nan),
   ("Infinity", .float (.infinity false)), ("-Infinity", .float (.infinity true))]

/-- Reads a word. -/
def readWord? (text : List Char) : Option (Json × List Char) :=
  words.findSome? fun (word, value) => (afterWord? word.toList text).map (value, ·)

mutual

/-- Reads a document that starts at the first character. -/
def readValue : Nat → Step Json
  | 0, _ => .error .malformed
  | fuel + 1, text =>
    match text with
    | '"' :: rest => do
      let (value, rest) ← readChars (rest.length + 1) [] rest
      .ok (.string value, rest)
    | '\x7b' :: rest =>
      match skipGap rest with
      | '\x7d' :: rest => .ok (.object [], rest)
      | start => readMembers fuel [] start
    | '[' :: rest =>
      match skipGap rest with
      | ']' :: rest => .ok (.array [], rest)
      | start => readItems fuel [] start
    | _ =>
      match readWord? text with
      | some result => .ok result
      | none =>
        match text with
        | '-' :: rest => readNumber true rest
        | _ => readNumber false text

/-- Reads the items of an array from the next one on; `done` holds those already read, last
first. -/
def readItems : Nat → List Json → Step Json
  | 0, _, _ => .error .malformed
  | fuel + 1, done, text => do
    let (item, rest) ← readValue fuel text
    match skipGap rest with
    | ',' :: rest => readItems fuel (item :: done) (skipGap rest)
    | ']' :: rest => .ok (.array (item :: done).reverse, rest)
    | _ => .error .malformed

/-- Reads the members of an object from the next one on. -/
def readMembers : Nat → List (String × Json) → Step Json
  | 0, _, _ => .error .malformed
  | fuel + 1, done, text =>
    match text with
    | '"' :: rest => do
      let (name, rest) ← readChars (rest.length + 1) [] rest
      match skipGap rest with
      | ':' :: rest =>
        let (value, rest) ← readValue fuel (skipGap rest)
        match skipGap rest with
        | ',' :: rest => readMembers fuel (Entries.put done name value) (skipGap rest)
        | '\x7d' :: rest => .ok (.object (Entries.put done name value), rest)
        | _ => .error .malformed
      | _ => .error .malformed
    | _ => .error .malformed

end

/-- Reads a text that holds one document. -/
def read (text : String) : Except Fault Json := do
  let start := skipGap text.toList
  let (value, rest) ← readValue (start.length + 1) start
  if (skipGap rest).isEmpty then .ok value else .error .malformed

end ScopeScript.Json
