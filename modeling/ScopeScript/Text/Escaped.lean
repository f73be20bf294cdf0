import ScopeScript.Text.Hidden
set_option autoImplicit false

/-!
# Text: pieces of text inside messages

Messages show a piece of text between single quotes; only a text with a single quote and no double
quote stands between double ones.  The backslash and the quote in use are escaped, the usual
layout characters have their letter, and hidden characters are written by code point in lower-case
hexadecimal, as short as its size allows.
-/

namespace ScopeScript.Text

/-- The last `width` hexadecimal digits of a number, in lower case. -/
def hexDigits (width n : Nat) : List Char :=
  let digits := Nat.toDigits 16 n
  List.replicate (width - digits.length) '0' ++ digits

/-- A character as a message between `mark`s shows it. -/
def escapeChar (mark c : Char) : List Char :=
  if c = mark || c = '\\' then ['\\', c]
  else if c = '\n' then ['\\', 'n']
  else if c = '\r' then ['\\', 'r']
  else if c = '\t' then ['\\', 't']
  else if isHidden c then
    let code := c.toNat
    if code < 0x100 then '\\' :: 'x' :: hexDigits 2 code
    else if code < 0x10000 then '\\' :: 'u' :: hexDigits 4 code
    else '\\' :: 'U' :: hexDigits 8 code
  else [c]

/-- The quote a message puts around a text. -/
def displayMark (text : List Char) : Char :=
  if text.contains '\'' && !text.contains '"' then '"' else '\''

/-- A text as messages show it. -/
def display (text : String) : String :=
  let mark := displayMark text.toList
  String.ofList (mark :: (text.toList.flatMap (escapeChar mark) ++ [mark]))

end ScopeScript.Text
