import ScopeScript.Number.Decimal
set_option autoImplicit false

/-!
# Number: how numbers are written

Scripts write numbers in fixed-point notation, since the language has no exponent syntax: the
digits of the coefficient with the point put where the exponent says, padded with zeros on either
side.  Only a zero without decimals drops its sign.

Hosts show a number in scientific notation: positional as long as the exponent is not positive and
the leading digit is at most six places behind the point, with an exponent otherwise.
-/

namespace ScopeScript

namespace Decimal

/-- The digits of a magnitude in fixed-point notation. -/
def fixedDigits (d : Decimal) : List Char :=
  let digits := Nat.toDigits 10 d.coefficient
  if 0 ≤ d.exponent then
    if d.coefficient = 0 then ['0'] else digits ++ List.replicate d.exponent.toNat '0'
  else
    let places := (-d.exponent).toNat
    let padded := List.replicate (places + 1 - digits.length) '0' ++ digits
    padded.take (padded.length - places) ++ '.' :: padded.drop (padded.length - places)

/-- Whether the fixed-point text of a decimal starts with a minus sign. -/
def showsSign (d : Decimal) : Bool :=
  d.negative && !(d.coefficient == 0 && decide (0 ≤ d.exponent))

/-- The fixed-point text of a decimal. -/
def fixed (d : Decimal) : String :=
  String.ofList (if d.showsSign then '-' :: d.fixedDigits else d.fixedDigits)

/-- An exponent with its sign. -/
def signedExponent (n : Int) : List Char :=
  (if n < 0 then '-' else '+') :: Nat.toDigits 10 n.natAbs

/-- The digits of a magnitude with the point after `place` of them. -/
def pointAfter (digits : List Char) (place : Int) : List Char :=
  if place ≤ 0 then '0' :: '.' :: (List.replicate (-place).toNat '0' ++ digits)
  else if digits.length ≤ place.toNat then
    digits ++ List.replicate (place.toNat - digits.length) '0'
  else digits.take place.toNat ++ '.' :: digits.drop place.toNat

/-- The scientific text of a decimal. -/
def scientific (d : Decimal) : String :=
  let digits := Nat.toDigits 10 d.coefficient
  let left : Int := d.exponent + digits.length
  let place : Int := if d.exponent ≤ 0 ∧ -6 < left then left else 1
  let body := pointAfter digits place
  let tail := if left = place then [] else 'E' :: signedExponent (left - place)
  String.ofList ((if d.negative then ['-'] else []) ++ body ++ tail)

end Decimal

namespace Number

/-- The text of an infinity. -/
def infinityText (negative : Bool) : String :=
  (if negative then "-" else "") ++ "Infinity"

/-- The text of a NaN; the payload is only shown when there is one. -/
def nanText (signaling negative : Bool) (payload : Nat) : String :=
  (if negative then "-" else "") ++ (if signaling then "sNaN" else "NaN") ++
    (if payload = 0 then "" else toString payload)

/-- A number as a script writes it. -/
def fixed : Number → String
  | .finite d => d.fixed
  | .infinity negative => infinityText negative
  | .nan signaling negative payload => nanText signaling negative payload

/-- A number as a host shows it. -/
def scientific : Number → String
  | .finite d => d.scientific
  | .infinity negative => infinityText negative
  | .nan signaling negative payload => nanText signaling negative payload

end Number

end ScopeScript
