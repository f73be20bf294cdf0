set_option autoImplicit false

/-!
# Number: decimal numbers

A script number is a decimal triple: a sign, a natural coefficient and a power of ten.  Different
triples may stand for the same value (`1.50` and `1.5`), and they are kept apart, because a number
prints with the digits it was written or computed with.  A zero keeps its sign and its exponent.

Scripts only ever see finite numbers.  Hosts may hand over an infinity or a NaN, so `Number` has
those too.
-/

namespace ScopeScript

/-- The finite decimal `(-1)^negative · coefficient · 10^exponent`. -/
structure Decimal where
  negative : Bool
  coefficient : Nat
  exponent : Int
  deriving DecidableEq, Repr, Inhabited

/-- A decimal number, or one of the special values of decimal arithmetic. -/
inductive Number where
  | finite (value : Decimal)
  | infinity (negative : Bool)
  /-- A NaN carries a diagnostic payload, `0` when there is none. -/
  | nan (signaling negative : Bool) (payload : Nat)
  deriving DecidableEq, Repr, Inhabited

/-- The number of decimal digits of a natural number; one for zero. -/
def digitCount (n : Nat) : Nat := (Nat.toDigits 10 n).length

theorem digitCount_pos (n : Nat) : 0 < digitCount n := Nat.length_toDigits_pos

theorem digitCount_le_iff {n k : Nat} (h : 0 < k) : digitCount n ≤ k ↔ n < Nat.pow 10 k :=
  Nat.length_toDigits_le_iff (by decide) h

/-- The quotient of `n` by `unit`, rounded to the nearest natural number and to the even one of two
that are equally near. -/
def nearestEven (n unit : Nat) : Nat :=
  let quotient := n / unit
  let remainder := n % unit
  if unit < 2 * remainder || (2 * remainder == unit && quotient % 2 == 1) then quotient + 1
  else quotient

/-- Drops trailing zeros of a coefficient, `most` of them at the most: what is left of it and how
many were dropped. -/
def dropZeros : Nat → Nat → Nat × Nat
  | 0, n => (n, 0)
  | most + 1, n =>
    if n % 10 = 0 then
      let (rest, dropped) := dropZeros most (n / 10)
      (rest, dropped + 1)
    else (n, 0)

namespace Decimal

/-- The decimal that stands for an integer. -/
def ofInt (n : Int) : Decimal := ⟨n < 0, n.natAbs, 0⟩

/-- Whether the value is zero, of either sign and any exponent. -/
def isZero (d : Decimal) : Bool := d.coefficient == 0

/-- The exponent of the leading digit. -/
def adjusted (d : Decimal) : Int := d.exponent + digitCount d.coefficient - 1

/-- The decimal without its sign. -/
def abs (d : Decimal) : Decimal := { d with negative := false }

/-- The decimal with the other sign. -/
def flip (d : Decimal) : Decimal := { d with negative := !d.negative }

/-- The decimal of the same value with the shortest coefficient; a zero loses its sign and its
exponent. -/
def reduced (d : Decimal) : Decimal :=
  if d.coefficient = 0 then ⟨false, 0, 0⟩
  else
    let (rest, dropped) := dropZeros (digitCount d.coefficient) d.coefficient
    ⟨d.negative, rest, d.exponent + dropped⟩

/-! ## Order

The order of decimals is the order of the values they stand for.  Numbers whose leading digits
stand at different places are told apart by that alone; otherwise the exponents differ by less than
the longer coefficient has digits, and the coefficients are aligned exactly. -/

/-- Compares the magnitudes of two decimals other than zero. -/
def compareMagnitude (a b : Decimal) : Ordering :=
  match compare a.adjusted b.adjusted with
  | .eq =>
    let least := min a.exponent b.exponent
    compare (a.coefficient * Nat.pow 10 (a.exponent - least).toNat)
      (b.coefficient * Nat.pow 10 (b.exponent - least).toNat)
  | decided => decided

/-- Compares two decimals by value; the sign of a zero does not count. -/
def compare (a b : Decimal) : Ordering :=
  match a.isZero, b.isZero with
  | true, true => .eq
  | true, false => if b.negative then .gt else .lt
  | false, true => if a.negative then .lt else .gt
  | false, false =>
    match a.negative, b.negative with
    | false, false => compareMagnitude a b
    | true, true => compareMagnitude b a
    | false, true => .gt
    | true, false => .lt

/-! ## Integers among the decimals -/

/-- The integer that a decimal stands for, if its value is one.  A coefficient with no more digits
than there are decimal places is a proper fraction, so no power of ten beyond its length is
formed. -/
def toInt? (d : Decimal) : Option Int :=
  let signed (n : Nat) : Int := if d.negative then -(n : Int) else n
  if d.coefficient = 0 then some 0
  else if 0 ≤ d.exponent then some (signed (d.coefficient * Nat.pow 10 d.exponent.toNat))
  else
    let places := (-d.exponent).toNat
    if digitCount d.coefficient ≤ places then none
    else if d.coefficient % Nat.pow 10 places = 0 then
      some (signed (d.coefficient / Nat.pow 10 places))
    else none

end Decimal

namespace Number

/-- Whether the number is neither an infinity nor a NaN. -/
def isFinite : Number → Bool
  | .finite _ => true
  | _ => false

/-- The sign of a number, special values included. -/
def isNegative : Number → Bool
  | .finite d => d.negative
  | .infinity negative => negative
  | .nan _ negative _ => negative

/-- The number of the same value with the shortest coefficient. -/
def reduced : Number → Number
  | .finite d => .finite d.reduced
  | special => special

/-- Whether the number is a zero of any sign and exponent. -/
def isZero : Number → Bool
  | .finite d => d.isZero
  | _ => false

end Number

end ScopeScript
