import ScopeScript.Number.Decimal
set_option autoImplicit false

/-!
# Number: binary floating-point values of a host

Scripts compute with decimals only, but hosts and stored trees may hold 64-bit binary
floating-point values.  They are kept as a mantissa and a power of two, read from decimals by
rounding to the nearest value, turned back into the decimal they are exactly, and written with the
fewest digits that read back.
-/

namespace ScopeScript

/-- A 64-bit binary floating-point value. -/
inductive Binary64 where
  /-- `(-1)^negative · mantissa · 2^exponent`, with `mantissa < 2^53` and `-1074 ≤ exponent`; the
  mantissa is at least `2^52` unless the exponent is the least one -/
  | finite (negative : Bool) (mantissa : Nat) (exponent : Int)
  | infinity (negative : Bool)
  | nan
  deriving DecidableEq, Repr, Inhabited

namespace Binary64

/-- The exponent of the last binary place. -/
def leastExponent : Int := -1074

/-- The greatest exponent that a mantissa of 53 digits has. -/
def greatestExponent : Int := 971

/-- Numerator and denominator of `m · base^e`. -/
def ratio (base m : Nat) (e : Int) : Nat × Nat :=
  (m * Nat.pow base e.toNat, Nat.pow base (-e).toNat)

/-- The value nearest to the positive fraction `n / d`. -/
def ofFraction (negative : Bool) (n d : Nat) : Binary64 :=
  let estimate : Int := (Nat.log2 n : Int) - Nat.log2 d - 52
  let scaled (exponent : Int) : Nat × Nat :=
    (n * Nat.pow 2 (-exponent).toNat, d * Nat.pow 2 exponent.toNat)
  let short := scaled estimate
  let exponent :=
    max (if short.1 / short.2 < Nat.pow 2 52 then estimate - 1 else estimate) leastExponent
  let (top, bottom) := scaled exponent
  let mantissa := nearestEven top bottom
  let (mantissa, exponent) :=
    if mantissa = Nat.pow 2 53 then (Nat.pow 2 52, exponent + 1) else (mantissa, exponent)
  if greatestExponent < exponent then .infinity negative else .finite negative mantissa exponent

/-- The value nearest to a decimal.  A leading digit beyond every finite value or below half the
least one decides without any arithmetic. -/
def ofDecimal (d : Decimal) : Binary64 :=
  if d.coefficient = 0 || d.adjusted < -400 then .finite d.negative 0 leastExponent
  else if 400 < d.adjusted then .infinity d.negative
  else
    let (n, m) := ratio 10 d.coefficient d.exponent
    ofFraction d.negative n m

/-- Halves an even mantissa as often as possible, `steps` times at the most, and counts the
halvings. -/
def halve : Nat → Nat → Nat × Nat
  | 0, m => (m, 0)
  | steps + 1, m =>
    if m % 2 = 0 then
      let (rest, count) := halve steps (m / 2)
      (rest, count + 1)
    else (m, 0)

/-- The decimal that a finite value is exactly: an integer, or as few decimals as it has binary
places. -/
def toDecimal (negative : Bool) (mantissa : Nat) (exponent : Int) : Decimal :=
  if mantissa = 0 then ⟨negative, 0, 0⟩
  else if 0 ≤ exponent then ⟨negative, mantissa * Nat.pow 2 exponent.toNat, 0⟩
  else
    let (odd, count) := halve (-exponent).toNat mantissa
    let places := (-exponent).toNat - count
    ⟨negative, odd * Nat.pow 5 places, -(places : Int)⟩

/-! ## Shortest text -/

/-- The decimals of `digits` digits next to a decimal, the nearer one first. -/
def neighbours (d : Decimal) (digits : Nat) : List Decimal :=
  let count := digitCount d.coefficient
  if count ≤ digits then [d]
  else
    let unit := Nat.pow 10 (count - digits)
    let low : Decimal :=
      { d with coefficient := d.coefficient / unit, exponent := d.exponent + (count - digits) }
    let high : Decimal := { low with coefficient := low.coefficient + 1 }
    let twice := 2 * (d.coefficient % unit)
    if unit < twice || (twice == unit && low.coefficient % 2 == 1) then [high, low] else [low, high]

/-- The decimal with the fewest digits that reads back as the value of the decimal `exact`, and the
nearest one of those. -/
def shortest (exact : Decimal) : Decimal :=
  let value := ofDecimal exact
  let candidates := (List.range 17).flatMap fun n => neighbours exact (n + 1)
  (candidates.find? fun candidate => ofDecimal candidate = value).getD exact

/-- Drops the zeros at the end of a list of digits. -/
def dropTrailingZeros (digits : List Char) : List Char :=
  (digits.reverse.dropWhile (· == '0')).reverse

/-- Digits laid out with the point after `place` of them: positional from `0.0001` up to sixteen
digits before the point, and with an exponent of at least two digits otherwise. -/
def layout (digits : List Char) (place : Int) : List Char :=
  if -4 < place ∧ place ≤ 16 then
    if place ≤ 0 then '0' :: '.' :: (List.replicate (-place).toNat '0' ++ digits)
    else if digits.length ≤ place.toNat then
      digits ++ List.replicate (place.toNat - digits.length) '0' ++ ['.', '0']
    else digits.take place.toNat ++ '.' :: digits.drop place.toNat
  else
    let exponent := place - 1
    let power := Nat.toDigits 10 exponent.natAbs
    let behind := if digits.length ≤ 1 then [] else '.' :: digits.drop 1
    digits.take 1 ++ behind ++ 'e' :: (if exponent < 0 then '-' else '+') ::
      (List.replicate (2 - power.length) '0' ++ power)

/-- The text of a value: the fewest digits that read back. -/
def text : Binary64 → String
  | .nan => "nan"
  | .infinity negative => if negative then "-inf" else "inf"
  | .finite negative mantissa exponent =>
    let sign := if negative then "-" else ""
    if mantissa = 0 then sign ++ "0.0"
    else
      let d := shortest (toDecimal negative mantissa exponent)
      let digits := Nat.toDigits 10 d.coefficient
      sign ++ String.ofList (layout (dropTrailingZeros digits) (d.exponent + digits.length))

/-- Whether the value is a zero of either sign. -/
def isZero : Binary64 → Bool
  | .finite _ mantissa _ => mantissa == 0
  | _ => false

/-- The exact number that the value stands for. -/
def toNumber : Binary64 → Number
  | .finite negative mantissa exponent => .finite (toDecimal negative mantissa exponent)
  | .infinity negative => .infinity negative
  | .nan => .nan false false 0

/-- The value nearest to a number. -/
def ofNumber : Number → Binary64
  | .finite d => ofDecimal d
  | .infinity negative => .infinity negative
  | .nan _ _ _ => .nan

end Binary64

end ScopeScript
