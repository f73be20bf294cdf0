import ScopeScript.Number.Decimal
set_option autoImplicit false

/-!
# Number: arithmetic in a context

Arithmetic follows the general decimal arithmetic rules.  A context fixes how many digits a result
may have and which exponents its leading digit may take.  Every operation forms the exact result,
or a stand-in that rounds like it, and rounds it once: to the nearest number of the context, a tie
going to the even last digit.

* A result of too many digits loses its last ones.
* A result with more decimal places than the context has loses them, down to zero.
* A result whose leading digit lies beyond the greatest exponent is an overflow.
* A zero keeps its sign, and its exponent is moved into the range of the context.

Operations on NaNs and infinities without a value signal an invalid operation.
-/

namespace ScopeScript

/-- Why a decimal operation has no result. -/
inductive Signal where
  /-- the result is too large for the context -/
  | overflow
  /-- the operation is not defined for its operands -/
  | invalid
  deriving DecidableEq, Repr, Inhabited

/-- The digits and exponents that the results of operations may have. -/
structure Context where
  /-- the number of significant digits -/
  precision : Nat
  /-- the least exponent of a leading digit of a result with full precision -/
  leastExponent : Int := -999999
  /-- the greatest exponent of a leading digit -/
  greatestExponent : Int := 999999
  deriving DecidableEq, Repr, Inhabited

namespace Context

/-- The context in which numbers are negated for printing, and that sessions start with unless they
choose another precision. -/
def standard : Context := { precision := 28 }

/-- The exponent of the last decimal place that the context has. -/
def tiny (ctx : Context) : Int := ctx.leastExponent - ctx.precision + 1

/-- The precisions that a context can be made with. -/
def validPrecision (precision : Int) : Bool :=
  decide (1 ≤ precision) && decide (precision ≤ 999999999999999999)

/-! ## Rounding -/

/-- The exponent of the last place that a magnitude keeps in the context. -/
def lastPlace (ctx : Context) (d : Decimal) : Int :=
  max (d.exponent + digitCount d.coefficient - ctx.precision) ctx.tiny

/-- The coefficient that is left when a magnitude is rounded at the place `place`, which lies before
its last digit.  A magnitude below a tenth of that place leaves nothing. -/
def roundedCoefficient (d : Decimal) (place : Int) : Nat :=
  if d.exponent + digitCount d.coefficient < place then 0
  else nearestEven d.coefficient (Nat.pow 10 (place - d.exponent).toNat)

/-- Fails with an overflow when the leading digit lies beyond the context. -/
def checkOverflow (ctx : Context) (d : Decimal) : Except Signal Decimal :=
  if ctx.greatestExponent < d.adjusted then .error .overflow else .ok d

/-- The number of the context nearest to a decimal. -/
def round (ctx : Context) (d : Decimal) : Except Signal Decimal :=
  if d.coefficient = 0 then
    .ok { d with exponent := min (max d.exponent ctx.tiny) ctx.greatestExponent }
  else
    let place := ctx.lastPlace d
    if d.exponent < place then do
      let _ ← ctx.checkOverflow d
      let coefficient := roundedCoefficient d place
      if ctx.precision < digitCount coefficient then
        ctx.checkOverflow { d with coefficient := coefficient / 10, exponent := place + 1 }
      else
        ctx.checkOverflow { d with coefficient := coefficient, exponent := place }
    else ctx.checkOverflow d

/-! ## Operations on finite decimals -/

/-- The sum of two decimals of which the second is zero, before rounding: the first one with the
exponent of the sum, or as near to it as the precision can show. -/
def addZero (ctx : Context) (d : Decimal) (exponent : Int) : Decimal :=
  let place := max (min d.exponent exponent) (d.exponent - ctx.precision - 1)
  { d with coefficient := d.coefficient * Nat.pow 10 (d.exponent - place).toNat, exponent := place }

/-- Replaces a magnitude that lies below every place that can matter to a rounded sum by a one at
the place `place`, which makes the sum round the same way. -/
def raiseTo (place : Int) (d : Decimal) : Decimal :=
  if d.adjusted < place then { d with coefficient := 1, exponent := place } else d

/-- Two decimals other than zero brought to one exponent, at which their sum rounds like the exact
sum.  The second has the smaller exponent. -/
def align (ctx : Context) (high low : Decimal) : Decimal × Decimal :=
  let place := high.exponent + min (-1) ((digitCount high.coefficient : Int) - ctx.precision - 2)
  let low := raiseTo place low
  ({ high with
      coefficient := high.coefficient * Nat.pow 10 (high.exponent - low.exponent).toNat
      exponent := low.exponent }, low)

/-- The exact sum of two decimals with one exponent; an exact zero is positive. -/
def addAligned (a b : Decimal) : Decimal :=
  if a.negative = b.negative then { a with coefficient := a.coefficient + b.coefficient }
  else if a.coefficient = b.coefficient then ⟨false, 0, a.exponent⟩
  else if a.coefficient < b.coefficient then
    { b with coefficient := b.coefficient - a.coefficient }
  else { a with coefficient := a.coefficient - b.coefficient }

/-- The sum of two decimals, before rounding. -/
def sum (ctx : Context) (a b : Decimal) : Decimal :=
  let exponent := min a.exponent b.exponent
  match a.isZero, b.isZero with
  | true, true => ⟨a.negative && b.negative, 0, exponent⟩
  | true, false => ctx.addZero b exponent
  | false, true => ctx.addZero a exponent
  | false, false =>
    let (high, low) :=
      if a.exponent < b.exponent then ctx.align b a else ctx.align a b
    let total := addAligned high low
    if total.isZero then { total with exponent := exponent } else total

/-- The product of two decimals, which is exact. -/
def product (a b : Decimal) : Decimal :=
  ⟨a.negative != b.negative, a.coefficient * b.coefficient, a.exponent + b.exponent⟩

/-- The quotient of two decimals, before rounding; the divisor is not zero.  One digit more than the
precision is formed.  An inexact quotient that ends in a digit `0` or `5` is moved off it, so that
it cannot be taken for a tie; an exact one is brought as near as possible to the exponent that the
operands suggest. -/
def quotient (ctx : Context) (a b : Decimal) : Decimal :=
  let negative := a.negative != b.negative
  let ideal := a.exponent - b.exponent
  if a.coefficient = 0 then ⟨negative, 0, ideal⟩
  else
    let shift : Int :=
      (digitCount b.coefficient : Int) - digitCount a.coefficient + ctx.precision + 1
    let dividend := a.coefficient * Nat.pow 10 shift.toNat
    let divisor := b.coefficient * Nat.pow 10 (-shift).toNat
    let coefficient := dividend / divisor
    if dividend % divisor = 0 then
      let (rest, dropped) := dropZeros shift.toNat coefficient
      ⟨negative, rest, ideal - shift + dropped⟩
    else
      ⟨negative, if coefficient % 5 = 0 then coefficient + 1 else coefficient, ideal - shift⟩

/-! ## Operations on numbers -/

/-- Rounds a finite result. -/
def roundNumber (ctx : Context) (d : Decimal) : Except Signal Number :=
  Number.finite <$> ctx.round d

/-- The result of an operation with a NaN among its operands: the first of them, with as much of
its payload as the context can hold.  A signaling one is an invalid operation. -/
def propagate? (ctx : Context) (operands : List Number) : Option (Except Signal Number) :=
  if operands.any fun | .nan true _ _ => true | _ => false then some (.error .invalid)
  else operands.findSome? fun
    | .nan signaling negative payload =>
      some (.ok (.nan signaling negative (payload % Nat.pow 10 ctx.precision)))
    | _ => none

/-- The sum of two numbers. -/
def add (ctx : Context) (a b : Number) : Except Signal Number :=
  match a, b with
  | .finite x, .finite y => ctx.roundNumber (ctx.sum x y)
  | _, _ =>
    match ctx.propagate? [a, b], a, b with
    | some result, _, _ => result
    | none, .infinity m, .infinity n => if m = n then .ok a else .error .invalid
    | none, .infinity _, _ => .ok a
    | none, _, _ => .ok b

/-- A number with the other sign, unrounded. -/
def flipSign : Number → Number
  | .finite d => .finite d.flip
  | .infinity negative => .infinity (!negative)
  | nan => nan

/-- The difference of two numbers. -/
def subtract (ctx : Context) (a b : Number) : Except Signal Number := ctx.add a (flipSign b)

/-- The product of two numbers. -/
def multiply (ctx : Context) (a b : Number) : Except Signal Number :=
  match a, b with
  | .finite x, .finite y => ctx.roundNumber (product x y)
  | _, _ =>
    match ctx.propagate? [a, b] with
    | some result => result
    | none =>
      if a.isZero || b.isZero then .error .invalid
      else .ok (.infinity (a.isNegative != b.isNegative))

/-- The quotient of two numbers, of which the second is not zero. -/
def divide (ctx : Context) (a b : Number) : Except Signal Number :=
  match a, b with
  | .finite x, .finite y => ctx.roundNumber (ctx.quotient x y)
  | _, _ =>
    match ctx.propagate? [a, b], a, b with
    | some result, _, _ => result
    | none, .infinity _, .infinity _ => .error .invalid
    | none, .infinity m, _ => .ok (.infinity (m != b.isNegative))
    | none, _, _ => .ok (.finite ⟨a.isNegative != b.isNegative, 0, ctx.tiny⟩)

/-- The number subtracted from zero: rounded, and a zero loses its sign. -/
def negate (ctx : Context) (a : Number) : Except Signal Number :=
  match a with
  | .finite d => ctx.roundNumber (if d.isZero then d.abs else d.flip)
  | .infinity negative => .ok (.infinity (!negative))
  | .nan _ _ _ => (ctx.propagate? [a]).getD (.ok a)

end Context

namespace Number

/-! ## Comparison

Numbers compare by value, never rounded.  An infinity lies beyond every finite number.  A NaN is
different from every number, itself included, and has no place in the order; a signaling one cannot
even be tested for equality. -/

/-- Compares two numbers neither of which is a NaN. -/
def order? : Number → Number → Option Ordering
  | .finite a, .finite b => some (Decimal.compare a b)
  | .infinity m, .infinity n => some (compare n.toNat m.toNat)
  | .infinity m, .finite _ => some (if m then .lt else .gt)
  | .finite _, .infinity n => some (if n then .gt else .lt)
  | _, _ => none

/-- Whether a number is a NaN that signals. -/
def isSignaling : Number → Bool
  | .nan true _ _ => true
  | _ => false

/-- Whether two numbers are equal in value. -/
def equal (a b : Number) : Except Signal Bool :=
  if a.isSignaling || b.isSignaling then .error .invalid else .ok (order? a b == some .eq)

/-- Whether the first number lies before the second. -/
def less (a b : Number) : Except Signal Bool :=
  match order? a b with
  | some result => .ok (result == .lt)
  | none => .error .invalid

end Number

end ScopeScript
