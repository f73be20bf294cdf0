import ScopeScript.Host.Basic
set_option autoImplicit false

/-!
# Host: conversion

How values cross between scripts and hosts.  What a script reads becomes a script value or is
refused; what it writes becomes a host value that fits the annotation of the property.
-/

namespace ScopeScript

/-! ## From hosts to scripts -/

/-- The least integer that becomes a number. -/
def leastInteger : Int := -0x8000000000000000

/-- The greatest integer that becomes a number. -/
def greatestInteger : Int := 0xFFFFFFFFFFFFFFFF

/-- The most digits with which an integer is shown in a message. -/
def mostShownDigits : Nat := 4300

/-- The script value of a host value that a script reads.  An integer out of range is shown in the
error, and one with too many digits for that is an error of another kind. -/
def Value.ofHost : Value → Except Error Value
  | .boolean b => .ok (.boolean b)
  | .integer n =>
    if leastInteger ≤ n ∧ n ≤ greatestInteger then .ok (.number (.finite (.ofInt n)))
    else if mostShownDigits < digitCount n.natAbs then .error .wrongValue
    else .error (.conversion ("int (out of 64-bit range: " ++ toString n ++ ")"))
  | .number n =>
    if n.isFinite then .ok (.number n)
    else .error (.conversion ("Decimal (not finite: " ++ n.scientific ++ ")"))
  | .text s => .ok (.text s)
  | other => .error (.conversion other.qualifiedClass)

/-- The least integer that hosts keep once. -/
def leastKept : Int := -5

/-- The greatest integer that hosts keep once. -/
def greatestKept : Int := 256

/-- Whether hosts keep a value only once, or the value itself tells its copies apart. -/
def Value.isUnique : Value → Bool
  | .number _ | .float _ => false
  | .integer n => leastKept ≤ n && n ≤ greatestKept
  | .text s =>
    match s.toList with
    | [] => true
    | [c] => c.toNat < 256
    | _ => false
  | _ => true

/-- A handle on a host value, if the value is a given copy. -/
def Value.handleOn (copy : Copy) : Value → Except Error Value
  | .nothing => .error .emptyHandle
  | target => .ok (.handle target (if target.isUnique then 0 else copy))

/-! ## From scripts to hosts -/

/-- The host value of a script value: a handle stands for its target. -/
def Value.toHost : Value → Value
  | .handle target _ => target
  | value => value

/-- The integer that a number is, if it is one. -/
def Number.toInteger : Number → Except Error (Option Int)
  | .finite d => .ok d.toInt?
  | .infinity _ => .error .outOfRange
  | .nan true _ _ => .error (.arithmetic .invalid)
  | .nan false _ _ => .ok none

/-- Whether a host value is of the class that an annotation names, if that class can be asked. -/
def SlotType.admits (classes : HostClasses) (slot : SlotType) (target : Value) :
    Except Error Bool :=
  match slot, target with
  | .unchecked, _ => .error .wrongShape
  | .float, .float _ => .ok true
  | .list, .list _ _ => .ok true
  | .nothing, .nothing => .ok true
  | .dict, .object _ cls => .ok (classes.isDict cls)
  | .instanceOf base, .object _ cls => .ok (classes.derives cls base)
  | _, _ => .ok false

/-- The host value that a script value becomes in a property with an annotation; `none` when it does
not fit.  Functions never leave the script.  Whole numbers become integers where integers are asked
for, and handles become their targets.  Only for the target of a handle is its class asked. -/
def Value.coerce (classes : HostClasses) (value : Value) (slot : Option SlotType) :
    Except Error (Option Value) :=
  match value, slot with
  | .function _ _, _ => .ok none
  | value, none | value, some .any | value, some .object => .ok (some value.toHost)
  | .boolean b, some .boolean => .ok (some (.boolean b))
  | .number n, some .integer => do
    let integer ← n.toInteger
    .ok (integer.map .integer)
  | .number n, some .decimal => .ok (some (.number n))
  | .text s, some .text => .ok (some (.text s))
  | .handle target _, some slot => do
    let admitted ← slot.admits classes target
    .ok (if admitted then some target else none)
  | _, _ => .ok none

/-! ## Text -/

/-- The number of decimals that hosts write of a binary value. -/
def binaryPlaces : Nat := 6

/-- The fixed-point text of a binary value, rounded to six decimals. -/
def Binary64.fixed : Binary64 → String
  | .finite negative mantissa exponent =>
    let d := toDecimal negative mantissa exponent
    let shift : Int := d.exponent + binaryPlaces
    let coefficient :=
      nearestEven (d.coefficient * Nat.pow 10 shift.toNat) (Nat.pow 10 (-shift).toNat)
    Decimal.fixed ⟨d.negative, coefficient, -(binaryPlaces : Int)⟩
  | special => special.text

/-- The fixed-point text of an integer as a binary value, which it has to be near to. -/
def integerFixed (n : Int) : Except Error String :=
  match Binary64.ofDecimal (.ofInt n) with
  | .infinity _ => .error .outOfRange
  | value => .ok value.fixed

/-- The fixed-point text of a value that stands for a number. -/
def Value.fixedText : Value → Except Error String
  | .number n => .ok n.fixed
  | .float x => .ok x.fixed
  | .integer n => integerFixed n
  | .boolean b => integerFixed b.toInt
  | .text _ => .error .wrongValue
  | _ => .error .wrongShape

/-- Whether a value is one character of a class.  Longer and shorter things are not; a single thing
that is no text cannot be asked. -/
def Value.isCharacter (host : Host) (test : Char → Bool) : Value → Except Error Bool
  | .text s => .ok (match s.toList with | [c] => test c | _ => false)
  | .list items _ => if items.length = 1 then .error .wrongShape else .ok false
  | .object id _ =>
    match host.entries? id with
    | some entries => if entries.length = 1 then .error .wrongShape else .ok false
    | none => .error .wrongShape
  | _ => .error .wrongShape

/-- A text between quotes. -/
def Value.quotedText : Value → Except Error String
  | .text s => .ok (Text.quote s)
  | _ => .error .missingPart

end ScopeScript
