import ScopeScript.Datum.Basic
import ScopeScript.Number.Arithmetic
set_option autoImplicit false

/-!
# Datum: which data are equal

Data of different classes may be equal: truth values count as `0` and `1`, and numbers of any class
are equal when their values are.  There is one NaN, which is equal to itself alone.  Texts, tuples
and nodes are only equal to their like, part by part.

The key of a datum is the same for equal data and for no other, so that data can be looked up by it.
-/

namespace ScopeScript.Datum

mutual

/-- What a datum has in common with all data that are equal to it. -/
def key : Datum → Datum
  | .nothing => .nothing
  | .boolean value => .number (Number.finite (.ofInt value.toInt)).reduced
  | .integer value => .number (Number.finite (.ofInt value)).reduced
  | .float value => .number value.toNumber.reduced
  | .number value => .number value.reduced
  | .text value => .text value
  | .tuple items => .tuple (keys items)
  | .literal value => .literal (key value)
  | .record kind fields => .record kind (keys fields)

/-- The keys of several data. -/
def keys : List Datum → List Datum
  | [] => []
  | item :: rest => key item :: keys rest

end

@[simp] theorem key_text (word : String) : key (.text word) = .text word := by
  simp [key]

/-- Whether two data are equal. -/
def agrees (a b : Datum) : Bool := a.key == b.key

/-! ## Order -/

/-- The number that a scalar stands for. -/
def numeric? : Datum → Option Number
  | .boolean value => some (.finite (.ofInt value.toInt))
  | .integer value => some (.finite (.ofInt value))
  | .float value => some value.toNumber
  | _ => none

mutual

/-- Whether a datum lies before another one; `none` if they have no order.  Numbers and texts are
ordered among themselves, and tuples by the first items that differ. -/
def less? : Datum → Datum → Option Bool
  | .text a, .text b => some (decide (a < b))
  | .tuple as, .tuple bs => lessItems? as bs
  | a, b =>
    match a.numeric?, b.numeric? with
    | some x, some y => some (Number.order? x y == some .lt)
    | _, _ => none

/-- Whether items lie before other ones. -/
def lessItems? : List Datum → List Datum → Option Bool
  | [], bs => some (!bs.isEmpty)
  | _ :: _, [] => some false
  | a :: as, b :: bs => if a.agrees b then lessItems? as bs else less? a b

end

/-- Sorts data, if any two of them have an order. -/
def sort? (data : List Datum) : Option (List Datum) :=
  if data.zipIdx.all fun (a, i) => (data.drop (i + 1)).all fun b => (a.less? b).isSome then
    some (data.mergeSort fun a b => !(b.less? a).getD false)
  else none

end ScopeScript.Datum
