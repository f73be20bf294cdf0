import ScopeScript.Host.Comparison
set_option autoImplicit false

/-!
# Eval: operators

`False` is the only value that counts as false.  Values of different variants are never equal.
Numbers have an order, and so have strings, by code point.  Arithmetic takes numbers and rounds its
results to the context.
-/

namespace ScopeScript

namespace Value

/-- Whether a value counts as true. -/
def isTruthy : Value → Except Error Bool
  | .sentinel s => .error (.sentinelTruth s)
  | .boolean b => .ok b
  | _ => .ok true

/-- Whether two values are of one variant and equal.  Functions and the targets of handles are equal
only to themselves; host values are equal when the host takes them for equal. -/
def equal (host : Host) : Value → Value → Except Error Bool
  | .sentinel _, _ | _, .sentinel _ => .error .sentinelEquality
  | .number a, .number b => Number.equalOrInvalid a b
  | .boolean a, .boolean b => .ok (a == b)
  | .text a, .text b => .ok (a == b)
  | .function home name, .function home' name' => .ok (home == home' && name == name')
  | .handle a copy, .handle b copy' => .ok (copy == copy' && same a b)
  | a, b => if a.typeName = b.typeName then host.equal a b else .ok false

/-- Whether one value lies before another. -/
def less (operator : String) : Value → Value → Except Error Bool
  | .number a, .number b =>
    match Number.less a b with
    | .ok result => .ok result
    | .error signal => .error (.arithmetic signal)
  | .text a, .text b => .ok (decide (a < b))
  | _, _ => .error (.operand (.text operator) "Number or String")

end Value

namespace UnaryOp

/-- Applies an operator to a value. -/
def apply (ctx : Context) (op : UnaryOp) (operand : Value) : Except Error Value :=
  match op, operand with
  | .not, value => do
    let truth ← value.isTruthy
    .ok (.boolean !truth)
  | .plus, .number n => .ok (.number n)
  | .minus, .number n =>
    match ctx.negate n with
    | .ok result => .ok (.number result)
    | .error signal => .error (.arithmetic signal)
  | .other symbol, .number _ => .error (.unaryOperator symbol.asText)
  | op, _ => .error (.operand (.text (op.spelling ++ " (unary)")) "Number")

end UnaryOp

namespace BinaryOp

/-- The error of an arithmetic operator whose result there is not. -/
def arithmeticError (op : BinaryOp) : Signal → Error
  | .overflow => .overflow op.spelling
  | .invalid => .arithmetic .invalid

/-- The result of an arithmetic operator. -/
def arithmetic (ctx : Context) (op : BinaryOp) (a b : Number) : Except Error Value :=
  let result : Except Signal Number → Except Error Value
    | .ok n => .ok (.number n)
    | .error signal => .error (op.arithmeticError signal)
  match op with
  | .add => result (ctx.add a b)
  | .subtract => result (ctx.subtract a b)
  | .multiply => result (ctx.multiply a b)
  | .divide =>
    if b.isSignaling then .error (.arithmetic .invalid)
    else if b.isZero then .error .divisionByZero
    else result (ctx.divide a b)
  | op => .error (.binaryOperator op.spelling)

/-- Applies an operator to two values. -/
def apply (ctx : Context) (host : Host) (op : BinaryOp) (a b : Value) : Except Error Value :=
  match op with
  | .and => do
    if ← a.isTruthy then
      if ← b.isTruthy then .ok b else .ok (.boolean false)
    else .ok (.boolean false)
  | .or => do
    if ← a.isTruthy then .ok a
    else if ← b.isTruthy then .ok b
    else .ok (.boolean false)
  | .equal => do
    let result ← a.equal host b
    .ok (.boolean result)
  | .unequal => do
    let result ← a.equal host b
    .ok (.boolean !result)
  | .less => do
    let result ← Value.less op.spelling a b
    .ok (.boolean result)
  | .greater => do
    let result ← Value.less op.spelling b a
    .ok (.boolean result)
  | op =>
    match a, b with
    | .number x, .number y => arithmetic ctx op x y
    | _, _ => .error (.operand op.symbol "Number")

end BinaryOp

end ScopeScript
