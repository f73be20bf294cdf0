import ScopeScript.Host.Basic
set_option autoImplicit false

/-!
# Host: equality and display

Hosts compare and show values by what they hold.  Numbers of any class are equal when their values
are, lists when their items are, and dictionaries when they have the same names with equal entries,
in any order.  All other objects, and handles, are equal to themselves alone.

Dictionaries may hold each other in circles.  A comparison of two different circles has no end and
is given up; a dictionary that is shown inside itself is cut short there.
-/

namespace ScopeScript

/-! ## Equality -/

/-- Whether two numbers are equal; a signaling NaN cannot be compared. -/
def Number.equalOrInvalid (a b : Number) : Except Error Bool :=
  match Number.equal a b with
  | .ok result => .ok result
  | .error signal => .error (.arithmetic signal)

namespace Value

mutual

/-- Whether hosts take two values for equal, given when they do so for two different objects. -/
def equalWith (objects : ObjectId → ObjectId → Except Error Bool) :
    Value → Value → Except Error Bool
  | .list as copy, .list bs copy' =>
    if copy = copy' then .ok true
    else if as.length = bs.length then equalAllWith objects as bs
    else .ok false
  | .object a _, .object b _ => if a = b then .ok true else objects a b
  | .handle _ _, .handle _ _ => .ok false
  | a, b =>
    match a.numeric?, b.numeric? with
    | some x, some y => Number.equalOrInvalid x y
    | _, _ => .ok (same a b)

/-- Whether hosts take the items of two lists for equal, one by one. -/
def equalAllWith (objects : ObjectId → ObjectId → Except Error Bool) :
    List Value → List Value → Except Error Bool
  | [], [] => .ok true
  | a :: as, b :: bs => do
    if ← equalWith objects a b then equalAllWith objects as bs else .ok false
  | _, _ => .ok false

end

end Value

namespace Host

/-- Whether entries are equal to those of the same names among others. -/
def entriesEqual (equal : Value → Value → Except Error Bool) (others : Entries String Value) :
    Entries String Value → Except Error Bool
  | [] => .ok true
  | (name, value) :: rest =>
    match others.lookup name with
    | none => .ok false
    | some other => do
      if ← equal value other then entriesEqual equal others rest else .ok false

/-- Whether two different objects are equal, which only dictionaries can be; `depth` pairs of them
may be nested. -/
def objectsEqual (host : Host) : (depth : Nat) → ObjectId → ObjectId → Except Error Bool
  | 0, _, _ => .error .depth
  | depth + 1, a, b =>
    match host.entries? a, host.entries? b with
    | some entries, some others =>
      if entries.length = others.length then
        entriesEqual (Value.equalWith (host.objectsEqual depth)) others entries
      else .ok false
    | _, _ => .ok false

/-- Whether the host takes two values for equal.  Where more pairs of objects are nested than there
are, one of them is nested in itself. -/
def equal (host : Host) (a b : Value) : Except Error Bool :=
  Value.equalWith (host.objectsEqual (host.objects.size * host.objects.size)) a b

/-! ## Display -/

/-- An object as the host shows it: a dictionary by its entries, unless it is one of those that are
`opened` already, and any other object by its class.  At most `depth` objects are opened. -/
def displayObject (host : Host) : (depth : Nat) → (opened : List ObjectId) → ObjectId → ClassName →
    String
  | 0, _, _, _ => "\x7b...\x7d"
  | depth + 1, opened, id, cls =>
    if opened.contains id then "\x7b...\x7d"
    else
      match host.entries? id with
      | some entries =>
        let shown := entries.map fun (name, value) =>
          Text.display name ++ ": " ++
            value.displayWith (host.displayObject depth (id :: opened))
        "\x7b" ++ ", ".intercalate shown ++ "\x7d"
      | none => Value.objectLabel id cls

/-- A value as a script would write it, with what objects hold. -/
def render (host : Host) (v : Value) : String :=
  v.renderWith (host.displayObject (host.objects.size + 1) [])

end Host

end ScopeScript
