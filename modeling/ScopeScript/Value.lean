import ScopeScript.Datum.Basic
import ScopeScript.Number.Arithmetic
import ScopeScript.Text.Quoted
set_option autoImplicit false

/-!
# Value: what names are bound to

Scripts compute with five variants of values: booleans, numbers, strings, functions and handles on
host objects.  A function is named by the scope it was declared in and its name there, which no
scope gives away twice; its code is kept with that scope.

Two sentinels tell how a call ended without a value.  Scripts never see them.

The remaining variants are host values.  A script meets one only on its way through a property path,
where it is turned into a script value or refused, or where the host itself binds a name to it.
-/

namespace ScopeScript

/-- The name of a scope. -/
abbrev ScopeId : Type := Nat

/-- The name of a host object. -/
abbrev ObjectId : Type := Nat

/-- Which one of several equal host values is meant: a host keeps some of them apart. -/
abbrev Copy : Type := Nat

/-- How a call or a statement ended that has no value. -/
inductive Sentinel where
  /-- a function returned without a value -/
  | void
  /-- a statement did not return -/
  | noReturn
  deriving DecidableEq, Repr, Inhabited

/-- The class of a host object: the dictionaries that every host has, or a class of its own. -/
inductive ClassName where
  | dict
  | user (name : String)
  deriving DecidableEq, Repr, Inhabited

/-- A script value, a sentinel or a host value. -/
inductive Value where
  | boolean (value : Bool)
  | number (value : Number)
  | text (value : String)
  /-- the function declared under `name` in the scope `home` -/
  | function (home : ScopeId) (name : Name)
  /-- a handle on a host value, of which there may be copies -/
  | handle (target : Value) (copy : Copy)
  | sentinel (value : Sentinel)
  /-- the host's absent value -/
  | nothing
  | integer (value : Int)
  | float (value : Binary64)
  | list (items : List Value) (copy : Copy)
  /-- a host object and its class -/
  | object (id : ObjectId) (cls : ClassName)
  deriving Repr, Inhabited

namespace Sentinel

/-- How a sentinel is shown. -/
def label : Sentinel → String
  | .void => "Void"
  | .noReturn => "NoReturn"

end Sentinel

namespace Value

/-- Whether a value is one of the sentinels. -/
def isSentinel : Value → Bool
  | .sentinel _ => true
  | _ => false

/-- Whether a value is a number. -/
def isNumber : Value → Bool
  | .number _ => true
  | _ => false

/-- Whether a value is one that scripts compute with: numbers have to be finite. -/
def isScript : Value → Bool
  | .boolean _ | .text _ | .function _ _ | .handle _ _ => true
  | .number n => n.isFinite
  | _ => false

/-! ## Classes and type names -/

/-- The module and the name of the host class of a value. -/
def hostClass : Value → String × String
  | .boolean _ => ("builtins", "bool")
  | .number _ => ("decimal", "Decimal")
  | .text _ => ("builtins", "str")
  | .function _ _ => ("scriptlang.types", "FunctionValue")
  | .handle _ _ => ("scriptlang.types", "NativeObject")
  | .sentinel _ => ("scriptlang.types", "InternalValue")
  | .nothing => ("builtins", "NoneType")
  | .integer _ => ("builtins", "int")
  | .float _ => ("builtins", "float")
  | .list _ _ => ("builtins", "list")
  | .object _ .dict => ("builtins", "dict")
  | .object _ (.user name) => ("host", name)

/-- The host class of a value with its module. -/
def qualifiedClass (v : Value) : String := v.hostClass.1 ++ "." ++ v.hostClass.2

/-- The name of a value's type in messages: that of its variant, or of its class for host values. -/
def typeName : Value → String
  | .boolean _ => "Boolean"
  | .number _ => "Number"
  | .text _ => "String"
  | .function _ _ => "Function"
  | .handle _ _ => "NativeObject"
  | .sentinel _ => "InternalValue"
  | other => other.hostClass.2

/-! ## Text -/

/-- The text of a truth value. -/
def booleanText (b : Bool) : String := if b then "True" else "False"

mutual

/-- A value as hosts show it, given how they show an object. -/
def displayWith (object : ObjectId → ClassName → String) : Value → String
  | .boolean b => booleanText b
  | .number n => "Decimal('" ++ n.scientific ++ "')"
  | .text s => Text.display s
  | .function _ name => "<func:" ++ name.asText ++ ">"
  | .handle target _ => "<object:" ++ target.qualifiedClass ++ ">"
  | .sentinel s => s.label
  | .nothing => "None"
  | .integer n => toString n
  | .float x => x.text
  | .list items _ => "[" ++ ", ".intercalate (displayAllWith object items) ++ "]"
  | .object id cls => object id cls

/-- Several values as hosts show them. -/
def displayAllWith (object : ObjectId → ClassName → String) : List Value → List String
  | [] => []
  | v :: rest => displayWith object v :: displayAllWith object rest

end

/-- A value as a script would write it, given how hosts show an object. -/
def renderWith (object : ObjectId → ClassName → String) : Value → String
  | .boolean b => booleanText b
  | .number n => n.fixed
  | .text s => Text.quote s
  | other => other.displayWith object

/-- An object that is shown by its class alone. -/
def objectLabel (id : ObjectId) (cls : ClassName) : String :=
  "<" ++ (Value.object id cls).qualifiedClass ++ " object>"

/-- A value as hosts show it, apart from what objects hold. -/
def display (v : Value) : String := v.displayWith objectLabel

/-- A value as a script would write it, apart from what objects hold. -/
def render (v : Value) : String := v.renderWith objectLabel

/-! ## Identity -/

mutual

/-- Whether two values are one and the same: functions by where they were declared, objects by their
name, copies by which one they are, everything else by what it is made of. -/
def same : Value → Value → Bool
  | .boolean a, .boolean b => a == b
  | .number a, .number b => a == b
  | .text a, .text b => a == b
  | .function home name, .function home' name' => home == home' && name == name'
  | .handle a copy, .handle b copy' => copy == copy' && same a b
  | .sentinel a, .sentinel b => a == b
  | .nothing, .nothing => true
  | .integer a, .integer b => a == b
  | .float a, .float b => a == b
  | .list as copy, .list bs copy' => copy == copy' && sameAll as bs
  | .object a _, .object b _ => a == b
  | _, _ => false

/-- Whether two lists hold the same values. -/
def sameAll : List Value → List Value → Bool
  | [], [] => true
  | a :: as, b :: bs => same a b && sameAll as bs
  | _, _ => false

end

/-- The number that a host value stands for, if it is of a numeric class. -/
def numeric? : Value → Option Number
  | .boolean b => some (.finite (.ofInt b.toInt))
  | .number n => some n
  | .integer n => some (.finite (.ofInt n))
  | .float x => some x.toNumber
  | _ => none

end Value

end ScopeScript
