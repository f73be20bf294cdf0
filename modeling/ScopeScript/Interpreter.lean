import ScopeScript.Eval.Run
import ScopeScript.Tree.Parser
set_option autoImplicit false

/-!
# Interpreter: running scripts

What a host does with scripts: make an interpreter, bind its objects to names, and run scripts or
evaluate expressions, all on one state.
-/

namespace ScopeScript

/-- The most calls that may be nested. -/
def mostNestedCalls : Nat := 1000000

/-- The scope that every interpreter starts with. -/
def globalScope : ScopeId := 0

namespace Settings

/-- Settings with a precision, which has to be one that contexts can have. -/
def withPrecision (settings : Settings) (precision : Int) : Except Error Settings :=
  if Context.validPrecision precision then
    .ok { settings with context := { settings.context with precision := precision.toNat } }
  else .error .wrongValue

/-- The caller of a run. -/
def caller (settings : Settings) : Caller := Eval.callAt settings mostNestedCalls

end Settings

namespace Eval

/-- Runs a tree in a scope; the value is that of a `return` outside all functions. -/
def run (settings : Settings) (scope : ScopeId) (tree : Node) : Eval (Option Value) := do
  match ← execute settings settings.caller scope tree with
  | .normal => pure none
  | .returned value => pure value

/-- Parses and runs a script. -/
def runSource (settings : Settings) (scope : ScopeId) (source : String) : Eval (Option Value) := do
  let tree ← ofExcept (parseProgram source)
  run settings scope tree

/-- Parses and evaluates an expression. -/
def evaluateSource (settings : Settings) (scope : ScopeId) (source : String) : Eval Value := do
  let tree ← ofExcept (parseExpression source)
  evaluateValue settings settings.caller scope "expression" tree

/-- Makes a handle on a host value, which counts as a copy of its own; a handle is left as it is. -/
def makeHandle : Value → Eval Value
  | .handle target copy => pure (.handle target copy)
  | target => do
    let copy ← EStateM.modifyGet fun machine =>
      (machine.handles + 1, { machine with handles := machine.handles + 1 })
    ofExcept (target.handleOn copy)

/-- Binds a name to a handle on a host value. -/
def bindHandle (scope : ScopeId) (name : Name) (target : Value) : Eval Value := do
  let handle ← makeHandle target
  declare scope name handle false
  pure handle

/-- Makes a scope, inside another one or by itself. -/
def openScope (outer : Option ScopeId) : Eval ScopeId := do
  match outer with
  | some scope => newScope scope
  | none => addScope []

end Eval

/-- The characters of a text with one line break at the end of every line: a carriage return counts
as a line break, together with the line feed that may follow it. -/
def joinLineBreaks : List Char → List Char
  | [] => []
  | '\r' :: '\n' :: rest => '\n' :: joinLineBreaks rest
  | '\r' :: rest => '\n' :: joinLineBreaks rest
  | c :: rest => c :: joinLineBreaks rest

/-- A text as it is read from a file. -/
def normalizeLines (text : String) : String := String.ofList (joinLineBreaks text.toList)

end ScopeScript
