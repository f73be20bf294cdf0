import ScopeScript.Number.Arithmetic
import ScopeScript.Token.Lexer
import ScopeScript.Tree.Basic
set_option autoImplicit false

/-!
# Error: everything that can go wrong

One constructor for each cause, with what a report of it needs.  `Error.message?` holds the wording.
`Error.isScript` tells the faults of a script, which a command line reports, from misuse of the
library.

Steps in sequence end at the first error; `bind_eq_ok` and `bind_eq_error` take them apart.
-/

namespace ScopeScript

/-- Why a token does not fit the grammar. -/
inductive GrammarProblem where
  /-- a token of a certain kind has to follow, after what the context names -/
  | expected (kind : Kind) (context : String)
  /-- a name that starts a statement is not called -/
  | notCalled
  /-- loops are reserved but not part of the language -/
  | loop
  /-- no statement starts with the token -/
  | noStatement
  /-- a function body is not closed -/
  | openBody
  /-- a choice is not closed -/
  | openChoice
  /-- no expression starts with the token -/
  | noExpression
  /-- an expression is followed by something else -/
  | trailing
  deriving DecidableEq, Repr, Inhabited

/-- A grammar problem and the token that raises it. -/
structure GrammarError where
  problem : GrammarProblem
  found : Token
  deriving DecidableEq, Repr, Inhabited

/-- Everything that can go wrong. -/
inductive Error where
  /-- the source text cannot be split into tokens -/
  | lexical (error : LexicalError)
  /-- the tokens do not fit the grammar -/
  | grammar (error : GrammarError)
  /-- no scope in sight binds the name -/
  | unbound (name : Name)
  /-- the scope already binds the name -/
  | duplicate (name : Name)
  /-- the name is bound to a constant -/
  | constant (name : Name)
  /-- an operand is of the wrong type -/
  | operand (operator : Name) (typeName : String)
  /-- an object has no such property -/
  | noProperty (objectName propertyName : Name)
  /-- a property does not take values of the type -/
  | propertyType (path typeName : String)
  /-- a function is called with the wrong number of arguments -/
  | arity (name : Name) (expected actual : Nat)
  /-- a host value is no script value -/
  | conversion (hostType : String)
  | divisionByZero
  /-- the result of an operator is too large -/
  | overflow (operator : String)
  /-- a call without a value is used as one -/
  | noValue (description : String)
  /-- a sentinel is asked for its truth -/
  | sentinelTruth (value : Sentinel)
  /-- a sentinel is compared -/
  | sentinelEquality
  /-- a node is no statement -/
  | notStatement (label : String)
  /-- a node is no expression -/
  | notExpression (label : String)
  /-- the language has no such operator with one operand -/
  | unaryOperator (spelling : String)
  /-- the language has no such operator with two operands -/
  | binaryOperator (spelling : String)
  /-- a node has no source form -/
  | notPrintable (label : String)
  /-- a node has no stored form -/
  | notStorable (label : String)
  /-- a value is no literal -/
  | notLiteral (className : String)
  /-- a document is no stored tree -/
  | notTree
  /-- a stored node is of an unknown kind -/
  | unknownNode (kind : String)
  /-- a stored literal is of an unknown type -/
  | unknownLiteral (literalType : String)
  /-- a stored number is not finite -/
  | notFinite (text : String)
  /-- a handle is asked for on nothing -/
  | emptyHandle
  /-- decimal arithmetic has no result -/
  | arithmetic (signal : Signal)
  /-- a text is no number -/
  | notNumber
  /-- a stored node lacks an entry -/
  | missingEntry
  /-- data has the wrong shape -/
  | wrongShape
  /-- data has the right shape and a wrong value -/
  | wrongValue
  /-- an object lacks a part that every object of its kind has -/
  | missingPart
  /-- a number is too large for what it is asked for -/
  | outOfRange
  /-- a text is no JSON document -/
  | notJson
  /-- a file is no text -/
  | notText
  /-- a directory is read as a file -/
  | directory
  /-- calls are nested too deep -/
  | depth
  deriving DecidableEq, Repr, Inhabited

namespace LexicalProblem

/-- What is wrong. -/
def message : LexicalProblem → String
  | .unexpected c => "Unexpected character scanned (" ++ Text.display (String.singleton c) ++ ")."
  | .unterminated _ => "Unterminated string literal."

/-- The piece of source text that is wrong. -/
def text : LexicalProblem → String
  | .unexpected c => String.singleton c
  | .unterminated source => source

end LexicalProblem

namespace GrammarProblem

/-- What is wrong. -/
def message : GrammarProblem → String
  | .expected kind context => "Expected " ++ kind.spelling ++ " to follow " ++ context ++ "."
  | .notCalled => "Only function calls may be used as statements."
  | .loop => "'for' loops are not supported."
  | .noStatement => "Not expected in statement position."
  | .openBody => "Unterminated function body."
  | .openChoice => "Unterminated 'if' statement."
  | .noExpression => "Expected an expression."
  | .trailing => "Unexpected token after expression."

/-- What would have been right. -/
def expectation : GrammarProblem → String
  | .expected kind _ => kind.spelling
  | .notCalled => "("
  | .loop | .noStatement => "statement"
  | .openBody => "\x7d"
  | .openChoice => "end"
  | .noExpression => "expression"
  | .trailing => Kind.spelling .finish

end GrammarProblem

namespace Error

/-- A place in a source text, and the text there, as messages give it. -/
def located (position : Position) (what text : String) : String :=
  "(line " ++ toString position.line ++ ", col " ++ toString position.column ++ ", " ++ what ++
    " " ++ Text.display text ++ "): "

/-- The wording of an error.  Misuse that the library does not put into words has none. -/
def message? : Error → Option String
  | .lexical e =>
    some ("Lexical error " ++ located e.position "text" e.problem.text ++ e.problem.message)
  | .grammar e =>
    some ("Syntax error " ++ located e.found.position "token" e.found.lexeme.display ++
      e.problem.message)
  | .unbound name => some ("Identifier not bound: " ++ name.asText)
  | .duplicate name => some ("Identifier redefined in local scope: " ++ name.asText)
  | .constant name => some ("Cannot assign to const: " ++ name.asText)
  | .operand operator typeName =>
    some ("Invalid operands to '" ++ operator.asText ++ "': must have type " ++ typeName ++ ".")
  | .noProperty objectName propertyName =>
    some ("Property '" ++ propertyName.asText ++ "' not found in object '" ++
      objectName.asText ++ "'.")
  | .propertyType path typeName =>
    some ("Property '" ++ path ++ "' does not accept values of type '" ++ typeName ++ "'.")
  | .arity name expected actual =>
    some (name.asText ++ " expects " ++ toString expected ++ " arguments, got " ++ toString actual)
  | .conversion hostType => some ("Unable to wrap native value of type '" ++ hostType ++ "'.")
  | .divisionByZero => some "Division by zero."
  | .overflow operator => some ("Result of '" ++ operator ++ "' is too large to represent.")
  | .noValue description => some (description ++ " produced no value")
  | .sentinelTruth value => some (value.label ++ " has no truth value")
  | .sentinelEquality => some "internal values cannot be compared"
  | .notStatement label => some ("execute: unexpected node type " ++ label)
  | .notExpression label => some ("evaluate: unexpected node type " ++ label)
  | .unaryOperator spelling => some ("unsupported unary operator " ++ spelling)
  | .binaryOperator spelling => some ("unsupported binary operator " ++ spelling)
  | .notPrintable label => some ("Unsupported node for printing: " ++ label)
  | .notStorable label => some ("Unsupported node for serialization: " ++ label)
  | .notLiteral className => some ("Unsupported literal value: " ++ className)
  | .notTree => some "Invalid AST object"
  | .unknownNode kind => some ("Unknown AST node type: " ++ kind)
  | .unknownLiteral literalType => some ("Unknown literal type: " ++ literalType)
  | .notFinite text => some ("Number literal must be finite: " ++ text)
  | .emptyHandle => some "native object handle requires an object"
  | _ => none

/-- Whether an error is a fault of the script. -/
def isScript : Error → Bool
  | .lexical _ | .grammar _ | .unbound _ | .duplicate _ | .constant _ | .operand _ _
  | .noProperty _ _ | .propertyType _ _ | .arity _ _ _ | .conversion _ | .divisionByZero
  | .overflow _ | .noValue _ => true
  | _ => false

end Error

/-! ## Steps in sequence -/

section Sequencing

variable {ε α β : Type} {x : Except ε α} {f : α → Except ε β}

@[simp] theorem ok_bind (a : α) (f : α → Except ε β) : (Except.ok a >>= f) = f a := rfl

theorem bind_eq_ok {b : β} : (x >>= f) = .ok b ↔ ∃ a, x = .ok a ∧ f a = .ok b := by
  cases x with
  | error e => simp [bind, Except.bind]
  | ok a => simp [bind, Except.bind]

theorem bind_eq_error {e : ε} :
    (x >>= f) = .error e ↔ x = .error e ∨ ∃ a, x = .ok a ∧ f a = .error e := by
  cases x with
  | error e' => simp [bind, Except.bind]
  | ok a => simp [bind, Except.bind]

end Sequencing

end ScopeScript
