import ScopeScript.Eval.Property
set_option autoImplicit false

/-!
# Eval: running trees

Expressions are evaluated and statements executed by recursion on the tree.  Both operands of an
operator are always evaluated, those of `and` and `or` too.  A statement completes normally or
returns, and a block stops at the first statement that returns.

A function body is not part of the tree that calls it, so calls go through a caller that is handed
in.  `Eval.callAt` is the caller of a run; it bounds how deep calls may be nested.

Arguments are evaluated in the scope of the call and bound in a new scope inside the one where the
function was declared.  The branches of a choice have scopes of their own.
-/

namespace ScopeScript

/-- How a statement ended. -/
inductive Completion where
  /-- the next statement follows -/
  | normal
  /-- the function ends, perhaps with a value -/
  | returned (value : Option Value)
  deriving Repr, Inhabited

/-- What calls a function: by its scope and name, with its code and arguments. -/
abbrev Caller : Type := ScopeId → Name → Code → List Value → Eval Value

namespace Eval

/-! ## Expressions -/

/-- Calls the function of a name with a number of arguments, which are evaluated once it is known to
be the right one. -/
def applyFunction (call : Caller) (scope : ScopeId) (name : Name) (count? : Option Nat)
    (arguments : Eval (List Value)) : Eval Value := do
  match ← lookup scope name with
  | .function home declared =>
    let code := (← get).scopes.code home declared
    match count?, code.params.items? with
    | some count, some params =>
      if count = params.length then do
        let values ← arguments
        call home declared code values
      else throw (.arity name params.length count)
    | _, _ => throw .wrongShape
  | _ => throw (.operand (.text "function call") "Function")

/-- The values of data in the place of arguments: there are none, if there are no data. -/
def refuseArguments : List Datum → Eval (List Value)
  | [] => pure []
  | item :: _ => throw (.notExpression item.label)

/-- Evaluates data in the place of an expression. -/
def evaluateData (call : Caller) (scope : ScopeId) : Datum → Eval Value
  | .record .call [name, arguments] =>
    applyFunction call scope name (arguments.items?.map List.length)
      (refuseArguments (arguments.items?.getD []))
  | datum => throw (.notExpression datum.label)

mutual

/-- Evaluates an expression. -/
def evaluate (settings : Settings) (call : Caller) (scope : ScopeId) : Node → Eval Value
  | .literal value => pure value
  | .identifier name properties =>
    if properties.isVoid then lookup scope name else readPath settings scope name properties
  | .call name arguments =>
    applyFunction call scope name (some arguments.length)
      (evaluateArguments settings call scope name 1 arguments)
  | .unary op operand => do
    let value ← demand ("operand of '" ++ op.spelling ++ "'")
      (← evaluate settings call scope operand)
    ofExcept (op.apply settings.context value)
  | .binary op left right => do
    let a ← demand ("left operand of '" ++ op.spelling ++ "'")
      (← evaluate settings call scope left)
    let b ← demand ("right operand of '" ++ op.spelling ++ "'")
      (← evaluate settings call scope right)
    ofExcept (op.apply settings.context (settings.host (← get)) a b)
  | .data datum => evaluateData call scope datum
  | node => throw (.notExpression node.label)

/-- Evaluates the arguments of a call, counted from `index`. -/
def evaluateArguments (settings : Settings) (call : Caller) (scope : ScopeId) (name : Name)
    (index : Nat) : List Node → Eval (List Value)
  | [] => pure []
  | argument :: rest => do
    let value ← demand ("argument " ++ toString index ++ " of '" ++ name.asText ++ "'")
      (← evaluate settings call scope argument)
    let values ← evaluateArguments settings call scope name (index + 1) rest
    pure (value :: values)

end

/-- Evaluates an expression whose value is used. -/
def evaluateValue (settings : Settings) (call : Caller) (scope : ScopeId) (description : String)
    (node : Node) : Eval Value := do
  demand description (← evaluate settings call scope node)

/-! ## Statements -/

/-- Executes a declaration. -/
def executeDeclaration (settings : Settings) (call : Caller) (scope : ScopeId) (isConst : Bool)
    (name : Name) (initial : Node) : Eval Completion := do
  let value ← evaluateValue settings call scope ("initializer of '" ++ name.asText ++ "'") initial
  declare scope name value isConst
  emit settings (.declared isConst name value)
  pure .normal

/-- Executes an assignment to a variable or along a path of properties. -/
def executeRoute (settings : Settings) (call : Caller) (scope : ScopeId) (name : String)
    (properties : List String) (value : Node) : Eval Completion := do
  let path := Node.path name properties
  let value ← evaluateValue settings call scope ("value assigned to '" ++ path ++ "'") value
  match properties with
  | [] => assign scope (.text name) value
  | property :: rest => assignPath settings scope name property rest value
  emit settings (.assigned path value)
  pure .normal

/-- Executes an assignment, the target of which has to be made of words. -/
def executeAssignment (settings : Settings) (call : Caller) (scope : ScopeId)
    (target value : Node) : Eval Completion :=
  match target with
  | .identifier name properties =>
    match Node.route? name properties with
    | some (name, properties) => executeRoute settings call scope name properties value
    | none => throw .wrongShape
  | _ => throw .missingPart

/-- Executes the declaration of a function. -/
def executeFunction (settings : Settings) (scope : ScopeId) (name : Name) (params : Datum)
    (body : Node) : Eval Completion := do
  declareFunction scope name ⟨params, body⟩
  emit? settings Event.declarationLevel
    ((params.items?.bind Datum.words?).map fun words => .defined name words)
  pure .normal

/-- Executes what stands in the place of statements: nothing, if it has no items.  The items it may
have are no statements. -/
def executeNone (field : Datum) : Eval Completion :=
  match field.items? with
  | some [] => pure .normal
  | some (item :: _) => throw (.notStatement item.label)
  | none => throw .wrongShape

/-- Executes data in the place of a statement. -/
def executeData : Datum → Eval Completion
  | .record .block [statements] => executeNone statements
  | datum => throw (.notStatement datum.label)

mutual

/-- Executes a statement. -/
def execute (settings : Settings) (call : Caller) (scope : ScopeId) : Node → Eval Completion
  | .block statements => executeAll settings call scope statements
  | .declaration isConst name initial =>
    executeDeclaration settings call scope isConst name initial
  | .assignment target value => executeAssignment settings call scope target value
  | .function name params body => executeFunction settings scope name params body
  | .giveBack .absent => pure (.returned none)
  | .giveBack value => do
    let value ← evaluateValue settings call scope "returned expression" value
    pure (.returned (some value))
  | .callStatement inner => do
    let _ ← evaluate settings call scope inner
    pure .normal
  | .choice condition thenBlock elseBlock => do
    let value ← evaluateValue settings call scope "'if' condition" condition
    let truth ← ofExcept value.isTruthy
    emit settings (.decided truth)
    if truth then executeBranch settings call scope thenBlock
    else executeBranch settings call scope elseBlock
  | .data datum => executeData datum
  | node => throw (.notStatement node.label)

/-- Executes a branch of a choice, in a scope of its own. -/
def executeBranch (settings : Settings) (call : Caller) (scope : ScopeId) :
    Node → Eval Completion
  | .absent => pure .normal
  | .block statements => do
    let inner ← newScope scope
    executeAll settings call inner statements
  | .data (.record .block [statements]) => executeNone statements
  | _ => throw .missingPart

/-- Executes statements up to the first one that returns. -/
def executeAll (settings : Settings) (call : Caller) (scope : ScopeId) :
    List Node → Eval Completion
  | [] => pure .normal
  | statement :: rest => do
    match ← execute settings call scope statement with
    | .normal => executeAll settings call scope rest
    | returned => pure returned

end

/-- Executes the body of a function. -/
def executeBody (settings : Settings) (call : Caller) (scope : ScopeId) : Node → Eval Completion
  | .block statements => executeAll settings call scope statements
  | .data (.record .block [statements]) => executeNone statements
  | _ => throw .missingPart

/-! ## Calls -/

/-- The value of a call that completed. -/
def callValue : Completion → Value
  | .returned (some value) => value
  | _ => .sentinel .void

/-- Calls functions, of which `depth` may be nested. -/
def callAt (settings : Settings) : (depth : Nat) → Caller
  | 0 => fun _ _ _ _ => throw .depth
  | depth + 1 => fun home name code arguments => do
    let scope ← newScope home
    declareAll scope (code.parameters.zip arguments)
    emit settings (.called name arguments)
    let completion ← executeBody settings (callAt settings depth) scope code.body
    pure (callValue completion)

end Eval

end ScopeScript
