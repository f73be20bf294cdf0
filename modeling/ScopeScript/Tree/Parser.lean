import ScopeScript.Error
import ScopeScript.Number.Reading
set_option autoImplicit false

/-!
# Tree: parsing

    Script    := Statement* end-of-input
    Statement := 'const' word '=' Expr
               | 'var' word '=' Expr
               | 'set' word ('.' word)* '=' Expr
               | 'func' word '(' (word (',' word)*)? ')' '{' Statement* '}'
               | 'return' Expr?
               | 'if' Expr 'then' Statement* ('else' Statement*)? 'end'
               | Call
    Call      := word '(' (Expr (',' Expr)*)? ')'

Expressions, loosest first: `and` and `or`, which group to the right; comparisons, sums and
products, which group to the left; signs and `not`; and atoms.

A parser takes the tokens it needs from the front of a list, returns its result with the tokens it
leaves, and decides by the token ahead alone.
Past the last token stands how the source ended: at the end of the input, which every parser sees as
a token of its own, or at a lexical error, which is raised as soon as the token in front of it is
taken.  The first error ends the parse.

Recursion is bounded by a budget that every call lowers.  A call either takes a token or passes on
to one of a few parsers that do, so a fixed multiple of the number of tokens is enough.
-/

namespace ScopeScript

namespace Ending

/-- The token that stands for the ending. -/
def token : Ending → Token
  | .finished position => ⟨.finish, position⟩
  | .broken error => ⟨.finish, error.position⟩

end Ending

namespace Parser

/-! ## Tokens -/

/-- The token ahead. -/
def ahead (ending : Ending) : List Token → Token
  | [] => ending.token
  | token :: _ => token

/-- The kind of the token ahead. -/
def aheadKind (ending : Ending) (tokens : List Token) : Kind := (ahead ending tokens).lexeme.kind

/-- Takes the token ahead.  Behind the last token a lexical error shows. -/
def advance (ending : Ending) (tokens : List Token) : Except Error (Token × List Token) :=
  match tokens.tail, ending with
  | [], .broken error => .error (.lexical error)
  | rest, _ => .ok (ahead ending tokens, rest)

/-- The error of a token that does not fit. -/
def reject {α : Type} (problem : GrammarProblem) (found : Token) : Except Error α :=
  .error (.grammar ⟨problem, found⟩)

/-- Takes the token ahead, which has to be of a kind. -/
def consume (ending : Ending) (kind : Kind) (context : String) (tokens : List Token) :
    Except Error (Token × List Token) := do
  let (token, rest) ← advance ending tokens
  if token.lexeme.kind = kind then .ok (token, rest) else reject (.expected kind context) token

/-- Takes the token ahead, which has to be a name. -/
def consumeWord (ending : Ending) (context : String) (tokens : List Token) :
    Except Error (String × List Token) := do
  let (token, rest) ← consume ending .word context tokens
  .ok (token.lexeme.payload?.getD "", rest)

/-- A name as the context of an error. -/
def named (name : String) : String := "'" ++ name ++ "'"

/-! ## Operators -/

/-- The levels of operators that group to the left, loosest first. -/
inductive Tier where
  | comparison | additive | multiplicative
  deriving DecidableEq, Repr, Inhabited

namespace Tier

/-- The level of the operands. -/
def tighter? : Tier → Option Tier
  | .comparison => some .additive
  | .additive => some .multiplicative
  | .multiplicative => none

/-- The operator of a level that a kind of token stands for. -/
def operator? : Tier → Kind → Option BinaryOp
  | .comparison, .mark .equals => some .equal
  | .comparison, .mark .unequal => some .unequal
  | .comparison, .mark .less => some .less
  | .comparison, .mark .greater => some .greater
  | .additive, .mark .plus => some .add
  | .additive, .mark .minus => some .subtract
  | .multiplicative, .mark .times => some .multiply
  | .multiplicative, .mark .slash => some .divide
  | _, _ => none

end Tier

/-- The operator of the loosest level that a kind of token stands for. -/
def logicalOperator? : Kind → Option BinaryOp
  | .keyword .and => some .and
  | .keyword .or => some .or
  | _ => none

/-- The operator in front of an operand that a kind of token stands for. -/
def unaryOperator? : Kind → Option UnaryOp
  | .mark .plus => some .plus
  | .mark .minus => some .minus
  | .keyword .not => some .not
  | _ => none

/-- Whether an expression can start with a token of the kind. -/
def startsExpression : Kind → Bool
  | .mark .openParen | .word | .number | .text | .mark .plus | .mark .minus | .keyword .not => true
  | _ => false

/-! ## Names -/

/-- The properties after a name. -/
def properties (ending : Ending) : Nat → List Token → Except Error (List String × List Token)
  | 0, _ => .error .depth
  | budget + 1, tokens =>
    if aheadKind ending tokens = .mark .dot then do
      let (_, tokens) ← advance ending tokens
      let (property, tokens) ← consumeWord ending (named ".") tokens
      let (rest, tokens) ← properties ending budget tokens
      .ok (property :: rest, tokens)
    else .ok ([], tokens)

/-- The parameters after the first one. -/
def moreParameters (ending : Ending) : Nat → List Token → Except Error (List String × List Token)
  | 0, _ => .error .depth
  | budget + 1, tokens =>
    if aheadKind ending tokens = .mark .comma then do
      let (_, tokens) ← advance ending tokens
      let (param, tokens) ← consumeWord ending (named ",") tokens
      let (rest, tokens) ← moreParameters ending budget tokens
      .ok (param :: rest, tokens)
    else .ok ([], tokens)

/-- The parameters of a function. -/
def parameters (ending : Ending) (budget : Nat) (tokens : List Token) :
    Except Error (List String × List Token) :=
  if aheadKind ending tokens = .mark .closeParen then .ok ([], tokens)
  else do
    let (param, tokens) ← consumeWord ending (named "(") tokens
    let (rest, tokens) ← moreParameters ending budget tokens
    .ok (param :: rest, tokens)

/-! ## Expressions -/

mutual

/-- An expression. -/
def expression (ending : Ending) : Nat → List Token → Except Error (Node × List Token)
  | 0, _ => .error .depth
  | budget + 1, tokens => do
    let (left, tokens) ← operand ending budget .comparison tokens
    match logicalOperator? (aheadKind ending tokens) with
    | none => .ok (left, tokens)
    | some op => do
      let (_, tokens) ← advance ending tokens
      let (right, tokens) ← expression ending budget tokens
      .ok (.binary op left right, tokens)

/-- Operands of a level with its operators between them. -/
def operand (ending : Ending) : Nat → Tier → List Token → Except Error (Node × List Token)
  | 0, _, _ => .error .depth
  | budget + 1, tier, tokens => do
    let (left, tokens) ← tighterOperand ending budget tier tokens
    moreOperands ending budget tier left tokens

/-- One operand of a level. -/
def tighterOperand (ending : Ending) : Nat → Tier → List Token → Except Error (Node × List Token)
  | 0, _, _ => .error .depth
  | budget + 1, tier, tokens =>
    match tier.tighter? with
    | some tighter => operand ending budget tighter tokens
    | none => signed ending budget tokens

/-- The operators of a level and the operands behind them. -/
def moreOperands (ending : Ending) :
    Nat → Tier → Node → List Token → Except Error (Node × List Token)
  | 0, _, _, _ => .error .depth
  | budget + 1, tier, left, tokens =>
    match tier.operator? (aheadKind ending tokens) with
    | none => .ok (left, tokens)
    | some op => do
      let (_, tokens) ← advance ending tokens
      let (right, tokens) ← tighterOperand ending budget tier tokens
      moreOperands ending budget tier (.binary op left right) tokens

/-- An atom behind any number of signs. -/
def signed (ending : Ending) : Nat → List Token → Except Error (Node × List Token)
  | 0, _ => .error .depth
  | budget + 1, tokens =>
    match unaryOperator? (aheadKind ending tokens) with
    | none => atom ending budget tokens
    | some op => do
      let (_, tokens) ← advance ending tokens
      let (operand, tokens) ← signed ending budget tokens
      .ok (.unary op operand, tokens)

/-- An atom. -/
def atom (ending : Ending) : Nat → List Token → Except Error (Node × List Token)
  | 0, _ => .error .depth
  | budget + 1, tokens => do
    let (token, tokens) ← advance ending tokens
    match token.lexeme with
    | .mark .openParen =>
      let (inner, tokens) ← expression ending budget tokens
      let (_, tokens) ← consume ending (.mark .closeParen) "parenthesized expression" tokens
      .ok (inner, tokens)
    | .word name =>
      if aheadKind ending tokens = .mark .openParen then
        let (arguments, tokens) ← arguments ending budget tokens
        .ok (.call (.text name) arguments, tokens)
      else
        let (properties, tokens) ← properties ending budget tokens
        .ok (.identifier (.text name) (.ofWords properties), tokens)
    | .number numeral =>
      match Number.read? numeral with
      | some value => .ok (.literal (.number value), tokens)
      | none => .error .notNumber
    | .text content => .ok (.literal (.text content), tokens)
    | _ => reject .noExpression token

/-- The arguments of a call, from its opening parenthesis to its closing one. -/
def arguments (ending : Ending) : Nat → List Token → Except Error (List Node × List Token)
  | 0, _ => .error .depth
  | budget + 1, tokens => do
    let (_, tokens) ← consume ending (.mark .openParen) "function name" tokens
    let (found, tokens) ←
      if aheadKind ending tokens = .mark .closeParen then .ok ([], tokens)
      else do
        let (argument, tokens) ← expression ending budget tokens
        let (rest, tokens) ← moreArguments ending budget tokens
        .ok (argument :: rest, tokens)
    let (_, tokens) ← consume ending (.mark .closeParen) "function argument" tokens
    .ok (found, tokens)

/-- The arguments after the first one. -/
def moreArguments (ending : Ending) : Nat → List Token → Except Error (List Node × List Token)
  | 0, _ => .error .depth
  | budget + 1, tokens =>
    if aheadKind ending tokens = .mark .comma then do
      let (_, tokens) ← advance ending tokens
      let (argument, tokens) ← expression ending budget tokens
      let (rest, tokens) ← moreArguments ending budget tokens
      .ok (argument :: rest, tokens)
    else .ok ([], tokens)

end

/-! ## Statements -/

/-- The equals sign and the expression behind what is declared or assigned to. -/
def initializer (ending : Ending) (budget : Nat) (name : String) (tokens : List Token) :
    Except Error (Node × List Token) := do
  let (_, tokens) ← consume ending (.mark .equals) (named name) tokens
  expression ending budget tokens

/-- The declaration of a constant or a variable. -/
def declaration (ending : Ending) (budget : Nat) (keyword : Keyword) (isConst : Bool)
    (tokens : List Token) : Except Error (Node × List Token) := do
  let (_, tokens) ← advance ending tokens
  let (name, tokens) ← consumeWord ending (named keyword.spelling) tokens
  let (initial, tokens) ← initializer ending budget name tokens
  .ok (.declaration isConst (.text name) initial, tokens)

/-- An assignment. -/
def assignment (ending : Ending) (budget : Nat) (tokens : List Token) :
    Except Error (Node × List Token) := do
  let (_, tokens) ← advance ending tokens
  let (name, tokens) ← consumeWord ending (named (Keyword.spelling .set)) tokens
  let (properties, tokens) ← properties ending budget tokens
  let (value, tokens) ← initializer ending budget (Node.path name properties) tokens
  .ok (.assignment (.identifier (.text name) (.ofWords properties)) value, tokens)

/-- The end of a function, with a value whenever an expression can start. -/
def giveBack (ending : Ending) (budget : Nat) (tokens : List Token) :
    Except Error (Node × List Token) := do
  let (_, tokens) ← advance ending tokens
  if startsExpression (aheadKind ending tokens) then do
    let (value, tokens) ← expression ending budget tokens
    .ok (.giveBack value, tokens)
  else .ok (.giveBack .absent, tokens)

/-- A call for its effects. -/
def callStatement (ending : Ending) (budget : Nat) (name : String) (tokens : List Token) :
    Except Error (Node × List Token) := do
  let (_, tokens) ← advance ending tokens
  if aheadKind ending tokens = .mark .openParen then do
    let (arguments, tokens) ← arguments ending budget tokens
    .ok (.callStatement (.call (.text name) arguments), tokens)
  else reject .notCalled (ahead ending tokens)

mutual

/-- A statement. -/
def statement (ending : Ending) : Nat → List Token → Except Error (Node × List Token)
  | 0, _ => .error .depth
  | budget + 1, tokens =>
    let token := ahead ending tokens
    match token.lexeme with
    | .keyword .const => declaration ending budget .const true tokens
    | .keyword .var => declaration ending budget .var false tokens
    | .keyword .set => assignment ending budget tokens
    | .keyword .func => function ending budget tokens
    | .keyword .return_ => giveBack ending budget tokens
    | .keyword .if_ => choice ending budget tokens
    | .word name => callStatement ending budget name tokens
    | .keyword .for_ => reject .loop token
    | _ => reject .noStatement token

/-- The declaration of a function. -/
def function (ending : Ending) : Nat → List Token → Except Error (Node × List Token)
  | 0, _ => .error .depth
  | budget + 1, tokens => do
    let (_, tokens) ← advance ending tokens
    let (name, tokens) ← consumeWord ending (named (Keyword.spelling .func)) tokens
    let (_, tokens) ← consume ending (.mark .openParen) "function name" tokens
    let (params, tokens) ← parameters ending budget tokens
    let (_, tokens) ← consume ending (.mark .closeParen) "parameter list" tokens
    let (_, tokens) ← consume ending (.mark .openBrace) "function parameters" tokens
    let (body, tokens) ← statements ending budget [.mark .closeBrace] .openBody tokens
    let (_, tokens) ← advance ending tokens
    .ok (.function (.text name) (.ofWords params) (.block body), tokens)

/-- A choice. -/
def choice (ending : Ending) : Nat → List Token → Except Error (Node × List Token)
  | 0, _ => .error .depth
  | budget + 1, tokens => do
    let (_, tokens) ← advance ending tokens
    let (condition, tokens) ← expression ending budget tokens
    let (_, tokens) ← consume ending (.keyword .then_) "'if' condition" tokens
    let (thenPart, tokens) ←
      statements ending budget [.keyword .else_, .keyword .end_] .openChoice tokens
    let (elseBlock, tokens) ←
      if aheadKind ending tokens = .keyword .else_ then do
        let (_, tokens) ← advance ending tokens
        let (elsePart, tokens) ←
          statements ending budget [.keyword .end_] .openChoice tokens
        .ok (Node.block elsePart, tokens)
      else .ok (Node.absent, tokens)
    let (_, tokens) ← consume ending (.keyword .end_) "'if' branch" tokens
    .ok (.choice condition (.block thenPart) elseBlock, tokens)

/-- Statements up to a token of one of the kinds `closers`, which is left; the end of the input in
front of it is the problem `unclosed`. -/
def statements (ending : Ending) :
    Nat → (closers : List Kind) → (unclosed : GrammarProblem) → List Token →
      Except Error (List Node × List Token)
  | 0, _, _, _ => .error .depth
  | budget + 1, closers, unclosed, tokens =>
    let kind := aheadKind ending tokens
    if kind ∈ closers then .ok ([], tokens)
    else if kind = .finish then reject unclosed (ahead ending tokens)
    else do
      let (first, tokens) ← statement ending budget tokens
      let (rest, tokens) ← statements ending budget closers unclosed tokens
      .ok (first :: rest, tokens)

end

/-! ## Whole sources -/

/-- A budget that is enough for any parse of a number of tokens. -/
def budget (tokens : List Token) : Nat := 12 * (tokens.length + 1)

/-- Raises the lexical error that stands in front of the first token. -/
def checkStart (source : Source) : Except Error Unit :=
  match source.tokens, source.ending with
  | [], .broken error => .error (.lexical error)
  | _, _ => .ok ()

/-- Parses the tokens of a script. -/
def parseScript (source : Source) : Except Error Node := do
  checkStart source
  let (body, _) ←
    statements source.ending (budget source.tokens) [.finish] .noStatement source.tokens
  .ok (.block body)

/-- Parses the tokens of one expression. -/
def parseOne (source : Source) : Except Error Node := do
  checkStart source
  let (node, rest) ← expression source.ending (budget source.tokens) source.tokens
  if aheadKind source.ending rest = .finish then .ok node
  else reject .trailing (ahead source.ending rest)

end Parser

/-- Parses a script into the block of its statements. -/
def parseProgram (source : String) : Except Error Node :=
  Parser.parseScript (Source.ofString source)

/-- Parses a source that holds one expression. -/
def parseExpression (source : String) : Except Error Node :=
  Parser.parseOne (Source.ofString source)

end ScopeScript
