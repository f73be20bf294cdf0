import ScopeScript.Number.Reading
import ScopeScript.Token.Basic
import ScopeScript.Tree.Parser
set_option autoImplicit false

/-!
# Grammar: derivations

The grammar of scripts as a type of derivations for every symbol.  A derivation has a yield, the
lexemes it derives, and a tree, what they mean.  Nothing here runs a parser; what the parser accepts
is compared with these types.

    Script    := Statement* end-of-input
    Statement := 'const' word '=' Expr
               | 'var' word '=' Expr
               | 'set' word ('.' word)* '=' Expr
               | 'func' word '(' (word (',' word)*)? ')' '{' Statement* '}'
               | 'return' Expr?
               | 'if' Expr 'then' Statement* ('else' Statement*)? 'end'
               | Call
    Call      := word '(' (Expr (',' Expr)*)? ')'
    Expr      := Operand(comparison) (('and' | 'or') Expr)?
    Operand   := Tighter (sign Tighter)*            at each of three tiers
    Signed    := ('+' | '-' | 'not') Signed | Atom
    Atom      := '(' Expr ')' | word ('.' word)* | Call | number | text

The operands of a tier are those of the next tighter one, and signed atoms at the tightest.  The
tree of a chain of operands groups to the left, that of `and` and `or` to the right.

The grammar is ambiguous in one place: a `return` without a value may stand in front of a call, and
then the call may as well be its value.  A derivation is greedy when no `return` passes up a value.
-/

namespace ScopeScript.Grammar

open ScopeScript.Parser (Tier)

/-! ## Signs -/

/-- The operators between operands of a tier. -/
inductive Sign : Tier → Type
  | equal : Sign .comparison
  | unequal : Sign .comparison
  | less : Sign .comparison
  | greater : Sign .comparison
  | add : Sign .additive
  | subtract : Sign .additive
  | multiply : Sign .multiplicative
  | divide : Sign .multiplicative

/-- The operators of the loosest level. -/
inductive LogicalSign where
  | and | or

/-- The operators in front of an operand. -/
inductive UnarySign where
  | plus | minus | not

/-- How a sign is written. -/
def Sign.lexeme {tier : Tier} : Sign tier → Lexeme
  | .equal => .mark .equals
  | .unequal => .mark .unequal
  | .less => .mark .less
  | .greater => .mark .greater
  | .add => .mark .plus
  | .subtract => .mark .minus
  | .multiply => .mark .times
  | .divide => .mark .slash

/-- What a sign means. -/
def Sign.operator {tier : Tier} : Sign tier → BinaryOp
  | .equal => .equal
  | .unequal => .unequal
  | .less => .less
  | .greater => .greater
  | .add => .add
  | .subtract => .subtract
  | .multiply => .multiply
  | .divide => .divide

/-- How a logical sign is written. -/
def LogicalSign.lexeme : LogicalSign → Lexeme
  | .and => .keyword .and
  | .or => .keyword .or

/-- What a logical sign means. -/
def LogicalSign.operator : LogicalSign → BinaryOp
  | .and => .and
  | .or => .or

/-- How a unary sign is written. -/
def UnarySign.lexeme : UnarySign → Lexeme
  | .plus => .mark .plus
  | .minus => .mark .minus
  | .not => .keyword .not

/-- What a unary sign means. -/
def UnarySign.operator : UnarySign → UnaryOp
  | .plus => .plus
  | .minus => .minus
  | .not => .not

/-! ## Expressions -/

mutual

/-- A derivation of an expression. -/
inductive Expr : Type
  | single (operand : Operand .comparison)
  | logical (left : Operand .comparison) (sign : LogicalSign) (right : Expr)

/-- A derivation of operands of a tier with signs between them. -/
inductive Operand : Tier → Type
  | chain {tier : Tier} (first : Tighter tier) (more : MoreOperands tier) : Operand tier

/-- A derivation of one operand of a tier. -/
inductive Tighter : Tier → Type
  | additive (inner : Operand .additive) : Tighter .comparison
  | multiplicative (inner : Operand .multiplicative) : Tighter .additive
  | signed (inner : Signed) : Tighter .multiplicative

/-- A derivation of the signs and operands behind the first operand of a tier. -/
inductive MoreOperands : Tier → Type
  | done {tier : Tier} : MoreOperands tier
  | more {tier : Tier} (sign : Sign tier) (right : Tighter tier) (rest : MoreOperands tier) :
      MoreOperands tier

/-- A derivation of an atom behind any number of unary signs. -/
inductive Signed : Type
  | atom (inner : Atom)
  | sign (sign : UnarySign) (operand : Signed)

/-- A derivation of an atom. -/
inductive Atom : Type
  | paren (inner : Expr)
  | path (name : String) (properties : List String)
  | call (inner : Call)
  | number (numeral : String)
  | text (content : String)

/-- A derivation of a call. -/
inductive Call : Type
  | mk (name : String) (arguments : Arguments)

/-- A derivation of the arguments of a call. -/
inductive Arguments : Type
  | none
  | some (first : Expr) (more : MoreArguments)

/-- A derivation of the arguments behind the first one. -/
inductive MoreArguments : Type
  | done
  | more (argument : Expr) (rest : MoreArguments)

end

/-! ## Yields -/

/-- Properties, each behind a dot. -/
def dotted (properties : List String) : List Lexeme :=
  properties.flatMap fun property => [.mark .dot, .word property]

/-- Words behind the first one of a list, each behind a comma. -/
def commaWords (words : List String) : List Lexeme :=
  words.flatMap fun word => [.mark .comma, .word word]

/-- Words with commas between them. -/
def wordList : List String → List Lexeme
  | [] => []
  | word :: rest => .word word :: commaWords rest

mutual

/-- The lexemes of an expression. -/
def Expr.yield : Expr → List Lexeme
  | .single operand => operand.yield
  | .logical left sign right => left.yield ++ sign.lexeme :: right.yield

/-- The lexemes of operands. -/
def Operand.yield {tier : Tier} : Operand tier → List Lexeme
  | .chain first more => first.yield ++ more.yield

/-- The lexemes of one operand. -/
def Tighter.yield {tier : Tier} : Tighter tier → List Lexeme
  | .additive inner => inner.yield
  | .multiplicative inner => inner.yield
  | .signed inner => inner.yield

/-- The lexemes behind the first operand. -/
def MoreOperands.yield {tier : Tier} : MoreOperands tier → List Lexeme
  | .done => []
  | .more sign right rest => sign.lexeme :: (right.yield ++ rest.yield)

/-- The lexemes of a signed atom. -/
def Signed.yield : Signed → List Lexeme
  | .atom inner => inner.yield
  | .sign sign operand => sign.lexeme :: operand.yield

/-- The lexemes of an atom. -/
def Atom.yield : Atom → List Lexeme
  | .paren inner => .mark .openParen :: (inner.yield ++ [.mark .closeParen])
  | .path name properties => .word name :: dotted properties
  | .call inner => inner.yield
  | .number numeral => [.number numeral]
  | .text content => [.text content]

/-- The lexemes of a call. -/
def Call.yield : Call → List Lexeme
  | .mk name arguments =>
    .word name :: .mark .openParen :: (arguments.yield ++ [.mark .closeParen])

/-- The lexemes of arguments. -/
def Arguments.yield : Arguments → List Lexeme
  | .none => []
  | .some first more => first.yield ++ more.yield

/-- The lexemes of the arguments behind the first one. -/
def MoreArguments.yield : MoreArguments → List Lexeme
  | .done => []
  | .more argument rest => .mark .comma :: (argument.yield ++ rest.yield)

end

/-! ## Trees -/

/-- The number that a numeral is read as. -/
def numeralValue (numeral : String) : Number :=
  (Number.read? numeral).getD (.finite ⟨false, 0, 0⟩)

mutual

/-- The tree of an expression. -/
def Expr.tree : Expr → Node
  | .single operand => operand.tree
  | .logical left sign right => .binary sign.operator left.tree right.tree

/-- The tree of operands. -/
def Operand.tree {tier : Tier} : Operand tier → Node
  | .chain first more => more.treeFrom first.tree

/-- The tree of one operand. -/
def Tighter.tree {tier : Tier} : Tighter tier → Node
  | .additive inner => inner.tree
  | .multiplicative inner => inner.tree
  | .signed inner => inner.tree

/-- The tree of what stands to the left together with the operands behind it. -/
def MoreOperands.treeFrom {tier : Tier} : MoreOperands tier → Node → Node
  | .done, left => left
  | .more sign right rest, left => rest.treeFrom (.binary sign.operator left right.tree)

/-- The tree of a signed atom. -/
def Signed.tree : Signed → Node
  | .atom inner => inner.tree
  | .sign sign operand => .unary sign.operator operand.tree

/-- The tree of an atom; parentheses leave no trace. -/
def Atom.tree : Atom → Node
  | .paren inner => inner.tree
  | .path name properties => .identifier (.text name) (.ofWords properties)
  | .call inner => inner.tree
  | .number numeral => .literal (.number (numeralValue numeral))
  | .text content => .literal (.text content)

/-- The tree of a call. -/
def Call.tree : Call → Node
  | .mk name arguments => .call (.text name) arguments.trees

/-- The trees of arguments. -/
def Arguments.trees : Arguments → List Node
  | .none => []
  | .some first more => first.tree :: more.trees

/-- The trees of the arguments behind the first one. -/
def MoreArguments.trees : MoreArguments → List Node
  | .done => []
  | .more argument rest => argument.tree :: rest.trees

end

/-! ## Statements -/

mutual

/-- A derivation of a statement. -/
inductive Statement : Type
  | declaration (isConst : Bool) (name : String) (initial : Expr)
  | set (name : String) (properties : List String) (value : Expr)
  | func (name : String) (params : List String) (body : Statements)
  | bareReturn
  | giveBack (value : Expr)
  | choice (condition : Expr) (thenPart : Statements)
  | choiceElse (condition : Expr) (thenPart elsePart : Statements)
  | call (inner : Call)

/-- A derivation of statements one after the other. -/
inductive Statements : Type
  | nil
  | cons (first : Statement) (rest : Statements)

end

mutual

/-- The lexemes of a statement. -/
def Statement.yield : Statement → List Lexeme
  | .declaration isConst name initial =>
    .keyword (if isConst then .const else .var) :: .word name :: .mark .equals :: initial.yield
  | .set name properties value =>
    .keyword .set :: .word name :: (dotted properties ++ .mark .equals :: value.yield)
  | .func name params body =>
    .keyword .func :: .word name :: .mark .openParen ::
      (wordList params ++ .mark .closeParen :: .mark .openBrace ::
        (body.yield ++ [.mark .closeBrace]))
  | .bareReturn => [.keyword .return_]
  | .giveBack value => .keyword .return_ :: value.yield
  | .choice condition thenPart =>
    .keyword .if_ ::
      (condition.yield ++ .keyword .then_ :: (thenPart.yield ++ [.keyword .end_]))
  | .choiceElse condition thenPart elsePart =>
    .keyword .if_ ::
      (condition.yield ++ .keyword .then_ ::
        (thenPart.yield ++ .keyword .else_ :: (elsePart.yield ++ [.keyword .end_])))
  | .call inner => inner.yield

/-- The lexemes of statements. -/
def Statements.yield : Statements → List Lexeme
  | .nil => []
  | .cons first rest => first.yield ++ rest.yield

end

mutual

/-- The tree of a statement. -/
def Statement.tree : Statement → Node
  | .declaration isConst name initial => .declaration isConst (.text name) initial.tree
  | .set name properties value =>
    .assignment (.identifier (.text name) (.ofWords properties)) value.tree
  | .func name params body => .function (.text name) (.ofWords params) (.block body.trees)
  | .bareReturn => .giveBack .absent
  | .giveBack value => .giveBack value.tree
  | .choice condition thenPart => .choice condition.tree (.block thenPart.trees) .absent
  | .choiceElse condition thenPart elsePart =>
    .choice condition.tree (.block thenPart.trees) (.block elsePart.trees)
  | .call inner => .callStatement inner.tree

/-- The trees of statements. -/
def Statements.trees : Statements → List Node
  | .nil => []
  | .cons first rest => first.tree :: rest.trees

end

/-- The tree of a script. -/
def Statements.script (statements : Statements) : Node := .block statements.trees

/-! ## Greedy derivations -/

/-- Whether some expression starts with the lexeme. -/
def CanStart (lexeme : Lexeme) : Prop := ∃ e : Expr, e.yield.head? = some lexeme

mutual

/-- No `return` of the statement passes up a value; `next` is the lexeme behind the statement. -/
def Statement.Greedy (next : Lexeme) : Statement → Prop
  | .bareReturn => ¬ CanStart next
  | .func _ _ body => body.Greedy (.mark .closeBrace)
  | .choice _ thenPart => thenPart.Greedy (.keyword .end_)
  | .choiceElse _ thenPart elsePart =>
    thenPart.Greedy (.keyword .else_) ∧ elsePart.Greedy (.keyword .end_)
  | _ => True

/-- No `return` of the statements passes up a value; `next` is the lexeme behind them. -/
def Statements.Greedy (next : Lexeme) : Statements → Prop
  | .nil => True
  | .cons first rest => first.Greedy (rest.yield.headD next) ∧ rest.Greedy next

end

end ScopeScript.Grammar
