set_option autoImplicit false

/-!
# Token: what a source text is made of

A source text is a sequence of lexemes with blanks between them: words, keywords, numerals, strings
and marks.  A token is a lexeme with the position of its first character.  The end of the input
counts as a lexeme of its own where a reader looks one token ahead.
-/

namespace ScopeScript

/-- The marks of the language. -/
inductive Mark where
  | comma | dot | openParen | closeParen | openBrace | closeBrace
  | plus | minus | times | slash | equals | unequal | less | greater
  deriving DecidableEq, Repr, Inhabited

/-- The reserved words. -/
inductive Keyword where
  | const | var | set | func | return_ | and | or | not
  | if_ | then_ | else_ | for_ | end_
  deriving DecidableEq, Repr, Inhabited

namespace Mark

/-- How a mark is written. -/
def spelling : Mark → String
  | .comma => ","
  | .dot => "."
  | .openParen => "("
  | .closeParen => ")"
  | .openBrace => "\x7b"
  | .closeBrace => "\x7d"
  | .plus => "+"
  | .minus => "-"
  | .times => "*"
  | .slash => "/"
  | .equals => "="
  | .unequal => "<>"
  | .less => "<"
  | .greater => ">"

/-- The name of a mark in token listings. -/
def label : Mark → String
  | .comma => "COMMA"
  | .dot => "DOT"
  | .openParen => "LPAREN"
  | .closeParen => "RPAREN"
  | .openBrace => "LBRACE"
  | .closeBrace => "RBRACE"
  | .plus => "ADD"
  | .minus => "SUB"
  | .times => "MUL"
  | .slash => "DIV"
  | .equals => "EQU"
  | .unequal => "NEQ"
  | .less => "LT"
  | .greater => "GT"

/-- The mark that a character is by itself, whatever follows it. -/
def ofChar? (c : Char) : Option Mark :=
  if c = ',' then some .comma
  else if c = '(' then some .openParen
  else if c = ')' then some .closeParen
  else if c = '\x7b' then some .openBrace
  else if c = '\x7d' then some .closeBrace
  else if c = '+' then some .plus
  else if c = '-' then some .minus
  else if c = '*' then some .times
  else if c = '/' then some .slash
  else if c = '=' then some .equals
  else if c = '>' then some .greater
  else none

end Mark

namespace Keyword

/-- How a keyword is written. -/
def spelling : Keyword → String
  | .const => "const"
  | .var => "var"
  | .set => "set"
  | .func => "func"
  | .return_ => "return"
  | .and => "and"
  | .or => "or"
  | .not => "not"
  | .if_ => "if"
  | .then_ => "then"
  | .else_ => "else"
  | .for_ => "for"
  | .end_ => "end"

/-- The name of a keyword in token listings. -/
def label : Keyword → String
  | .const => "KWD_CONST"
  | .var => "KWD_VAR"
  | .set => "KWD_SET"
  | .func => "KWD_FUNC"
  | .return_ => "KWD_RETURN"
  | .and => "KWD_AND"
  | .or => "KWD_OR"
  | .not => "KWD_NOT"
  | .if_ => "KWD_IF"
  | .then_ => "KWD_THEN"
  | .else_ => "KWD_ELSE"
  | .for_ => "KWD_FOR"
  | .end_ => "KWD_END"

/-- All keywords. -/
def all : List Keyword :=
  [.const, .var, .set, .func, .return_, .and, .or, .not, .if_, .then_, .else_, .for_, .end_]

/-- The keyword with a given spelling. -/
def ofSpelling? (text : String) : Option Keyword := all.find? fun k => k.spelling = text

@[simp] theorem ofSpelling?_spelling (k : Keyword) : ofSpelling? k.spelling = some k := by
  cases k <;> decide

end Keyword

/-- What a lexeme is, its text apart. -/
inductive Kind where
  | finish
  | word
  | text
  | number
  | mark (mark : Mark)
  | keyword (keyword : Keyword)
  deriving DecidableEq, Repr, Inhabited

/-- A lexeme: its kind, and the text of those that have one. -/
inductive Lexeme where
  /-- the end of the input -/
  | finish
  /-- a name -/
  | word (name : String)
  /-- a string, by its content -/
  | text (content : String)
  /-- a number, by its numeral -/
  | number (numeral : String)
  | mark (mark : Mark)
  | keyword (keyword : Keyword)
  deriving DecidableEq, Repr, Inhabited

namespace Kind

/-- The fixed spelling of a kind, or what it is called in messages. -/
def spelling : Kind → String
  | .finish => "end of input"
  | .word => "identifier"
  | .text => "string"
  | .number => "number"
  | .mark m => m.spelling
  | .keyword k => k.spelling

/-- The name of a kind in token listings. -/
def label : Kind → String
  | .finish => "EOF"
  | .word => "IDENTIFIER"
  | .text => "STRING"
  | .number => "NUMBER"
  | .mark m => m.label
  | .keyword k => k.label

/-- Whether lexemes of a kind are reserved words. -/
def isKeyword : Kind → Bool
  | .keyword _ => true
  | _ => false

end Kind

namespace Lexeme

/-- The kind of a lexeme. -/
def kind : Lexeme → Kind
  | .finish => .finish
  | .word _ => .word
  | .text _ => .text
  | .number _ => .number
  | .mark m => .mark m
  | .keyword k => .keyword k

/-- The text that a lexeme carries beside its kind. -/
def payload? : Lexeme → Option String
  | .word name => some name
  | .text content => some content
  | .number numeral => some numeral
  | _ => none

/-- A lexeme as messages show it. -/
def display (lexeme : Lexeme) : String := lexeme.payload?.getD lexeme.kind.spelling

/-- A lexeme in a token listing: the name of its kind, with its text if it has one. -/
def listing (lexeme : Lexeme) : String :=
  match lexeme.payload? with
  | none => lexeme.kind.label
  | some payload => lexeme.kind.label ++ "(" ++ payload ++ ")"

end Lexeme

/-! ## Positions -/

/-- A place in a source text.  Lines and columns count from one, offsets from zero, all in
characters. -/
structure Position where
  offset : Nat := 0
  line : Nat := 1
  column : Nat := 1
  deriving DecidableEq, Repr, Inhabited

namespace Position

/-- The place behind a character. -/
def next (p : Position) (c : Char) : Position :=
  if c = '\n' then ⟨p.offset + 1, p.line + 1, 1⟩ else ⟨p.offset + 1, p.line, p.column + 1⟩

/-- The place behind a text. -/
def after (p : Position) (text : List Char) : Position := text.foldl next p

@[simp] theorem after_nil (p : Position) : p.after [] = p := rfl

@[simp] theorem after_cons (p : Position) (c : Char) (text : List Char) :
    p.after (c :: text) = (p.next c).after text := rfl

/-- The offset counts characters. -/
theorem offset_after (p : Position) (text : List Char) :
    (p.after text).offset = p.offset + text.length := by
  induction text generalizing p with
  | nil => rfl
  | cons c rest ih => simp only [after_cons, ih, List.length_cons, next]; split <;> simp +arith

end Position

/-- A lexeme and where it starts. -/
structure Token where
  lexeme : Lexeme
  position : Position
  deriving DecidableEq, Repr, Inhabited

end ScopeScript
