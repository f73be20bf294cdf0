import ScopeScript.Text.Blank
import ScopeScript.Token.Basic
set_option autoImplicit false

/-!
# Token: splitting a source text

`Lexer.scan` recognises the one lexeme that starts a text, and splits the text into that lexeme and
the rest.  Everything about positions is added on top of it: a cursor is a place in the text and
what stands behind it, and reading at a cursor skips blanks, scans, and moves on.

Two readers are built on cursors.  `Source.tokens` splits a whole text at once and says how it
ended.  `Lookahead` is the view of a reader that works token by token and sees one token ahead.
-/

namespace ScopeScript

/-- Why no lexeme can be formed. -/
inductive LexicalProblem where
  /-- no lexeme starts with the character -/
  | unexpected (c : Char)
  /-- a string has no closing quote; the text is all that stands from its opening quote on -/
  | unterminated (text : String)
  deriving DecidableEq, Repr, Inhabited

/-- A lexical problem and where the lexeme that cannot be formed starts. -/
structure LexicalError where
  problem : LexicalProblem
  position : Position
  deriving DecidableEq, Repr, Inhabited

namespace Lexer

/-! ## Character classes

Words and numerals are made of ASCII letters and digits only. -/

/-- Whether a character is a digit of a numeral. -/
def isDigit (c : Char) : Bool := '0' ≤ c && c ≤ '9'

/-- Whether a character can start a word. -/
def isLetter (c : Char) : Bool := ('a' ≤ c && c ≤ 'z') || ('A' ≤ c && c ≤ 'Z')

/-- Whether a character can stand in a word. -/
def isWordChar (c : Char) : Bool := isLetter c || isDigit c

/-! ## One lexeme -/

/-- What stands at the start of a text that does not start with a blank. -/
inductive Scan where
  /-- the text has ended -/
  | finished
  /-- a lexeme, the characters it is written with and the rest of the text -/
  | lexeme (lexeme : Lexeme) (taken rest : List Char)
  /-- nothing that can be a lexeme -/
  | problem (problem : LexicalProblem)
  deriving Repr, Inhabited

/-- The characters of a numeral that starts with a digit, and the rest. -/
def spanNumeral (text : List Char) : List Char × List Char :=
  match text.dropWhile isDigit with
  | '.' :: behind =>
    (text.takeWhile isDigit ++ '.' :: behind.takeWhile isDigit, behind.dropWhile isDigit)
  | rest => (text.takeWhile isDigit, rest)

/-- The content of a string after its opening quote, the characters it is written with, closing
quote included, and the rest.  A quote written twice is one quote of the content. -/
def spanString : List Char → Option (List Char × List Char × List Char)
  | [] => none
  | '"' :: '"' :: rest =>
    (spanString rest).map fun (content, taken, behind) =>
      ('"' :: content, '"' :: '"' :: taken, behind)
  | '"' :: rest => some ([], ['"'], rest)
  | c :: rest =>
    (spanString rest).map fun (content, taken, behind) => (c :: content, c :: taken, behind)

/-- The lexeme that letters and digits form: a keyword or a name. -/
def wordLexeme (text : String) : Lexeme :=
  match Keyword.ofSpelling? text with
  | some k => .keyword k
  | none => .word text

/-- The lexeme at the start of a text that does not start with a blank: the longest one there is. -/
def scan (text : List Char) : Scan :=
  match text with
  | [] => .finished
  | c :: rest =>
    if c = '<' then
      match rest with
      | '>' :: behind => .lexeme (.mark .unequal) ['<', '>'] behind
      | _ => .lexeme (.mark .less) ['<'] rest
    else
      match Mark.ofChar? c with
      | some m => .lexeme (.mark m) [c] rest
      | none =>
        if c = '.' then
          let digits := rest.takeWhile isDigit
          if digits.isEmpty then .lexeme (.mark .dot) ['.'] rest
          else .lexeme (.number (String.ofList ('.' :: digits))) ('.' :: digits)
            (rest.dropWhile isDigit)
        else if isLetter c then
          let taken := text.takeWhile isWordChar
          .lexeme (wordLexeme (String.ofList taken)) taken (text.dropWhile isWordChar)
        else if isDigit c then
          let (taken, behind) := spanNumeral text
          .lexeme (.number (String.ofList taken)) taken behind
        else if c = '"' then
          match spanString rest with
          | some (content, taken, behind) =>
            .lexeme (.text (String.ofList content)) ('"' :: taken) behind
          | none => .problem (.unterminated (String.ofList text))
        else .problem (.unexpected c)

end Lexer

/-! ## Cursors -/

/-- A place in a source text and the text behind it. -/
structure Cursor where
  position : Position
  rest : List Char
  deriving DecidableEq, Repr, Inhabited

namespace Cursor

/-- The cursor at the start of a source text. -/
def start (source : String) : Cursor := ⟨{}, source.toList⟩

/-- The cursor behind the blanks that it stands at. -/
def skipBlanks (cursor : Cursor) : Cursor :=
  ⟨cursor.position.after (cursor.rest.takeWhile Text.isBlank), cursor.rest.dropWhile Text.isBlank⟩

/-- Where a cursor stands after a problem: in front of an unexpected character, or at the end of a
text whose last string does not end. -/
def afterProblem (cursor : Cursor) : LexicalProblem → Cursor
  | .unexpected _ => cursor
  | .unterminated _ => ⟨cursor.position.after cursor.rest, []⟩

/-- Reads the next token: the cursor behind it, and the token or the problem there is. -/
def read (cursor : Cursor) : Cursor × Except LexicalError Token :=
  let here := cursor.skipBlanks
  match Lexer.scan here.rest with
  | .finished => (here, .ok ⟨.finish, here.position⟩)
  | .lexeme lexeme taken rest => (⟨here.position.after taken, rest⟩, .ok ⟨lexeme, here.position⟩)
  | .problem problem => (here.afterProblem problem, .error ⟨problem, here.position⟩)

end Cursor

/-! ## Whole texts -/

/-- How the tokens of a text end. -/
inductive Ending where
  /-- at the end of the text, which is this place -/
  | finished (position : Position)
  /-- at a lexeme that cannot be formed -/
  | broken (error : LexicalError)
  deriving DecidableEq, Repr, Inhabited

/-- The tokens of a source text up to its end or its first lexical problem. -/
structure Source where
  tokens : List Token
  ending : Ending
  deriving DecidableEq, Repr, Inhabited

namespace Source

/-- Splits the text behind a cursor; every token takes a character, so the length of the text bounds
their number. -/
def readFrom : Nat → Cursor → Source
  | 0, cursor => ⟨[], .finished cursor.position⟩
  | fuel + 1, cursor =>
    match cursor.read with
    | (_, .error error) => ⟨[], .broken error⟩
    | (behind, .ok token) =>
      if token.lexeme = .finish then ⟨[], .finished token.position⟩
      else
        let rest := readFrom fuel behind
        ⟨token :: rest.tokens, rest.ending⟩

/-- Splits a source text. -/
def ofString (source : String) : Source :=
  readFrom (source.toList.length + 1) (Cursor.start source)

end Source

/-- The tokens of a source text, without the end of the input. -/
def tokenize (source : String) : Except LexicalError (List Token) :=
  let split := Source.ofString source
  match split.ending with
  | .finished _ => .ok split.tokens
  | .broken error => .error error

/-! ## One token ahead -/

/-- The state of a reader that works token by token: the token it last took, the one it sees ahead,
and where the text behind that one starts. -/
structure Lookahead where
  current : Option Token
  following : Token
  cursor : Cursor
  deriving DecidableEq, Repr, Inhabited

namespace Lookahead

/-- A reader in front of the first token of a source text. -/
def start (source : String) : Except LexicalError Lookahead :=
  match (Cursor.start source).read with
  | (cursor, .ok token) => .ok ⟨none, token, cursor⟩
  | (_, .error error) => .error error

/-- Takes the token ahead and reads the one behind it.  When that fails the token is taken all the
same and still seen ahead. -/
def advance (view : Lookahead) : Lookahead × Option LexicalError :=
  match view.cursor.read with
  | (cursor, .ok token) => (⟨some view.following, token, cursor⟩, none)
  | (cursor, .error error) => (⟨some view.following, view.following, cursor⟩, some error)

end Lookahead

end ScopeScript
