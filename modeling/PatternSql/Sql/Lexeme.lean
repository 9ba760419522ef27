import PatternSql.Sql.Dialect
import PatternSql.Text.Blank

/-!
# Lexemes

A text of the language is a row of words, names and strings in quotes, numerals and marks, with
blanks between them where two would run together. A quote of the surrounding kind is written twice
inside a name or a string.
-/

namespace PatternSql.Sql

open Text

/-- A mark of one character or more. -/
inductive Mark
  | leftParen
  | rightParen
  | leftBracket
  | rightBracket
  | comma
  | dot
  | plus
  | minus
  | star
  | slash
  | percent
  | equal
  | notEqual
  | less
  | lessEqual
  | greater
  | greaterEqual
  | spaceship
  | bars
  | bar
  | caret
  | hash
  | tilde
  deriving DecidableEq, Repr

/-- How a mark is written. -/
def Mark.text : Mark → String
  | leftParen => "("
  | rightParen => ")"
  | leftBracket => "["
  | rightBracket => "]"
  | comma => ","
  | dot => "."
  | plus => "+"
  | minus => "-"
  | star => "*"
  | slash => "/"
  | percent => "%"
  | equal => "="
  | notEqual => "<>"
  | less => "<"
  | lessEqual => "<="
  | greater => ">"
  | greaterEqual => ">="
  | spaceship => "<=>"
  | bars => "||"
  | bar => "|"
  | caret => "^"
  | hash => "#"
  | tilde => "~"

/-- The base of the digits of a byte string. -/
inductive Base
  | two
  | sixteen
  deriving DecidableEq, Repr

/-- The letter in front of a byte string. -/
def Base.letter : Base → Char
  | two => 'b'
  | sixteen => 'x'

/-- The smallest part of a text. -/
inductive Lexeme
  /-- A name without quotes, or a keyword. -/
  | word (text : String)
  /-- A name in quotes. -/
  | name (text : String)
  | string (text : String)
  | number (text : String)
  /-- A byte string, by its digits. -/
  | bytes (base : Base) (digits : String)
  | parameter (label : String)
  | mark (mark : Mark)
  deriving DecidableEq, Repr

/-! ## Writing -/

/-- A text with a character doubled wherever it occurs. -/
def double (quote : Char) (cs : List Char) : List Char :=
  cs.flatMap fun c => if c = quote then [c, c] else [c]

/-- A name in quotes. -/
def quoteName (d : Dialect) (text : String) : String :=
  String.ofList (d.nameQuote :: (double d.nameQuote text.toList ++ [d.nameQuote]))

/-- A character of a string between single quotes. -/
def escapeChar (d : Dialect) (c : Char) : List Char :=
  if c = '\'' then [c, c]
  else match d.escapes.find? fun pair => pair.2 = c with
    | some (letter, _) => ['\\', letter]
    | none => [c]

/-- A string in quotes. -/
def quoteString (d : Dialect) (text : String) : String :=
  String.ofList ('\'' :: (text.toList.flatMap (escapeChar d) ++ ['\'']))

/-- How a lexeme is written. -/
def Lexeme.text (d : Dialect) : Lexeme → String
  | word text => text
  | name text => quoteName d text
  | string text => quoteString d text
  | number text => text
  | bytes base digits => String.ofList (base.letter :: '\'' :: (digits.toList ++ ['\'']))
  | parameter label => String.ofList (d.parameterSign :: label.toList)
  | mark m => m.text

end PatternSql.Sql
