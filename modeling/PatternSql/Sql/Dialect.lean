import PatternSql.Failure
import PatternSql.Text.Blank

/-!
# Dialects

Commands are written, and the bodies of statements are read, in one of four dialects. These differ
in the characters that surround names and strings, in what is escaped in a string, in what two bars
mean and how tightly some operators bind, in what a division yields, and in whether a string may be
an alias.
-/

namespace PatternSql.Sql

open Text

/-- A variety of the language. -/
inductive Dialect
  /-- The common core. -/
  | generic
  | postgres
  | mysql
  | sqlite
  deriving DecidableEq, Repr

/-- What a division yields. -/
structure Division where
  /-- Whether the quotient of whole numbers is whole. -/
  whole : Bool
  /-- Whether a division by zero yields nothing instead of failing. -/
  lenient : Bool
  deriving DecidableEq, Repr

namespace Dialect

/-- The name of a dialect; the generic one has none. -/
def name : Dialect → String
  | generic => ""
  | postgres => "postgres"
  | mysql => "mysql"
  | sqlite => "sqlite"

/-- All the dialects. -/
def all : List Dialect := [generic, postgres, mysql, sqlite]

/-- The part of a text that names a dialect: what stands before the first comma. -/
def namePart (text : String) : String :=
  String.ofList (text.toList.takeWhile (· != ','))

/-- A text without the blanks around it. -/
def bare (text : String) : String :=
  String.ofList (trim text.toList)

/-- The dialect that is asked for, the generic one if none is. Blanks around its name do not count,
    nor does anything after a comma. -/
def named (request : Option String) : Except Failure Dialect :=
  let text := namePart (request.getD "")
  match all.find? fun d => d.name == bare text with
  | some d => .ok d
  | none => .error (.unknownDialect text)

/-! ## Names, strings and numerals -/

/-- The character that surrounds a name where it is written, and is doubled inside it. -/
def nameQuote : Dialect → Char
  | mysql => '\x60'
  | _ => '"'

/-- The characters that may surround a name where it is read, each with the one that closes it. -/
def nameQuotes : Dialect → List (Char × Char)
  | mysql => [('\x60', '\x60')]
  | sqlite => [('"', '"'), ('[', ']'), ('\x60', '\x60')]
  | _ => [('"', '"')]

/-- Whether a name may begin with a digit without being quoted. -/
def leadingDigits : Dialect → Bool
  | mysql => true
  | _ => false

/-- The characters that may surround a string; the first is the one that is written. -/
def stringQuotes : Dialect → List Char
  | mysql => ['\'', '"']
  | _ => ['\'']

/-- The characters of a string that are written as a backslash and a letter. -/
def escapes : Dialect → List (Char × Char)
  | mysql => [
      ('\\', '\\'), ('0', '\x00'), ('Z', '\x1a'), ('a', '\x07'), ('b', '\x08'), ('f', '\x0c'),
      ('n', '\n'), ('r', '\r'), ('t', '\t'), ('v', '\x0b')
    ]
  | _ => []

/-- Whether a numeral, or a string in quotes, may be marked by an `x` as the digits of a byte
    string. -/
def hexStrings : Dialect → Bool
  | generic => false
  | _ => true

/-- Whether it may be marked by a `b`. -/
def bitStrings : Dialect → Bool
  | postgres => true
  | mysql => true
  | _ => false

/-- Whether a dollar sign marks the name of a parameter, and may surround a string; elsewhere it is
    a letter. -/
def dollarParameters : Dialect → Bool
  | postgres => true
  | _ => false

/-- The sign in front of the name of a parameter. -/
def parameterSign : Dialect → Char
  | postgres => '$'
  | _ => '@'

/-- Whether a string may follow an expression as its alias. -/
def stringAliases : Dialect → Bool
  | mysql => true
  | sqlite => true
  | _ => false

/-! ## Operators and functions -/

/-- Whether two bars join texts; where they do not, they are a disjunction. -/
def barsJoin : Dialect → Bool
  | mysql => false
  | _ => true

/-- What a division yields. -/
def division : Dialect → Division
  | generic => ⟨false, false⟩
  | postgres => ⟨true, false⟩
  | mysql => ⟨false, true⟩
  | sqlite => ⟨true, true⟩

/-- The name of the type of doubles. -/
def doubleType : Dialect → String
  | postgres => "DOUBLE PRECISION"
  | sqlite => "REAL"
  | _ => "DOUBLE"

/-- Whether the function that joins texts passes over what is missing. -/
def joinsPresent : Dialect → Bool
  | postgres => true
  | _ => false

/-- Whether a function may be applied to the distinct values of several expressions at once. -/
def distinctRows : Dialect → Bool
  | postgres => false
  | _ => true

/-- The functions that have a name of their own where they compare their arguments instead of the
    rows, each with that name. -/
def rowwise : Dialect → List (String × String)
  | postgres => [("MIN", "LEAST"), ("MAX", "GREATEST")]
  | mysql => [("MIN", "LEAST"), ("MAX", "GREATEST")]
  | _ => []

/-- The number of the first element of a list. -/
def firstIndex : Dialect → Nat
  | postgres => 1
  | _ => 0

end Dialect

end PatternSql.Sql
