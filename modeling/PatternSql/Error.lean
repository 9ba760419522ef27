import PatternSql.Text.Quoted
import PatternSql.Token

/-!
# Input errors

Everything that can be wrong with a pattern or a statement, with the place where it shows. A cause
is data; its wording is in the functions named `text` and `message`.
-/

namespace PatternSql

/-! ## Expectations -/

/-- Puts a text in its place in a rising list, unless it is there. -/
def insertText (text : String) : List String → List String
  | [] => [text]
  | t :: ts =>
    if text = t then t :: ts
    else if text < t then text :: t :: ts
    else t :: insertText text ts

/-- The given texts in rising order of code points, each once. -/
def expectedTexts (texts : List String) : List String :=
  texts.foldr insertText []

/-! ## Causes -/

/-- Why a character begins no token. -/
inductive LexicalCause
  /-- It is a quote that does not occur again. -/
  | unterminated (quote : Char)
  /-- No token begins with it. -/
  | invalid (c : Char)
  /-- A cause in the words of the caller. -/
  | worded (text : String)
  deriving DecidableEq, Repr

/-- The cause for a character that begins no token. Model of the reason that `lex_error` gives. -/
def LexicalCause.ofChar (c : Char) : LexicalCause :=
  if c == '\'' || c == '"' then .unterminated c else .invalid c

/-- The wording of a lexical cause. -/
def LexicalCause.text : LexicalCause → String
  | unterminated quote => "unterminated string literal starting with " ++ quote.toString
  | invalid c => "invalid character " ++ Text.quoted c.toString
  | worded text => text

/-- A clause that cannot be read, with the description of what is wrong in it: what
    `_sql_parse_error` reports. The description is in the words of the parser for the bodies, which
    are not modelled; the readers of this library leave it open. -/
structure MalformedClause where
  /-- The text of the clause. -/
  text : String
  /-- The words of the parser, where they are known. -/
  description : Option String
  deriving DecidableEq, Repr

/-- The wording of a clause that cannot be read. -/
def MalformedClause.wording (c : MalformedClause) : String :=
  match c.description with
  | none => Text.quoted c.text
  | some words => Text.quoted c.text ++ " (" ++ words ++ ")"

/-- What was met in place of what was expected. -/
inductive Finding
  /-- The end of the text. -/
  | ending
  /-- A token. -/
  | token (terminal : Terminal) (text : String)
  /-- A key that occurs earlier in the same map. -/
  | repeatedKey (key : String)
  /-- A numeral beyond the doubles. -/
  | hugeNumber (numeral : String)
  /-- A clause that is one of several queries, not a list of items. -/
  | compoundClause (clause : String)
  /-- A clause that is no expression, or no list of items. -/
  | malformedClause (clause : MalformedClause)
  /-- A finding in the words of the caller. -/
  | worded (text : String)
  deriving DecidableEq, Repr

/-- The wording of a finding. -/
def Finding.text : Finding → String
  | ending => Terminal.endOfInput.display
  | token terminal text => terminal.display ++ " " ++ Text.quoted text
  | repeatedKey key => "duplicate key " ++ Text.quoted key
  | hugeNumber numeral => Text.quoted numeral
  | compoundClause clause => Text.quoted clause
  | malformedClause clause => clause.wording
  | worded text => text

/-- What patterns and statements may say but no command expresses. -/
inductive Construct
  | severalPaths
  | relationship
  | severalLabels (labels : List String)
  /-- Parts of a projection other than its items. -/
  | modifiers (names : List String)
  /-- A construct in the words of the caller. -/
  | worded (text : String)
  deriving DecidableEq, Repr

/-- The wording of a construct. -/
def Construct.text : Construct → String
  | severalPaths => "multiple node patterns"
  | relationship => "relationship pattern"
  | severalLabels labels => "multiple labels (" ++ ":".intercalate labels ++ ")"
  | modifiers names => "RETURN modifiers (" ++ ", ".intercalate names ++ ")"
  | worded text => text

/-! ## Errors -/

/-- An error in a pattern or a statement, `CypherTranslationError`: its subclasses `LexError`,
    `ParseError`, `MissingLabel`, `NoProperties` and `UnsupportedConstruct`. -/
inductive InputError
  /-- A character that begins no token. -/
  | lexical (position : Nat) (cause : LexicalCause) (line column : Option Nat)
  /-- A violation of the grammar or of a rule on maps and clauses. -/
  | syntactic (position : Option Nat) (expected : List String) (finding : Finding)
  /-- A pattern without a label names no table. The pattern is given by its variable. -/
  | missingLabel (pattern : Option String)
  /-- A pattern to create without properties. -/
  | noProperties (label : Option String)
  /-- A construct that no command expresses. -/
  | unsupported (construct : Construct) (position : Option Nat)
  /-- An error in the words of the caller. -/
  | worded (text : String)
  deriving DecidableEq, Repr

/-- The position in a message. -/
def atPosition : Option Nat → String
  | some position => " at position " ++ toString position
  | none => ""

/-- A detail in a message, unless it is missing or empty. -/
def detail (before : String) : Option String → String
  | some text => if text.isEmpty then "" else before ++ text
  | none => ""

namespace InputError

/-- The message of an error. -/
def message : InputError → String
  | lexical position cause _ _ =>
    "Lex error at position " ++ toString position ++ ": " ++ cause.text
  | syntactic position expected finding =>
    "Parse error" ++ atPosition position ++ ": expected " ++
      " or ".intercalate (expectedTexts expected) ++ ", found " ++ finding.text
  | missingLabel pattern => "Node pattern has no label" ++ detail ": " pattern
  | noProperties label => "CREATE pattern has no properties to insert" ++ detail " into " label
  | unsupported construct position =>
    "Unsupported construct" ++ atPosition position ++ ": " ++ construct.text
  | worded text => text

/-- The error for a character that begins no token, at its place. Model of `lex_error`. -/
def ofChar (p : Cursor) (c : Char) : InputError :=
  .lexical p.offset (.ofChar c) p.line p.column

end InputError

end PatternSql
