import PatternSql.Pattern.Meaning
import PatternSql.Statement.Reading

/-!
# Statements

A statement with its pattern understood and its bodies still in the words of the text. A body is cut
from the text from its first token to its last, so the blanks inside it are kept and those around it
are not.
-/

namespace PatternSql

/-- The text of a condition or a projection, and where it begins: `ClauseText`. -/
structure Clause where
  /-- The text, without outer blanks. -/
  text : String
  /-- The number of characters before it. -/
  position : Nat
  deriving DecidableEq, Repr

/-- The characters of a text from one offset to another. -/
def slice (text : String) (start stop : Nat) : String :=
  String.ofList ((text.toList.drop start).take (stop - start))

/-- The clause that a row of tokens of a text is. Model of `StatementTransformer.clause_text`. -/
def Clause.ofTokens (text : String) (tokens : List Token) : Clause :=
  let start := (tokens.head?.map (·.start.offset)).getD 0
  let stop := (tokens.getLast?.map (·.stop)).getD 0
  ⟨slice text start stop, start⟩

/-- A statement, `ParsedStatement`. -/
inductive Statement
  /-- Matches a pattern, with a condition or without, and returns a projection. -/
  | matching (pattern : Pattern) (condition : Option Clause) (projection : Clause)
  /-- Creates a pattern. -/
  | creating (pattern : Pattern)
  deriving DecidableEq, Repr

/-- The pattern of a statement. -/
def Statement.pattern : Statement → Pattern
  | matching p _ _ => p
  | creating p => p

/-- The statement that is written in a text. Model of `match_statement` and `create_statement` of
    `StatementTransformer`. -/
def StatementSyntax.meaning (text : String) : StatementSyntax → Except Failure Statement
  | matching p condition projection => do
    let p ← p.meaning
    return .matching p (condition.map (.ofTokens text)) (.ofTokens text projection)
  | creating p => do
    let p ← p.meaning
    return .creating p

/-- The syntax of a text that is one statement. Model of `CypherParser.parse_tree` from the rule
    `statement`. -/
def readStatement (text : String) : Except InputError StatementSyntax :=
  statementReader.read .start (scan text)

/-- The statement that a text is. Model of `StatementParser.parse_raw`. -/
def splitStatement (text : String) : Except Failure Statement := do
  let st ← (readStatement text).mapError .input
  st.meaning text

end PatternSql
