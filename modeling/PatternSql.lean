import PatternSql.CommandLine
import PatternSql.Config
import PatternSql.Conversion
import PatternSql.Error
import PatternSql.Failure
import PatternSql.Literal
import PatternSql.Literal.Coercion
import PatternSql.Main
import PatternSql.Number.Double
import PatternSql.Number.Numeral
import PatternSql.Number.Shortest
import PatternSql.Number.Style
import PatternSql.Pattern
import PatternSql.Pattern.Meaning
import PatternSql.Pattern.Reading
import PatternSql.Pattern.Syntax
import PatternSql.Proofs.Conversion.Agreement
import PatternSql.Proofs.Conversion.Alias
import PatternSql.Proofs.Conversion.Creation
import PatternSql.Proofs.Conversion.Matching
import PatternSql.Proofs.Conversion.Outcome
import PatternSql.Proofs.Conversion.Passing
import PatternSql.Proofs.Conversion.Refusals
import PatternSql.Proofs.Conversion.Selecting
import PatternSql.Proofs.Conversion.WholeNode
import PatternSql.Proofs.Grammar.Ebnf
import PatternSql.Proofs.Grammar.Expectation
import PatternSql.Proofs.Grammar.Location
import PatternSql.Proofs.Grammar.Printed
import PatternSql.Proofs.Grammar.Relocation
import PatternSql.Proofs.Grammar.Remainder
import PatternSql.Proofs.Grammar.Roles
import PatternSql.Proofs.Grammar.Rules
import PatternSql.Proofs.Literal.Codec
import PatternSql.Proofs.Literal.Coercion
import PatternSql.Proofs.Literal.Number
import PatternSql.Proofs.Literal.Spelling
import PatternSql.Proofs.Literal.Unreadable
import PatternSql.Proofs.Number.Digits
import PatternSql.Proofs.Number.Nearest
import PatternSql.Proofs.Number.Numeral
import PatternSql.Proofs.Number.Rounding
import PatternSql.Proofs.Number.Shortest
import PatternSql.Proofs.Number.Writing
import PatternSql.Proofs.Pattern.Acceptance
import PatternSql.Proofs.Pattern.Derivation
import PatternSql.Proofs.Pattern.Faults
import PatternSql.Proofs.Pattern.Following
import PatternSql.Proofs.Pattern.Kinds
import PatternSql.Proofs.Pattern.Numbers
import PatternSql.Proofs.Pattern.Places
import PatternSql.Proofs.Pattern.Printing
import PatternSql.Proofs.Pattern.Refusal
import PatternSql.Proofs.Pattern.Relocation
import PatternSql.Proofs.Pattern.RoundTrip
import PatternSql.Proofs.Pattern.Spacing
import PatternSql.Proofs.Pattern.Understanding
import PatternSql.Proofs.Sql.Bodies
import PatternSql.Proofs.Sql.Faithful
import PatternSql.Proofs.Sql.FaithfulReaders
import PatternSql.Proofs.Sql.Legible
import PatternSql.Proofs.Sql.Operands
import PatternSql.Proofs.Sql.Parts
import PatternSql.Proofs.Sql.PlainReader
import PatternSql.Proofs.Sql.PlainWriting
import PatternSql.Proofs.Sql.Qualifiers
import PatternSql.Proofs.Sql.ReadingBack
import PatternSql.Proofs.Sql.Stability
import PatternSql.Proofs.Sql.StableText
import PatternSql.Proofs.Statement.Creating
import PatternSql.Proofs.Statement.Derivation
import PatternSql.Proofs.Statement.Envelope
import PatternSql.Proofs.Statement.Overlong
import PatternSql.Proofs.Statement.Pattern
import PatternSql.Proofs.Statement.Relocation
import PatternSql.Proofs.Text.Occurrence
import PatternSql.Proofs.Text.Run
import PatternSql.Proofs.Token.Behind
import PatternSql.Proofs.Token.Concatenation
import PatternSql.Proofs.Token.Coverage
import PatternSql.Proofs.Token.Lexeme
import PatternSql.Proofs.Token.Longest
import PatternSql.Proofs.Token.Pieces
import PatternSql.Proofs.Token.Shape
import PatternSql.Proofs.Token.Spacing
import PatternSql.Proofs.Token.Terminals
import PatternSql.Reader
import PatternSql.Request
import PatternSql.Sql.Command
import PatternSql.Sql.Dialect
import PatternSql.Sql.Expr
import PatternSql.Sql.Expr.Adapting
import PatternSql.Sql.Expr.Grouping
import PatternSql.Sql.Expr.Reading
import PatternSql.Sql.Expr.Writing
import PatternSql.Sql.Keyword
import PatternSql.Sql.Layout
import PatternSql.Sql.Lexeme
import PatternSql.Sql.Lexeme.Scan
import PatternSql.Sql.Name
import PatternSql.Sql.Projection
import PatternSql.Sql.Query
import PatternSql.Sql.Reserved
import PatternSql.Statement
import PatternSql.Statement.Reading
import PatternSql.Text.Blank
import PatternSql.Text.Digit
import PatternSql.Text.Printable
import PatternSql.Text.Quoted
import PatternSql.Text.Range
import PatternSql.Text.Similar
import PatternSql.Text.Upper
import PatternSql.Text.Word
import PatternSql.Token
import PatternSql.Token.Scan
import PatternSql.Proofs.Token.Longest
import PatternSql.Proofs.Conversion.Selecting
