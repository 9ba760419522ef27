import PatternSql.Sql.Lexeme
import PatternSql.Text.Upper

/-!
# Keywords

The words that the language keeps for itself when a text is read, in any case. Some keywords are
phrases of two words; these count as one.
-/

namespace PatternSql.Sql

open Text

/-- The words that are not the name of a column or a function, and no alias after nothing but an
    expression, unless quoted. -/
def reservedWords : List String := [
  "ALTER", "ANALYZE", "AND", "AS", "BETWEEN", "CHARACTER SET", "CLUSTER BY", "CONNECT BY", "CREATE",
  "CROSS", "DISTINCT", "DISTRIBUTE BY", "DROP", "ELSE", "EXCEPT", "FETCH", "FOR", "FROM", "GLOB",
  "GRANT", "GROUP BY", "GROUPING SETS", "HAVING", "ILIKE", "INNER", "INSERT", "INTERSECT", "INTO",
  "JOIN", "LATERAL", "LIKE", "NOT", "NOTNULL", "ON", "OR", "ORDER BY", "OUTER", "PARTITION BY",
  "PARTITIONED BY", "PRIMARY KEY", "QUALIFY", "REGEXP", "RETURNING", "RLIKE", "ROLLBACK", "SELECT",
  "SIMILAR TO", "SORT BY", "START WITH", "STRAIGHT_JOIN", "TABLESAMPLE", "THEN", "UNCACHE", "UNION",
  "USING", "VALUES", "WHEN", "WHERE", "WITH", "XOR"
]

/-- Whether a word is reserved. -/
def isReserved (word : String) : Bool :=
  reservedWords.contains (upper word)

/-- The words that name a column and never a function. -/
def plainWords : List String := [
  "ASC", "DEFAULT", "DESC", "END", "FULL", "IN", "IS", "LIMIT", "NATURAL", "OVER", "ROWS", "SET"
]

/-- Whether a word may be the name of a function. -/
def isCallable (word : String) : Bool :=
  !isReserved word && !plainWords.contains (upper word)

/-- The words that are no name after a point or after the word for an alias either. -/
def isForbidden (word : String) : Bool :=
  upper word == "NOT" || upper word == "SELECT"

/-- Whether a lexeme is the given word. -/
def isWordOf (word : String) : Lexeme → Bool
  | .word text => upper text == word
  | _ => false

/-- The lexemes after a word, if they begin with it. -/
def afterWord? (word : String) : List Lexeme → Option (List Lexeme)
  | l :: ls => if isWordOf word l then some ls else none
  | [] => none

/-- Whether lexemes begin with a word, and what follows it; all of them if they do not. -/
def passWord (word : String) (ls : List Lexeme) : Bool × List Lexeme :=
  match afterWord? word ls with
  | some rest => (true, rest)
  | none => (false, ls)

/-! ## Phrases -/

/-- The phrases of two words. -/
def phrases : List (String × String) := [
  ("CHARACTER", "SET"), ("CLUSTER", "BY"), ("CONNECT", "BY"), ("DISTRIBUTE", "BY"),
  ("GROUP", "BY"), ("GROUPING", "SETS"), ("ORDER", "BY"), ("PARTITION", "BY"),
  ("PARTITIONED", "BY"), ("PRIMARY", "KEY"), ("SIMILAR", "TO"), ("SORT", "BY"), ("START", "WITH")
]

/-- Whether two words are a phrase. -/
def isPhrase (first second : String) : Bool :=
  phrases.contains (upper first, upper second)

/-- Lexemes with the words of phrases joined, in capitals. -/
def joinPhrases : List Lexeme → List Lexeme
  | .word first :: .word second :: ls =>
    if isPhrase first second then
      .word (upper first ++ " " ++ upper second) :: joinPhrases ls
    else .word first :: joinPhrases (.word second :: ls)
  | l :: ls => l :: joinPhrases ls
  | [] => []

end PatternSql.Sql
