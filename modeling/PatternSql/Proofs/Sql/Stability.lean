import PatternSql.Sql.Expr.Reading
import PatternSql.Sql.Expr.Writing
import PatternSql.Sql.Lexeme.Scan

/-!
# Expressions that are read as they are written

An expression is written in the order in which it was read, and no parentheses are added. So its
text is read as the same expression unless something in it is not written as it was read. A negation
that was written inside a test stands in front of the tested operand afterwards, where it takes the
operators after the test for its own; a few names and numerals that were read from other spellings
have no spelling of their own; and some kinds of expressions are written as calls or in other words.
Of the calls only those of the functions of known meaning are told to stay: any other name may be
that of a function which is written in a form of its own. In the same way a few words are left out
where a column or an alias may begin with them.

What is told here is which expressions of the common kinds have nothing of this in them. All of it
can be computed.

Main results:

* `Expr.takes`: which operators are taken for a part of an expression that they follow.
* `Expr.isStable`: the expressions that are written as they were read.
-/

namespace PatternSql.Sql

open Text

/-! ## Words and numerals -/

/-- Whether a text is one word: it begins with no digit, and nothing in it ends a word. -/
def isWordText (text : String) : Bool :=
  match text.toList with
  | [] => false
  | c :: cs => !c.isDigit && (c :: cs).all (!endsWord ·)

/-- Whether a text is one numeral from end to end. -/
def isNumeralText (text : String) : Bool :=
  match text.toList with
  | [] => false
  | c :: cs => c.isDigit && (numeralRun false false false cs).2.isEmpty

/-- Whether the name of a column, a table or an alias is written in the form that it has and is a
    name there. A bare name is a word that need not be quoted; there are no parameters in the generic
    dialect. -/
def Name.isStable : Name → Bool
  | bare text => isWordText text && !isForbidden text && Dialect.generic.admits text
  | quoted _ => true
  | parameter _ => false

/-- The words that are more than a name in some places: values without arguments, operators, and what
    other forms of the library of the language begin with. None of these forms is described here. -/
def versatileWords : List String := [
  "ANY", "COLLATE", "CONNECT_BY_ROOT", "CURRENT_CATALOG", "CURRENT_DATE", "CURRENT_DATETIME",
  "CURRENT_ROLE", "CURRENT_SCHEMA", "CURRENT_TIME", "CURRENT_TIMESTAMP", "CURRENT_USER", "DIV",
  "ESCAPE", "EXCLUDE", "EXISTS", "FALSE", "IF", "INTERVAL", "JSON", "LOCALTIME", "LOCALTIMESTAMP",
  "NEXT", "NULL", "OVERLAPS", "PRIOR", "RENAME", "REPLACE", "SESSION_USER", "SOME", "TRUE", "UNKNOWN"
]

/-- Whether a name is a name and nothing else wherever a column or an alias may begin. -/
def Name.isPlain : Name → Bool
  | bare text => !versatileWords.contains (upper text)
  | _ => true

/-- Whether names with points between them are written in the form that they have. After a point
    every word is a name. -/
def areDotted (names : List Name) : Bool :=
  names.all Name.isStable && names.head?.all Name.isPlain

/-- Whether a name is that of a function of known meaning. -/
def Name.isAggregate : Name → Bool
  | bare text => Expr.aggregates.contains text
  | _ => false

/-- Whether an operator is written as it was read. An equality of what may be missing is written in
    words, which bind more tightly; some operators are read in other dialects alone. -/
def Operator.isStable : Operator → Bool
  | .xor => false
  | .isNot => false
  | .sameAs => false
  | .differsFrom => false
  | .power => false
  | .divide rule => rule = Dialect.generic.division
  | _ => true

namespace Expr

/-! ## Levels -/

/-- How tightly the outermost operator or test of an expression binds. -/
def level : Expr → Nat
  | .binary op _ _ => op.level .generic
  | .between _ _ _ => rangeLevel
  | .member _ _ => rangeLevel
  | .memberOf _ _ => rangeLevel
  | .escaping _ _ => rangeLevel
  | _ => operandLevel

/-- Whether an operator of the given level after an expression is taken for a part of it, since what
    stands last in the expression goes on as far as the operator. An identity with nothing ends
    there. -/
def takes (k : Nat) : Expr → Bool
  | .binary .is _ .null => false
  | .binary op _ right => (op.level .generic < k && k ≤ right.level) || right.takes k
  | .between _ _ high => (rangeLevel < k && k ≤ high.level) || high.takes k
  | .not operand => (equalityLevel ≤ k && k ≤ operand.level) || operand.takes k
  | .negative operand => operand.takes k
  | _ => false

/-! ## Rows -/

/-- The lexemes that an expression is written as. -/
def row (e : Expr) : List Lexeme :=
  lexemesOf (e.pieces .plain)

/-- Whether an expression begins with a word. -/
def beginsWith (word : String) (e : Expr) : Bool :=
  e.row.head?.any (isWordOf word)

/-- Whether an expression may be the right operand of an identity: it does not begin with a
    negation, nor with nothing unless it is nothing. -/
def mayBeIdentity : Expr → Bool
  | .null => true
  | e => !e.beginsWith "NOT" && !e.beginsWith "NULL"

/-! ## Stability -/

mutual

/-- Whether an expression is of the common kinds and is written as it was read. -/
def isStable : Expr → Bool
  | .column qualifiers name => areDotted (qualifiers ++ [name])
  | .star qualifiers => areDotted qualifiers
  | .number text => isNumeralText text
  | .string _ => true
  | .boolean _ => true
  | .null => true
  | .paren inner => inner.isStable
  | .tuple entries => entries.length ≠ 1 && areStable entries
  | .negative operand => operand.isStable
  | .not operand => operand.isStable
  | .binary op left right =>
    op.isStable && !left.takes (op.level .generic) && left.isStable && right.isStable &&
      (op ≠ .is || right.mayBeIdentity)
  | .between operand low high =>
    !operand.takes rangeLevel && operand.isStable && low.isStable && high.isStable
  | .member operand list => !operand.takes rangeLevel && operand.isStable && areStable list
  | .call function arguments => function.isAggregate && areStable arguments
  | .distinct entries => areStable entries
  | .named operand name => operand.isStable && areDotted [name]
  | _ => false

/-- Whether all of some expressions are. -/
def areStable : List Expr → Bool
  | [] => true
  | e :: es => e.isStable && areStable es

end

end Expr

end PatternSql.Sql
