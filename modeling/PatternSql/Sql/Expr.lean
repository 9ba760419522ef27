import PatternSql.Literal
import PatternSql.Sql.Name

/-!
# Expressions

The conditions, projected items and values of commands. An expression keeps what its text says:
parentheses are part of it, numerals stand as they are spelled, and names know whether they are
quoted. Operators have levels; one of a higher level binds more tightly.

Main results:

* `Operator.level_lt_operandLevel`: no operator binds as tightly as a sign.
* `Expr.ofLiteral_isOk_iff`: which literals have a form as expressions.
-/

namespace PatternSql.Sql

/-! ## Operators -/

/-- An operator between two operands. -/
inductive Operator
  | or
  | and
  | xor
  | equal
  | notEqual
  | less
  | lessEqual
  | greater
  | greaterEqual
  | is
  | isNot
  /-- Equality, by which what is missing equals what is missing. -/
  | sameAs
  /-- The negation of that equality. -/
  | differsFrom
  | like (negated : Bool)
  | concat
  | bitOr
  | bitXor
  | shiftLeft
  | shiftRight
  | plus
  | minus
  | remainder
  | times
  | divide (rule : Division)
  | power
  deriving DecidableEq, Repr

/-- The level of a disjunction, the loosest of all. -/
def disjunctionLevel : Nat := 0

/-- The level of equalities, the loosest that the operand of a negation reaches. -/
def equalityLevel : Nat := 2

/-- The level of comparisons. -/
def comparisonLevel : Nat := 3

/-- The level of membership, likeness and ranges. -/
def rangeLevel : Nat := 4

/-- The level of what may be the bound of a range. -/
def bitLevel : Nat := 5

/-- The level of sums. -/
def sumLevel : Nat := 6

/-- The level of an operand with its sign. -/
def operandLevel : Nat := 9

/-- How tightly an identity binds. -/
def Dialect.identityLevel : Dialect → Nat
  | .generic => rangeLevel
  | _ => equalityLevel

/-- The tightest level of an operator that takes an identity for its left operand as it stands. -/
def Dialect.identityReach : Dialect → Nat
  | .generic => rangeLevel
  | .sqlite => equalityLevel
  | _ => comparisonLevel

/-- The loosest level of the right operand of an identity. -/
def Dialect.identityScope : Dialect → Nat
  | .sqlite => comparisonLevel
  | _ => bitLevel

namespace Operator

/-- How tightly an operator binds. -/
def level (d : Dialect) : Operator → Nat
  | or => disjunctionLevel
  | and => 1
  | xor => 1
  | equal => equalityLevel
  | notEqual => equalityLevel
  | sameAs => equalityLevel
  | differsFrom => equalityLevel
  | less => comparisonLevel
  | lessEqual => comparisonLevel
  | greater => comparisonLevel
  | greaterEqual => comparisonLevel
  | is => d.identityLevel
  | isNot => d.identityLevel
  | like _ => rangeLevel
  | concat => if d = .sqlite then 8 else bitLevel
  | bitOr => bitLevel
  | bitXor => bitLevel
  | shiftLeft => bitLevel
  | shiftRight => bitLevel
  | plus => sumLevel
  | minus => sumLevel
  | remainder => sumLevel
  | times => 7
  | divide _ => 7
  | power => 8

/-- The operators between truth values. -/
def isConnective : Operator → Bool
  | or => true
  | and => true
  | xor => true
  | _ => false

/-- The operators that compare two values. -/
def isComparison : Operator → Bool
  | equal => true
  | notEqual => true
  | less => true
  | lessEqual => true
  | greater => true
  | greaterEqual => true
  | _ => false

/-- The operators that tell whether two values are one and the same, or both missing. -/
def isIdentity : Operator → Bool
  | is => true
  | isNot => true
  | sameAs => true
  | differsFrom => true
  | _ => false

/-- The operators between numbers. -/
def isArithmetic : Operator → Bool
  | bitOr => true
  | bitXor => true
  | shiftLeft => true
  | shiftRight => true
  | plus => true
  | minus => true
  | remainder => true
  | times => true
  | divide _ => true
  | _ => false

/-- How an operator is written. -/
def lexemes (d : Dialect) : Operator → List Lexeme
  | or => [.word "OR"]
  | and => [.word "AND"]
  | xor => [.word "XOR"]
  | equal => [.mark .equal]
  | notEqual => [.mark .notEqual]
  | less => [.mark .less]
  | lessEqual => [.mark .lessEqual]
  | greater => [.mark .greater]
  | greaterEqual => [.mark .greaterEqual]
  | is => [.word "IS"]
  | isNot => [.word "IS", .word "NOT"]
  | sameAs =>
    match d with
    | .mysql => [.mark .spaceship]
    | .sqlite => [.word "IS"]
    | _ => [.word "IS", .word "NOT", .word "DISTINCT", .word "FROM"]
  | differsFrom =>
    match d with
    | .sqlite => [.word "IS", .word "NOT"]
    | _ => [.word "IS", .word "DISTINCT", .word "FROM"]
  | like false => [.word "LIKE"]
  | like true => [.word "NOT", .word "LIKE"]
  | concat => [.mark .bars]
  | bitOr => [.mark .bar]
  | bitXor => [.mark (if d = .postgres then .hash else .caret)]
  | shiftLeft => [.mark .less, .mark .less]
  | shiftRight => [.mark .greater, .mark .greater]
  | plus => [.mark .plus]
  | minus => [.mark .minus]
  | remainder => [.mark .percent]
  | times => [.mark .star]
  | divide _ => [.mark .slash]
  | power => [.mark .caret]

theorem level_lt_operandLevel (d : Dialect) (op : Operator) : op.level d < operandLevel := by
  cases op <;> cases d <;> simp only [level] <;> decide

end Operator

/-! ## Expressions -/

/-- An expression. -/
inductive Expr
  /-- A column, perhaps of a named table. -/
  | column (qualifiers : List Name) (name : Name)
  /-- All columns, perhaps of a named table. -/
  | star (qualifiers : List Name)
  /-- A numeral, as it is spelled. -/
  | number (text : String)
  | string (text : String)
  /-- Strings side by side, which are joined by the rule of a dialect: what is missing may be passed
      over. -/
  | strings (passing : Bool) (texts : List String)
  /-- A byte string, by its digits. -/
  | bytes (base : Base) (digits : String)
  | boolean (value : Bool)
  | null
  | paren (inner : Expr)
  | tuple (entries : List Expr)
  | array (entries : List Expr)
  /-- A query for some or for the distinct rows of its sources. -/
  | query (unique : Bool) (items sources : List Expr)
  | negative (operand : Expr)
  /-- A number with all its bits turned over. -/
  | complement (operand : Expr)
  | not (operand : Expr)
  | binary (op : Operator) (left right : Expr)
  /-- Whether an operand lies between two bounds. -/
  | between (operand low high : Expr)
  /-- Whether an operand is in a list. -/
  | member (operand : Expr) (list : List Expr)
  /-- Whether an operand is in what an expression stands for. -/
  | memberOf (operand collection : Expr)
  /-- A likeness with the character that takes the meaning from the one after it. -/
  | escaping (likeness mark : Expr)
  /-- A function applied to its arguments. -/
  | call (function : Name) (arguments : List Expr)
  /-- The distinct values of expressions, as an argument. -/
  | distinct (entries : List Expr)
  /-- A part of what an expression stands for. -/
  | access (whole part : Expr)
  /-- An element of a list, by its number. -/
  | element (whole : Expr) (indices : List Expr)
  /-- A choice by cases. -/
  | choice (cases : List Expr)
  /-- A choice by the values of an expression. -/
  | choiceOf (subject : Expr) (cases : List Expr)
  /-- A case of a choice. -/
  | when (condition value : Expr)
  /-- The last case of a choice. -/
  | otherwise (value : Expr)
  /-- An expression turned into a type. -/
  | cast (operand : Expr) (type : String)
  /-- An expression with a name of its own. -/
  | named (operand : Expr) (name : Name)
  /-- An expression with names for its parts. -/
  | unpacked (operand : Expr) (names : List Name)
  deriving Repr

namespace Expr

/-- A column by its name alone. Model of `exp.column`. -/
def ofName (n : Name) : Expr :=
  .column [] n

/-- The numeral of a whole number. Model of `exp.Literal.number`, as is `ofDouble`. -/
def ofInt (n : Int) : Expr :=
  if n < 0 then .negative (.number (toString n.natAbs)) else .number (toString n)

/-- The numeral of a finite double. A negative number is a sign and a numeral in the exact style;
    the negative zero is one numeral. -/
def ofDouble (x : Double) : Expr :=
  match x with
  | .finite true (m + 1) e h => .negative (.number ((Double.finite false (m + 1) e h).write .exact))
  | x => .number x.text

/-- The expression that a literal is in a command. Model of `literal_to_sql`. -/
def ofLiteral : Literal → Except NoSqlForm Expr
  | .string value => .ok (.string value)
  | .integer value =>
    if Literal.isOverlong value then .error .tooManyDigits else .ok (ofInt value)
  | .float value => if value.isFinite then .ok (ofDouble value) else .error (.notFinite value)
  | .boolean value => .ok (.boolean value)
  | .null => .ok .null
  | .identifier name => .ok (ofName (.ofText name))
  | .unspecified => .error .unspecified

/-- An expression, or its negation. -/
def negatedIf (negated : Bool) (e : Expr) : Expr :=
  if negated then .not e else e

/-- An expression without the parentheses around it. -/
def unwrapped : Expr → Expr
  | .paren inner => inner.unwrapped
  | e => e

/-! ## Kinds -/

/-- Whether an expression is an identity or the negation of one. -/
def isIdentity : Expr → Bool
  | .binary op _ _ => op.isIdentity
  | .not (.binary op _ _) => op.isIdentity
  | _ => false

/-- Whether an expression is a negation. -/
def isNegation : Expr → Bool
  | .not _ => true
  | .binary (.like true) _ _ => true
  | .escaping likeness _ => likeness.isNegation
  | _ => false

/-- Whether an expression compares two values. -/
def isComparison : Expr → Bool
  | .binary op _ _ => op.isComparison
  | _ => false

/-- Whether an expression is a membership, a likeness or a range. -/
def isRange : Expr → Bool
  | .binary (.like _) _ _ => true
  | .between _ _ _ => true
  | .member _ _ => true
  | .memberOf _ _ => true
  | .escaping _ _ => true
  | _ => false

/-- Whether an expression joins two texts. -/
def isConcat : Expr → Bool
  | .binary .concat _ _ => true
  | _ => false

/-- Whether an expression is nothing or a truth value. -/
def isConstant : Expr → Bool
  | .null => true
  | .boolean _ => true
  | _ => false

/-! ## Lemmas -/

/-- Only a whole number of too many digits, a double that is no number, and a literal of no kind
    stand in no command. -/
theorem ofLiteral_isOk_iff {l : Literal} :
    (∃ e, ofLiteral l = .ok e) ↔
      (∀ i, l = .integer i → Literal.isOverlong i = false) ∧
        (∀ x, l = .float x → x.isFinite = true) ∧ l ≠ .unspecified := by
  cases l with
  | integer i => cases hi : Literal.isOverlong i <;> simp [ofLiteral, hi]
  | float x => cases hx : x.isFinite <;> simp [ofLiteral, hx]
  | _ => simp [ofLiteral]

end Expr

end PatternSql.Sql
