import PatternSql.Sql.Expr.Grouping

/-!
# Adapting expressions

An expression that was read in one dialect may be written in another, or is written otherwise than
it was read. What the other dialect understands differently is replaced by what means the same
there: divisions, texts that are joined, functions with a name of their own where they compare their
arguments, distinct values of several expressions at once, byte strings, and the numbers of
elements.

Main results:

* `adaptAll_eq_map`: the entries of a list are adapted one by one.
-/

namespace PatternSql.Sql

namespace Expr

/-! ## Divisions -/

/-- A divisor that is nothing where it would be zero. -/
def nonzero (e : Expr) : Expr :=
  .call (.bare "NULLIF") [e, .number "0"]

/-- A division without the guard that `nonzero` puts around its divisor. -/
def unguarded : Expr → Expr
  | .binary (.divide rule) left (.call (.bare "NULLIF") [right, .number "0"]) =>
    .binary (.divide rule) left right
  | e => e

/-- A division between adapted operands. Of the divisions in a row only the last is guarded. -/
def divided (d : Dialect) (rule : Division) (left right : Expr) : Expr :=
  let guards := rule.lenient && !d.division.lenient
  let left := if guards then left.unguarded else left
  let left := if d.division.whole && !rule.whole then .cast left d.doubleType else left
  .binary (.divide rule) left (if guards then right.nonzero else right)

/-! ## Texts -/

/-- The adapted operands of a concatenation, given the operand as it was. A concatenation within a
    concatenation gives its own. -/
def operands (before after : Expr) : List Expr :=
  match before, after with
  | .binary .concat _ _, .call _ arguments => arguments
  | _, e => [e.unwrapped]

/-- Texts with bars between them. -/
def concatAll (first : Expr) (more : List Expr) : Expr :=
  more.foldl (.binary .concat) first

/-- Strings side by side in a dialect. -/
def joinStrings (d : Dialect) (passing : Bool) (texts : List String) : Expr :=
  match texts.map Expr.string with
  | [] => .string ""
  | first :: more =>
    if d = .sqlite || (d.joinsPresent && !passing) then concatAll first more
    else .call (.bare "CONCAT") (first :: more)

/-! ## Numbers -/

/-- The value of a digit. -/
def digitValueOf (c : Char) : Nat :=
  if c.isDigit then c.toNat - '0'.toNat else c.toLower.toNat - 'a'.toNat + 10

/-- The number of a base. -/
def radix : Base → Nat
  | .two => 2
  | .sixteen => 16

/-- The number that digits of a base stand for. -/
def numberOf (base : Base) (digits : String) : Nat :=
  digits.toList.foldl (fun n c => radix base * n + digitValueOf c) 0

/-- The number of an element, counted from the given number instead of zero. -/
def countedUp (first : Nat) : Expr → Expr
  | .number text =>
    if first ≠ 0 ∧ text.toList.all Char.isDigit then
      .ofInt ((text.toNat?.getD 0 : Nat) + (first : Int))
    else .number text
  | .negative (.number text) =>
    if first ≠ 0 ∧ text.toList.all Char.isDigit then
      .ofInt (-(text.toNat?.getD 0 : Nat) + (first : Int))
    else .negative (.number text)
  | e => e

/-! ## Functions -/

/-- The name of a function that is applied to so many arguments. -/
def functionName (d : Dialect) (function : Name) (count : Nat) : Name :=
  match function with
  | .bare name => if 1 < count then .bare ((d.rowwise.lookup name).getD name) else .bare name
  | name => name

/-- The distinct values of adapted expressions. Where a dialect cannot tell rows apart, several
    expressions are a tuple, or nothing if one of them is nothing. -/
def distinctOf (d : Dialect) (entries : List Expr) : Expr :=
  if d.distinctRows || entries.length ≤ 1 then .distinct entries
  else
    let missing (e : Expr) : Expr :=
      let tested := match e with
        | .binary op _ _ => e.guarded (op ≠ .is && op ≠ .isNot)
        | .access _ _ => .paren e
        | e => e
      .when (.binary .is tested .null) .null
    .distinct [.choice (entries.map missing ++ [.otherwise (.tuple entries)])]

/-- An operator between adapted operands, given the operands as they were. -/
def applied (d : Dialect) (op : Operator) (left right left' right' : Expr) : Expr :=
  match op with
  | .divide rule => divided d rule left' right'
  | .concat =>
    if d.barsJoin then .binary .concat left' right'
    else .call (.bare "CONCAT") (operands left left' ++ operands right right')
  | .differsFrom =>
    if d = .mysql then .not (.binary .sameAs left' right') else .binary .differsFrom left' right'
  | .power =>
    if d = .postgres then .binary .power left' right'
    else .call (.bare "POWER") [left', right']
  | op => .binary op left' right'

mutual

/-- An expression in a dialect. -/
def adapt (d : Dialect) : Expr → Expr
  | .column qualifiers name => .column qualifiers name
  | .star qualifiers => .star qualifiers
  | .number text => .number text
  | .string text => .string text
  | .strings passing texts => joinStrings d passing texts
  | .bytes base digits =>
    if d.hexStrings then .bytes base digits else .number (toString (numberOf base digits))
  | .boolean value => .boolean value
  | .null => .null
  | .paren inner => .paren (inner.adapt d)
  | .tuple entries => .tuple (adaptAll d entries)
  | .array entries =>
    if d = .postgres then .array (adaptAll d entries)
    else .call (.bare "ARRAY") (adaptAll d entries)
  | .query unique items sources => .query unique (adaptAll d items) (adaptAll d sources)
  | .negative operand => .negative (operand.adapt d)
  | .complement operand => .complement (operand.adapt d)
  | .not operand => .not (operand.adapt d)
  | .binary op left right => applied d op left right (left.adapt d) (right.adapt d)
  | .between operand low high => .between (operand.adapt d) (low.adapt d) (high.adapt d)
  | .member operand list => .member (operand.adapt d) (adaptAll d list)
  | .memberOf operand collection => .memberOf (operand.adapt d) (collection.adapt d)
  | .escaping likeness mark => .escaping (likeness.adapt d) (mark.adapt d)
  | .call function arguments =>
    .call (functionName d function arguments.length) (adaptAll d arguments)
  | .distinct entries => distinctOf d (adaptAll d entries)
  | .access whole (.call function arguments) =>
    .access (whole.adapt d) (.call function (adaptAll d arguments))
  | .access whole part => .access (whole.adapt d) (part.adapt d)
  | .element whole indices =>
    .element (whole.adapt d) ((adaptAll d indices).map (countedUp d.firstIndex))
  | .choice cases => .choice (adaptAll d cases)
  | .choiceOf subject cases => .choiceOf (subject.adapt d) (adaptAll d cases)
  | .when condition value => .when (condition.adapt d) (value.adapt d)
  | .otherwise value => .otherwise (value.adapt d)
  | .cast operand type => .cast (operand.adapt d) type
  | .named operand name => .named (operand.adapt d) name
  | .unpacked operand names => .unpacked (operand.adapt d) names

/-- Expressions in a dialect. -/
def adaptAll (d : Dialect) : List Expr → List Expr
  | [] => []
  | e :: es => e.adapt d :: adaptAll d es

end

/-! ## Lemmas -/

theorem adaptAll_eq_map (d : Dialect) (es : List Expr) : adaptAll d es = es.map (adapt d) := by
  induction es with
  | nil => rw [adaptAll, List.map_nil]
  | cons e es ih => rw [adaptAll, List.map_cons, ih]

end Expr

end PatternSql.Sql
