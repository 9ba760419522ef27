import PatternSql.Sql.Expr

/-!
# Grouping

Dialects do not agree on how tightly an identity binds, nor on what two bars take for their
operands, and a negation that was written inside a membership stands in front of it afterwards. So
when an operator takes one of these for its operand, the operand is put between parentheses. The
rest needs none: it is written in the order in which it was read.

Main results:

* `isIdentity_asCompared`, `isNegation_asTested`, `isIdentity_asBounded`: what no operand is.
-/

namespace PatternSql.Sql

namespace Expr

/-- An expression, between parentheses if they are needed. -/
def guarded (needed : Bool) (e : Expr) : Expr :=
  if needed then .paren e else e

/-- The operand of a comparison. -/
def asCompared (e : Expr) : Expr :=
  e.guarded e.isIdentity

/-- The operand that is tested for membership, likeness or a range. -/
def asTested (e : Expr) : Expr :=
  e.guarded e.isNegation

/-- The operand of a range, which is tested and compared with its bounds. -/
def asBounded (e : Expr) : Expr :=
  e.asTested.asCompared

/-- The left operand of an identity. -/
def asIdentified (e : Expr) : Expr :=
  e.guarded (e.isNegation || e.isComparison)

/-- The right operand of an identity. -/
def asIdentity (e : Expr) : Expr :=
  e.guarded (e.isNegation || e.isComparison || e.isRange)

/-- The operand of an operator between numbers. -/
def asCounted (e : Expr) : Expr :=
  e.guarded e.isConcat

/-- Two expressions with an operator between them. -/
def combine (d : Dialect) (op : Operator) (left right : Expr) : Expr :=
  if op.isComparison || op = .sameAs then .binary op left.asCompared right.asCompared
  else if op.isArithmetic && d = .sqlite then .binary op left.asCounted right.asCounted
  else .binary op left right

/-- Whether a dialect keeps the negation of an identity with nothing inside it. -/
def keepsIsNot (d : Dialect) (right : Expr) : Bool :=
  match d, right with
  | .postgres, .null => true
  | _, _ => false

/-- An identity or its negation. In one dialect it is equality, unless the right operand is nothing
    or a truth value. -/
def identity (d : Dialect) (negated : Bool) (left right : Expr) : Expr :=
  let constant := right.unwrapped.isConstant
  if d = .sqlite ∧ !constant then
    .binary (if negated then .differsFrom else .sameAs) left.asIdentified right.asIdentity
  else
    let right := if d = .sqlite then right.unwrapped else right.asIdentity
    if negated && keepsIsNot d right then .binary .isNot left.asIdentified right
    else (Expr.binary .is left.asIdentified right).negatedIf negated

/-! ## Lemmas -/

/-- No identity is compared without parentheses. -/
theorem isIdentity_asCompared (e : Expr) : e.asCompared.isIdentity = false := by
  unfold asCompared guarded
  split
  · rfl
  · rename_i h
    simpa using h

/-- No negation is tested without parentheses. -/
theorem isNegation_asTested (e : Expr) : e.asTested.isNegation = false := by
  unfold asTested guarded
  split
  · rfl
  · rename_i h
    simpa using h

theorem isNegation_guarded {needed : Bool} {e : Expr} (h : e.isNegation = false) :
    (e.guarded needed).isNegation = false := by
  cases needed
  · exact h
  · rfl

/-- Neither an identity nor a negation stands in a range without parentheses. -/
theorem isIdentity_asBounded (e : Expr) :
    e.asBounded.isIdentity = false ∧ e.asBounded.isNegation = false :=
  ⟨isIdentity_asCompared _, isNegation_guarded (isNegation_asTested e)⟩

end Expr

end PatternSql.Sql
