import PatternSql.Sql.Lexeme.Scan
import PatternSql.Sql.Query
import PatternSql.Statement

/-!
# Reading conditions and projections

The bodies of a statement are read here: a condition is one expression, and a projection is a list
of items, in which empty entries are passed over. A projection may go on as a query does, with a
limit, an order and the like, or be joined with another query; it is then not a mere list of items
and is refused, in one of two ways.

Main results:

* `parseCondition_eq_ok_iff`: a condition is accepted exactly when it is one expression.
* `parseProjection_eq_ok_iff`: a projection is accepted exactly when it is a query of items alone.
-/

namespace PatternSql.Sql

/-- The lexemes of the text of a body. -/
def bodyLexemes? (d : Dialect) (text : String) : Option (List Lexeme) :=
  (lexemes? d text.toList).map joinPhrases

/-- The error for a body that is not what it should be. Model of `_sql_parse_error`. -/
def malformed (expected : String) (finding : String → Finding) (c : Clause) : Failure :=
  .input (.syntactic c.position [expected] (finding c.text))

/-- A clause is malformed; the parser's description of what is wrong is left open. -/
def unreadable (text : String) : Finding :=
  .malformedClause ⟨text, none⟩

/-- The condition that the text of a clause is. Model of `parse_filter`. -/
def parseCondition (d : Dialect) (c : Clause) : Except Failure Expr :=
  match (bodyLexemes? d c.text).bind (Expr.read? d) with
  | some (e, []) => .ok e
  | _ => .error (malformed "filter expression" unreadable c)

/-- The query whose items the text of a clause is: `parse_return_items` puts the first word in
    front. -/
def bodyQuery? (d : Dialect) (c : Clause) : Option Query :=
  (bodyLexemes? d c.text).bind fun ls => query? d (ls.length + 1) ls

/-- The items that the text of a clause is a list of. Model of `parse_return_items`. -/
def parseProjection (d : Dialect) (c : Clause) : Except Failure (List Expr) :=
  match bodyQuery? d c with
  | none => .error (malformed "projection list" unreadable c)
  | some q =>
    if q.compound then .error (malformed "projection list" .compoundClause c)
    else
      match Modifier.all.filter (q.modifiers.contains ·) with
      | [] => .ok q.items
      | ms => .error (.input (.unsupported (.modifiers (ms.map Modifier.name)) c.position))

/-! ## Lemmas -/

/-- A condition is accepted exactly when it is one expression. -/
theorem parseCondition_eq_ok_iff {d : Dialect} {c : Clause} {e : Expr} :
    parseCondition d c = .ok e ↔
      ∃ ls, bodyLexemes? d c.text = some ls ∧ Expr.read? d ls = some (e, []) := by
  unfold parseCondition
  cases hls : bodyLexemes? d c.text with
  | none => simp
  | some ls =>
    cases hr : Expr.read? d ls with
    | none => simp [hr]
    | some r =>
      obtain ⟨e', rest⟩ := r
      cases rest <;> simp [hr]

theorem mem_all (m : Modifier) : m ∈ Modifier.all := by
  cases m <;> simp [Modifier.all]

/-- A projection is accepted exactly when it is a query of items alone. -/
theorem parseProjection_eq_ok_iff {d : Dialect} {c : Clause} {items : List Expr} :
    parseProjection d c = .ok items ↔ bodyQuery? d c = some ⟨items, [], false⟩ := by
  unfold parseProjection
  cases hq : bodyQuery? d c with
  | none => simp
  | some q =>
    obtain ⟨is, ms, compound⟩ := q
    cases compound
    · simp only [Bool.false_eq_true, if_false, Option.some.injEq, Query.mk.injEq, and_true]
      split
      · rename_i h
        have hms : ms = [] := by
          cases ms with
          | nil => rfl
          | cons m ms =>
            have := List.filter_eq_nil_iff.1 h m (mem_all m)
            simp at this
        simp [hms]
      · rename_i h
        simp only [reduceCtorEq, false_iff, not_and]
        rintro rfl rfl
        exact h (by simp)
    · simp

end PatternSql.Sql
