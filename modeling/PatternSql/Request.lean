import PatternSql.Config
import PatternSql.Sql.Command
import PatternSql.Sql.Projection

/-!
# Requests

A node of a pattern stands for a table, which is named by its only label. To match the node is to
select from the table: the condition and the items are taken over, except that the name of the node
itself, standing alone, projects all columns. To create the node is to insert a row, whose columns
are the keys of its properties. The properties of a node to match are not looked at.

Main results:

* `Node.table_eq_ok_iff`: a node stands for a table exactly when it has one label.
* `Node.selection_eq`, `Node.insertion_eq_ok_iff`: what is selected and what is inserted.
* `project_length`: every item is projected, in its place.
-/

namespace PatternSql

open Sql

/-- What is asked for: `MatchRequest` and `CreateRequest`. -/
inductive Request
  /-- The items of the rows that a node stands for and that meet a condition, if there is one. -/
  | matching (node : Node) (condition : Option Expr) (items : List Expr)
  /-- A new row for a node. -/
  | creating (node : Node)
  deriving Repr

/-- The table that a node stands for. Model of `_table_name`. -/
def Node.table (n : Node) : Except InputError String :=
  match n.labels with
  | [label] => .ok label
  | [] => .error (.missingLabel (n.name.map fun v => if v.isEmpty then "" else "(" ++ v ++ ")"))
  | labels => .error (.unsupported (.severalLabels labels) n.position)

/-- Whether an item is the name of a node and nothing else. A name in quotes is a column, and so is
    one of a named table; what more than three names stand in front of is no plain column. Model of
    `is_whole_node_reference`. -/
def Sql.Expr.isWholeNode (name : Option String) : Expr → Bool
  | .column qualifiers (.bare text) =>
    name == some text && qualifiers.getLast?.all (·.text.isEmpty) && qualifiers.length < 4
  | _ => false

/-- All columns, `exp.Star()`. -/
def allColumns : Expr := .star []

/-- The items with all columns in place of the name of the node: the projection of
    `translate_match`. -/
def project (name : Option String) (items : List Expr) : List Expr :=
  items.map fun item => if item.isWholeNode name then allColumns else item

/-- The selection that matches a node. Model of `ClauseTranslator.translate_match`. -/
def Node.selection (n : Node) (condition : Option Expr) (items : List Expr) :
    Except InputError Selection := do
  let table ← n.table
  return ⟨table, n.name, project n.name items, condition⟩

/-- The insertion that creates a node. Model of `ClauseTranslator.translate_create`, up to the call
    of `build_insert`. -/
def Node.insertion (n : Node) : Except InputError Insertion := do
  let table ← n.table
  match n.properties with
  | some (p :: ps) => return ⟨table, (p :: ps).map (·.1), (p :: ps).map (·.2)⟩
  | _ => throw (.noProperties table)

/-- The command that a request is. Model of `ClauseTranslator.translate`. -/
def Request.command : Request → Except Failure Command
  | matching n condition items =>
    match n.selection condition items with
    | .ok s => .ok (.select s)
    | .error e => .error (.input e)
  | creating n =>
    match n.insertion with
    | .ok i => i.command
    | .error e => .error (.input e)

/-- The text of a command under a configuration. Model of `SqlglotStatementBuilder.render`. -/
def Sql.Command.render (config : Config) (c : Command) : Except Failure String :=
  config.layout.map fun layout => c.text layout

/-! ## Lemmas -/

/-- A node stands for a table exactly when it has one label. -/
theorem Node.table_eq_ok_iff {n : Node} {table : String} :
    n.table = .ok table ↔ n.labels = [table] := by
  unfold Node.table
  split
  · rename_i label h
    simp [h]
  · rename_i h
    simp [h]
  · rename_i h₁ _
    simp only [reduceCtorEq, false_iff]
    exact fun h => h₁ table h

@[simp] theorem project_length (name : Option String) (items : List Expr) :
    (project name items).length = items.length := by
  simp [project]

/-- What is selected from the table of a node. -/
theorem Node.selection_eq {n : Node} {table : String} (h : n.labels = [table])
    (condition : Option Expr) (items : List Expr) :
    n.selection condition items = .ok ⟨table, n.name, project n.name items, condition⟩ := by
  simp [Node.selection, Node.table_eq_ok_iff.2 h, bind, Except.bind, pure, Except.pure]

/-- What is inserted into the table of a node. -/
theorem Node.insertion_eq_ok_iff {n : Node} {i : Insertion} :
    n.insertion = .ok i ↔
      n.labels = [i.table] ∧
        ∃ ps, ps ≠ [] ∧ n.properties = some ps ∧ i.columns = ps.map (·.1) ∧
          i.values = ps.map (·.2) := by
  unfold Node.insertion
  cases ht : n.table with
  | error e =>
    have : n.labels ≠ [i.table] := fun h => by simp [Node.table_eq_ok_iff.2 h] at ht
    simp [bind, Except.bind, this]
  | ok table =>
    rw [Node.table_eq_ok_iff] at ht
    simp only [bind, Except.bind, ht]
    obtain ⟨itable, columns, values⟩ := i
    split
    · rename_i p ps hp
      simp only [pure, Except.pure, Except.ok.injEq, Insertion.mk.injEq, hp, Option.some.injEq,
        List.cons.injEq, and_true]
      constructor
      · rintro ⟨rfl, rfl, rfl⟩
        exact ⟨rfl, _, by simp, rfl, rfl, rfl⟩
      · rintro ⟨rfl, _, _, rfl, rfl, rfl⟩
        exact ⟨rfl, rfl, rfl⟩
    · rename_i hp
      simp only [throw, throwThe, MonadExceptOf.throw, reduceCtorEq, false_iff]
      rintro ⟨_, ps, hps, hn, _⟩
      cases ps with
      | nil => exact hps rfl
      | cons p ps => exact hp p ps hn

end PatternSql
