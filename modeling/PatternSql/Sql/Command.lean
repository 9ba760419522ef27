import PatternSql.Sql.Expr.Writing

/-!
# Commands

A selection projects the rows of a table and may filter them; an insertion adds one row. An
insertion is given by literals, which have to have a form as expressions and to be as many as the
columns, so it becomes a command only if they do.

Main results:

* `Insertion.command_isOk_iff`: an insertion becomes a command exactly when it has as many values as
  columns and every value has a form.
-/

namespace PatternSql.Sql

open Text

/-! ## Selections and insertions -/

/-- What is to be selected: the arguments of `build_select`. -/
structure Selection where
  /-- The table. -/
  table : String
  /-- The name of its rows, if it is not missing or empty. -/
  rowName : Option String
  /-- The items; all columns if there are none. -/
  projection : List Expr
  /-- The condition on the rows. -/
  condition : Option Expr
  deriving Repr

/-- What is to be inserted: the arguments of `build_insert`. -/
structure Insertion where
  /-- The table. -/
  table : String
  /-- The columns in order. -/
  columns : List String
  /-- The value of each column. -/
  values : List Literal
  deriving DecidableEq, Repr

/-- A command. -/
inductive Command
  | select (selection : Selection)
  /-- One row, by its columns and their values. -/
  | insert (table : String) (columns : List String) (row : List Expr)
  deriving Repr

/-- The expressions that literals are, or why the first of them that is none is not: the row of
    `build_insert`. -/
def rowOf : List Literal → Except NoSqlForm (List Expr)
  | [] => .ok []
  | l :: ls => do
    let e ← Expr.ofLiteral l
    let es ← rowOf ls
    return e :: es

/-- The command that an insertion is. Model of `SqlglotStatementBuilder.build_insert`. -/
def Insertion.command (i : Insertion) : Except Failure Command :=
  if i.columns.length ≠ i.values.length then
    .error (.countMismatch i.columns.length i.values.length)
  else match rowOf i.values with
    | .ok row => .ok (.insert i.table i.columns row)
    | .error cause => .error (.noSqlForm cause)

/-! ## Lists, one entry a line or all in one line -/

/-- Texts with commas between them; what is empty is left out. -/
def inLine : List (List Char) → List Char
  | [] => []
  | [t] => t
  | t :: ts => (if t.isEmpty then [] else t ++ [',', ' ']) ++ inLine ts

/-- Texts with commas after all but the last, one a line and without blanks at the end of a line;
    what is empty is left out. -/
def asLines : List (List Char) → List (List Char)
  | [] => []
  | [t] => if t.isEmpty then [] else [trimEnd t]
  | t :: ts => (if t.isEmpty then [] else [trimEnd (t ++ [','])]) ++ asLines ts

/-- A list, with what separates it from the word or mark before it; nothing if it has no text. -/
def Layout.list (layout : Layout) (separator : List Char) (ts : List (List Char)) : List Char :=
  if layout.spread then
    match asLines ts with
    | [] => []
    | [[]] => []
    | lines => lines.flatMap ((Piece.line 1).text layout.dialect ++ ·)
  else if (inLine ts).isEmpty then [] else separator ++ inLine ts

/-! ## Text -/

/-- The characters of pieces that stand below a head. -/
def Layout.below (layout : Layout) (ps : List Piece) : List Char :=
  write layout.dialect (if layout.spread then nest ps else ps)

/-- The pieces of a text that names something. -/
def Layout.nameOf (layout : Layout) (text : String) : List Piece :=
  layout.name (.ofText text)

/-- The name that is given to the rows of a table: the alias of `SqlglotStatementBuilder.table`. -/
def Selection.naming (layout : Layout) (s : Selection) : List Piece :=
  match s.rowName with
  | none => []
  | some name =>
    if name.isEmpty then [] else .blank :: keyword "AS" ++ .blank :: layout.nameOf name

/-- The condition on the rows. -/
def Selection.filtering (layout : Layout) (s : Selection) : List Piece :=
  match s.condition with
  | none => []
  | some e =>
    let condition := e.adaptedPieces layout
    layout.gap :: keyword "WHERE" ++
      layout.breakBelow :: (if layout.spread then nest condition else condition)

/-- The items, or all columns: `build_select` puts `exp.Star()` in place of an empty projection. -/
def Selection.items (s : Selection) : List Expr :=
  if s.projection.isEmpty then [.star []] else s.projection

/-- The characters of a selection: what `build_select` builds, written. -/
def Selection.chars (layout : Layout) (s : Selection) : List Char :=
  write layout.dialect (keyword "SELECT") ++
    layout.list [' '] (s.items.map fun e => layout.below (e.adaptedPieces layout)) ++
    write layout.dialect (layout.gap :: keyword "FROM" ++ .blank :: layout.nameOf s.table ++
      s.naming layout ++ s.filtering layout)

/-- The columns of an insertion between parentheses, unless there are none. -/
def columnList (layout : Layout) (columns : List String) : List Char :=
  if columns.isEmpty then []
  else
    [' ', '('] ++ layout.list [] (columns.map fun c => layout.below (layout.nameOf c)) ++
      (if layout.spread then ['\n', ')'] else [')'])

/-- The values of an insertion between parentheses. -/
def valueList (layout : Layout) (row : List Expr) : List Piece :=
  (Expr.tuple row).adaptedPieces layout

/-- The characters of a command. -/
def Command.chars (layout : Layout) : Command → List Char
  | .select s => s.chars layout
  | .insert table columns row =>
    write layout.dialect (keyword "INSERT" ++ .blank :: keyword "INTO" ++
      .blank :: layout.nameOf table) ++
    columnList layout columns ++
    write layout.dialect (layout.gap :: keyword "VALUES" ++ [layout.breakBelow]) ++
    layout.below (valueList layout row)

/-- A command in a layout: `statement.sql` as `render` calls it. -/
def Command.text (layout : Layout) (c : Command) : String :=
  String.ofList (c.chars layout)

/-! ## Lemmas -/

theorem rowOf_isOk_iff {ls : List Literal} :
    (∃ row, rowOf ls = .ok row) ↔ ∀ l ∈ ls, ∃ e, Expr.ofLiteral l = .ok e := by
  induction ls with
  | nil => simp [rowOf]
  | cons l ls ih =>
    simp only [List.forall_mem_cons, ← ih, rowOf]
    cases Expr.ofLiteral l with
    | error c => simp [bind, Except.bind]
    | ok e =>
      cases rowOf ls with
      | error c => simp [bind, Except.bind]
      | ok es => simp [bind, Except.bind, pure, Except.pure]

/-- An insertion becomes a command exactly when it has as many values as columns and every value has
    a form. -/
theorem Insertion.command_isOk_iff {i : Insertion} :
    (∃ c, i.command = .ok c) ↔
      i.columns.length = i.values.length ∧ ∀ l ∈ i.values, ∃ e, Expr.ofLiteral l = .ok e := by
  rw [← rowOf_isOk_iff]
  unfold Insertion.command
  split
  · simp_all
  · cases rowOf i.values <;> simp_all

end PatternSql.Sql
