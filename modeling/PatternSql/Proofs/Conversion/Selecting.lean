import PatternSql.Proofs.Conversion.Alias

/-!
# What a node is selected by

A node without a label and a node with several of them are refused. A node with one label is
selected from the table of that name, its rows being named as the node is, with the given condition;
the items are projected one by one, each as it is, unless it is the name of the node and nothing
else.

In the plain layout the selection is written as one line of its parts. A name is written as it is if
it is simple, and in quotes otherwise. An item that has no text, such as a column without a name, is
left out together with the comma behind it.

Main results:

* `standsForNode_iff`: which items are the node.
* `Sql.Selection.text_eq`: the text of a selection, part by part.
* `node_selected`: what becomes of a node that is to be matched.
-/

namespace PatternSql

open Text Sql

/-! ## Items -/

/-- An item is a column that is called as the node is, bare and not of a table that has a name. -/
inductive StandsForNode (name : Option String) : Expr → Prop
  /-- In front of a column there may be the names of its table, its schema and its catalogue; the
      table comes last. -/
  | column {v : String} {qualifiers : List Name} (hname : name = some v)
    (hlength : qualifiers.length ≤ 3) (htable : ∀ q ∈ qualifiers.getLast?, q.text = "") :
    StandsForNode name (.column qualifiers (.bare v))

/-- The items that are replaced by all columns are those that stand for the node. -/
theorem standsForNode_iff {name : Option String} {item : Expr} :
    item.isWholeNode name = true ↔ StandsForNode name item := by
  constructor
  · intro h
    unfold Expr.isWholeNode at h
    split at h
    · rename_i qualifiers v
      simp only [Bool.and_eq_true, beq_iff_eq, decide_eq_true_eq] at h
      obtain ⟨⟨hname, htable⟩, hlength⟩ := h
      refine .column hname (Nat.le_of_lt_succ hlength) fun q hq => ?_
      rw [hq, Option.all_some, String.isEmpty_iff] at htable
      exact htable
    · cases h
  · rintro ⟨hname, hlength, htable⟩
    rename_i v qualifiers
    have hempty : qualifiers.getLast?.all (·.text.isEmpty) = true := by
      cases hlast : qualifiers.getLast? with
      | none => rfl
      | some q =>
        rw [Option.all_some, String.isEmpty_iff]
        exact htable q hlast
    rw [Expr.isWholeNode, hname, hempty, decide_eq_true (Nat.lt_succ_of_le hlength)]
    simp

/-- Items are projected one by one: the node as all columns, and any other item as it is. -/
structure Projects (name : Option String) (items projection : List Expr) : Prop where
  /-- There are as many as before. -/
  length : projection.length = items.length
  /-- The node is projected as all columns. -/
  whole : ∀ (i : Nat) (item : Expr), items[i]? = some item → StandsForNode name item →
    projection[i]? = some allColumns
  /-- Any other item is projected as it is. -/
  other : ∀ (i : Nat) (item : Expr), items[i]? = some item → ¬StandsForNode name item →
    projection[i]? = some item

theorem projects_project (name : Option String) (items : List Expr) :
    Projects name items (project name items) := by
  refine ⟨project_length name items, fun i item hitem hwhole => ?_, fun i item hitem hother => ?_⟩
  · rw [project, List.getElem?_map, hitem, Option.map_some,
      if_pos (standsForNode_iff.mpr hwhole)]
  · rw [project, List.getElem?_map, hitem, Option.map_some,
      if_neg (mt standsForNode_iff.mp hother)]

/-! ## Texts -/

/-- A name in a command: as it is if it is simple, and else in quotes. -/
def shownName (text : String) : String :=
  if isSimple text then text else quoteName .generic text

/-- The texts of items with commas between them. An item without a text is left out. -/
def itemList : List String → String
  | [] => ""
  | [t] => t
  | t :: u :: ts => (if t = "" then "" else t ++ ", ") ++ itemList (u :: ts)

/-- If each item has a text, there is a comma between any two of them. -/
theorem itemList_eq_intercalate {ts : List String} (h : ∀ t ∈ ts, t ≠ "") :
    itemList ts = ", ".intercalate ts := by
  induction ts with
  | nil => rfl
  | cons t ts ih =>
    obtain ⟨ht, hts⟩ := List.forall_mem_cons.mp h
    cases ts with
    | nil => rw [itemList, String.intercalate_singleton]
    | cons u ts => rw [itemList, if_neg ht, ih hts, String.intercalate_cons_cons]

/-- The name of the rows after the word before it; nothing if it is missing or empty. -/
def namingText (rowName : Option String) : String :=
  match rowName with
  | none => ""
  | some name => if name = "" then "" else " AS " ++ shownName name

/-- A list after a blank; nothing if it has no text. -/
def afterBlank (text : String) : String :=
  if text = "" then "" else " " ++ text

/-- A name is written as it is shown. -/
theorem write_nameOf (text : String) :
    write .generic (Layout.plain.nameOf text) = (shownName text).toList := by
  rw [Layout.nameOf, Layout.name, shownName]
  by_cases hsimple : isSimple text = true
  · have hlexeme : (Name.ofText text).lexeme .generic false = .word text := by
      rw [Name.ofText_eq_bare_iff.mpr hsimple]
      cases htext : text.toList with
      | nil => simp [isSimple, htext] at hsimple
      | cons c cs =>
        simp only [isSimple, htext, Bool.and_eq_true] at hsimple
        exact Name.lexeme_bare (admits_generic htext hsimple.1)
    rw [Layout.plain, hlexeme, if_pos hsimple]
    exact List.append_nil _
  · rw [if_neg hsimple, Name.ofText, if_neg hsimple, Name.lexeme_quoted]
    exact List.append_nil _

theorem Sql.Selection.write_naming (s : Selection) :
    write .generic (s.naming .plain) = (namingText s.rowName).toList := by
  unfold naming namingText
  cases s.rowName with
  | none => rfl
  | some name =>
    by_cases hname : name = ""
    · simp [hname]
    · have hlong : name.isEmpty = false := by simpa [String.isEmpty_iff] using hname
      simp only [hlong, Bool.false_eq_true, if_false, if_neg hname, String.toList_append,
        ← write_nameOf]
      rfl

theorem inLine_toList (ts : List String) : inLine (ts.map String.toList) = (itemList ts).toList := by
  induction ts with
  | nil => rfl
  | cons t ts ih =>
    cases ts with
    | nil => rfl
    | cons u ts =>
      have hstep : inLine ((t :: u :: ts).map String.toList) =
          (if t.toList.isEmpty then [] else t.toList ++ [',', ' ']) ++
            inLine ((u :: ts).map String.toList) := rfl
      rw [hstep, ih, itemList, String.toList_append]
      by_cases ht : t = ""
      · simp [ht]
      · have hne : t.toList.isEmpty = false := by simpa using ht
        rw [hne, if_neg Bool.false_ne_true, if_neg ht, String.toList_append]
        rfl

/-- The text of a selection in the plain layout, part by part. -/
theorem Sql.Selection.text_eq (s : Selection) :
    (Command.select s).text .plain =
      "SELECT" ++ afterBlank (itemList (s.items.map Expr.written)) ++ " FROM " ++
        shownName s.table ++ namingText s.rowName ++
        filterText (s.condition.map Expr.written) := by
  have hitems : (s.items.map fun e => Layout.plain.below (e.adaptedPieces .plain)) =
      (s.items.map Expr.written).map String.toList := by
    rw [List.map_map]
    refine List.map_congr_left fun e _ => ?_
    exact String.toList_ofList.symm
  have hlist : Layout.plain.list [' '] ((s.items.map Expr.written).map String.toList) =
      (afterBlank (itemList (s.items.map Expr.written))).toList := by
    have hspread : ¬Layout.plain.spread = true := by decide
    rw [Layout.list, if_neg hspread, inLine_toList, afterBlank]
    by_cases hempty : itemList (s.items.map Expr.written) = ""
    · simp [hempty]
    · have hne : (itemList (s.items.map Expr.written)).toList.isEmpty = false := by
        simpa using hempty
      rw [hne, if_neg Bool.false_ne_true, if_neg hempty, String.toList_append]
      rfl
  have hselect : write .generic (keyword "SELECT") = "SELECT".toList := rfl
  have hdialect : Layout.plain.dialect = .generic := rfl
  rw [← String.toList_inj, Command.text, String.toList_ofList, Command.chars, Selection.chars,
    hitems, hlist, hdialect, hselect, write_append, write_append, write_from, write_nameOf,
    s.write_naming, s.write_filtering]
  simp only [String.toList_append, List.append_assoc]

/-! ## Nodes -/

/-- The selection that a node with one label is matched by. -/
structure SelectedBy (n : Node) (label : String) (condition : Option Expr) (items : List Expr)
    (s : Selection) : Prop where
  /-- The table is called as the label is. -/
  table : s.table = label
  /-- The rows are called as the node is. -/
  rowName : s.rowName = n.name
  /-- The condition is the given one. -/
  filter : s.condition = condition
  /-- The items are projected one by one. -/
  projection : Projects n.name items s.projection
  /-- The text is made of the items that have a text, or of the sign for all columns if there are no
      items, of the names, and of the condition. -/
  text : (Command.select s).text .plain =
    "SELECT" ++
      afterBlank (itemList (if items = [] then ["*"] else s.projection.map Expr.written)) ++
      " FROM " ++ shownName label ++ namingText n.name ++ filterText (condition.map Expr.written)
  /-- If all items have a text, there is a comma between any two of them. -/
  list : items ≠ [] → (∀ e ∈ s.projection, e.written ≠ "") →
    (Command.select s).text .plain =
      "SELECT " ++ ", ".intercalate (s.projection.map Expr.written) ++ " FROM " ++
        shownName label ++ namingText n.name ++ filterText (condition.map Expr.written)

/-- How matching a node ends. -/
structure MatchEnds (n : Node) (condition : Option Expr) (items : List Expr) : Prop where
  /-- Without a label nothing is selected. -/
  unlabelled : n.labels = [] → n.selection condition items = .error (.missingLabel
    (n.name.map fun v => if v = "" then "" else "(" ++ v ++ ")"))
  /-- Nor is anything with several labels. -/
  several : 2 ≤ n.labels.length → n.selection condition items =
    .error (.unsupported (.severalLabels n.labels) n.position)
  /-- With one label there is one selection. -/
  selected : ∀ label, n.labels = [label] →
    ∃ s, n.selection condition items = .ok s ∧ SelectedBy n label condition items s

/-- The items that are written for the items of a statement. -/
theorem items_written (name : Option String) (items : List Expr) (table : String)
    (condition : Option Expr) :
    (Selection.items ⟨table, name, project name items, condition⟩).map Expr.written =
      if items = [] then ["*"] else (project name items).map Expr.written := by
  by_cases hitems : items = []
  · subst hitems
    have hall : Selection.items ⟨table, name, project name [], condition⟩ = [allColumns] := rfl
    rw [hall, if_pos rfl]
    decide +kernel
  · rw [Selection.items]
    have hne : (project name items).isEmpty = false := by simpa [project] using hitems
    rw [hne, if_neg Bool.false_ne_true, if_neg hitems]

/-- The selection by a node with one label. -/
theorem selectedBy_selection (n : Node) (label : String) (condition : Option Expr)
    (items : List Expr) :
    SelectedBy n label condition items ⟨label, n.name, project n.name items, condition⟩ := by
  have htext := Selection.text_eq ⟨label, n.name, project n.name items, condition⟩
  rw [items_written] at htext
  refine ⟨rfl, rfl, rfl, projects_project n.name items, htext, fun hitems hshown => ?_⟩
  have hlist : itemList ((project n.name items).map Expr.written) =
      ", ".intercalate ((project n.name items).map Expr.written) := by
    refine itemList_eq_intercalate fun t ht => ?_
    obtain ⟨e, he, rfl⟩ := List.mem_map.mp ht
    exact hshown e he
  have hne : itemList ((project n.name items).map Expr.written) ≠ "" := by
    cases hproject : project n.name items with
    | nil => exact absurd (List.map_eq_nil_iff.mp hproject) hitems
    | cons e es =>
      have he : e.written ≠ "" := hshown e (hproject ▸ List.mem_cons_self)
      rw [List.map_cons]
      cases es.map Expr.written with
      | nil => exact he
      | cons u ts =>
        rw [itemList, if_neg he]
        simp [he]
  rw [if_neg hitems, afterBlank, if_neg hne, hlist] at htext
  rw [htext]
  rfl

/-- Matching a node is refused without a label and with several. With one label it is one selection
    from the table of that name, with the rows called as the node is, the given condition, and the
    items projected one by one; its text is made of these parts. -/
theorem node_selected (n : Node) (condition : Option Expr) (items : List Expr) :
    MatchEnds n condition items := by
  refine ⟨fun hlabels => ?_, fun hlabels => ?_, fun label hlabel => ?_⟩
  · simp only [Node.selection, Node.table, hlabels, String.isEmpty_iff]
    rfl
  · have htable : n.table = .error (.unsupported (.severalLabels n.labels) n.position) := by
      rw [Node.table]
      cases hn : n.labels with
      | nil => simp [hn] at hlabels
      | cons first others =>
        cases others with
        | nil => simp [hn] at hlabels
        | cons second labels => rfl
    rw [Node.selection, htable]
    rfl
  · exact ⟨_, Node.selection_eq hlabel condition items, selectedBy_selection n label condition items⟩

/-- A column without a name is left out with the blank before it, a label that is not simple is
    written in quotes, and a column is the node even behind a table with an empty name. -/
theorem selection_written_otherwise :
    (∃ s, Node.selection ⟨some "n", ["T"], none, none⟩ none [.ofName (.bare "")] = .ok s ∧
      s.projection.map Expr.written = [""] ∧
      (Command.select s).text .plain = "SELECT FROM T AS n" ∧
      (Command.select s).text .plain ≠
        "SELECT " ++ ", ".intercalate [""] ++ " FROM " ++ "T" ++ " AS " ++ "n") ∧
    (∃ s, Node.selection ⟨some "n", ["Ö"], none, none⟩ none [.ofName (.bare "n")] = .ok s ∧
      s.projection.map Expr.written = ["*"] ∧
      (Command.select s).text .plain = "SELECT * FROM \"Ö\" AS n" ∧
      (Command.select s).text .plain ≠
        "SELECT " ++ ", ".intercalate ["*"] ++ " FROM " ++ "Ö" ++ " AS " ++ "n") ∧
    ∃ s, Node.selection ⟨some "n", ["T"], none, none⟩ none [.column [.quoted ""] (.bare "n")] =
        .ok s ∧
      (Expr.column [.quoted ""] (.bare "n")).written = "\"\".n" ∧ s.projection = [allColumns] := by
  have hempty : (Command.select ⟨"T", some "n", [.ofName (.bare "")], none⟩).text .plain =
      "SELECT FROM T AS n" := by decide +kernel
  have hquoted : (Command.select ⟨"Ö", some "n", [allColumns], none⟩).text .plain =
      "SELECT * FROM \"Ö\" AS n" := by decide +kernel
  refine ⟨⟨_, rfl, by decide +kernel, hempty, ?_⟩, ⟨_, rfl, by decide +kernel, hquoted, ?_⟩,
    ⟨_, rfl, by decide +kernel, rfl⟩⟩
  · exact ne_of_eq_of_ne hempty (by decide)
  · exact ne_of_eq_of_ne hquoted (by decide)

end PatternSql
