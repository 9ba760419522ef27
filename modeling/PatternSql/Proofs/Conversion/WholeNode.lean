import PatternSql.Conversion
import PatternSql.Proofs.Pattern.RoundTrip

/-!
# Projecting a whole node

An item that is the bare name of the node stands for all columns. A name read from the body of a
statement is bare as it stands there, so it does not matter what the node is called. A column that
is built from a text is bare only if the text is simple, and is otherwise in quotes like a column
that is called so. So the column built from the name of the node stands for all columns only where
this name begins with a letter of the seven-bit set or an underscore, and `ö` as the name of a node
is projected as the column `"ö"`.

Main results:

* `isWholeNode_ofName_iff`: which names stand for the node.
* `IsName.isSimple_iff`: which names of nodes are simple.
* `whole_node_projected`: what becomes of columns given by their names alone.
-/

namespace PatternSql

open Text Sql

/-! ## Names -/

/-- A column by its name alone is the node exactly when its name is bare and that of the node. -/
theorem isWholeNode_ofName_iff {v : String} {name : Name} :
    (Expr.ofName name).isWholeNode (some v) = true ↔ name = .bare v := by
  cases name with
  | bare text =>
    have hwhole : (Expr.ofName (.bare text)).isWholeNode (some v) = (some v == some text) := by
      simp [Expr.ofName, Expr.isWholeNode]
    rw [hwhole, beq_iff_eq, Option.some.injEq, Name.bare.injEq, eq_comm]
  | quoted text => exact iff_of_false Bool.false_ne_true Name.noConfusion
  | parameter text => exact iff_of_false Bool.false_ne_true Name.noConfusion

theorem ofText_eq_bare_name_iff {v text : String} :
    Name.ofText text = .bare v ↔ text = v ∧ isSimple v = true := by
  constructor
  · intro h
    have htext := congrArg Name.text h
    rw [Name.ofText_text] at htext
    obtain rfl : text = v := htext
    exact ⟨rfl, Name.ofText_eq_bare_iff.mp h⟩
  · rintro ⟨rfl, hsimple⟩
    exact Name.ofText_eq_bare_iff.mpr hsimple

/-- A name is simple if its first character may begin a simple name. -/
theorem IsName.isSimple_iff {text : String} (h : IsName text) :
    isSimple text = true ↔ ∃ c ∈ text.toList.head?, isSimpleStart c = true := by
  obtain ⟨c, cs, htext, -, hcs⟩ := h.exists_start
  have hall : (if cs.getLast? = some '\n' then cs.dropLast else cs).all isWord = true := by
    rw [List.all_eq_true]
    intro d hd
    split at hd
    · exact hcs d (List.dropLast_subset cs hd)
    · exact hcs d hd
  rw [isSimple, htext]
  simp only [hall, Bool.and_true, List.head?_cons, Option.mem_def, Option.some.injEq,
    exists_eq_left']

/-! ## The text of a node -/

/-- The text of a node with a name and a label. -/
def namedText (name label : String) : String :=
  "(" ++ name ++ ":" ++ label ++ ")"

theorem Pattern.eq_ofNode_of_unplaced {q : Pattern} {n : Node} (h : q.unplaced = .ofNode n) :
    ∃ m, q = .ofNode m ∧ m.unplaced = n := by
  obtain ⟨⟨first, steps⟩, others⟩ := q
  obtain ⟨hpath, hothers⟩ := Pattern.mk.inj h
  obtain ⟨hfirst, hsteps⟩ := Path.mk.inj hpath
  obtain rfl : steps = [] := List.map_eq_nil_iff.mp hsteps
  obtain rfl : others = [] := List.map_eq_nil_iff.mp hothers
  exact ⟨first, rfl, hfirst⟩

/-- A name and a label make a node. -/
theorem parseNode_namedText {name label : String} (hname : IsName name) (hlabel : IsName label) :
    ∃ n, parseNode (namedText name label) = .ok n ∧ n.name = some name ∧ n.labels = [label] := by
  have hholds : (Pattern.ofNode ⟨some name, [label], none, none⟩).Holds Literal.ReadsBack := by
    intro p hp
    obtain rfl := List.mem_singleton.mp hp
    refine ⟨⟨fun x hx => ?_, fun x hx => ?_, fun entries hentries => ?_⟩, fun s hs => ?_⟩
    · exact Option.some.inj hx ▸ hname
    · exact List.mem_singleton.mp hx ▸ hlabel
    · cases hentries
    · cases hs
  obtain ⟨text, q, hprint, hparse, hq⟩ := Pattern.parsePattern_print hholds
  obtain rfl : namedText name label = text := by
    refine Except.ok.inj (Eq.trans (congrArg Except.ok ?_) hprint)
    rw [← String.toList_inj]
    simp [namedText, String.join, Pattern.ofNode]
  obtain ⟨n, rfl, hn⟩ := Pattern.eq_ofNode_of_unplaced hq
  refine ⟨n, parseNode_eq_ok_iff.mpr hparse, ?_, ?_⟩
  · exact congrArg Node.name hn
  · exact congrArg Node.labels hn

/-! ## Columns -/

/-- Columns given by their names alone, of which some are the node. -/
theorem project_ofName {α : Type} (v : String) (f : α → Name) (xs : List α) :
    project (some v) (xs.map fun x => .ofName (f x)) =
      xs.map fun x => if f x = .bare v then allColumns else .ofName (f x) := by
  rw [project, List.map_map]
  refine List.map_congr_left fun x _ => ?_
  simp only [Function.comp_apply, isWholeNode_ofName_iff]

/-- What becomes of columns given by their names alone where a node is selected by a text with its
    name and its label. -/
structure ProjectsColumns (v label : String) : Prop where
  /-- A column as it is read, bare, is replaced exactly if it is called as the node is. -/
  bare : ∀ (condition : Option Expr) (names : List String), ∃ n,
    parseNode (namedText v label) = .ok n ∧
      n.selection condition (names.map fun x => .ofName (.bare x)) =
        .ok ⟨label, some v, names.map fun x => if x = v then allColumns else .ofName (.bare x),
          condition⟩
  /-- A column built from a text is replaced exactly if it is called as the node is and the name is
      simple. -/
  built : ∀ (condition : Option Expr) (names : List String), ∃ n,
    parseNode (namedText v label) = .ok n ∧
      n.selection condition (names.map fun x => .ofName (.ofText x)) =
        .ok ⟨label, some v, names.map fun x =>
          if x = v ∧ isSimple v = true then allColumns else .ofName (.ofText x), condition⟩
  /-- The name is simple if it begins with a letter of the seven-bit set or an underscore. -/
  simple : isSimple v = true ↔ ∃ c ∈ v.toList.head?, c.isAlpha = true ∨ c = '_'

/-- Of the columns given by their names alone, those that are called as the node is are replaced by
    all columns, in their places, where they are bare; built from texts they are bare only if the
    name of the node begins with a letter of the seven-bit set or an underscore. -/
theorem whole_node_projected {v label : String} (hv : IsName v) (hlabel : IsName label) :
    ProjectsColumns v label := by
  obtain ⟨n, hn, hname, hlabels⟩ := parseNode_namedText hv hlabel
  refine ⟨fun condition names => ⟨n, hn, ?_⟩, fun condition names => ⟨n, hn, ?_⟩, ?_⟩
  · rw [Node.selection_eq hlabels, hname, project_ofName]
    simp only [Name.bare.injEq]
  · rw [Node.selection_eq hlabels, hname, project_ofName]
    simp only [ofText_eq_bare_name_iff]
  · rw [hv.isSimple_iff]
    simp only [isSimpleStart, Bool.or_eq_true, beq_iff_eq]

theorem isName_umlaut : IsName "ö" ∧ IsName "T" :=
  ⟨isName_iff_lexeme?.mpr ⟨.identifier, rfl, by decide +kernel⟩,
    isName_iff_lexeme?.mpr ⟨.identifier, rfl, by decide +kernel⟩⟩

theorem whole_node_projected_umlaut :
    IsName "ö" ∧ IsName "T" ∧ isSimple "ö" = false ∧ ProjectsColumns "ö" "T" :=
  ⟨isName_umlaut.1, isName_umlaut.2, by decide +kernel,
    whole_node_projected isName_umlaut.1 isName_umlaut.2⟩

/-- A node called `ö` is not projected by the column built from its name. -/
theorem column_of_umlaut_kept : IsName "ö" ∧ IsName "T" ∧ ∃ n,
    parseNode (namedText "ö" "T") = .ok n ∧
      n.selection none [.ofName (.ofText "ö")] =
        .ok ⟨"T", some "ö", [.ofName (.quoted "ö")], none⟩ ∧
      Expr.ofName (.quoted "ö") ≠ allColumns ∧
      (Command.select ⟨"T", some "ö", [.ofName (.quoted "ö")], none⟩).text .plain =
        "SELECT \"ö\" FROM T AS \"ö\"" := by
  obtain ⟨n, hn, hname, hlabels⟩ := parseNode_namedText isName_umlaut.1 isName_umlaut.2
  have hquoted : Name.ofText "ö" = .quoted "ö" := by decide +kernel
  refine ⟨isName_umlaut.1, isName_umlaut.2, n, hn, ?_, (nomatch ·), by decide +kernel⟩
  rw [Node.selection_eq hlabels, hname, hquoted]
  rfl

/-- Read from the body of a statement the name projects the node. -/
example : convert {} "MATCH (ö:T) RETURN ö, \"ö\"" =
    .ok "SELECT *, \"ö\" FROM T AS \"ö\"" := by
  decide +kernel

end PatternSql
