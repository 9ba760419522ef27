import PatternSql.Proofs.Conversion.Outcome
import PatternSql.Proofs.Conversion.Passing
import PatternSql.Proofs.Conversion.WholeNode
import PatternSql.Proofs.Sql.Qualifiers

/-!
# The alias of a table

The table of a node is given the name of the node as its alias, and columns in the bodies of the
statement may be qualified by that name. The alias is made from a text, so it stands in quotes
unless the text is simple; a qualifier that is read bare is written bare wherever it can be. So the
two are the same lexeme for names that begin with a letter of the seven-bit set or an underscore,
and for those that begin with a character that carries a digit, which are quoted in both places. For
all other names they differ, and a reader that folds the case of bare names takes `ÖB` and `"ÖB"`
for two names.

Main results:

* `aliasLexeme_eq_qualifierLexeme_iff`: for which names the two are the same lexeme.
* `Sql.Selection.usesName`: where a selection has them.
* `alias_and_qualifiers`: where the command of a statement has them.
-/

namespace PatternSql

open Text Sql

/-! ## Lexemes -/

/-- The lexeme of a name that is made from a text. -/
def aliasLexeme (d : Dialect) (v : String) : Lexeme :=
  (Name.ofText v).lexeme d false

/-- The lexeme of a name that is read without quotes. -/
def qualifierLexeme (d : Dialect) (v : String) : Lexeme :=
  (Name.bare v).lexeme d false

section

variable {d : Dialect}

theorem barsJoin_of_ne_mysql (hd : d ≠ .mysql) : d.barsJoin = true := by
  cases d with
  | mysql => exact absurd rfl hd
  | _ => rfl

/-- The dialects but one reserve no names, and in them none begins with a digit. -/
theorem admits_of_ne_mysql (hd : d ≠ .mysql) (v : String) :
    d.admits v = !v.toList.head?.any isDigitLike := by
  cases d with
  | mysql => exact absurd rfl hd
  | _ => rfl

/-- A name is the same lexeme as an alias and as a qualifier exactly if it is simple, or begins with
    a character that carries a digit. -/
theorem aliasLexeme_eq_qualifierLexeme_iff (hd : d ≠ .mysql) (v : String) :
    aliasLexeme d v = qualifierLexeme d v ↔
      isSimple v = true ∨ v.toList.head?.any isDigitLike = true := by
  rw [aliasLexeme, qualifierLexeme, Name.ofText]
  by_cases hsimple : isSimple v = true
  · rw [if_pos hsimple]
    exact iff_of_true rfl (.inl hsimple)
  · rw [if_neg hsimple, Name.lexeme_quoted, Name.lexeme, admits_of_ne_mysql hd]
    cases v.toList.head?.any isDigitLike with
    | true => exact iff_of_true rfl (.inr rfl)
    | false => exact iff_of_false Lexeme.noConfusion (by simp [hsimple])

/-- For the names of nodes only the first character counts. -/
theorem IsName.aliasLexeme_eq_iff (hd : d ≠ .mysql) {v : String} (hv : IsName v) :
    aliasLexeme d v = qualifierLexeme d v ↔
      ∃ c ∈ v.toList.head?, c.isAlpha = true ∨ c = '_' ∨ isDigitLike c = true := by
  obtain ⟨c, cs, hcs, -, -⟩ := hv.exists_start
  rw [aliasLexeme_eq_qualifierLexeme_iff hd, hv.isSimple_iff]
  simp [hcs, isSimpleStart, or_assoc]

end

/-! ## Selections -/

/-- The characters of the list of a selection. -/
def Sql.Selection.listed (layout : Layout) (s : Selection) : List Char :=
  layout.list [' '] (s.items.map fun e => layout.below (e.adaptedPieces layout))

/-- The characters of the table of a selection, after the word before it. -/
def Sql.Selection.source (layout : Layout) (s : Selection) : List Char :=
  write layout.dialect (layout.gap :: keyword "FROM" ++ .blank :: layout.nameOf s.table)

/-- How the text of a selection uses a name: as the alias of its table, and with a point before each
    of the columns that are qualified by it. -/
structure Sql.Selection.UsesName (layout : Layout) (v : String) (s : Selection) (sql : String) :
    Prop where
  /-- The text is the list, the table, the alias and the condition. -/
  text : sql.toList = "SELECT".toList ++ s.listed layout ++ s.source layout ++ " AS ".toList ++
    ((aliasLexeme layout.dialect v).text layout.dialect).toList ++
    write layout.dialect (s.filtering layout)
  /-- Each qualifier in an item is written there, with a point right after it. -/
  item : ∀ e ∈ s.projection, Occurs (pointed (qualifierLexeme layout.dialect v))
    (e.timesQualified (.bare v)) (e.adaptedPieces layout)
  /-- The list has the qualifiers of all items. -/
  list : Occurs (qualifierChars layout.dialect (qualifierLexeme layout.dialect v))
    (s.projection.map (Expr.timesQualified (.bare v))).sum (s.listed layout)
  /-- Each qualifier in the condition is written there. -/
  condition : ∀ e, s.condition = some e →
    Occurs (pointed (qualifierLexeme layout.dialect v)) (e.timesQualified (.bare v))
        (e.adaptedPieces layout) ∧
      Occurs (qualifierChars layout.dialect (qualifierLexeme layout.dialect v))
        (e.timesQualified (.bare v)) (write layout.dialect (s.filtering layout))

theorem IsName.not_mem_newline {v : String} (h : IsName v) : '\n' ∉ v.toList := by
  intro hmem
  have hword := h.all_isWord '\n' hmem
  exact absurd hword (by decide)

/-- The name of the rows is the alias of their table. -/
theorem Sql.Selection.naming_eq {layout : Layout} (hidentify : layout.identify = false) {v : String}
    (hv : IsName v) {s : Selection} (hs : s.rowName = some v) :
    s.naming layout =
      [.blank, .lexeme (.word "AS"), .blank, .lexeme (aliasLexeme layout.dialect v)] := by
  have hname : layout.nameOf v = [.lexeme (aliasLexeme layout.dialect v)] := by
    rw [Layout.nameOf, Layout.name_eq, hidentify, aliasLexeme]
    rw [Name.ofText_text]
    exact hv.not_mem_newline
  simp only [naming, hs, hv.isEmpty_eq_false, hname]
  rfl

/-- The name of the rows of a selection is the alias of their table, and qualifiers of that name are
    written where they stand. -/
theorem Sql.Selection.usesName {layout : Layout} (hd : layout.dialect.barsJoin = true)
    (hidentify : layout.identify = false) {v : String} (hv : IsName v) {s : Selection}
    (hs : s.rowName = some v) : s.UsesName layout v ((Command.select s).text layout) := by
  have hwritten (e : Expr) : Occurs (pointed (qualifierLexeme layout.dialect v))
      (e.timesQualified (.bare v)) (e.adaptedPieces layout) := by
    have h := Expr.occurs_adaptedPieces (q := .bare v) hv.not_mem_newline hd e
    rwa [hidentify] at h
  refine ⟨?_, fun e _ => hwritten e, ?_, fun e he => ⟨hwritten e, ?_⟩⟩
  · rw [Command.text, String.toList_ofList, Command.chars, chars, naming_eq hidentify hv hs]
    simp only [listed, source, keyword, write_append, write_cons, write_nil, List.append_assoc]
    simp [Piece.text, Lexeme.text]
  · by_cases hnil : s.projection = []
    · rw [hnil]
      exact .none _
    · rw [listed, items, if_neg (by simpa using hnil)]
      exact Layout.occurs_list (by decide)
        (occursIn_map fun e _ => occurs_write_below (hwritten e) layout) layout [' ']
  · rw [filtering, he]
    exact occurs_write (((occurs_below layout (hwritten e)).cons _).after _) layout.dialect

/-! ## Statements -/

/-- An item with qualifiers is projected as it stands, unless the last of them is empty. -/
theorem Sql.Expr.mem_project_of_qualified {q : Name} {e : Expr} (h : 0 < e.timesQualified q)
    {items : List Expr} (he : e ∈ items) (v : String) :
    e ∈ project (some v) items ∨
      ∃ front last, e = .column (front ++ [last]) (.bare v) ∧ last.text.isEmpty = true := by
  cases hwhole : e.isWholeNode (some v) with
  | false => exact .inl (List.mem_map.mpr ⟨e, he, if_neg (by simp [hwhole])⟩)
  | true =>
    right
    unfold Expr.isWholeNode at hwhole
    split at hwhole
    · rename_i qualifiers text
      rw [Bool.and_eq_true, Bool.and_eq_true, beq_iff_eq, Option.some.injEq] at hwhole
      obtain ⟨⟨rfl, hempty⟩, -⟩ := hwhole
      have hq : q ∈ qualifiers := by
        rw [Expr.timesQualified_eq] at h
        exact List.count_pos_iff.mp h
      obtain ⟨last, hlast⟩ := Option.ne_none_iff_exists'.mp
        (mt List.getLast?_eq_none_iff.mp (List.ne_nil_of_mem hq))
      obtain ⟨front, rfl⟩ := List.getLast?_eq_some_iff.mp hlast
      rw [hlast] at hempty
      exact ⟨front, last, rfl, hempty⟩
    · cases hwhole

/-- In a dialect that reserves no names, the command of a statement that matches a node with a name
    has this name as the alias of the table, and with a point before each of the columns that it
    qualifies in the items and in the condition. Alias and qualifier are the same lexeme exactly if
    the name begins with a letter of the seven-bit set, an underscore, or a character that carries a
    digit. -/
theorem alias_and_qualifiers {config : Config} {d : Dialect} {text sql v : String} {n : Node}
    {condition : Option Expr} {items : List Expr} (hnamed : Dialect.named config.dialect = .ok d)
    (hd : d ≠ .mysql) (hidentify : config.identify = false)
    (hread : parseStatement config.dialect text = .ok (.matching n condition items))
    (hname : n.name = some v) (hconvert : convert config text = .ok sql) :
    (∃ table, n.labels = [table] ∧
      Selection.UsesName ⟨d, config.pretty, false⟩ v
        ⟨table, some v, project (some v) items, condition⟩ sql) ∧
    (∀ e ∈ items, 0 < e.timesQualified (.bare v) → e ∈ project (some v) items ∨
      ∃ front last, e = .column (front ++ [last]) (.bare v) ∧ last.text.isEmpty = true) ∧
    (aliasLexeme d v = qualifierLexeme d v ↔
      ∃ c ∈ v.toList.head?, c.isAlpha = true ∨ c = '_' ∨ isDigitLike c = true) := by
  have hv : IsName v := (node_holds_of_parseStatement hread).name v hname
  refine ⟨?_, fun e he hq => Expr.mem_project_of_qualified hq he v, hv.aliasLexeme_eq_iff hd⟩
  obtain ⟨request, command, layout, hrequest, hcommand, hlayout, rfl⟩ :=
    convert_eq_ok_iff.mp hconvert
  obtain rfl := Except.ok.inj (hread.symm.trans hrequest)
  obtain rfl : ⟨d, config.pretty, false⟩ = layout := by
    rw [Config.layout, hnamed, hidentify] at hlayout
    exact Except.ok.inj hlayout
  cases hselection : n.selection condition items with
  | error f =>
    rw [Request.command, hselection] at hcommand
    cases hcommand
  | ok s =>
    rw [Request.command, hselection] at hcommand
    obtain rfl := Except.ok.inj hcommand
    obtain ⟨table, htable, hs⟩ := bind_eq_ok_iff.mp hselection
    obtain rfl := pure_eq_ok_iff.mp hs
    rw [hname]
    exact ⟨table, Node.table_eq_ok_iff.mp htable,
      Selection.usesName (barsJoin_of_ne_mysql hd) rfl hv rfl⟩

/-- The node of the statement `MATCH (ÖB:T) RETURN ÖB.x`. -/
def umlautNode : Node :=
  ⟨some "ÖB", ["T"], none, some 6⟩

/-- The item of that statement. -/
def umlautColumn : Expr :=
  .column [.bare "ÖB"] (.bare "x")

theorem convert_umlaut :
    parseStatement none "MATCH (ÖB:T) RETURN ÖB.x" =
      .ok (.matching umlautNode none [umlautColumn]) ∧
    convert {} "MATCH (ÖB:T) RETURN ÖB.x" = .ok "SELECT ÖB.x FROM T AS \"ÖB\"" := by
  have hitems : parseProjection .generic ⟨"ÖB.x", 20⟩ = .ok [umlautColumn] :=
    parseProjection_of_lexemes _ [.word "ÖB", .mark .dot, .word "x"] (by with_unfolding_all rfl)
      (by with_unfolding_all rfl) 20
  exact ⟨parseStatement_of_bodies (c := none) (by decide +kernel) rfl hitems, by decide +kernel⟩

theorem alias_and_qualifiers_umlaut :
    parseStatement none "MATCH (ÖB:T) RETURN ÖB.x" =
      .ok (.matching umlautNode none [umlautColumn]) ∧
    convert {} "MATCH (ÖB:T) RETURN ÖB.x" = .ok "SELECT ÖB.x FROM T AS \"ÖB\"" ∧
    umlautColumn.timesQualified (.bare "ÖB") = 1 ∧
    Selection.UsesName .plain "ÖB" ⟨"T", some "ÖB", [umlautColumn], none⟩
      "SELECT ÖB.x FROM T AS \"ÖB\"" ∧
    aliasLexeme .generic "ÖB" ≠ qualifierLexeme .generic "ÖB" := by
  obtain ⟨hread, hconvert⟩ := convert_umlaut
  obtain ⟨⟨table, htable, huses⟩, -, hsame⟩ :=
    @alias_and_qualifiers {} .generic _ _ "ÖB" _ _ _ rfl (by decide) rfl hread rfl hconvert
  obtain rfl : "T" = table := List.head_eq_of_cons_eq htable
  refine ⟨hread, hconvert, Expr.timesQualified_eq _ _, huses, mt hsame.mp ?_⟩
  rintro ⟨c, hc, hfirst⟩
  obtain rfl : 'Ö' = c := Option.some.inj hc
  exact absurd hfirst (by decide)

/-- The alias of the table of a node called `ÖB` is in quotes, and the qualifier of its column is
    not. -/
theorem alias_of_umlaut_quoted :
    parseStatement none "MATCH (ÖB:T) RETURN ÖB.x" =
      .ok (.matching umlautNode none [umlautColumn]) ∧
    convert {} "MATCH (ÖB:T) RETURN ÖB.x" = .ok "SELECT ÖB.x FROM T AS \"ÖB\"" ∧
    convert ⟨some "postgres", false, false⟩ "MATCH (ÖB:T) RETURN ÖB.x" =
      .ok "SELECT ÖB.x FROM T AS \"ÖB\"" ∧
    umlautNode.name = some "ÖB" ∧ umlautColumn = .column [.bare "ÖB"] (.bare "x") ∧
    aliasLexeme .generic "ÖB" = .name "ÖB" ∧ qualifierLexeme .generic "ÖB" = .word "ÖB" :=
  ⟨convert_umlaut.1, convert_umlaut.2, by decide +kernel, rfl, rfl, by decide +kernel,
    by decide +kernel⟩

end PatternSql
