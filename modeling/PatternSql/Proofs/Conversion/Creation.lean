import PatternSql.Proofs.Conversion.Outcome
import PatternSql.Proofs.Sql.PlainWriting

/-!
# Creations

The creation of a node becomes an insertion that says the same: a plain reader finds the label as
the table, the keys as the columns and the values as the only row. Each name and each value is one
token, so nothing that a string, a name or a number holds reaches the tokens around it.

Main results:

* `rowOf_written`: values that read back are written as tokens that stand for them.
* `creation_inserted`: what is inserted is what was to be created.
-/

namespace PatternSql

open Sql

namespace Sql

/-- Values that read back have a form as expressions, which are written as values that stand for
    them. -/
theorem rowOf_written {ls : List Literal} (h : ∀ l ∈ ls, l.ReadsBack) :
    ∃ (row : List Expr) (values : List Plain.Value), rowOf ls = .ok row ∧
      List.Forall₂ Plain.Value.StandsFor values ls ∧ (∀ v ∈ values, v.IsRegular) ∧
      List.Forall₂ (fun e v => WrittenAs e v.token) row values := by
  induction ls with
  | nil => exact ⟨[], [], rfl, .nil, List.forall_mem_nil _, .nil⟩
  | cons l ls ih =>
    obtain ⟨hl, hls⟩ := List.forall_mem_cons.mp h
    obtain ⟨row, values, hrow, hstand, hregular, hwritten⟩ := ih hls
    obtain ⟨e, he⟩ := hl.ofLiteral
    obtain ⟨v, hv, hvregular, hvwritten⟩ := writtenAs_ofLiteral hl he
    refine ⟨e :: row, v :: values, ?_, .cons hv hstand,
      List.forall_mem_cons.mpr ⟨hvregular, hregular⟩, .cons hvwritten hwritten⟩
    rw [rowOf, he, hrow]
    rfl

end Sql

/-- A statement that creates one node is converted into the insertion of its node. -/
theorem convert_creation {text : String} {n : Node} {i : Sql.Insertion} {row : List Expr}
    (h : splitStatement text = .ok (.creating (.ofNode n))) (hi : n.insertion = .ok i)
    (hlength : i.columns.length = i.values.length) (hrow : rowOf i.values = .ok row) :
    convert {} text = .ok ((Command.insert i.table i.columns row).text .plain) := by
  have hrequest : parseStatement none text = .ok (.creating n) := by
    rw [parseStatement, h]
    rfl
  have hcommand : i.command = .ok (.insert i.table i.columns row) := by
    rw [Sql.Insertion.command, if_neg (not_not.mpr hlength), hrow]
  refine convert_eq_ok_iff.mpr ⟨.creating n, _, .plain, hrequest, ?_, Config.layout_default, rfl⟩
  rw [Request.command, hi]
  exact hcommand

/-- A statement that creates one node with one label and at least one property is converted into an
    insertion with the label as the table, the keys as the columns in their order, and for each
    property, in its place, a value that stands for the value of the property. The tokens of the
    command are these and no others. -/
theorem creation_inserted {text : String} {n : Node} {table : String} {entries : Properties}
    (h : splitStatement text = .ok (.creating (.ofNode n))) (hlabel : n.labels = [table])
    (hentries : n.properties = some entries) (hne : entries ≠ []) :
    ∃ (command : String) (row : List Plain.Value), convert {} text = .ok command ∧
      Plain.tokens? command.toList =
        some (Plain.Insertion.tokens ⟨table, entries.map (·.1), row⟩) ∧
      Plain.read? command = some ⟨table, entries.map (·.1), row⟩ ∧
      List.Forall₂ Plain.Value.StandsFor row (entries.map (·.2)) := by
  have hn : n.Holds Literal.ReadsBack :=
    ((Statement.pattern_holds h) _ List.mem_cons_self).1
  have htable : IsName table := hn.labels table (hlabel ▸ List.mem_singleton_self table)
  have hmap := (hn.map entries hentries).2
  have hcolumns : ∀ c ∈ entries.map (·.1), All Text.isWord c.toList := by
    rw [List.forall_mem_map]
    exact fun entry hentry => (hmap entry hentry).1.all_isWord
  have hvalues : ∀ v ∈ entries.map (·.2), v.ReadsBack := by
    rw [List.forall_mem_map]
    exact fun entry hentry => (hmap entry hentry).2
  obtain ⟨row, values, hrow, hstand, hregular, hwritten⟩ := rowOf_written hvalues
  have hinsertion : n.insertion = .ok ⟨table, entries.map (·.1), entries.map (·.2)⟩ :=
    Node.insertion_eq_ok_iff.mpr ⟨hlabel, entries, hne, hentries, rfl, rfl⟩
  have hconvert := convert_creation h hinsertion (by simp) hrow
  have hnames : entries.map (·.1) ≠ [] := by simpa using hne
  have hlength : values.length = entries.length := by
    rw [hstand.length_eq, List.length_map]
  have hnonempty : values ≠ [] := fun hnil => by
    rw [hnil, List.length_nil] at hlength
    exact hne (List.length_eq_zero_iff.mp hlength.symm)
  have hrownonempty : row ≠ [] := fun hnil => by
    subst hnil
    cases hwritten
    exact hnonempty rfl
  have htokens := tokens?_insert hnames hrownonempty htable.all_isWord hcolumns hwritten
  refine ⟨_, values, hconvert, htokens, ?_, hstand⟩
  rw [Plain.read?, htokens, Option.bind_some]
  exact Plain.readInsertion?_tokens hnames hnonempty hregular

/-- A creation with a value of each kind and a label that needs quotes. -/
def creationOfKinds : String :=
  "CREATE (n:Ärger \x7bs: \"it's\", x: -1e20, i: -5, f: falſe, b: TRUE, z: null\x7d)"

/-- What it creates. -/
def nodeOfKinds : Node :=
  ⟨some "n", ["Ärger"],
    some [("s", .string "it's"), ("x", .float (.finite true 6103515625000000 14 (by decide))),
      ("i", .integer (-5)), ("f", .identifier "falſe"), ("b", .boolean true), ("z", .null)], some 7⟩

theorem creation_inserted_kinds :
    splitStatement creationOfKinds = .ok (.creating (.ofNode nodeOfKinds)) ∧
      ∃ (command : String) (row : List Plain.Value), convert {} creationOfKinds = .ok command ∧
        Plain.read? command = some ⟨"Ärger", ["s", "x", "i", "f", "b", "z"], row⟩ ∧
        row.length = 6 := by
  have hsplit : splitStatement creationOfKinds = .ok (.creating (.ofNode nodeOfKinds)) := by
    decide +kernel
  obtain ⟨command, row, hcommand, -, hread, hstand⟩ :=
    creation_inserted hsplit rfl rfl (List.cons_ne_nil _ _)
  exact ⟨hsplit, command, row, hcommand, hread, hstand.length_eq⟩

example : convert {} "CREATE (n:T \x7bs: \"it's\"\x7d)" =
    .ok "INSERT INTO T (s) VALUES ('it''s')" := by
  decide +kernel

end PatternSql
