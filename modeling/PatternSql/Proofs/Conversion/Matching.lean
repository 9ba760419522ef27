import Mathlib.Tactic.Common
import PatternSql.Conversion

/-!
# Matches and the properties of the node

To match a node is to select from its table, and the rows that are selected are those that meet the
condition of the statement. The properties of the node take no part in this: they are read, and
repeated keys and numbers that are too great are refused, but they reach neither the selection nor
the command. So rows are selected that the node does not describe, unless the condition says of its
own what the properties say.

Conditions may have any meaning here, since nothing depends on it.

Main results:

* `Statement.command_of_properties`: statements that differ in the properties of their nodes alone
  are converted into the same command.
* `selection_of_condition`: the rows that are selected are those that meet the condition, whatever
  the properties are.
* `selection_of_undescribed`: a row is selected that the node does not describe.
-/

namespace PatternSql

open Sql

/-! ## Rows -/

/-- A row of a table: the value of each column. -/
abbrev Row := String → Literal

/-- The value that a literal stands for in a row: a name stands for the column. -/
def Row.valueOf (row : Row) : Literal → Literal
  | .identifier name => row name
  | v => v

/-- The columns named by the keys of the properties have the values of the properties. -/
def Node.Describes (n : Node) (row : Row) : Prop :=
  ∀ properties, n.properties = some properties →
    ∀ entry ∈ properties, row entry.1 = row.valueOf entry.2

/-- A row meets a condition if there is one; which rows meet an expression is given. -/
def Row.Meets (holds : Expr → Row → Prop) (condition : Option Expr) (row : Row) : Prop :=
  ∀ e, condition = some e → holds e row

/-- A selection selects a row. -/
def Sql.Selection.Selects (holds : Expr → Row → Prop) (s : Selection) (row : Row) : Prop :=
  row.Meets holds s.condition

/-! ## Properties that are not looked at -/

/-- A node with other properties in another place. -/
def Node.withProperties (n : Node) (properties : Option Properties) (position : Option Nat) :
    Node :=
  { n with properties, position }

theorem Node.selection_withProperties {n : Node} {condition : Option Expr} {items : List Expr}
    {s : Selection} (h : n.selection condition items = .ok s) (properties : Option Properties)
    (position : Option Nat) :
    (n.withProperties properties position).selection condition items = .ok s := by
  obtain ⟨table, htable, hs⟩ := bind_eq_ok_iff.mp h
  have hlabels : n.labels = [table] := Node.table_eq_ok_iff.mp htable
  rw [Node.selection_eq (n := n.withProperties properties position) hlabels, pure_eq_ok_iff.mp hs]
  rfl

/-- A clause is read alike wherever it stands. -/
theorem readCondition_of_text {d : Dialect} {c c' : Option Clause} {e : Option Expr}
    (h : readCondition d c = .ok e) (htext : c'.map (·.text) = c.map (·.text)) :
    readCondition d c' = .ok e := by
  cases c with
  | none =>
    obtain rfl : c' = none := Option.map_eq_none_iff.mp htext
    exact h
  | some c =>
    obtain ⟨c', rfl, hc'⟩ := Option.map_eq_some_iff.mp (htext.trans (Option.map_some _ _))
    rw [readCondition] at h ⊢
    cases hc : parseCondition d c with
    | error f => rw [hc] at h; cases h
    | ok condition =>
      obtain ⟨ls, hls, hread⟩ := parseCondition_eq_ok_iff.mp hc
      rw [hc] at h
      rw [parseCondition_eq_ok_iff.mpr ⟨ls, hc' ▸ hls, hread⟩]
      exact h

theorem parseProjection_of_text {d : Dialect} {c c' : Clause} {items : List Expr}
    (h : parseProjection d c = .ok items) (htext : c'.text = c.text) :
    parseProjection d c' = .ok items := by
  rw [parseProjection_eq_ok_iff, bodyQuery?] at h ⊢
  rw [htext, h]

/-- What a statement that matches a node asks for. -/
theorem parseStatement_matching {dialect : Option String} {text : String} {n : Node}
    {c : Option Clause} {p : Clause} (h : splitStatement text = .ok (.matching (.ofNode n) c p)) :
    parseStatement dialect text = readMatching dialect n c p := by
  have hnode : (Pattern.ofNode n).singleNode.mapError Failure.input = .ok n :=
    mapError_eq_ok_iff.mpr (Pattern.singleNode_eq_ok_iff.mpr rfl)
  simp only [parseStatement, h, Statement.request, Statement.pattern, hnode, bind, Except.bind]

/-- Statements that differ in the properties of their nodes, and in the places of what follows them,
    are converted into the same command. -/
theorem Statement.command_of_properties {text text' : String} {n : Node}
    {properties : Option Properties} {position : Option Nat} {c c' : Option Clause} {p p' : Clause}
    (h : splitStatement text = .ok (.matching (.ofNode n) c p))
    (h' : splitStatement text' =
      .ok (.matching (.ofNode (n.withProperties properties position)) c' p'))
    (hcondition : c'.map (·.text) = c.map (·.text)) (hprojection : p'.text = p.text)
    {config : Config} {command : String} (hconvert : convert config text = .ok command) :
    convert config text' = .ok command := by
  obtain ⟨request, made, layout, hrequest, hmade, hlayout, rfl⟩ := convert_eq_ok_iff.mp hconvert
  rw [parseStatement_matching h, readMatching] at hrequest
  obtain ⟨d, hd, hrequest⟩ := bind_eq_ok_iff.mp hrequest
  obtain ⟨e, he, hrequest⟩ := bind_eq_ok_iff.mp hrequest
  obtain ⟨items, hitems, hrequest⟩ := bind_eq_ok_iff.mp hrequest
  obtain rfl := pure_eq_ok_iff.mp hrequest
  have hread : parseStatement config.dialect text' =
      .ok (.matching (n.withProperties properties position) e items) := by
    rw [parseStatement_matching h', readMatching]
    exact bind_eq_ok_iff.mpr ⟨d, hd, bind_eq_ok_iff.mpr ⟨e, readCondition_of_text he hcondition,
      bind_eq_ok_iff.mpr ⟨items, parseProjection_of_text hitems hprojection, rfl⟩⟩⟩
  refine convert_eq_ok_iff.mpr ⟨_, made, layout, hread, ?_, hlayout, rfl⟩
  rw [Request.command] at hmade ⊢
  cases hs : n.selection e items with
  | error f => rw [hs] at hmade; cases hmade
  | ok s =>
    rw [hs] at hmade
    rw [Node.selection_withProperties hs]
    exact hmade

/-! ## What is selected -/

/-- A node with one label is always selected by the condition that is given and by nothing else. Its
    properties are kept exactly if the condition alone keeps them: the selection is the same for
    other properties, and so is the command of the whole statement. -/
theorem selection_of_condition {n : Node} {table : String} (h : n.labels = [table])
    (condition : Option Expr) (items : List Expr) :
    ∃ s, n.selection condition items = .ok s ∧ s.condition = condition ∧
      (∀ properties position,
        (n.withProperties properties position).selection condition items = .ok s) ∧
      (∀ holds : Expr → Row → Prop,
        (∀ row, s.Selects holds row ↔ row.Meets holds condition) ∧
        ((∀ row, s.Selects holds row → n.Describes row) ↔
          ∀ row : Row, row.Meets holds condition → n.Describes row)) ∧
      ∀ text text' properties position c c' p p',
        splitStatement text = .ok (.matching (.ofNode n) c p) →
        splitStatement text' =
          .ok (.matching (.ofNode (n.withProperties properties position)) c' p') →
        c'.map (·.text) = c.map (·.text) → p'.text = p.text →
        ∀ config command, convert config text = .ok command →
          convert config text' = .ok command := by
  have hselection := Node.selection_eq h condition items
  refine ⟨_, hselection, rfl, fun properties position => ?_, fun holds => ?_, ?_⟩
  · exact Node.selection_withProperties hselection properties position
  · exact ⟨fun row => Iff.rfl, Iff.rfl⟩
  · intro text text' properties position c c' p p' hsplit hsplit' hc hp config command hconvert
    exact Statement.command_of_properties hsplit hsplit' hc hp hconvert

/-- The node that the text of a pattern with one property is. -/
def nodeWithName (name : String) : Node :=
  ⟨some "n", ["Person"], some [("name", .string name)], some 6⟩

/-- A projection of the node. -/
def projectionOf (position : Nat) : Clause :=
  ⟨"n", position⟩

theorem splitStatement_names :
    splitStatement "MATCH (n:Person \x7bname: 'Alice'\x7d) RETURN n" =
        .ok (.matching (.ofNode (nodeWithName "Alice")) none (projectionOf 40)) ∧
      splitStatement "MATCH (n:Person \x7bname: 'Bob'\x7d) RETURN n" =
        .ok (.matching (.ofNode (nodeWithName "Bob")) none (projectionOf 38)) := by
  constructor <;> decide +kernel

theorem selection_of_condition_names :
    (nodeWithName "Alice").labels = ["Person"] ∧
      (∃ s, (nodeWithName "Alice").selection none [.ofName (.bare "n")] = .ok s ∧
        (nodeWithName "Bob").selection none [.ofName (.bare "n")] = .ok s) ∧
      (convert {} "MATCH (n:Person \x7bname: 'Alice'\x7d) RETURN n" =
          .ok "SELECT * FROM Person AS n" →
        convert {} "MATCH (n:Person \x7bname: 'Bob'\x7d) RETURN n" =
          .ok "SELECT * FROM Person AS n") := by
  obtain ⟨halice, hbob⟩ := splitStatement_names
  obtain ⟨s, hs, -, hother, -, hconvert⟩ := selection_of_condition
    (n := nodeWithName "Alice") rfl none [.ofName (.bare "n")]
  refine ⟨rfl, ⟨s, hs, hother (some [("name", .string "Bob")]) (some 6)⟩, ?_⟩
  exact hconvert _ _ (some [("name", .string "Bob")]) (some 6) none none (projectionOf 40)
    (projectionOf 38) halice hbob rfl rfl {} _

/-- A row is selected that the node does not describe, whatever conditions mean; and for another
    name the command is the same. -/
theorem selection_of_undescribed :
    ∃ n, parseNode "(n:Person \x7bname: 'Alice'\x7d)" = .ok n ∧
      n.labels = ["Person"] ∧ n.properties = some [("name", .string "Alice")] ∧
      (∃ s, n.selection none [.ofName (.bare "n")] = .ok s ∧ s.condition = none ∧
        ∃ row, ¬n.Describes row ∧ ∀ holds : Expr → Row → Prop, s.Selects holds row) ∧
      convert {} "MATCH (n:Person \x7bname: 'Alice'\x7d) RETURN n" =
        .ok "SELECT * FROM Person AS n" ∧
      convert {} "MATCH (n:Person \x7bname: 'Bob'\x7d) RETURN n" =
        .ok "SELECT * FROM Person AS n" := by
  have hnode : parseNode "(n:Person \x7bname: 'Alice'\x7d)" =
      .ok ((nodeWithName "Alice").withProperties (nodeWithName "Alice").properties (some 0)) := by
    decide +kernel
  refine ⟨_, hnode, rfl, rfl, ?_, by decide +kernel, by decide +kernel⟩
  have hselection := Node.selection_eq
    (n := (nodeWithName "Alice").withProperties (nodeWithName "Alice").properties (some 0)) rfl
    none [.ofName (.bare "n")]
  refine ⟨_, hselection, rfl, fun _ => .string "Bob", fun hdescribes => ?_, fun holds e he => ?_⟩
  · have hname := hdescribes _ rfl ("name", .string "Alice") List.mem_cons_self
    have hvalue : Literal.string "Bob" = .string "Alice" := hname
    exact absurd (Literal.string.inj hvalue) (by decide)
  · cases he

end PatternSql
