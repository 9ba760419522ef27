import PatternSql.Proofs.Conversion.Outcome
import PatternSql.Proofs.Pattern.Places

/-!
# Which creations are refused

A value that was read from a text can be written, in a pattern as well as in a command: strings were
delimited by one of the quotes and lack it, numbers are finite, and every value is of some kind. So
of the checks on the way from a node to its insertion only those on the node itself are ever met:
that it has a label, that it has no second one, and that it has properties, in this order.

Main results:

* `Literal.ReadsBack.isWritable`: what was read from a text can be written.
* `Node.creationOutcome`: what becomes of a node whose values were read.
* `creation_refusals`: why the creation of a text is refused, and why it never is.
-/

namespace PatternSql

open Sql

/-! ## Values -/

/-- A literal that can be written in patterns and in commands. -/
structure Literal.IsWritable (v : Literal) : Prop where
  /-- It has a spelling. -/
  spelled : ∃ text, v.spelling = .ok text
  /-- It has a form as an expression. -/
  formed : ∃ e, Expr.ofLiteral v = .ok e
  /-- If it is a string, it lacks one of the quotes. -/
  quote : ∀ value, v = .string value → '\'' ∉ value.toList ∨ '"' ∉ value.toList
  /-- If it is a double, it is finite. -/
  finite : ∀ value, v = .float value → value.isFinite = true
  /-- It is of some kind. -/
  kind : v ≠ .unspecified

/-- What was read from a text can be written. -/
theorem Literal.ReadsBack.isWritable {v : Literal} (h : v.ReadsBack) : v.IsWritable := by
  obtain ⟨x, text, hspelled⟩ := h
  have hspelling := hspelled.spelling
  have hform := Literal.ReadsBack.ofLiteral ⟨x, text, hspelled⟩
  obtain ⟨-, hfinite, hkind⟩ := Expr.ofLiteral_isOk_iff.mp hform
  refine ⟨⟨text, hspelling⟩, hform, ?_, hfinite, hkind⟩
  rintro value rfl
  rw [← not_and_or]
  intro hboth
  have herror := spelling_string_eq_error_iff.mpr ⟨rfl, hboth⟩
  rw [hspelling] at herror
  cases herror

/-- The values of the properties of a node. -/
def Node.values (n : Node) : List Literal :=
  (n.properties.getD []).map (·.2)

theorem Node.Holds.forall_values {good : Literal → Prop} {n : Node} (h : n.Holds good) :
    ∀ v ∈ n.values, good v := by
  intro v hv
  obtain ⟨entry, hentry, rfl⟩ := List.mem_map.mp hv
  cases hmap : n.properties with
  | none =>
    rw [hmap] at hentry
    cases hentry
  | some entries =>
    rw [hmap] at hentry
    exact ((h.map entries hmap).2 entry hentry).2

/-! ## Nodes -/

/-- The node that a text is has names and values that were read from its tokens. -/
theorem node_holds_of_parseNode {text : String} {n : Node} (h : parseNode text = .ok n) :
    n.Holds Literal.ReadsBack := by
  obtain ⟨-, d, hd, hlegible, hpattern⟩ := parsePattern_eq_ok_iff.mp (parseNode_eq_ok_iff.mp h)
  have hgenuine : AllGenuine (Grammar.pattern.tokens d) := by
    intro t ht
    rw [hd] at ht
    exact isGenuine_of_mem ht
  have hholds := pattern_holds hgenuine hlegible
  rw [← hpattern] at hholds
  exact (hholds _ List.mem_cons_self).1

/-- No label of the node that a text is is repeated. -/
theorem nodup_labels_of_parseNode {text : String} {n : Node} (h : parseNode text = .ok n) :
    n.labels.Nodup :=
  (Pattern.wellFormed (parseNode_eq_ok_iff.mp h)).labels _ List.mem_cons_self n List.mem_cons_self

/-- What becomes of a node that is to be created. The conditions exclude each other, so they are
    tested in the order in which they stand here. -/
inductive Node.CreationOutcome (n : Node) : Except Failure String → Prop
  /-- It has no label. -/
  | missingLabel (h : n.labels = []) :
      CreationOutcome n (.error (.input (.missingLabel (n.name.map fun v => "(" ++ v ++ ")"))))
  /-- It has different labels. -/
  | severalLabels (h : 2 ≤ n.labels.length) :
      CreationOutcome n (.error (.input (.unsupported (.severalLabels n.labels) n.position)))
  /-- It has one label, and no map or an empty one. -/
  | noProperties (label : String) (hlabel : n.labels = [label])
      (h : n.properties = none ∨ n.properties = some []) :
      CreationOutcome n (.error (.input (.noProperties label)))
  /-- It has one label and properties. -/
  | created (label : String) (hlabel : n.labels = [label]) (entries : Properties) (row : List Expr)
      (h : n.properties = some entries) (hne : entries ≠ []) (hrow : rowOf n.values = .ok row) :
      CreationOutcome n (.ok ((Command.insert label (entries.map (·.1)) row).text .plain))

/-- The command for a node, written in the default way. -/
def Node.creation (n : Node) : Except Failure String := do
  let command ← (Request.creating n).command
  command.render {}

theorem createNode_of_parseNode {text : String} {n : Node} (h : parseNode text = .ok n) :
    createNode text = n.creation := by
  rw [createNode, h]
  rfl

theorem Node.creation_of_insertion_error {n : Node} {e : InputError} (h : n.insertion = .error e) :
    n.creation = .error (.input e) := by
  rw [creation, Request.command, h]
  rfl

theorem Node.creation_of_table_error {n : Node} {e : InputError} (h : n.table = .error e) :
    n.creation = .error (.input e) :=
  creation_of_insertion_error (bind_eq_error_iff.mpr (.inl h))

/-- A name is not empty, so a missing label is reported with the name of the node. -/
theorem Node.table_of_labels_nil {n : Node} (hname : ∀ v ∈ n.name, IsName v) (h : n.labels = []) :
    n.table = .error (.missingLabel (n.name.map fun v => "(" ++ v ++ ")")) := by
  rw [table, h]
  cases hn : n.name with
  | none => rfl
  | some v =>
    rw [Option.map_some, Option.map_some, (hname v hn).isEmpty_eq_false]
    rfl

theorem Node.insertion_of_no_properties {n : Node} {label : String} (hlabel : n.labels = [label])
    (h : n.properties = none ∨ n.properties = some []) :
    n.insertion = .error (.noProperties label) := by
  rw [insertion, Node.table_eq_ok_iff.mpr hlabel]
  rcases h with h | h <;> rw [h] <;> rfl

/-- A node with one label and with properties that can be written is created. -/
theorem Node.creation_of_row {n : Node} {label : String} (hlabel : n.labels = [label])
    {entries : Properties} (h : n.properties = some entries) (hne : entries ≠ [])
    {row : List Expr} (hrow : rowOf n.values = .ok row) :
    n.creation = .ok ((Command.insert label (entries.map (·.1)) row).text .plain) := by
  have hinsertion : n.insertion = .ok ⟨label, entries.map (·.1), n.values⟩ := by
    refine Node.insertion_eq_ok_iff.mpr ⟨hlabel, entries, hne, h, rfl, ?_⟩
    rw [values, h, Option.getD_some]
  have hcommand : Insertion.command ⟨label, entries.map (·.1), n.values⟩ =
      .ok (.insert label (entries.map (·.1)) row) := by
    have hlength : (entries.map (·.1)).length = n.values.length := by
      rw [values, h, Option.getD_some, List.length_map, List.length_map]
    rw [Insertion.command, if_neg (not_not.mpr hlength), hrow]
  rw [creation, Request.command, hinsertion]
  change Insertion.command _ >>= _ = _
  rw [hcommand]
  rfl

/-- A node whose values were read is created, or refused for what it lacks or has too much of. -/
theorem Node.creationOutcome {n : Node} (hn : n.Holds Literal.ReadsBack) :
    n.CreationOutcome n.creation := by
  rcases hlabels : n.labels with _ | ⟨label, _ | ⟨second, more⟩⟩
  · rw [creation_of_table_error (Node.table_of_labels_nil hn.name hlabels)]
    exact .missingLabel hlabels
  · rcases hmap : n.properties with _ | _ | ⟨entry, entries⟩
    · rw [creation_of_insertion_error (insertion_of_no_properties hlabels (.inl hmap))]
      exact .noProperties label hlabels (.inl hmap)
    · rw [creation_of_insertion_error (insertion_of_no_properties hlabels (.inr hmap))]
      exact .noProperties label hlabels (.inr hmap)
    · obtain ⟨row, hrow⟩ : ∃ row, rowOf n.values = .ok row :=
        rowOf_isOk_iff.mpr fun v hv => (hn.forall_values v hv).ofLiteral
      have hne : entry :: entries ≠ [] := List.cons_ne_nil _ _
      rw [creation_of_row hlabels hmap hne hrow]
      exact .created label hlabels _ row hmap hne hrow
  · have htable : n.table = .error (.unsupported (.severalLabels n.labels) n.position) := by
      rw [table, hlabels]
    rw [creation_of_table_error htable]
    exact .severalLabels (by rw [hlabels]; simp)

/-! ## Texts -/

/-- A failure of one of the checks on insertions and their values. -/
inductive Failure.IsOfInsertion : Failure → Prop
  /-- There are not as many values as columns. -/
  | countMismatch (columns values : Nat) : IsOfInsertion (.countMismatch columns values)
  /-- A value cannot stand in a command. -/
  | noSqlForm (cause : NoSqlForm) : IsOfInsertion (.noSqlForm cause)

/-- How the creation of the node that a text is ends. -/
structure CreationEnds (text : String) : Prop where
  /-- All values of the node can be written. -/
  values : ∀ n, parseNode text = .ok n → ∀ v ∈ n.values, v.IsWritable
  /-- A text that is no node is refused for that reason. -/
  noNode : ∀ f, parseNode text = .error f → createNode text = .error f
  /-- The labels that are counted are different. -/
  labels : ∀ n, parseNode text = .ok n → n.labels.Nodup
  /-- A node is created, or refused for what it lacks or has too much of. -/
  outcome : ∀ n, parseNode text = .ok n → n.CreationOutcome (createNode text)
  /-- The checks on insertions and their values never fail. -/
  unreachable : ∀ f, f.IsOfInsertion → createNode text ≠ .error f

/-- Texts for patterns are refused with errors in them, or for a number of too many digits. -/
theorem parseNode_failsWith (text : String) :
    FailsWith (fun f => ¬f.IsOfInsertion) (parseNode text) := by
  refine FailsWith.bind (fun f hf => ?_) fun P _ f hf => ?_
  · rcases parsePattern_eq_error hf with ⟨e, -, rfl⟩ | ⟨syn, -, -, t, -, hfound⟩
    · rintro ⟨⟩
    · cases hfound <;> rintro ⟨⟩
  · obtain ⟨e, -, rfl⟩ := mapError_eq_error_iff.mp hf
    rintro ⟨⟩

theorem Node.CreationOutcome.not_isOfInsertion {n : Node} {f : Failure}
    (h : n.CreationOutcome (.error f)) : ¬f.IsOfInsertion := by
  cases h <;> rintro ⟨⟩

/-- All values of a node that was read from a text can be written. So creating it fails, where the
    text is a node, only because it has no label, because it has several labels, or because it has
    one label and no properties; it never fails because of a value or of the number of values. -/
theorem creation_refusals (text : String) : CreationEnds text := by
  have houtcome (n : Node) (h : parseNode text = .ok n) : n.CreationOutcome (createNode text) := by
    rw [createNode_of_parseNode h]
    exact Node.creationOutcome (node_holds_of_parseNode h)
  have hno_node (f : Failure) (h : parseNode text = .error f) : createNode text = .error f := by
    rw [createNode, h]
    rfl
  refine ⟨fun n h v hv => ?_, hno_node, fun n => nodup_labels_of_parseNode, houtcome,
    fun f hf herror => ?_⟩
  · exact ((node_holds_of_parseNode h).forall_values v hv).isWritable
  · cases hnode : parseNode text with
    | error e =>
      obtain rfl := Except.error.inj ((hno_node e hnode).symm.trans herror)
      exact parseNode_failsWith text e hnode hf
    | ok n =>
      have := houtcome n hnode
      rw [herror] at this
      exact this.not_isOfInsertion hf

/-- The label is looked for before the properties, and a second label before them as well. -/
example : createNode "(n)" = .error (.input (.missingLabel (some "(n)"))) ∧
    createNode "(n:A:A \x7b\x7d)" = .error (.input (.noProperties "A")) ∧
    createNode "(:A:B)" = .error (.input (.unsupported (.severalLabels ["A", "B"]) (some 0))) := by
  decide +kernel

end PatternSql
