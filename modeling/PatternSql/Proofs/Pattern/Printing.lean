import PatternSql.Proofs.Grammar.Printed
import PatternSql.Proofs.Pattern.Understanding

/-!
# The canonical text of a pattern

A pattern is printed with a comma and a blank between its paths and between the entries of a map, a
colon in front of each label and of the first type, bars between types, and a blank in front of a
map. A map is printed if it is there, also if it is empty. What is printed of names and of literals
that read back is a text of the grammar, and its derivation describes what was printed.

Main results:

* `Node.prints`, `Relationship.prints`: the printed texts derive what they were printed from.
-/

namespace PatternSql

open Text Grammar

/-! ## Printing -/

/-- A property: its key and the spelling of its value. -/
def printEntry (entry : String × Literal) : Except Unspellable String := do
  let value ← entry.2.spelling
  return entry.1 ++ ": " ++ value

/-- A map between braces with a blank in front, if there is one. -/
def printMap : Option Properties → Except Unspellable String
  | none => .ok ""
  | some entries => do
    let entries ← entries.mapM printEntry
    return " \x7b" ++ ", ".intercalate entries ++ "\x7d"

/-- A node, with a colon in front of each label. -/
def Node.print (n : Node) : Except Unspellable String := do
  let map ← printMap n.properties
  return "(" ++ n.name.getD "" ++ String.join (n.labels.map (":" ++ ·)) ++ map ++ ")"

/-- Types with a colon in front of the first one and bars between them, if there are any. -/
def printTypes : List String → String
  | [] => ""
  | types => ":" ++ "|".intercalate types

/-- A relationship, always with brackets. -/
def Relationship.print (r : Relationship) : Except Unspellable String := do
  let map ← printMap r.properties
  let left := if r.direction = .incoming then "<" else ""
  let right := if r.direction = .outgoing then ">" else ""
  return left ++ "-[" ++ r.name.getD "" ++ printTypes r.types ++ map ++ "]-" ++ right

/-- A path: nodes and relationships in turn. -/
def Path.print (p : Path) : Except Unspellable String := do
  let first ← p.first.print
  let steps ← p.steps.mapM fun s => return (← s.1.print) ++ (← s.2.print)
  return first ++ String.join steps

/-- A pattern: its paths, with commas between them. -/
def Pattern.print (p : Pattern) : Except Unspellable String := do
  let paths ← p.paths.mapM Path.print
  return ", ".intercalate paths

/-! ## What can be printed -/

/-- A map of which the keys are names, no two alike, and the values are as required. -/
def Keyed (good : Literal → Prop) (entries : Properties) : Prop :=
  (entries.map (·.1)).Nodup ∧ ∀ entry ∈ entries, IsName entry.1 ∧ good entry.2

/-- All names of a node are names, and its values are as required. -/
structure Node.Holds (good : Literal → Prop) (n : Node) : Prop where
  name : ∀ x ∈ n.name, IsName x
  labels : ∀ x ∈ n.labels, IsName x
  map : ∀ entries ∈ n.properties, Keyed good entries

/-- All names of a relationship are names, and its values are as required. -/
structure Relationship.Holds (good : Literal → Prop) (r : Relationship) : Prop where
  name : ∀ x ∈ r.name, IsName x
  types : ∀ x ∈ r.types, IsName x
  map : ∀ entries ∈ r.properties, Keyed good entries

/-- All nodes and relationships of a path hold what is required. -/
def Path.Holds (good : Literal → Prop) (p : Path) : Prop :=
  p.first.Holds good ∧ ∀ s ∈ p.steps, s.1.Holds good ∧ s.2.Holds good

/-- All paths of a pattern hold what is required. -/
def Pattern.Holds (good : Literal → Prop) (p : Pattern) : Prop :=
  ∀ path ∈ p.paths, path.Holds good

section

variable {good good' : Literal → Prop}

theorem Keyed.mono {entries : Properties} (h : Keyed good entries) (hgood : ∀ v, good v → good' v) :
    Keyed good' entries :=
  ⟨h.1, fun entry hentry => ⟨(h.2 entry hentry).1, hgood _ (h.2 entry hentry).2⟩⟩

theorem Node.Holds.mono {n : Node} (h : n.Holds good) (hgood : ∀ v, good v → good' v) :
    n.Holds good' :=
  ⟨h.name, h.labels, fun entries hentries => (h.map entries hentries).mono hgood⟩

theorem Relationship.Holds.mono {r : Relationship} (h : r.Holds good)
    (hgood : ∀ v, good v → good' v) : r.Holds good' :=
  ⟨h.name, h.types, fun entries hentries => (h.map entries hentries).mono hgood⟩

theorem Pattern.Holds.mono {p : Pattern} (h : p.Holds good) (hgood : ∀ v, good v → good' v) :
    p.Holds good' := by
  intro path hpath
  obtain ⟨hfirst, hsteps⟩ := h path hpath
  exact ⟨hfirst.mono hgood, fun s hs => ⟨(hsteps s hs).1.mono hgood, (hsteps s hs).2.mono hgood⟩⟩

end

/-! ## Maps -/

/-- A row is printed if its items are. -/
theorem mapM_eq_ok {α β ε : Type} {f : α → Except ε β} {R : α → β → Prop} {xs : List α}
    (h : ∀ x ∈ xs, ∃ y, f x = .ok y ∧ R x y) :
    ∃ ys, xs.mapM f = .ok ys ∧ List.Forall₂ R xs ys := by
  induction xs with
  | nil => exact ⟨[], rfl, .nil⟩
  | cons x xs ih =>
    obtain ⟨y, hy, hR⟩ := h x List.mem_cons_self
    obtain ⟨ys, hys, hRs⟩ := ih fun x hx => h x (List.mem_cons_of_mem _ hx)
    refine ⟨y :: ys, ?_, .cons hR hRs⟩
    rw [List.mapM_cons, hy, hys]
    rfl

/-- What holds of each pair of a row holds of the second row. -/
theorem forall_mem_of_forall₂ {α β : Type} {R : α → β → Prop} {P : β → Prop} {xs : List α}
    {ys : List β} (h : List.Forall₂ R xs ys) (hP : ∀ x y, R x y → P y) : ∀ y ∈ ys, P y := by
  induction h with
  | nil => simp
  | cons h _ ih => exact List.forall_mem_cons.mpr ⟨hP _ _ h, ih⟩

theorem map_eq_of_forall₂ {α β γ : Type} {f : β → γ} {g : α → γ} {xs : List α} {ys : List β}
    (h : List.Forall₂ (fun x y => f y = g x) xs ys) : ys.map f = xs.map g := by
  induction h with
  | nil => rfl
  | cons h _ ih => rw [List.map_cons, List.map_cons, h, ih]

theorem map_eq_self_of_forall₂ {α β : Type} {f : β → α} {xs : List α} {ys : List β}
    (h : List.Forall₂ (fun x y => f y = x) xs ys) : ys.map f = xs :=
  (map_eq_of_forall₂ (g := id) h).trans xs.map_id

/-- What the derivation of a property says about a property. -/
def EntryTold (entry : String × Literal) (t : Token × Token) : Prop :=
  t.1.text = entry.1 ∧ valueMeaning t.2 = .ok entry.2

theorem prints_entry {entry : String × Literal} (hkey : IsName entry.1)
    (hvalue : entry.2.ReadsBack) :
    ∃ text, printEntry entry = .ok text ∧
      Prints property Separates text.toList (fun d => EntryTold entry (entryOf d)) ∧
      ∀ rest, Stops isGap (text.toList ++ rest) := by
  obtain ⟨key, v⟩ := entry
  obtain ⟨x, spelled, hspelled⟩ := hvalue
  refine ⟨key ++ ": " ++ spelled, ?_, ?_, ?_⟩
  · rw [printEntry, hspelled.spelling]
    rfl
  · have hcolon := (Prints.mark (c := ':') (x := .colon) rfl (by decide)).seq
      ((prints_value hspelled).gap fun rest _ => stops_isGap_of_lexeme? hspelled.lexeme rest)
      fun _ _ => trivial
    have hwhole := (prints_name hkey).seq hcolon fun _ _ => separates_cons.mpr (by decide)
    simp only [String.toList_append, List.append_assoc]
    exact hwhole.mono (fun _ h => h) fun d hd => ⟨hd.1, hd.2.2⟩
  · intro rest
    obtain ⟨x, -, hlex⟩ := isName_iff_lexeme?.mp hkey
    rw [String.toList_append, String.toList_append, List.append_assoc, List.append_assoc]
    exact stops_isGap_of_lexeme? hlex _

theorem propertiesOf_of_told {entries : Properties} {ts : List (Token × Token)}
    (h : List.Forall₂ EntryTold entries ts) (hnodup : (entries.map (·.1)).Nodup) :
    Legible ts ∧ propertiesOf ts = entries := by
  have hkeys : ts.map (·.1.text) = entries.map (·.1) :=
    map_eq_of_forall₂ (h.imp fun _ _ ht => ht.1)
  refine ⟨⟨hkeys ▸ hnodup, ?_⟩, ?_⟩
  · exact forall_mem_of_forall₂ h fun entry t ht => ⟨_, ht.2⟩
  · refine map_eq_self_of_forall₂ (h.imp fun entry t ht => ?_)
    rw [ht.1, ← (valueMeaning_eq_ok_iff.mp ht.2).2]

/-- What the derivation of an optional map says about the map. -/
def MapTold (map : Option Properties) (d : (Ebnf.opt properties).Derivation) : Prop :=
  (∀ m ∈ (d.map mapOf).toList, Legible m) ∧ d.map (fun d => propertiesOf (mapOf d)) = map

theorem prints_entries {entries : Properties} (h : Keyed Literal.ReadsBack entries) :
    ∃ texts, entries.mapM printEntry = .ok texts ∧
      Prints (.opt propertyList) Separates (", ".intercalate texts).toList
        (fun d => Legible ((d.map entriesOf).getD []) ∧
          propertiesOf ((d.map entriesOf).getD []) = entries) := by
  obtain ⟨hnodup, hentries⟩ := h
  obtain ⟨texts, htexts, hall⟩ := mapM_eq_ok (f := printEntry) fun entry hentry =>
    prints_entry (hentries entry hentry).1 (hentries entry hentry).2
  refine ⟨texts, htexts, ?_⟩
  cases hall with
  | nil =>
    refine Prints.none.mono (fun _ h => h) fun d hd => ?_
    subst hd
    exact ⟨⟨List.nodup_nil, by simp⟩, rfl⟩
  | @cons entry text entries texts hentry hall =>
    have hrow := Prints.commas hentry.1 hall fun _ => separates_cons.mpr (by decide)
    refine hrow.some.mono (fun _ h => h) fun d hd => ?_
    obtain ⟨⟨d, ds⟩, rfl, hd, hds⟩ := hd
    exact propertiesOf_of_told (.cons hd (List.forall₂_map_right_iff.mpr hds)) hnodup

/-- A map is printed as what is read as the map. -/
theorem prints_map {map : Option Properties} (h : ∀ m ∈ map, Keyed Literal.ReadsBack m) :
    ∃ text, printMap map = .ok text ∧
      Prints (.opt properties) (fun _ => True) text.toList (MapTold map) ∧
      ∀ rest, Separates rest → Separates (text.toList ++ rest) := by
  cases map with
  | none =>
    refine ⟨"", rfl, Prints.none.mono (fun _ h => h) fun d hd => ?_, fun _ h => h⟩
    subst hd
    exact ⟨by simp, rfl⟩
  | some entries =>
    obtain ⟨texts, htexts, hentries⟩ := prints_entries (h entries rfl)
    refine ⟨" \x7b" ++ ", ".intercalate texts ++ "\x7d", ?_, ?_, ?_⟩
    · rw [printMap, htexts]
      rfl
    · have hclose := hentries.seq (Prints.mark (c := '\x7d') (x := .rightBrace) rfl (by decide))
        fun _ _ => separates_cons.mpr (by decide)
      have hopen := (Prints.mark (c := '\x7b') (x := .leftBrace) rfl (by decide)).seq hclose
        fun _ _ => trivial
      have hgap := hopen.some.gap fun rest _ => stops_cons.mpr (by decide)
      simp only [String.toList_append, List.append_assoc]
      refine hgap.mono (fun _ h => h) fun d hd => ?_
      obtain ⟨⟨opening, list, closing⟩, rfl, -, ⟨hlegible, hsame⟩, -⟩ := hd
      exact ⟨by simpa [mapOf] using hlegible, congrArg some hsame⟩
    · intro rest _
      rw [String.toList_append, String.toList_append]
      exact separates_cons.mpr (by decide)

/-! ## Nodes -/

/-- An optional name is printed as it is. -/
theorem prints_named {named : Option String} (h : ∀ x ∈ named, IsName x) :
    Prints (.opt name) Separates (named.getD "").toList (fun d => d.map (·.1.text) = named) := by
  cases named with
  | none => exact Prints.none.mono (fun _ h => h) fun d hd => by rw [hd]; rfl
  | some x =>
    refine (prints_name (h x rfl)).some.mono (fun _ h => h) fun d hd => ?_
    obtain ⟨d, rfl, hd⟩ := hd
    exact congrArg some hd

/-- A name with a mark in front. -/
theorem prints_marked {c : Char} {x : Terminal} {text : String} (h : IsName text)
    (hmark : mark? c = some x) (hc : c ∉ ['-', '.', '<', '>']) :
    Prints (.seq (token x) name) Separates (c :: text.toList) (fun d => d.2.1.text = text) :=
  ((Prints.mark hmark hc).seq (prints_name h) fun _ _ => trivial).mono (fun _ h => h)
    fun _ hd => hd.2

/-- Names with a mark in front of each. -/
theorem prints_row {c : Char} {x : Terminal} {names : List String} (h : ∀ text ∈ names, IsName text)
    (hmark : mark? c = some x) (hc : c ∉ ['-', '.', '<', '>']) :
    List.Forall₂ (fun text cs => Prints (.seq (token x) name) Separates cs
      (fun d => d.2.1.text = text)) names (names.map fun text => c :: text.toList) := by
  refine List.forall₂_map_right_iff.mpr (List.forall₂_same.mpr fun text htext => ?_)
  exact prints_marked (h text htext) hmark hc

theorem separates_row {c : Char} (hc : ∀ cs, Separates (c :: cs)) (names : List String) :
    ∀ cs ∈ names.map (fun text => c :: text.toList), ∀ rest, Separates rest →
      Separates (cs ++ rest) := by
  intro cs hcs rest _
  obtain ⟨text, -, rfl⟩ := List.mem_map.mp hcs
  exact hc _

/-- Labels are printed with a colon in front of each. -/
theorem prints_labels {labels : List String} (h : ∀ x ∈ labels, IsName x) :
    Prints (.opt labelList) Separates (String.join (labels.map (":" ++ ·))).toList
        (fun d => ((d.map labelsOf).getD []).map (·.text) = labels) ∧
      ∀ rest, Separates rest →
        Separates ((String.join (labels.map (":" ++ ·))).toList ++ rest) := by
  have hchars : (String.join (labels.map (":" ++ ·))).toList =
      (labels.map fun text => ':' :: text.toList).flatten := by
    rw [String.toList_join, List.flatMap_map, List.flatMap_def]
    simp
  have hfollow := separates_row (c := ':') (fun _ => separates_cons.mpr (by decide)) labels
  rw [hchars]
  refine ⟨?_, Prints.follow_flatten hfollow⟩
  cases labels with
  | nil =>
    refine Prints.none.mono (fun _ h => h) fun d hd => ?_
    subst hd
    rfl
  | cons label labels =>
    have hrow := prints_row (c := ':') (x := .colon) h rfl (by decide)
    refine (Prints.many1 hrow hfollow).some.mono (fun _ h => h) fun d hd => ?_
    obtain ⟨⟨d, ds⟩, rfl, hd, hds⟩ := hd
    simp only [Option.map_some, Option.getD_some, labelsOf, List.map_cons, List.map_map]
    exact congrArg₂ List.cons hd (map_eq_self_of_forall₂ hds)

/-- A node is printed as what is read as the node, its labels collapsed. -/
theorem Node.prints {n : Node} (h : n.Holds Literal.ReadsBack) :
    ∃ text, n.print = .ok text ∧
      Prints node (fun _ => True) text.toList (fun d => (∀ m ∈ nodeMaps d, Legible m) ∧
        (nodeOf d).name = n.name ∧ (nodeOf d).labels = n.labels.eraseDups ∧
        (nodeOf d).properties = n.properties) ∧
      ∃ cs, text.toList = '(' :: cs := by
  obtain ⟨map, hmap, hprints, hseparates⟩ := prints_map h.map
  refine ⟨"(" ++ n.name.getD "" ++ String.join (n.labels.map (":" ++ ·)) ++ map ++ ")", ?_, ?_, ?_⟩
  · rw [Node.print, hmap]
    rfl
  · have hclose := hprints.seq (Prints.mark (c := ')') (x := .rightParen) rfl (by decide))
      fun _ _ => trivial
    obtain ⟨hprinted, hlead⟩ := prints_labels h.labels
    have hlabels := hprinted.seq hclose fun rest _ => by
      rw [List.append_assoc]
      exact hseparates _ (separates_cons.mpr (by decide))
    have hname := (prints_named h.name).seq hlabels fun rest _ => by
      rw [List.append_assoc, List.append_assoc]
      exact hlead _ (hseparates _ (separates_cons.mpr (by decide)))
    have hopen := (Prints.mark (c := '(') (x := .leftParen) rfl (by decide)).seq hname
      fun _ _ => trivial
    simp only [String.toList_append, List.append_assoc]
    refine hopen.mono (fun _ h => h) fun d hd => ?_
    obtain ⟨opening, named, labels, m, closing⟩ := d
    obtain ⟨-, hnamed, hlabelled, ⟨hlegible, hsame⟩, -⟩ := hd
    exact ⟨hlegible, hnamed, by rw [← hlabelled]; rfl, hsame⟩
  · exact ⟨_, by simp only [String.toList_append, List.append_assoc]; rfl⟩

/-! ## Relationships -/

/-- A type with a bar in front and no colon. -/
theorem prints_barred {text : String} (h : IsName text) :
    Prints (.seq (token .bar) (.seq (.opt (token .colon)) name)) Separates ('|' :: text.toList)
      (fun d => d.2.2.1.text = text) := by
  have hcolon : Prints (.opt (token .colon)) (fun _ => True) [] (· = none) := .none
  have hname := hcolon.seq (prints_name h) fun _ _ => trivial
  have hbar := (Prints.mark (c := '|') (x := .bar) rfl (by decide)).seq hname fun _ _ => trivial
  exact hbar.mono (fun _ h => h) fun _ hd => hd.2.2

/-- Types are printed with a colon in front of the first one and bars between them. -/
theorem prints_types {types : List String} (h : ∀ x ∈ types, IsName x) :
    Prints (.opt relationshipTypes) Separates (printTypes types).toList
        (fun d => ((d.map typesOf).getD []).map (·.text) = types) ∧
      ∀ rest, Separates rest → Separates ((printTypes types).toList ++ rest) := by
  cases types with
  | nil =>
    refine ⟨Prints.none.mono (fun _ h => h) fun d hd => ?_, fun rest hrest => hrest⟩
    subst hd
    rfl
  | cons first types =>
    obtain ⟨hfirst, htypes⟩ := List.forall_mem_cons.mp h
    have hchars : (printTypes (first :: types)).toList =
        ':' :: first.toList ++ (types.map fun text => '|' :: text.toList).flatten := by
      rw [printTypes, String.toList_append, toList_intercalate_cons]
      · rfl
      · simp
    have hfollow := separates_row (c := '|') (fun _ => separates_cons.mpr (by decide)) types
    have hrow : List.Forall₂ (fun text cs => Prints
        (.seq (token .bar) (.seq (.opt (token .colon)) name)) Separates cs
          (fun d => d.2.2.1.text = text)) types (types.map fun text => '|' :: text.toList) :=
      List.forall₂_map_right_iff.mpr (List.forall₂_same.mpr fun text htext =>
        prints_barred (htypes text htext))
    rw [hchars]
    refine ⟨?_, fun _ _ => separates_cons.mpr (by decide)⟩
    have hwhole := (prints_marked (c := ':') (x := .colon) hfirst rfl (by decide)).seq
      (Prints.many hrow hfollow) (Prints.follow_flatten hfollow)
    refine hwhole.some.mono (fun _ h => h) fun d hd => ?_
    obtain ⟨⟨d, ds⟩, rfl, hd, hds⟩ := hd
    simp only [Option.map_some, Option.getD_some, typesOf, List.map_cons, List.map_map]
    exact congrArg₂ List.cons hd (map_eq_self_of_forall₂ hds)

/-- What stands between the brackets of a relationship is printed as what is read. -/
theorem prints_detail {r : Relationship} (h : r.Holds Literal.ReadsBack) :
    ∃ map, printMap r.properties = .ok map ∧
      Prints relationshipDetail (fun _ => True)
        ("[" ++ r.name.getD "" ++ printTypes r.types ++ map ++ "]").toList
        (fun d => (∀ m ∈ (detailOf d).2.2.toList, Legible m) ∧
          (detailOf d).1.map (·.text) = r.name ∧ (detailOf d).2.1.map (·.text) = r.types ∧
          (detailOf d).2.2.map propertiesOf = r.properties) := by
  obtain ⟨map, hmap, hprints, hseparates⟩ := prints_map h.map
  obtain ⟨htypes, hlead⟩ := prints_types h.types
  refine ⟨map, hmap, ?_⟩
  have hclose := hprints.seq (Prints.mark (c := ']') (x := .rightBracket) rfl (by decide))
    fun _ _ => trivial
  have htyped := htypes.seq hclose fun rest _ => by
    rw [List.append_assoc]
    exact hseparates _ (separates_cons.mpr (by decide))
  have hname := (prints_named h.name).seq htyped fun rest _ => by
    rw [List.append_assoc, List.append_assoc]
    exact hlead _ (hseparates _ (separates_cons.mpr (by decide)))
  have hopen := (Prints.mark (c := '[') (x := .leftBracket) rfl (by decide)).seq hname
    fun _ _ => trivial
  simp only [String.toList_append, List.append_assoc]
  refine hopen.mono (fun _ h => h) fun d hd => ?_
  obtain ⟨opening, named, types, m, closing⟩ := d
  obtain ⟨-, hnamed, htyped, ⟨hlegible, hsame⟩, -⟩ := hd
  refine ⟨hlegible, ?_, htyped, ?_⟩
  · rw [← hnamed]
    cases named <;> rfl
  · rw [← hsame]
    cases m <;> rfl

/-- The arrow heads of a relationship: there is one on the side that it points to, if any. -/
theorem prints_head {c : Char} {x : Terminal} {text : String} {next : List Char} (there : Prop)
    [Decidable there] (htext : text.toList = [c]) (hmark : mark? c = some x)
    (hnext : next.all (standsBefore c) = true) :
    Prints (.opt (token x)) (Begins next) (if there then text else "").toList
      (fun d => d.isSome = decide there) := by
  by_cases hthere : there
  · rw [if_pos hthere, htext, decide_eq_true hthere]
    refine (Prints.markBefore hmark hnext).some.mono (fun _ h => h) fun d hd => ?_
    obtain ⟨d, rfl, -⟩ := hd
    rfl
  · rw [if_neg hthere, decide_eq_false hthere]
    refine Prints.none.mono (fun _ h => h) fun d hd => ?_
    subst hd
    rfl

theorem ofArrows_decide (direction : Direction) :
    Direction.ofArrows (decide (direction = .incoming)) (decide (direction = .outgoing)) =
      direction := by
  cases direction <;> rfl

/-- A relationship is printed as what is read as the relationship. -/
theorem Relationship.prints {r : Relationship} (h : r.Holds Literal.ReadsBack) :
    ∃ text, r.print = .ok text ∧
      Prints relationship (Begins ['(']) text.toList
        (fun d => (∀ m ∈ relationshipMaps d, Legible m) ∧
          (relationshipOf d).name = r.name ∧ (relationshipOf d).types = r.types ∧
          (relationshipOf d).properties = r.properties ∧
          (relationshipOf d).direction = r.direction) := by
  obtain ⟨map, hmap, hdetail⟩ := prints_detail h
  have hdash : Prints (token .minus) (Begins ['(', '>']) ['-'] (fun _ => True) :=
    .markBefore rfl (by decide)
  have hright : Prints (.opt (token .greater)) (Begins ['('])
      (if r.direction = .outgoing then ">" else "").toList _ :=
    prints_head (c := '>') (r.direction = .outgoing) rfl rfl (by decide)
  have hleft : Prints (.opt (token .less)) (Begins ['-'])
      (if r.direction = .incoming then "<" else "").toList _ :=
    prints_head (c := '<') (r.direction = .incoming) rfl rfl (by decide)
  have hdash' : Prints (token .minus) (Begins ['[']) ['-'] (fun _ => True) :=
    .markBefore rfl (by decide)
  have hend := hdash.seq hright fun rest hrest => by
    split
    · exact ⟨'>', by simp, _, rfl⟩
    · obtain ⟨c, hc, ds, rfl⟩ := hrest
      obtain rfl := List.mem_singleton.mp hc
      exact ⟨'(', by simp, ds, rfl⟩
  have hbrackets := hdetail.some.seq hend fun _ _ => trivial
  have hbody := hdash'.seq hbrackets fun rest _ => by
    simp only [String.toList_append, List.append_assoc]
    exact ⟨'[', by simp, _, rfl⟩
  have hwhole := hleft.seq hbody fun _ _ => ⟨'-', by simp, _, rfl⟩
  refine ⟨_, by rw [Relationship.print, hmap]; rfl, ?_⟩
  have hdash₁ : "-[".toList = '-' :: "[".toList := rfl
  have hdash₂ : "]-".toList = "]".toList ++ ['-'] := rfl
  simp only [String.toList_append, List.append_assoc, hdash₁, hdash₂, List.cons_append] at hwhole ⊢
  refine hwhole.mono (fun _ h => h) fun d hd => ?_
  obtain ⟨hl, -, ⟨detail, hdetail, hlegible, hname, htypes, hmap⟩, -, hr⟩ := hd
  have hdirection : directionOf d = r.direction := by
    rw [directionOf_eq, hl, hr, ofArrows_decide]
  simp only [relationshipMaps, relationshipOf, hdetail, Option.map_some, Option.getD_some,
    Option.bind_some]
  exact ⟨hlegible, hname, htypes, hmap, hdirection⟩

end PatternSql
