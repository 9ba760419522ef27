import PatternSql.Pattern.Reading
import PatternSql.Proofs.Grammar.Rules
import PatternSql.Statement.Reading

/-!
# Reading the sentence of a derivation

A derivation of the grammar says which tree the reader of patterns builds from its sentence. This is
shown rule by rule: a rule is read from the state in which it may begin to the state that knows its
part of the tree. A map is read in the same way wherever it stands, and so is a pattern.

Main results:

* `Grammar.reads_pattern`: from the sentence of a derivation a reader of patterns builds its tree.
-/

namespace PatternSql

/-! ## Reading in steps -/

namespace Reader

variable {σ τ α β : Type}

/-- All of the given tokens fit, and they lead to the given state. -/
def Reads (reader : Reader σ α) (s : σ) (ts : List Token) (s' : σ) : Prop :=
  reader.run s ts = (s', [])

variable {reader : Reader σ α} {s s₁ s' : σ} {t : Token} {ts us : List Token}

theorem Reads.nil : reader.Reads s [] s := rfl

theorem Reads.cons (hs : reader.step s t = some s₁) (h : reader.Reads s₁ ts s') :
    reader.Reads s (t :: ts) s' := by
  rw [Reads, run_cons_of_some hs]
  exact h

theorem Reads.one (hs : reader.step s t = some s') : reader.Reads s [t] s' :=
  .cons hs .nil

theorem Reads.append (h : reader.Reads s ts s₁) (h' : reader.Reads s₁ us s') :
    reader.Reads s (ts ++ us) s' := by
  rw [Reads, run_append h]
  exact h'

/-- A row of parts is read one by one. -/
theorem Reads.flatMap {γ δ : Type} (place : γ → σ) (tokens : δ → List Token) (grow : γ → δ → γ)
    (h : ∀ c d, reader.Reads (place c) (tokens d) (place (grow c d))) (c : γ) (ds : List δ) :
    reader.Reads (place c) (ds.flatMap tokens) (place (ds.foldl grow c)) := by
  induction ds generalizing c with
  | nil => exact .nil
  | cons d ds ih => exact (h c d).append (ih (grow c d))

/-- A row of parts is read into a list, one by one. -/
theorem Reads.collect {γ δ : Type} (place : List γ → σ) (tokens : δ → List Token) (part : δ → γ)
    (h : ∀ cs d, reader.Reads (place cs) (tokens d) (place (cs ++ [part d]))) (cs : List γ)
    (ds : List δ) : reader.Reads (place cs) (ds.flatMap tokens) (place (cs ++ ds.map part)) := by
  induction ds generalizing cs with
  | nil =>
    rw [List.map_nil, List.append_nil]
    exact .nil
  | cons d ds ih =>
    have hds := ih (cs ++ [part d])
    rw [List.append_assoc, List.singleton_append] at hds
    exact (h cs d).append hds

/-- What one reader reads another reads in a context in which its steps are steps of the first. -/
theorem Reads.lift {reader' : Reader τ β} {context : σ → τ}
    (h : reader.Reads s ts s')
    (hstep : ∀ s t s', reader.step s t = some s' →
      reader'.step (context s) t = some (context s')) :
    reader'.Reads (context s) ts (context s') := by
  induction ts generalizing s with
  | nil =>
    obtain rfl : s = s' := (Prod.mk.inj h).1
    exact .nil
  | cons t ts ih =>
    cases hs : reader.step s t with
    | none => simp [Reads, run_cons_of_none hs] at h
    | some s₁ =>
      rw [Reads, run_cons_of_some hs] at h
      exact .cons (hstep _ _ _ hs) (ih h)

end Reader

namespace Grammar

open Ebnf Reader

/-! ## The tree of a derivation -/

/-- The syntax of a property. -/
def entrySyntax : property.Derivation → EntrySyntax
  | (key, _, value) => ⟨key.1, value.1⟩

/-- The syntax of a map. -/
def mapSyntax : properties.Derivation → List EntrySyntax
  | (_, none, _) => []
  | (_, some (d, ds), _) => entrySyntax d :: ds.map fun d => entrySyntax d.2

/-- The syntax of a node. -/
def nodeSyntax : node.Derivation → NodeSyntax
  | (opening, named, labels, map, _) =>
    ⟨opening.1, named.map (·.1), (labels.map labelsOf).getD [], map.map mapSyntax⟩

/-- The syntax of the types of a relationship. -/
def typesSyntax : relationshipTypes.Derivation → List TypeSyntax
  | ((_, d), ds) => ⟨true, d.1⟩ :: ds.map fun d => ⟨d.2.1.isSome, d.2.2.1⟩

/-- The syntax between the brackets of a relationship. -/
def detailSyntax : relationshipDetail.Derivation → DetailSyntax
  | (_, named, types, map, _) =>
    ⟨named.map (·.1), (types.map typesSyntax).getD [], map.map mapSyntax⟩

/-- The syntax of a relationship. -/
def edgeSyntax (d : relationship.Derivation) : EdgeSyntax :=
  ⟨openingOf d, d.1.isSome, d.2.2.1.map detailSyntax, d.2.2.2.2.isSome⟩

/-- The tree of a pattern to which the steps of a path are added. -/
def stepsSyntax (p : PatternSyntax) (ds : List (relationship.Derivation × node.Derivation)) :
    PatternSyntax :=
  ds.foldl (fun p d => .step p (edgeSyntax d.1) (nodeSyntax d.2)) p

/-- The tree of a pattern up to the end of a path, given what the path is read after. -/
def pathSyntax (l : Lead) : path.Derivation → PatternSyntax
  | (d, ds) => stepsSyntax (l.close (nodeSyntax d)) ds

/-- The tree of a pattern. -/
def patternSyntax : pattern.Derivation → PatternSyntax
  | (d, ds) => ds.foldl (fun p d => pathSyntax (.comma p) d.2) (pathSyntax .none d)

/-! ## Tokens by their terminals -/

theorem isName_of_mem (t : name.Derivation) : t.1.terminal.isName = true :=
  isName_iff.mpr t.2

theorem terminal_eq {x : Terminal} (t : (token x).Derivation) : t.1.terminal = x :=
  List.mem_singleton.mp t.2

theorem isName_or_isLiteral (t : value.Derivation) :
    t.1.terminal.isName = true ∨ t.1.terminal.isName = false ∧ t.1.terminal.isLiteral = true := by
  obtain ⟨⟨x, text, start, stop⟩, h⟩ := t
  cases x <;> revert h <;> simp [Terminal.isName, Terminal.isLiteral]

/-! ## Maps -/

/-- The places of a map are states of a reader in some context. -/
def HoldsMap {σ α : Type} (reader : Reader σ α) (context : MapState → σ)
    (closed : List EntrySyntax → σ) : Prop :=
  ∀ m t, reader.step (context m) t = (m.step t).map fun
    | .go m => context m
    | .close es => closed es

section

variable {σ α : Type} {reader : Reader σ α} {context : MapState → σ}
  {closed : List EntrySyntax → σ}

theorem HoldsMap.go (h : HoldsMap reader context closed) {m m' : MapState} {t : Token}
    (hm : m.step t = some (.go m')) : reader.step (context m) t = some (context m') := by
  rw [h, hm]
  rfl

theorem HoldsMap.close (h : HoldsMap reader context closed) {m : MapState} {t : Token}
    {es : List EntrySyntax} (hm : m.step t = some (.close es)) :
    reader.step (context m) t = some (closed es) := by
  rw [h, hm]
  rfl

/-- A property is read from its key on. -/
theorem reads_entry (h : HoldsMap reader context closed) (m : MapState) (es : List EntrySyntax)
    (d : property.Derivation) (hm : m.step d.1.1 = some (.go (.key es d.1.1))) :
    reader.Reads (context m) (property.tokens d)
      (context (.value (es ++ [entrySyntax d]) d.2.2.1.terminal.isName)) := by
  obtain ⟨key, colon, value⟩ := d
  have hcolon : (MapState.key es key.1).step colon.1 = some (.go (.colon es key.1)) := by
    simp [MapState.step, terminal_eq colon]
  refine .cons (h.go hm) (.cons (h.go hcolon) (.one (h.go ?_)))
  · rcases isName_or_isLiteral value with hvalue | ⟨hname, hvalue⟩
    · simp [MapState.step, hvalue, entrySyntax]
    · simp [MapState.step, hname, hvalue, entrySyntax]

/-- Properties after commas are read one by one. -/
theorem reads_entries (h : HoldsMap reader context closed) (es : List EntrySyntax) (named : Bool)
    (ds : List (seq (token .comma) property).Derivation) :
    ∃ named', reader.Reads (context (.value es named))
      (ds.flatMap (seq (token .comma) property).tokens)
      (context (.value (es ++ ds.map fun d => entrySyntax d.2) named')) := by
  induction ds generalizing es named with
  | nil =>
    rw [List.map_nil, List.append_nil]
    exact ⟨named, .nil⟩
  | cons d ds ih =>
    have hcomma : (MapState.value es named).step d.1.1 = some (.go (.comma es)) := by
      simp [MapState.step, terminal_eq d.1]
    have hentry := reads_entry h (.comma es) es d.2 (by
      simp [MapState.step, isName_of_mem d.2.1])
    obtain ⟨named', hds⟩ := ih (es ++ [entrySyntax d.2]) d.2.2.2.1.terminal.isName
    rw [List.append_assoc, List.singleton_append] at hds
    exact ⟨named', (Reads.cons (h.go hcomma) hentry).append hds⟩

/-- A map is read from behind its first brace to its last. -/
theorem reads_map (h : HoldsMap reader context closed) (d : properties.Derivation) :
    reader.Reads (context .opened) ((seq (opt propertyList) (token .rightBrace)).tokens d.2)
      (closed (mapSyntax d)) := by
  obtain ⟨opening, list, closing⟩ := d
  cases list with
  | none =>
    refine .one (h.close ?_)
    simp [MapState.step, terminal_eq closing, mapSyntax]
  | some list =>
    obtain ⟨d, ds⟩ := list
    have hkey := isName_of_mem d.1
    have hbrace : d.1.1.terminal ≠ .rightBrace := by
      intro hbrace
      simp [hbrace, Terminal.isName] at hkey
    have hfirst := reads_entry h .opened [] d (by
      simp [MapState.step, hbrace, hkey])
    obtain ⟨named, hmore⟩ := reads_entries h [entrySyntax d] d.2.2.1.terminal.isName ds
    refine (hfirst.append hmore).append (.one (h.close ?_))
    simp [MapState.step, terminal_eq closing, mapSyntax]

end

/-! ## Nodes -/

/-- The map of a node is read in the node. -/
theorem holdsMap_node (l : Lead) (n : NodeSyntax) :
    HoldsMap patternReader (fun m => .node l n (.map m))
      (fun es => .node l { n with map := some es } .mapped) := by
  intro m t
  simp only [patternReader, PatternState.step, NodeState.step]
  cases m.step t with
  | none => rfl
  | some move => cases move <;> rfl

/-- Places in a node at which the labels, the map or the end may come. -/
def AtPart (s : NodeState) : Prop :=
  ∀ n t, t.terminal.isName = false → s.step n t = NodeState.stepPart n t

theorem atPart_opened : AtPart .opened := by
  intro n t ht
  simp [NodeState.step, ht]

theorem atPart_named : AtPart .named := fun _ _ _ => rfl

theorem atPart_label : AtPart .label := fun _ _ _ => rfl

/-- The end of a node, with its map if there is one. -/
theorem reads_nodeEnd (l : Lead) {s : NodeState} (hs : AtPart s) (n : NodeSyntax)
    (hn : n.map = none) (d : (seq (opt properties) (token .rightParen)).Derivation) :
    patternReader.Reads (.node l n s) ((seq (opt properties) (token .rightParen)).tokens d)
      (.closed (l.close { n with map := d.1.map mapSyntax })) := by
  obtain ⟨map, closing⟩ := d
  cases map with
  | none =>
    have hstep := hs n closing.1 (by simp [terminal_eq closing, Terminal.isName])
    refine .one ?_
    simp only [patternReader, PatternState.step, hstep, NodeState.stepPart, terminal_eq closing]
    simp [← hn]
  | some map =>
    have hstep := hs n map.1.1 (by simp [terminal_eq map.1, Terminal.isName])
    refine .append (.cons ?_ (reads_map (holdsMap_node l n) map)) (.one ?_)
    · simp [patternReader, PatternState.step, hstep, NodeState.stepPart, terminal_eq map.1]
    · simp [patternReader, PatternState.step, NodeState.step, terminal_eq closing]

/-- The labels of a node, if there are any, and what follows them. -/
theorem reads_labels (l : Lead) {s : NodeState} (hs : AtPart s) (n : NodeSyntax)
    (hn : n.labels = [] ∧ n.map = none)
    (d : (seq (opt labelList) <| seq (opt properties) (token .rightParen)).Derivation) :
    patternReader.Reads (.node l n s)
      ((seq (opt labelList) <| seq (opt properties) (token .rightParen)).tokens d)
      (.closed (l.close ⟨n.opening, n.name, (d.1.map labelsOf).getD [],
        d.2.1.map mapSyntax⟩)) := by
  obtain ⟨labels, d⟩ := d
  obtain ⟨opening, named, nlabels, map⟩ := n
  obtain ⟨rfl, rfl⟩ := hn
  cases labels with
  | none => exact reads_nodeEnd l hs _ rfl d
  | some labels =>
    obtain ⟨first, more⟩ := labels
    let place (ts : List Token) : PatternState := .node l ⟨opening, named, ts, none⟩ .label
    have hcolon (s : NodeState) (hs : AtPart s) (n : NodeSyntax) (t : (token .colon).Derivation) :
        patternReader.step (.node l n s) t.1 = some (.node l n .colon) := by
      have hstep := hs n t.1 (by simp [terminal_eq t, Terminal.isName])
      simp [patternReader, PatternState.step, hstep, NodeState.stepPart, terminal_eq t]
    have hlabel (n : NodeSyntax) (t : name.Derivation) :
        patternReader.step (.node l n .colon) t.1 =
          some (.node l { n with labels := n.labels ++ [t.1] } .label) := by
      simp [patternReader, PatternState.step, NodeState.step, isName_of_mem t]
    have hmore := Reads.collect place (seq (token .colon) name).tokens (fun d => d.2.1)
      (fun ts d => .cons (hcolon .label atPart_label _ d.1) (.one (hlabel _ d.2)))
      [first.2.1] more
    have hfirst : patternReader.Reads (.node l ⟨opening, named, [], none⟩ s)
        ((seq (token .colon) name).tokens first) (place [first.2.1]) :=
      .cons (hcolon s hs _ first.1) (.one (hlabel _ first.2))
    exact (hfirst.append hmore).append (reads_nodeEnd l atPart_label _ rfl d)

/-- A node is read from behind its first parenthesis. -/
theorem reads_node (l : Lead) (d : node.Derivation) :
    patternReader.Reads (PatternState.openNode l d.1.1)
      ((seq (opt name) <| seq (opt labelList) <| seq (opt properties) (token .rightParen)).tokens
        d.2) (.closed (l.close (nodeSyntax d))) := by
  obtain ⟨opening, named, d⟩ := d
  cases named with
  | none => exact reads_labels l atPart_opened _ ⟨rfl, rfl⟩ d
  | some t =>
    refine .cons ?_ (reads_labels l atPart_named ⟨opening.1, some t.1, [], none⟩ ⟨rfl, rfl⟩ d)
    simp [patternReader, PatternState.step, NodeState.step, isName_of_mem t, PatternState.openNode]

/-! ## Relationships -/

section

variable (p : PatternSyntax) (e : EdgeSyntax)

/-- The map of a relationship is read between its brackets. -/
theorem holdsMap_detail (d : DetailSyntax) :
    HoldsMap patternReader (fun m => .edge p e (.detail d (.map m)))
      (fun es => .edge p e (.detail { d with map := some es } .mapped)) := by
  intro m t
  simp only [patternReader, PatternState.step, EdgeState.step, DetailState.step]
  cases m.step t with
  | none => rfl
  | some move => cases move <;> rfl

/-- Places between brackets at which the map or the end may come. -/
def AtDetailPart (s : DetailState) : Prop :=
  ∀ d t, t.terminal = .leftBrace ∨ t.terminal = .rightBracket →
    s.step d t = DetailState.stepPart d t

theorem atDetailPart_opened : AtDetailPart .opened := by
  rintro d t (ht | ht) <;> simp [DetailState.step, ht, Terminal.isName]

theorem atDetailPart_named : AtDetailPart .named := by
  rintro d t (ht | ht) <;> simp [DetailState.step, ht]

theorem atDetailPart_type : AtDetailPart .type := by
  rintro d t (ht | ht) <;> simp [DetailState.step, ht]

/-- The end of what stands between brackets, with its map if there is one. -/
theorem reads_detailEnd {s : DetailState} (hs : AtDetailPart s) (c : DetailSyntax)
    (hc : c.map = none) (d : (seq (opt properties) (token .rightBracket)).Derivation) :
    patternReader.Reads (.edge p e (.detail c s))
      ((seq (opt properties) (token .rightBracket)).tokens d)
      (.edge p { e with detail := some { c with map := d.1.map mapSyntax } } .detailed) := by
  obtain ⟨map, closing⟩ := d
  cases map with
  | none =>
    have hstep := hs c closing.1 (.inr (terminal_eq closing))
    refine .one ?_
    simp only [patternReader, PatternState.step, EdgeState.step, hstep, DetailState.stepPart,
      terminal_eq closing]
    simp [← hc]
  | some map =>
    have hstep := hs c map.1.1 (.inl (terminal_eq map.1))
    refine .append (.cons ?_ (reads_map (holdsMap_detail p e c) map)) (.one ?_)
    · simp [patternReader, PatternState.step, EdgeState.step, hstep, DetailState.stepPart,
        terminal_eq map.1]
    · simp [patternReader, PatternState.step, EdgeState.step, DetailState.step,
        terminal_eq closing]

theorem step_type (c : DetailSyntax) (t : name.Derivation) :
    patternReader.step (.edge p e (.detail c .colon)) t.1 =
      some (.edge p e (.detail { c with types := c.types ++ [⟨true, t.1⟩] } .type)) := by
  simp [patternReader, PatternState.step, EdgeState.step, DetailState.step,
    DetailState.stepType, isName_of_mem t]

/-- A further type is read from its bar on, with a colon or without. -/
theorem reads_type (c : DetailSyntax)
    (d : (seq (token .bar) <| seq (opt (token .colon)) name).Derivation) :
    patternReader.Reads (.edge p e (.detail c .type))
      ((seq (token .bar) <| seq (opt (token .colon)) name).tokens d)
      (.edge p e (.detail { c with types := c.types ++ [⟨d.2.1.isSome, d.2.2.1⟩] } .type)) := by
  obtain ⟨bar, colon, t⟩ := d
  have hbar : patternReader.step (.edge p e (.detail c .type)) bar.1 =
      some (.edge p e (.detail c .bar)) := by
    simp [patternReader, PatternState.step, EdgeState.step, DetailState.step, terminal_eq bar]
  refine .cons hbar ?_
  cases colon with
  | none =>
    have hname := isName_of_mem t
    have hne : t.1.terminal ≠ .colon := by
      intro hcolon
      simp [hcolon, Terminal.isName] at hname
    refine .one ?_
    simp [patternReader, PatternState.step, EdgeState.step, DetailState.step,
      DetailState.stepType, hname, hne]
  | some colon =>
    refine .cons ?_ (.one (step_type p e c t))
    simp [patternReader, PatternState.step, EdgeState.step, DetailState.step, terminal_eq colon]

/-- The types of a relationship, if there are any, and what follows them. -/
theorem reads_types {s : DetailState} (hs : AtDetailPart s)
    (hcolon : ∀ c t, t.terminal = .colon → s.step c t = some (.go c .colon)) (c : DetailSyntax)
    (hc : c.types = [] ∧ c.map = none)
    (d : (seq (opt relationshipTypes) <| seq (opt properties) (token .rightBracket)).Derivation) :
    patternReader.Reads (.edge p e (.detail c s))
      ((seq (opt relationshipTypes) <| seq (opt properties) (token .rightBracket)).tokens d)
      (.edge p { e with detail := some ⟨c.name, (d.1.map typesSyntax).getD [],
        d.2.1.map mapSyntax⟩ } .detailed) := by
  obtain ⟨types, d⟩ := d
  obtain ⟨named, ctypes, map⟩ := c
  obtain ⟨rfl, rfl⟩ := hc
  cases types with
  | none => exact reads_detailEnd p e hs _ rfl d
  | some types =>
    obtain ⟨⟨colon, first⟩, more⟩ := types
    let place (ts : List TypeSyntax) : PatternState :=
      .edge p e (.detail ⟨named, ts, none⟩ .type)
    have hmore := Reads.collect place _ _ (fun ts d => reads_type p e ⟨named, ts, none⟩ d)
      [⟨true, first.1⟩] more
    have hfirst : patternReader.Reads (.edge p e (.detail ⟨named, [], none⟩ s))
        ((seq (token .colon) name).tokens (colon, first)) (place [⟨true, first.1⟩]) := by
      refine .cons ?_ (.one (step_type p e ⟨named, [], none⟩ first))
      simp [patternReader, PatternState.step, EdgeState.step, hcolon _ _ (terminal_eq colon)]
    exact (hfirst.append hmore).append (reads_detailEnd p e atDetailPart_type _ rfl d)

/-- What stands between brackets, and the brackets. -/
theorem reads_detail (d : relationshipDetail.Derivation) :
    patternReader.Reads (.edge p e .dashed) (relationshipDetail.tokens d)
      (.edge p { e with detail := some (detailSyntax d) } .detailed) := by
  obtain ⟨opening, named, d⟩ := d
  have hopen : patternReader.step (.edge p e .dashed) opening.1 =
      some (.edge p e (.detail ⟨none, [], none⟩ .opened)) := by
    simp [patternReader, PatternState.step, EdgeState.step, terminal_eq opening]
  refine .cons hopen ?_
  cases named with
  | none =>
    refine reads_types p e atDetailPart_opened ?_ _ ⟨rfl, rfl⟩ d
    intro c t ht
    simp [DetailState.step, ht, Terminal.isName]
  | some t =>
    refine .cons ?_ (reads_types p e atDetailPart_named ?_ ⟨some t.1, [], none⟩ ⟨rfl, rfl⟩ d)
    · simp [patternReader, PatternState.step, EdgeState.step, DetailState.step, isName_of_mem t]
    · intro c t ht
      simp [DetailState.step, ht]

end

/-- The second dash of a relationship and what follows it, up to the parenthesis of a node. -/
theorem reads_relationshipEnd (p : PatternSyntax) (e : EdgeSyntax) {s : EdgeState}
    (hs : s = .dashed ∨ s = .detailed) (he : e.right = false)
    (d : (seq (token .minus) (opt (token .greater))).Derivation) (t : (token .leftParen).Derivation) :
    patternReader.Reads (.edge p e s)
      ((seq (token .minus) (opt (token .greater))).tokens d ++ [t.1])
      (PatternState.openNode (.edge p { e with right := d.2.isSome }) t.1) := by
  obtain ⟨dash, right⟩ := d
  have hdash : patternReader.step (.edge p e s) dash.1 = some (.edge p e .crossed) := by
    rcases hs with rfl | rfl <;>
      simp [patternReader, PatternState.step, EdgeState.step, terminal_eq dash]
  refine .cons hdash ?_
  cases right with
  | none =>
    refine .one ?_
    simp [patternReader, PatternState.step, EdgeState.step, terminal_eq t, ← he]
  | some right =>
    have hright : patternReader.step (.edge p e .crossed) right.1 =
        some (.start (.edge p { e with right := true })) := by
      simp [patternReader, PatternState.step, EdgeState.step, terminal_eq right]
    refine .cons hright (.one ?_)
    simp [patternReader, PatternState.step, terminal_eq t]

/-- A relationship is read up to the parenthesis of its far node. -/
theorem reads_relationship (p : PatternSyntax) (d : relationship.Derivation)
    (t : (token .leftParen).Derivation) :
    patternReader.Reads (.closed p) (relationship.tokens d ++ [t.1])
      (PatternState.openNode (.edge p (edgeSyntax d)) t.1) := by
  obtain ⟨left, dash, detail, ending⟩ := d
  have hbody (e : EdgeSyntax) (he : e.detail = none ∧ e.right = false) :
      patternReader.Reads (.edge p e .dashed)
        ((seq (opt relationshipDetail) <| seq (token .minus) (opt (token .greater))).tokens
          (detail, ending) ++ [t.1])
        (PatternState.openNode (.edge p ⟨e.opening, e.left, detail.map detailSyntax,
          ending.2.isSome⟩) t.1) := by
    obtain ⟨opening, left, edetail, right⟩ := e
    obtain ⟨rfl, rfl⟩ := he
    cases detail with
    | none => exact reads_relationshipEnd p _ (.inl rfl) rfl ending t
    | some detail =>
      rw [tokens, tokens, List.append_assoc]
      exact (reads_detail p _ detail).append (reads_relationshipEnd p _ (.inr rfl) rfl ending t)
  cases left with
  | none =>
    refine .cons ?_ (hbody ⟨dash.1, false, none, false⟩ ⟨rfl, rfl⟩)
    simp [patternReader, PatternState.step, terminal_eq dash]
  | some left =>
    let e : EdgeSyntax := ⟨left.1, true, none, false⟩
    have hleft : patternReader.step (.closed p) left.1 = some (.edge p e .headed) := by
      simp [patternReader, PatternState.step, terminal_eq left, e]
    have hdash : patternReader.step (.edge p e .headed) dash.1 = some (.edge p e .dashed) := by
      simp [patternReader, PatternState.step, EdgeState.step, terminal_eq dash]
    exact .cons hleft (.cons hdash (hbody e ⟨rfl, rfl⟩))

/-! ## Paths and patterns -/

/-- A relationship with its far node is read as a step of the pattern. -/
theorem reads_step (p : PatternSyntax) (d : (seq relationship node).Derivation) :
    patternReader.Reads (.closed p) ((seq relationship node).tokens d)
      (.closed (.step p (edgeSyntax d.1) (nodeSyntax d.2))) := by
  obtain ⟨edge, far⟩ := d
  have hedge := reads_relationship p edge far.1
  have hfar := reads_node (.edge p (edgeSyntax edge)) far
  have := hedge.append hfar
  rwa [List.append_assoc] at this

/-- A path is read behind what it is read after. -/
theorem reads_path (l : Lead) (d : path.Derivation) :
    patternReader.Reads (.start l) (path.tokens d) (.closed (pathSyntax l d)) := by
  obtain ⟨first, steps⟩ := d
  have hopen : patternReader.step (.start l) first.1.1 =
      some (PatternState.openNode l first.1.1) := by
    simp [patternReader, PatternState.step, terminal_eq first.1]
  have hsteps := Reads.flatMap PatternState.closed (seq relationship node).tokens _ reads_step
    (l.close (nodeSyntax first)) steps
  exact (Reads.cons hopen (reads_node l first)).append hsteps

/-- From the sentence of a derivation a reader of patterns builds its tree. -/
theorem reads_pattern (d : pattern.Derivation) :
    patternReader.Reads (.start .none) (pattern.tokens d) (.closed (patternSyntax d)) := by
  obtain ⟨first, more⟩ := d
  have hmore := Reads.flatMap PatternState.closed (seq (token .comma) path).tokens
    (fun p d => pathSyntax (.comma p) d.2) (by
      intro p d
      refine .cons ?_ (reads_path (.comma p) d.2)
      simp [patternReader, PatternState.step, terminal_eq d.1])
    (pathSyntax .none first) more
  exact (reads_path .none first).append hmore

end Grammar

end PatternSql
