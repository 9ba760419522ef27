import PatternSql.Proofs.Pattern.Spacing
import PatternSql.Proofs.Token.Behind

/-!
# The shape of patterns and the places of their elements

A pattern that was read from a text has a path, its nodes and relationships take turns, and each of
them begins at a mark of the text, behind all those in front of it. The marks are tokens of the text
in their order, so the places increase because the tokens do.

Where a pattern is taken for a node, its paths may be given as mere rows of elements of which some
are looked up by their numbers. The shape of patterns is what keeps these numbers in range.

Main results:

* `Alternates.nodes_length`: a row that alternates has one node more than relationships.
* `Pattern.singleNodeOf_elements`: the rows of a pattern are taken for a node within their range.
* `Grammar.opened_pattern`: the elements of a pattern begin with tokens of its text, in their order.
* `pattern_well_formed`: the shape and the places of a pattern, and when it is taken for a node.
-/

namespace PatternSql

open Text

/-! ## Rows of elements -/

/-- Nodes and relationships by turns, from a node to a node. -/
inductive Alternates : List Element → Prop
  /-- One node. -/
  | node (n : Node) : Alternates [.node n]
  /-- A node, and a relationship that leads to more. -/
  | step (n : Node) (r : Relationship) {es : List Element} (h : Alternates es) :
      Alternates (.node n :: .relationship r :: es)

/-- The nodes in a row of elements. -/
def nodesIn (es : List Element) : List Node :=
  es.filterMap fun
    | .node n => some n
    | .relationship _ => none

/-- The relationships in a row of elements. -/
def relationshipsIn (es : List Element) : List Relationship :=
  es.filterMap fun
    | .node _ => none
    | .relationship r => some r

/-- The only node of rows of elements that may be of any shape: several rows are refused at the
    second one, and one row at its first relationship. What is looked up may be out of range; then
    there is no answer. -/
def singleNodeOf (rows : List (List Element)) : Option (Except InputError Node) :=
  if 1 < rows.length then do
    let second ← rows[1]?
    let opening ← second[0]?
    return .error (.unsupported .severalPaths opening.position)
  else do
    let row ← rows[0]?
    if 0 < (relationshipsIn row).length then do
      let r ← (relationshipsIn row)[0]?
      return .error (.unsupported .relationship r.position)
    else do
      let n ← (nodesIn row)[0]?
      return .ok n

/-- A row that alternates has one node more than relationships. -/
theorem Alternates.nodes_length {es : List Element} (h : Alternates es) :
    (nodesIn es).length = (relationshipsIn es).length + 1 := by
  induction h with
  | node n => rfl
  | step n r h ih => exact congrArg Nat.succ ih

theorem Path.alternates (p : Path) : Alternates p.elements := by
  obtain ⟨first, steps⟩ := p
  induction steps generalizing first with
  | nil => exact .node first
  | cons s steps ih => exact .step first s.1 (ih s.2)

theorem Path.nodesIn_elements (p : Path) : nodesIn p.elements = p.nodes := by
  obtain ⟨first, steps⟩ := p
  induction steps generalizing first with
  | nil => rfl
  | cons s steps ih => exact congrArg (first :: ·) (ih s.2)

/-- A pattern is taken for a node as the rows of its elements are. -/
theorem Pattern.singleNodeOf_elements (P : Pattern) :
    singleNodeOf (P.paths.map Path.elements) = some P.singleNode := by
  obtain ⟨⟨first, steps⟩, others⟩ := P
  cases others with
  | cons q others => rfl
  | nil =>
    cases steps with
    | cons s steps => rfl
    | nil => rfl

/-! ## Labels -/

theorem nodup_eraseDups (labels : List String) : labels.eraseDups.Nodup := by
  induction hn : labels.length using Nat.strongRecOn generalizing labels with
  | ind n ih =>
    subst hn
    cases labels with
    | nil => exact .nil
    | cons label labels =>
      have hshort := List.length_filter_le (fun x => !x == label) labels
      rw [List.eraseDups_cons, List.nodup_cons, List.mem_eraseDups, List.mem_filter]
      exact ⟨fun h => by simp at h, ih _ (Nat.lt_succ_of_le hshort) _ rfl⟩

/-! ## Marks of a text -/

theorem mark?_inj {c d : Char} {x : Terminal} (hc : mark? c = some x) (hd : mark? d = some x) :
    c = d := by
  unfold mark? at hc
  split at hc <;> first
    | (obtain rfl := Option.some.inj hc
       unfold mark? at hd
       split at hd <;> first
         | rfl
         | cases hd)
    | cases hc

/-- Marks are no terminals of other rules. -/
theorem rule_ne_of_mark {c : Char} {x : Terminal} (hc : mark? c = some x) :
    ∀ rule ∈ rules, rule.1 ≠ some x := by
  unfold mark? at hc
  split at hc <;> first
    | (obtain rfl := Option.some.inj hc
       decide)
    | cases hc

/-- The token of a mark is that mark. -/
theorem Token.IsGenuine.mark {t : Token} {c : Char} (h : t.IsGenuine)
    (hmark : mark? c = some t.terminal) : t.text = String.singleton c := by
  rw [IsGenuine, lexeme?_eq_or, Option.or_eq_some_iff] at h
  rcases h with h | ⟨-, h⟩
  · obtain ⟨rule, hrule, heq⟩ := Option.map_eq_some_iff.mp h
    exact absurd (Prod.mk.inj heq).1 (rule_ne_of_mark hmark rule (List.mem_of_find?_eq_some hrule))
  · simp only [markOf, Option.bind_eq_some_iff, Option.map_eq_some_iff, Prod.mk.injEq,
      Option.some.injEq] at h
    obtain ⟨d, hd, x, hx, rfl, hlen⟩ := h
    obtain ⟨ds, htext⟩ := List.head?_eq_some_iff.mp hd
    obtain rfl : ds = [] := by
      rw [htext] at hlen
      exact List.eq_nil_of_length_eq_zero (Nat.succ.inj hlen).symm
    rw [← String.toList_inj, htext, mark?_inj hx hmark, String.toList_singleton]

/-- A token of one character stands in a text as that character. -/
theorem Token.StandsIn.getElem? {text : String} {t : Token} {c : Char} (h : t.StandsIn text)
    (hc : t.text = String.singleton c) : text.toList[t.start.offset]? = some c := by
  have hslice := congrArg String.toList h.slice
  rw [PatternSql.slice, String.toList_ofList, h.stop, hc, String.length_singleton,
    Nat.add_sub_cancel_left, String.toList_singleton] at hslice
  have hhead : (text.toList.drop t.start.offset)[0]? = some c := by
    rw [← List.getElem?_take_of_lt Nat.zero_lt_one, hslice]
    rfl
  rwa [List.getElem?_drop, Nat.add_zero] at hhead

/-! ## A text up to a token -/

/-- Up to a token a text is read as by itself. -/
theorem exists_front {text : String} {p : Cursor} (h : (scan text).stop = .finished p)
    {before after : List Token} {t : Token} (htokens : (scan text).tokens = before ++ t :: after) :
    ∃ front back : String, text = front ++ t.text ++ back ∧ front.length = t.start.offset ∧
      (scan front).tokens = before ∧ ∃ q, (scan front).stop = .finished q := by
  obtain ⟨ps, htext, hcut, hps, -⟩ := scan_finished h
  rw [hps] at htokens
  obtain ⟨qs, rest, rfl, hqs, hlast, -, -⟩ := tokensFrom_eq_append htokens
  obtain ⟨gaps, cs, more, rfl, hgaps, hstart, -, hcs, -⟩ := tokensFrom_eq_cons hlast
  rw [← List.append_assoc] at hcut htext
  have hfront : Cut (qs ++ gaps) [] := Cut.left (cut_append_iff.mp hcut).1
  have hscan := scan_of_cut hfront
  refine ⟨String.ofList (charsOf (qs ++ gaps)), String.ofList (charsOf more), ?_, ?_, ?_, ?_⟩
  · rw [← String.toList_inj, htext, hcs]
    simp
  · rw [hstart, String.length_ofList, charsOf_append, ← Cursor.advance_append,
      Cursor.advance_offset]
    exact (Nat.zero_add _).symm
  · rw [hscan, tokensFrom_append, hqs, hgaps, List.append_nil]
  · exact ⟨_, congrArg Scan.stop hscan⟩

/-! ## The tokens that elements begin with -/

/-- The terminals that an element may begin with. -/
def Element.openings : Element → List Terminal
  | node _ => [.leftParen]
  | relationship _ => [.minus, .less]

/-- The marks that an element may begin with. -/
def Element.marks : Element → List Char
  | node _ => ['(']
  | relationship _ => ['-', '<']

/-- An element begins with a token. -/
structure Element.Opens (e : Element) (t : Token) : Prop where
  /-- It is a token that such an element begins with. -/
  terminal : t.terminal ∈ e.openings
  /-- The element begins where the token does. -/
  position : e.position = some t.start.offset

/-- Elements begin with some of the given tokens, in their order. -/
def Opened (es : List Element) (ts : List Token) : Prop :=
  ∃ us, us.Sublist ts ∧ List.Forall₂ Element.Opens es us

namespace Opened

variable {es es' : List Element} {ts ts' : List Token}

theorem nil (ts : List Token) : Opened [] ts :=
  ⟨[], List.nil_sublist ts, .nil⟩

theorem one {e : Element} {t : Token} (h : e.Opens t) (ts : List Token) : Opened [e] (t :: ts) :=
  ⟨[t], (List.nil_sublist ts).cons_cons t, .cons h .nil⟩

theorem append (h : Opened es ts) (h' : Opened es' ts') : Opened (es ++ es') (ts ++ ts') := by
  obtain ⟨us, hus, hes⟩ := h
  obtain ⟨us', hus', hes'⟩ := h'
  exact ⟨us ++ us', hus.append hus', List.rel_append hes hes'⟩

theorem flatMap {δ : Type} {f : δ → List Element} {g : δ → List Token} (ds : List δ)
    (h : ∀ d, Opened (f d) (g d)) : Opened (ds.flatMap f) (ds.flatMap g) := by
  induction ds with
  | nil => exact nil []
  | cons d ds ih => exact (h d).append ih

end Opened

namespace Grammar

open Ebnf

theorem opened_node (d : node.Derivation) : Opened [.node (nodeOf d)] (node.tokens d) := by
  obtain ⟨opening, named, labels, map, closing⟩ := d
  exact .one ⟨opening.2, rfl⟩ _

theorem exists_relationship_tokens (d : relationship.Derivation) :
    ∃ ts, relationship.tokens d = openingOf d :: ts := by
  obtain ⟨left, dash, detail, dash', right⟩ := d
  cases left with
  | none => exact ⟨_, rfl⟩
  | some left => exact ⟨_, rfl⟩

/-- A relationship begins with a minus sign or an arrow head. -/
theorem opens_relationship (d : relationship.Derivation) :
    (Element.relationship (relationshipOf d)).Opens (openingOf d) := by
  refine ⟨?_, rfl⟩
  obtain ⟨left, dash, detail, dash', right⟩ := d
  cases left with
  | none => exact List.mem_cons.mpr (.inl (terminal_eq dash))
  | some left => exact List.mem_cons_of_mem _ left.2

theorem opened_relationship (d : relationship.Derivation) :
    Opened [.relationship (relationshipOf d)] (relationship.tokens d) := by
  obtain ⟨ts, hts⟩ := exists_relationship_tokens d
  rw [hts]
  exact .one (opens_relationship d) ts

theorem opened_path (d : path.Derivation) : Opened (pathOf d).elements (path.tokens d) := by
  obtain ⟨first, steps⟩ := d
  have helements : (pathOf (first, steps)).elements = [.node (nodeOf first)] ++
      steps.flatMap fun d => [.relationship (relationshipOf d.1)] ++ [.node (nodeOf d.2)] := by
    rw [Path.elements, pathOf, List.flatMap_map]
    rfl
  rw [helements]
  exact (opened_node first).append
    (.flatMap steps fun d => (opened_relationship d.1).append (opened_node d.2))

/-- The elements of a pattern begin with tokens of its text, in their order. -/
theorem opened_pattern (d : pattern.Derivation) :
    Opened ((patternOf d).paths.flatMap Path.elements) (pattern.tokens d) := by
  obtain ⟨first, more⟩ := d
  have helements : (patternOf (first, more)).paths.flatMap Path.elements =
      (pathOf first).elements ++ more.flatMap fun d => [] ++ (pathOf d.2).elements := by
    rw [Pattern.paths, patternOf, List.flatMap_cons, List.flatMap_map]
    rfl
  rw [helements]
  exact (opened_path first).append
    (.flatMap more fun d => (Opened.nil [d.1.1]).append (opened_path d.2))

theorem nodup_labels_node (d : node.Derivation) : (nodeOf d).labels.Nodup := by
  obtain ⟨opening, named, labels, map, closing⟩ := d
  exact nodup_eraseDups _

theorem nodup_labels_path (d : path.Derivation) : ∀ n ∈ (pathOf d).nodes, n.labels.Nodup := by
  obtain ⟨first, steps⟩ := d
  intro n hn
  rcases List.mem_cons.mp hn with rfl | hn
  · exact nodup_labels_node first
  · obtain ⟨s, hs, rfl⟩ := List.mem_map.mp hn
    obtain ⟨d, -, rfl⟩ := List.mem_map.mp hs
    exact nodup_labels_node d.2

theorem nodup_labels_pattern (d : pattern.Derivation) :
    ∀ p ∈ (patternOf d).paths, ∀ n ∈ p.nodes, n.labels.Nodup := by
  obtain ⟨first, more⟩ := d
  intro p hp
  rcases List.mem_cons.mp hp with rfl | hp
  · exact nodup_labels_path first
  · obtain ⟨d, -, rfl⟩ := List.mem_map.mp hp
    exact nodup_labels_path d.2

end Grammar

/-! ## What was read from a text -/

/-- An element begins at a mark of the text. -/
structure Element.BeginsAt (text : String) (e : Element) (i : Nat) : Prop where
  /-- It knows the place. -/
  position : e.position = some i
  /-- A mark that such an element begins with stands there. -/
  mark : ∃ c ∈ e.marks, text.toList[i]? = some c

/-- The shape of a pattern and the places of its elements in the text that it was read from. -/
structure Pattern.WellFormed (text : String) (P : Pattern) : Prop where
  /-- There is a path. -/
  nonempty : P.paths ≠ []
  /-- In each path nodes and relationships alternate, from a node to a node. -/
  alternates : ∀ p ∈ P.paths, Alternates p.elements
  /-- Each path has one node more than relationships. -/
  counts : ∀ p ∈ P.paths,
    (nodesIn p.elements).length = (relationshipsIn p.elements).length + 1
  /-- No label of a node is repeated. -/
  labels : ∀ p ∈ P.paths, ∀ n ∈ nodesIn p.elements, n.labels.Nodup
  /-- All elements, in their order, begin at marks of the text, each behind those before it. -/
  placed : ∃ places : List Nat,
    List.Forall₂ (Element.BeginsAt text) (P.paths.flatMap Path.elements) places ∧
      places.Pairwise (· < ·)

/-- What becomes of a text that was read as a pattern and is to be a node. -/
structure Pattern.TakenForNode (text : String) (P : Pattern) : Prop where
  /-- No element is looked up where there is none. -/
  inRange : singleNodeOf (P.paths.map Path.elements) = some P.singleNode
  /-- It is a node if there is one path without relationships: the node of the path. -/
  node : ∀ n, parseNode text = .ok n ↔ ∃ p, P.paths = [p] ∧ p.relationships = [] ∧ p.nodes = [n]
  /-- Several paths are refused where the second one begins, whatever the paths are: behind a comma
      and blanks, and up to the comma the text is the first path. -/
  severalPaths : ∀ p q more, P.paths = p :: q :: more → ∃ front blanks back : String,
    text = front ++ "," ++ blanks ++ "(" ++ back ∧
      (∀ c ∈ blanks.toList, c ∈ [' ', '\t', '\x0c', '\r', '\n']) ∧
      parsePattern front = .ok ⟨p, []⟩ ∧
      q.first.position = some (front ++ "," ++ blanks).length ∧
      parseNode text = .error
        (.input (.unsupported .severalPaths (some (front ++ "," ++ blanks).length)))
  /-- A path with relationships is refused where the first of them begins, and up to there the text
      is the first node. -/
  relationship : ∀ p r more, P.paths = [p] → p.relationships = r :: more →
    ∃ front back : String, text = front ++ back ∧
      (Element.relationship r).BeginsAt text front.length ∧ parseNode front = .ok p.first ∧
      parseNode text = .error (.input (.unsupported .relationship (some front.length)))

section

variable {text : String}

theorem Element.Opens.beginsAt {e : Element} {t : Token} (h : e.Opens t)
    (ht : t ∈ (scan text).tokens) : e.BeginsAt text t.start.offset := by
  have hmark : ∃ c ∈ e.marks, mark? c = some t.terminal := by
    have hterminal := h.terminal
    cases e with
    | node n => exact ⟨'(', List.mem_cons_self, by rw [List.mem_singleton.mp hterminal]; rfl⟩
    | relationship r =>
      rcases List.mem_pair.mp hterminal with hterminal | hterminal
      · exact ⟨'-', List.mem_cons_self, by rw [hterminal]; rfl⟩
      · exact ⟨'<', List.mem_cons_of_mem _ List.mem_cons_self, by rw [hterminal]; rfl⟩
  obtain ⟨c, hc, hmark⟩ := hmark
  exact ⟨h.position, c, hc, (standsIn_of_mem ht).getElem? ((isGenuine_of_mem ht).mark hmark)⟩

/-- The tokens of a text begin one behind the other. -/
theorem starts_increase (text : String) :
    (scan text).tokens.Pairwise fun t u => t.start.offset < u.start.offset := by
  obtain ⟨ps, rest, -, -, htokens, -⟩ := scan_eq text
  have hstops : (scan text).tokens.Pairwise fun t u => t.stop ≤ u.start.offset := by
    rw [htokens]
    exact tokensFrom_pairwise _ _
  refine hstops.imp_of_mem fun {t u} ht _ hle => ?_
  have hstands := standsIn_of_mem ht
  have hne : t.text.length ≠ 0 := fun hlen => hstands.nonempty (String.length_eq_zero_iff.mp hlen)
  have hstop := hstands.stop
  omega

/-- Elements that begin with tokens of a text begin at its marks, one behind the other. -/
theorem Opened.placed {es : List Element} (h : Opened es (scan text).tokens) :
    ∃ places : List Nat, List.Forall₂ (Element.BeginsAt text) es places ∧
      places.Pairwise (· < ·) := by
  obtain ⟨us, hus, hes⟩ := h
  refine ⟨us.map (·.start.offset), ?_, ?_⟩
  · have hmem : List.Forall₂ (fun t e => t ∈ (scan text).tokens ∧ Element.Opens e t) us es :=
      (List.forall₂_and_left _ _).mpr ⟨fun t ht => hus.subset ht, .flip hes⟩
    exact List.forall₂_map_right_iff.mpr (.flip (hmem.imp fun t e h => h.2.beginsAt h.1))
  · exact List.pairwise_map.mpr ((starts_increase text).sublist hus)

/-- What a text is understood as has the shape of its derivation. -/
theorem Pattern.wellFormed {P : Pattern} (h : parsePattern text = .ok P) : P.WellFormed text := by
  obtain ⟨-, d, hd, -, rfl⟩ := parsePattern_eq_ok_iff.mp h
  refine ⟨List.cons_ne_nil _ _, fun p _ => p.alternates, fun p _ => p.alternates.nodes_length,
    fun p hp n hn => ?_, ?_⟩
  · rw [p.nodesIn_elements] at hn
    exact Grammar.nodup_labels_pattern d p hp n hn
  · have hopened := Grammar.opened_pattern d
    rw [hd] at hopened
    exact hopened.placed

theorem parseNode_of_singleNode {P : Pattern} (h : parsePattern text = .ok P) :
    parseNode text = P.singleNode.mapError .input := by
  rw [parseNode, h]
  rfl

/-- A text that is a pattern is a node if there is one path without relationships. -/
theorem parseNode_iff_paths {P : Pattern} (h : parsePattern text = .ok P) (n : Node) :
    parseNode text = .ok n ↔ ∃ p, P.paths = [p] ∧ p.relationships = [] ∧ p.nodes = [n] := by
  rw [parseNode_eq_ok_iff, h, Except.ok.injEq]
  constructor
  · rintro rfl
    exact ⟨⟨n, []⟩, rfl, rfl, rfl⟩
  · rintro ⟨⟨first, steps⟩, hpaths, hrels, hnodes⟩
    obtain rfl : steps = [] := List.map_eq_nil_iff.mp hrels
    obtain rfl : first = n := (List.cons.inj hnodes).1
    obtain ⟨hfirst, hothers⟩ := List.cons.inj hpaths
    rw [Pattern.ofNode, ← hfirst, ← hothers]

/-- What a text up to one of its tokens is understood as, if it ends a path there. -/
theorem parsePattern_front {front : String} {q : Cursor} (hstop : (scan front).stop = .finished q)
    {d : Grammar.path.Derivation} (htokens : (scan front).tokens = Grammar.path.tokens d)
    (hlegible : ∀ m ∈ Grammar.pathMaps d, Grammar.Legible m) :
    parsePattern front = .ok ⟨Grammar.pathOf d, []⟩ := by
  refine parsePattern_eq_ok_iff.mpr ⟨⟨q, hstop⟩, (d, []), ?_, ?_, rfl⟩
  · rw [htokens]
    exact List.append_nil _
  · simpa [Grammar.patternMaps] using hlegible

theorem text_of_mark {x : Terminal} {c : Char} (t : (Ebnf.oneOf [x]).Derivation)
    (ht : t.1 ∈ (scan text).tokens) (hmark : mark? c = some x) : t.1.text = String.singleton c :=
  (isGenuine_of_mem ht).mark (by rw [Grammar.terminal_eq t, hmark])

/-- Several paths are refused where the second one begins. -/
theorem Pattern.refused_at_path {P : Pattern} (h : parsePattern text = .ok P) {p q : Path}
    {more : List Path} (hpaths : P.paths = p :: q :: more) :
    ∃ front blanks back : String, text = front ++ "," ++ blanks ++ "(" ++ back ∧
      All isGap blanks.toList ∧ parsePattern front = .ok ⟨p, []⟩ ∧
      q.first.position = some (front ++ "," ++ blanks).length ∧
      parseNode text = .error
        (.input (.unsupported .severalPaths (some (front ++ "," ++ blanks).length))) := by
  obtain ⟨⟨e, hstop⟩, ⟨first, ds⟩, hd, hlegible, rfl⟩ := parsePattern_eq_ok_iff.mp h
  obtain ⟨rfl, hothers⟩ := List.cons.inj hpaths
  cases ds with
  | nil => cases hothers
  | cons d ds =>
    obtain ⟨comma, ⟨opening, inner⟩, steps⟩ := d
    obtain ⟨rfl, -⟩ := List.cons.inj hothers
    -- the tokens of the first path, the comma, the parenthesis and the rest
    have htokens : (scan text).tokens =
        (Grammar.path.tokens first ++ [comma.1]) ++ opening.1 :: _ :=
      hd.symm.trans (List.append_assoc (Grammar.path.tokens first) [comma.1] _).symm
    obtain ⟨front', back, htext, hlength, hfront', e', hstop'⟩ := exists_front hstop htokens
    obtain ⟨front, blanks, rfl, hblanks, -, hfront, e'', hstop''⟩ := exists_last hstop' hfront'
    have hcomma : comma.1 ∈ (scan text).tokens := by
      rw [htokens]
      exact List.mem_append_left _ (List.mem_append_right _ List.mem_cons_self)
    have hopening : opening.1 ∈ (scan text).tokens := by
      rw [htokens]
      exact List.mem_append_right _ List.mem_cons_self
    replace hcomma : comma.1.text = "," := text_of_mark (c := ',') comma hcomma rfl
    replace hopening : opening.1.text = "(" := text_of_mark (c := '(') opening hopening rfl
    rw [hcomma] at htext hlength
    refine ⟨front, blanks, back, ?_, hblanks, ?_, ?_, ?_⟩
    · rw [htext, hopening]
    · exact parsePattern_front hstop'' hfront fun m hm => hlegible m (List.mem_append_left _ hm)
    · rw [hlength]
      rfl
    · rw [parseNode_of_singleNode h, hlength]
      rfl

/-- A path with relationships is refused where the first of them begins. -/
theorem Pattern.refused_at_relationship {P : Pattern} (h : parsePattern text = .ok P) {p : Path}
    {r : Relationship} {more : List Relationship} (hpaths : P.paths = [p])
    (hrels : p.relationships = r :: more) :
    ∃ front back : String, text = front ++ back ∧
      (Element.relationship r).BeginsAt text front.length ∧ parseNode front = .ok p.first ∧
      parseNode text = .error (.input (.unsupported .relationship (some front.length))) := by
  obtain ⟨⟨e, hstop⟩, ⟨⟨first, steps⟩, ds⟩, hd, hlegible, rfl⟩ := parsePattern_eq_ok_iff.mp h
  obtain ⟨rfl, hothers⟩ := List.cons.inj hpaths
  obtain rfl : ds = [] := List.map_eq_nil_iff.mp hothers
  cases steps with
  | nil => cases hrels
  | cons step steps =>
    obtain ⟨rfl, -⟩ := List.cons.inj hrels
    obtain ⟨ts, hts⟩ := Grammar.exists_relationship_tokens step.1
    have htokens : ∃ us, (scan text).tokens =
        Grammar.node.tokens first ++ Grammar.openingOf step.1 :: us := by
      refine ⟨ts ++ Grammar.node.tokens step.2 ++ steps.flatMap
        (Ebnf.tokens (.seq Grammar.relationship Grammar.node)), ?_⟩
      rw [← hd, ← List.cons_append, ← List.cons_append, ← hts]
      exact List.append_nil _
    obtain ⟨us, htokens⟩ := htokens
    obtain ⟨front, back, htext, hlength, hfront, e', hstop'⟩ := exists_front hstop htokens
    refine ⟨front, (Grammar.openingOf step.1).text ++ back, ?_, ?_, ?_, ?_⟩
    · rw [htext, String.append_assoc]
    · rw [hlength]
      have hopening : Grammar.openingOf step.1 ∈ (scan text).tokens := by
        rw [htokens]
        exact List.mem_append_right _ List.mem_cons_self
      exact (Grammar.opens_relationship step.1).beginsAt hopening
    · refine parseNode_eq_ok_iff.mpr ?_
      refine parsePattern_front (d := (first, [])) hstop' ?_ fun m hm => hlegible m ?_
      · rw [hfront]
        exact (List.append_nil _).symm
      · rw [Grammar.pathMaps, List.flatMap_nil, List.append_nil] at hm
        exact List.mem_append_left _ (List.mem_append_left _ hm)
    · rw [parseNode_of_singleNode h, hlength]
      rfl

/-- A pattern that was read from a text is well formed: it has a path, nodes and relationships
    alternate in each, labels are not repeated, and all elements stand at marks of the text, one
    behind the other. So a text is taken for a node, or refused, without an element being looked up
    where there is none: refused where a second path begins, or else where the first relationship
    does. -/
theorem pattern_well_formed {P : Pattern} (h : parsePattern text = .ok P) :
    P.WellFormed text ∧ P.TakenForNode text := by
  refine ⟨P.wellFormed h, P.singleNodeOf_elements, parseNode_iff_paths h, ?_, ?_⟩
  · intro p q more hpaths
    obtain ⟨front, blanks, back, htext, hblanks, hfront⟩ := P.refused_at_path h hpaths
    exact ⟨front, blanks, back, htext, fun c hc => isGap_iff.mp (hblanks c hc), hfront⟩
  · intro p r more hpaths hrels
    exact P.refused_at_relationship h hpaths hrels

end

/-- The pattern of two paths that `(a:B:C:B)<-[:K]-() ,\n(d)` is. -/
def arrowPattern : Pattern :=
  ⟨⟨⟨"a", ["B", "C"], none, some 0⟩,
    [(⟨none, ["K"], none, .incoming, some 9⟩, ⟨none, [], none, some 16⟩)]⟩,
    [⟨⟨"d", [], none, some 21⟩, []⟩]⟩

theorem pattern_well_formed_arrow :
    parsePattern "(a:B:C:B)<-[:K]-() ,\n(d)" = .ok arrowPattern ∧
      arrowPattern.WellFormed "(a:B:C:B)<-[:K]-() ,\n(d)" ∧
      arrowPattern.TakenForNode "(a:B:C:B)<-[:K]-() ,\n(d)" := by
  have h : parsePattern "(a:B:C:B)<-[:K]-() ,\n(d)" = .ok arrowPattern := by decide +kernel
  exact ⟨h, pattern_well_formed h⟩

end PatternSql
