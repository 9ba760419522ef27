import PatternSql.Proofs.Pattern.Acceptance
import PatternSql.Proofs.Pattern.Printing

/-!
# Patterns round-trip through their texts

A pattern whose names are names and whose values can be spelled is printed as a text that is read as
the pattern built from the same parts: what is lost are the positions and the repetitions of labels.
Every pattern that was read from a text is such a pattern, and there nothing but the positions is
lost.

Main results:

* `Pattern.parsePattern_print`: a printed pattern is read as what it was printed from.
* `pattern_holds`: a pattern that was read from a text can be printed.
* `pattern_round_trip`: both together.
-/

namespace PatternSql

open Text Grammar

/-! ## Positions -/

/-- A node as it is built from its parts: without a position, and each label once. -/
def Node.rebuilt (n : Node) : Node :=
  .build n.name n.labels n.properties

/-- A node without its position. -/
def Node.unplaced (n : Node) : Node :=
  { n with position := none }

/-- A relationship without its position. -/
def Relationship.unplaced (r : Relationship) : Relationship :=
  { r with position := none }

/-- A path of changed nodes, without the positions of relationships. -/
def Path.mapNodes (f : Node → Node) (p : Path) : Path :=
  ⟨f p.first, p.steps.map fun (r, n) => (r.unplaced, f n)⟩

/-- A pattern of changed nodes, without the positions of relationships. -/
def Pattern.mapNodes (f : Node → Node) (p : Pattern) : Pattern :=
  ⟨p.first.mapNodes f, p.others.map (Path.mapNodes f)⟩

/-- A pattern without positions. -/
def Pattern.unplaced (p : Pattern) : Pattern :=
  p.mapNodes Node.unplaced

/-- A pattern whose nodes are built from their parts. -/
def Pattern.rebuilt (p : Pattern) : Pattern :=
  p.mapNodes Node.rebuilt

theorem Path.mapNodes_congr {f g : Node → Node} {p : Path} (hfirst : f p.first = g p.first)
    (hsteps : ∀ s ∈ p.steps, f s.2 = g s.2) : p.mapNodes f = p.mapNodes g := by
  have hmap : p.steps.map (fun (r, n) => (r.unplaced, f n)) =
      p.steps.map fun (r, n) => (r.unplaced, g n) :=
    List.map_congr_left fun s hs => congrArg (s.1.unplaced, ·) (hsteps s hs)
  rw [mapNodes, mapNodes, hfirst, hmap]

theorem Pattern.mapNodes_congr {f g : Node → Node} {p : Pattern}
    (hfirst : p.first.mapNodes f = p.first.mapNodes g)
    (hothers : ∀ path ∈ p.others, path.mapNodes f = path.mapNodes g) :
    p.mapNodes f = p.mapNodes g := by
  rw [mapNodes, mapNodes, hfirst, List.map_congr_left hothers]

/-- A key that is not in a map yet goes to its end. -/
theorem put_of_not_mem {key : String} {value : Literal} {map : Properties}
    (h : key ∉ map.map (·.1)) : Properties.put key value map = map ++ [(key, value)] := by
  induction map with
  | nil => rfl
  | cons entry map ih =>
    obtain ⟨k, v⟩ := entry
    rw [List.map_cons, List.mem_cons, not_or] at h
    rw [Properties.put, if_neg (Ne.symm h.1), ih h.2, List.cons_append]

/-- Entries of different keys are a map as they are. -/
theorem ofEntries_of_nodup {entries : Properties} (h : (entries.map (·.1)).Nodup) :
    Properties.ofEntries entries = entries := by
  have hfold : ∀ done rest : Properties, ((done ++ rest).map (·.1)).Nodup →
      rest.foldl (fun map entry => map.put entry.1 entry.2) done = done ++ rest := by
    intro done rest
    induction rest generalizing done with
    | nil => simp
    | cons entry rest ih =>
      intro hnodup
      have hnew : entry.1 ∉ done.map (·.1) := by
        rw [List.map_append, List.map_cons, List.nodup_append] at hnodup
        exact fun hmem => hnodup.2.2 _ hmem _ List.mem_cons_self rfl
      rw [List.foldl_cons, put_of_not_mem hnew, ih, List.append_assoc, List.singleton_append]
      rwa [List.append_assoc, List.singleton_append]
  exact hfold [] entries h

theorem Node.rebuilt_eq {good : Literal → Prop} {n : Node} (h : n.Holds good) :
    n.rebuilt = ⟨n.name, n.labels.eraseDups, n.properties, none⟩ := by
  have hmap := h.map
  unfold Node.rebuilt Node.build
  cases hproperties : n.properties with
  | none => rfl
  | some entries => rw [Option.map_some, ofEntries_of_nodup (hmap entries hproperties).1]

/-! ## Paths and patterns -/

/-- What the derivation of a step says about the step. -/
def StepTold (s : Relationship × Node) (d : (Ebnf.seq relationship node).Derivation) : Prop :=
  (∀ m ∈ stepMaps d, Legible m) ∧ (relationshipOf d.1).unplaced = s.1.unplaced ∧
    (nodeOf d.2).unplaced = s.2.rebuilt

/-- What the derivation of a path says about the path. -/
def PathTold (p : Path) (d : path.Derivation) : Prop :=
  (∀ m ∈ pathMaps d, Legible m) ∧
    (pathOf d).mapNodes Node.unplaced = p.mapNodes Node.rebuilt

theorem Node.prints_rebuilt {n : Node} (h : n.Holds Literal.ReadsBack) :
    ∃ text, n.print = .ok text ∧
      Prints node (fun _ => True) text.toList
        (fun d => (∀ m ∈ nodeMaps d, Legible m) ∧ (nodeOf d).unplaced = n.rebuilt) ∧
      ∃ cs, text.toList = '(' :: cs := by
  obtain ⟨text, hprint, hprints, hhead⟩ := Node.prints h
  refine ⟨text, hprint, hprints.mono (fun _ h => h) fun d hd => ?_, hhead⟩
  obtain ⟨hlegible, hname, hlabels, hmap⟩ := hd
  refine ⟨hlegible, ?_⟩
  rw [Node.rebuilt_eq h, Node.unplaced, hname, hlabels, hmap]

theorem prints_step {s : Relationship × Node} (hr : s.1.Holds Literal.ReadsBack)
    (hn : s.2.Holds Literal.ReadsBack) :
    ∃ text, (do return (← s.1.print) ++ (← s.2.print)) = Except.ok text ∧
      Prints (.seq relationship node) (fun _ => True) text.toList (StepTold s) := by
  obtain ⟨r, n⟩ := s
  obtain ⟨rtext, hrprint, hrprints⟩ := Relationship.prints hr
  obtain ⟨ntext, hnprint, hnprints, cs, hcs⟩ := Node.prints_rebuilt hn
  refine ⟨rtext ++ ntext, by rw [hrprint, hnprint]; rfl, ?_⟩
  rw [String.toList_append]
  have hwhole := hrprints.seq hnprints fun rest _ => by
    rw [hcs]
    exact ⟨'(', by simp, _, rfl⟩
  refine hwhole.mono (fun _ h => h) fun d hd => ?_
  obtain ⟨⟨hlegible, hname, htypes, hmap, hdirection⟩, hlegible', hnode⟩ := hd
  refine ⟨fun m hm => ?_, ?_, hnode⟩
  · rcases List.mem_append.mp hm with hm | hm
    · exact hlegible m hm
    · exact hlegible' m hm
  · rw [Relationship.unplaced, hname, htypes, hmap, hdirection]
    rfl

/-- A path is printed as what is read as the path. -/
theorem Path.prints {p : Path} (h : p.Holds Literal.ReadsBack) :
    ∃ text, p.print = .ok text ∧ Prints path (fun _ => True) text.toList (PathTold p) ∧
      ∀ rest, Stops isGap (text.toList ++ rest) := by
  obtain ⟨hfirst, hsteps⟩ := h
  obtain ⟨first, hprint, hprints, cs, hcs⟩ := Node.prints_rebuilt hfirst
  obtain ⟨texts, htexts, hall⟩ := mapM_eq_ok
    (f := fun s : Relationship × Node => do return (← s.1.print) ++ (← s.2.print)) fun s hs =>
      prints_step (hsteps s hs).1 (hsteps s hs).2
  refine ⟨first ++ String.join texts, ?_, ?_, ?_⟩
  · rw [Path.print, hprint, htexts]
    rfl
  · have hrow := Prints.many (List.forall₂_map_right_iff.mpr hall) fun _ _ _ _ => trivial
    have hwhole := hprints.seq hrow fun _ _ => trivial
    rw [String.toList_append, String.toList_join, List.flatMap_def]
    refine hwhole.mono (fun _ h => h) fun d hd => ?_
    obtain ⟨⟨hlegible, hnode⟩, htold⟩ := hd
    refine ⟨legible_path_iff.mpr ⟨hlegible, forall_mem_of_forall₂ htold fun _ _ h => h.1⟩, ?_⟩
    have hmap : d.2.map (fun d => ((relationshipOf d.1).unplaced, (nodeOf d.2).unplaced)) =
        p.steps.map fun s => (s.1.unplaced, s.2.rebuilt) :=
      map_eq_of_forall₂ (htold.imp fun s d hd => by rw [hd.2.1, hd.2.2])
    simp only [Path.mapNodes, pathOf, hnode, List.map_map]
    exact congrArg _ hmap
  · intro rest
    rw [String.toList_append, hcs]
    exact stops_cons.mpr (by decide)

/-- A pattern is printed as what is read as the pattern. -/
theorem Pattern.prints {p : Pattern} (h : p.Holds Literal.ReadsBack) :
    ∃ text, p.print = .ok text ∧ Prints pattern (fun _ => True) text.toList
      (fun d => (∀ m ∈ patternMaps d, Legible m) ∧ (patternOf d).unplaced = p.rebuilt) := by
  obtain ⟨texts, htexts, hall⟩ := mapM_eq_ok (f := Path.print) fun path hpath =>
    Path.prints (h path hpath)
  refine ⟨", ".intercalate texts, by rw [Pattern.print, htexts]; rfl, ?_⟩
  obtain ⟨first, texts, hfirst, hothers, rfl⟩ := List.forall₂_cons_left_iff.mp hall
  have hrow := Prints.commas hfirst.1 hothers fun _ => trivial
  refine hrow.mono (fun _ h => h) fun d hd => ?_
  obtain ⟨⟨hlegible, hpath⟩, htold⟩ := hd
  have hmap : d.2.map (fun d => (pathOf d.2).mapNodes Node.unplaced) =
      p.others.map (Path.mapNodes Node.rebuilt) :=
    map_eq_of_forall₂ (htold.imp fun _ _ hd => hd.2)
  constructor
  · intro m hm
    rcases List.mem_append.mp hm with hm | hm
    · exact hlegible m hm
    · obtain ⟨d', hd', hm⟩ := List.mem_flatMap.mp hm
      exact forall_mem_of_forall₂ htold (fun _ _ h => h.1) d' hd' m hm
  · simp only [Pattern.unplaced, Pattern.rebuilt, Pattern.mapNodes, patternOf, hpath, List.map_map]
    exact congrArg _ hmap

/-- A printed pattern is read as the pattern built from the same parts. -/
theorem Pattern.parsePattern_print {p : Pattern} (h : p.Holds Literal.ReadsBack) :
    ∃ text q, p.print = .ok text ∧ parsePattern text = .ok q ∧ q.unplaced = p.rebuilt := by
  obtain ⟨text, hprint, ps, hchars, hcut, hderive⟩ := Pattern.prints h
  obtain ⟨d, hd, hlegible, hsame⟩ := hderive .start
  have hscan := scan_of_cut (hcut [] trivial)
  rw [hchars, String.ofList_toList] at hscan
  refine ⟨text, patternOf d, hprint, parsePattern_eq_ok_iff.mpr ⟨⟨_, by rw [hscan]⟩, d, ?_,
    hlegible, rfl⟩, hsame⟩
  rw [hd, hscan]

/-! ## Patterns that were read -/

/-- The tokens of a derivation were read from a text. -/
def AllGenuine (ts : List Token) : Prop :=
  ∀ t ∈ ts, t.IsGenuine

theorem AllGenuine.mono {ts us : List Token} (h : AllGenuine us) (hts : ∀ t ∈ ts, t ∈ us) :
    AllGenuine ts :=
  fun t ht => h t (hts t ht)

theorem isName_of_derivation {d : name.Derivation} (h : AllGenuine (name.tokens d)) :
    IsName d.1.text :=
  (h d.1 List.mem_cons_self).isName (isName_of_mem d)

/-- A map that was read can be printed. -/
theorem keyed_of_derivation {d : properties.Derivation} (h : AllGenuine (properties.tokens d))
    (hlegible : Legible (mapOf d)) : Keyed Literal.ReadsBack (propertiesOf (mapOf d)) := by
  obtain ⟨hnodup, hreadable⟩ := hlegible
  constructor
  · rw [propertiesOf, List.map_map]
    exact hnodup
  · intro entry hentry
    obtain ⟨e, he, rfl⟩ := List.mem_map.mp hentry
    have hin := isEntryIn_map he
    obtain ⟨literal, hliteral⟩ := hreadable e he
    have hvalue := (valueMeaning_eq_ok_iff.mp hliteral).2
    refine ⟨(h _ hin.key_mem).isName hin.key, ?_⟩
    exact Literal.readsBack_of_meaning (h _ hin.value_mem) hin.value (hvalue ▸ hliteral)

theorem isName_of_labels {d : labelList.Derivation} (h : AllGenuine (labelList.tokens d)) :
    ∀ t ∈ labelsOf d, IsName t.text := by
  obtain ⟨d, ds⟩ := d
  rw [labelsOf, List.forall_mem_cons]
  refine ⟨isName_of_derivation (h.mono fun t ht => ?_), ?_⟩
  · exact List.mem_append_left _ (mem_right ht)
  · intro t ht
    obtain ⟨d', hd', rfl⟩ := List.mem_map.mp ht
    refine isName_of_derivation (h.mono fun t ht => ?_)
    exact List.mem_append_right _ (List.mem_flatMap.mpr ⟨d', hd', mem_right ht⟩)

theorem isName_of_types {d : relationshipTypes.Derivation}
    (h : AllGenuine (relationshipTypes.tokens d)) : ∀ t ∈ typesOf d, IsName t.text := by
  obtain ⟨⟨colon, d⟩, ds⟩ := d
  rw [typesOf, List.forall_mem_cons]
  refine ⟨isName_of_derivation (h.mono fun t ht => mem_left (mem_right ht)), ?_⟩
  intro t ht
  obtain ⟨d', hd', rfl⟩ := List.mem_map.mp ht
  exact isName_of_derivation (h.mono fun t ht => mem_right (mem_many hd' (mem_right (mem_right ht))))

/-- A node that was read can be printed. -/
theorem node_holds {d : node.Derivation} (h : AllGenuine (node.tokens d))
    (hlegible : ∀ m ∈ nodeMaps d, Legible m) : (nodeOf d).Holds Literal.ReadsBack := by
  obtain ⟨opening, named, labels, map, closing⟩ := d
  constructor
  · intro x hx
    cases named with
    | none => simp [nodeOf] at hx
    | some named =>
      obtain rfl : named.1.text = x := by simpa [nodeOf] using hx
      exact isName_of_derivation (h.mono fun t ht => mem_right (mem_left (mem_opt ht)))
  · intro x hx
    rw [nodeOf, List.mem_eraseDups] at hx
    cases labels with
    | none => simp at hx
    | some labels =>
      obtain ⟨t, ht, rfl⟩ := List.mem_map.mp hx
      refine isName_of_labels (h.mono fun t ht => ?_) t ht
      exact mem_right (mem_right (mem_left (mem_opt ht)))
  · intro entries hentries
    cases map with
    | none => simp [nodeOf] at hentries
    | some map =>
      obtain rfl : propertiesOf (mapOf map) = entries := by simpa [nodeOf] using hentries
      refine keyed_of_derivation (h.mono fun t ht => ?_) (hlegible _ (by simp [nodeMaps]))
      exact mem_right (mem_right (mem_right (mem_left (mem_opt ht))))

/-- A relationship that was read can be printed. -/
theorem relationship_holds {d : relationship.Derivation} (h : AllGenuine (relationship.tokens d))
    (hlegible : ∀ m ∈ relationshipMaps d, Legible m) :
    (relationshipOf d).Holds Literal.ReadsBack := by
  obtain ⟨left, dash, detail, dash', right⟩ := d
  cases detail with
  | none => constructor <;> simp [relationshipOf]
  | some detail =>
    have hdetail : AllGenuine (relationshipDetail.tokens detail) :=
      h.mono fun t ht => mem_right (mem_right (mem_left (mem_opt ht)))
    obtain ⟨opening, named, types, map, closing⟩ := detail
    constructor
    · intro x hx
      cases named with
      | none => simp [relationshipOf, detailOf] at hx
      | some named =>
        obtain rfl : named.1.text = x := by simpa [relationshipOf, detailOf] using hx
        exact isName_of_derivation (hdetail.mono fun t ht => mem_right (mem_left (mem_opt ht)))
    · intro x hx
      cases types with
      | none => simp [relationshipOf, detailOf] at hx
      | some types =>
        obtain ⟨t, ht, rfl⟩ : ∃ t ∈ typesOf types, t.text = x := by
          simpa [relationshipOf, detailOf] using hx
        refine isName_of_types (hdetail.mono fun t ht => ?_) t ht
        exact mem_right (mem_right (mem_left (mem_opt ht)))
    · intro entries hentries
      cases map with
      | none => simp [relationshipOf, detailOf] at hentries
      | some map =>
        obtain rfl : propertiesOf (mapOf map) = entries := by
          simpa [relationshipOf, detailOf] using hentries
        refine keyed_of_derivation (hdetail.mono fun t ht => ?_)
          (hlegible _ (by simp [relationshipMaps, detailOf]))
        exact mem_right (mem_right (mem_right (mem_left (mem_opt ht))))

/-- A path that was read can be printed. -/
theorem path_holds {d : path.Derivation} (h : AllGenuine (path.tokens d))
    (hlegible : ∀ m ∈ pathMaps d, Legible m) : (pathOf d).Holds Literal.ReadsBack := by
  obtain ⟨hfirst, hsteps⟩ := legible_path_iff.mp hlegible
  obtain ⟨first, steps⟩ := d
  refine ⟨node_holds (h.mono fun t ht => mem_left ht) hfirst, fun s hs => ?_⟩
  obtain ⟨step, hstep, rfl⟩ := List.mem_map.mp hs
  refine ⟨relationship_holds (h.mono fun t ht => mem_right (mem_many hstep (mem_left ht)))
    fun m hm => hsteps step hstep m (List.mem_append_left _ hm),
    node_holds (h.mono fun t ht => mem_right (mem_many hstep (mem_right ht)))
    fun m hm => hsteps step hstep m (List.mem_append_right _ hm)⟩

/-- A pattern that was read can be printed. -/
theorem pattern_holds {d : pattern.Derivation} (h : AllGenuine (pattern.tokens d))
    (hlegible : ∀ m ∈ patternMaps d, Legible m) : (patternOf d).Holds Literal.ReadsBack := by
  obtain ⟨first, more⟩ := d
  refine List.forall_mem_cons.mpr ⟨path_holds (h.mono fun t ht => mem_left ht)
    fun m hm => hlegible m (List.mem_append_left _ hm), fun p hp => ?_⟩
  obtain ⟨d, hd, rfl⟩ := List.mem_map.mp hp
  exact path_holds (h.mono fun t ht => mem_right (mem_many hd (mem_right ht)))
    fun m hm => hlegible m (List.mem_append_right _ (List.mem_flatMap.mpr ⟨d, hd, hm⟩))

/-- Collapsed labels stay as they are. -/
theorem eraseDups_eraseDups (labels : List String) : labels.eraseDups.eraseDups = labels.eraseDups := by
  induction hn : labels.length using Nat.strongRecOn generalizing labels with
  | ind n ih =>
    subst hn
    cases labels with
    | nil => rfl
    | cons label labels =>
      have hfilter : (labels.filter fun x => !x == label).eraseDups.filter (fun x => !x == label) =
          (labels.filter fun x => !x == label).eraseDups := by
        refine List.filter_eq_self.mpr fun x hx => ?_
        exact (List.mem_filter.mp (List.mem_eraseDups.mp hx)).2
      have hlength : (labels.filter fun x => !x == label).length < (label :: labels).length :=
        Nat.lt_succ_of_le (List.length_filter_le _ _)
      rw [List.eraseDups_cons, List.eraseDups_cons, hfilter, ih _ hlength _ rfl]

/-- A node that was read is built from its parts but for its position. -/
theorem node_rebuilt {d : node.Derivation} (h : AllGenuine (node.tokens d))
    (hlegible : ∀ m ∈ nodeMaps d, Legible m) : (nodeOf d).rebuilt = (nodeOf d).unplaced := by
  rw [Node.rebuilt_eq (node_holds h hlegible)]
  obtain ⟨opening, named, labels, map, closing⟩ := d
  simp only [nodeOf, Node.unplaced, eraseDups_eraseDups]

theorem path_rebuilt {d : path.Derivation} (h : AllGenuine (path.tokens d))
    (hlegible : ∀ m ∈ pathMaps d, Legible m) :
    (pathOf d).mapNodes Node.rebuilt = (pathOf d).mapNodes Node.unplaced := by
  obtain ⟨hfirst, hsteps⟩ := legible_path_iff.mp hlegible
  obtain ⟨first, steps⟩ := d
  refine Path.mapNodes_congr ?_ fun s hs => ?_
  · exact node_rebuilt (h.mono fun t ht => mem_left ht) hfirst
  · obtain ⟨step, hstep, rfl⟩ := List.mem_map.mp hs
    exact node_rebuilt (h.mono fun t ht => mem_right (mem_many hstep (mem_right ht)))
      fun m hm => hsteps step hstep m (List.mem_append_right _ hm)

/-- A pattern that was read is built from its parts but for the positions. -/
theorem pattern_rebuilt {d : pattern.Derivation} (h : AllGenuine (pattern.tokens d))
    (hlegible : ∀ m ∈ patternMaps d, Legible m) :
    (patternOf d).rebuilt = (patternOf d).unplaced := by
  obtain ⟨first, more⟩ := d
  refine Pattern.mapNodes_congr ?_ fun p hp => ?_
  · exact path_rebuilt (h.mono fun t ht => mem_left ht)
      fun m hm => hlegible m (List.mem_append_left _ hm)
  · obtain ⟨d, hd, rfl⟩ := List.mem_map.mp hp
    exact path_rebuilt (h.mono fun t ht => mem_right (mem_many hd (mem_right ht)))
      fun m hm => hlegible m (List.mem_append_right _ (List.mem_flatMap.mpr ⟨d, hd, hm⟩))

/-! ## Round trips -/

/-- Patterns round-trip through their texts. A pattern is printed if its names are names, its keys
    differ and its values are plain, and it is then read as the pattern built from the same parts;
    and what any text is read as is printed and read as the same but for the positions. -/
theorem pattern_round_trip :
    (∀ p : Pattern, p.Holds Literal.IsPlain → ∃ text q, p.print = .ok text ∧
      parsePattern text = .ok q ∧ q.unplaced = p.rebuilt) ∧
    ∀ text p, parsePattern text = .ok p → ∃ printed q, p.print = .ok printed ∧
      parsePattern printed = .ok q ∧ q.unplaced = p.unplaced := by
  refine ⟨fun p hp => ?_, fun text p hp => ?_⟩
  · exact Pattern.parsePattern_print (hp.mono fun _ => Literal.readsBack_of_isPlain)
  · obtain ⟨-, d, hd, hlegible, rfl⟩ := parsePattern_eq_ok_iff.mp hp
    have hgenuine : AllGenuine (pattern.tokens d) := fun t ht => isGenuine_of_mem (hd ▸ ht)
    rw [← pattern_rebuilt hgenuine hlegible]
    exact Pattern.parsePattern_print (pattern_holds hgenuine hlegible)

/-- A pattern with a repeated label, a string that holds a quote, a type that is a keyword, and an
    empty map. -/
def quotedPattern : Pattern :=
  ⟨⟨⟨"a", ["B", "A", "B"], some [("k", .string "it's"), ("n", .integer (-5))], none⟩,
    [(⟨none, ["match"], none, .incoming, none⟩, ⟨none, [], some [], none⟩)]⟩, []⟩

theorem quotedPattern_holds : quotedPattern.Holds Literal.IsPlain := by
  have hname : ∀ x ∈ ["a", "B", "A", "k", "n"], IsName x := by
    intro x hx
    refine isName_iff_lexeme?.mpr ⟨.identifier, rfl, ?_⟩
    revert x
    decide +kernel
  have hmatch : IsName "match" := isName_iff_lexeme?.mpr ⟨.matchWord, rfl, by decide +kernel⟩
  have hlabels : ∀ x ∈ ["B", "A", "B"], x ∈ ["a", "B", "A", "k", "n"] := by decide
  have hfirst : quotedPattern.first.first.Holds Literal.IsPlain := by
    refine ⟨?_, fun x hx => hname x (hlabels x hx), ?_⟩
    · rintro _ ⟨⟩
      exact hname "a" (by decide)
    · rintro _ ⟨⟩
      refine ⟨by decide, List.forall_mem_cons.mpr ⟨⟨hname "k" (by decide), ?_⟩,
        List.forall_mem_singleton.mpr ⟨hname "n" (by decide), ?_⟩⟩⟩
      · show ¬(_ ∧ _)
        decide
      · show _ = _
        decide
  intro path hpath
  obtain rfl := List.mem_singleton.mp hpath
  refine ⟨hfirst, List.forall_mem_singleton.mpr ⟨⟨?_, ?_, ?_⟩, ⟨?_, ?_, ?_⟩⟩⟩
  · rintro _ ⟨⟩
  · exact List.forall_mem_singleton.mpr hmatch
  · rintro _ ⟨⟩
  · rintro _ ⟨⟩
  · exact List.forall_mem_nil _
  · rintro _ ⟨⟩
    exact ⟨List.nodup_nil, List.forall_mem_nil _⟩

theorem pattern_round_trip_quoted :
    quotedPattern.Holds Literal.IsPlain ∧
      ∃ q, quotedPattern.print =
          .ok "(a:B:A:B \x7bk: \"it's\", n: -5\x7d)<-[:match]-( \x7b\x7d)" ∧
        parsePattern "(a:B:A:B \x7bk: \"it's\", n: -5\x7d)<-[:match]-( \x7b\x7d)" = .ok q ∧
        q.unplaced = ⟨⟨⟨"a", ["B", "A"], some [("k", .string "it's"), ("n", .integer (-5))], none⟩,
          [(⟨none, ["match"], none, .incoming, none⟩, ⟨none, [], some [], none⟩)]⟩, []⟩ := by
  obtain ⟨text, q, hprint, hparse, hsame⟩ := pattern_round_trip.1 _ quotedPattern_holds
  have htext : quotedPattern.print =
      .ok "(a:B:A:B \x7bk: \"it's\", n: -5\x7d)<-[:match]-( \x7b\x7d)" := by rfl
  obtain rfl := Except.ok.inj (hprint.symm.trans htext)
  exact ⟨quotedPattern_holds, q, htext, hparse, hsame.trans (by decide +kernel)⟩

end PatternSql
