import PatternSql.Proofs.Literal.Coercion
import PatternSql.Proofs.Pattern.Derivation

/-!
# Understanding a derivation

The tree of a derivation is understood exactly when its maps are legible, that is when no map repeats
a key and every value has a meaning; and then it is understood as the pattern that the derivation
describes.

Main results:

* `Grammar.patternSyntax_meaning_iff`: when a derivation is understood, and as what.
-/

namespace PatternSql

namespace Grammar

open Ebnf

/-! ## Maps -/

/-- A value has a meaning in its place. -/
def Readable (v : Token) : Prop :=
  ∃ literal, valueMeaning v = .ok literal

/-- The keys and values of a map amount to properties: no key is repeated, and each value has a
    meaning. -/
def Legible (entries : List (Token × Token)) : Prop :=
  (entries.map (·.1.text)).Nodup ∧ ∀ e ∈ entries, Readable e.2

theorem valueMeaning_eq_ok_iff {v : Token} {literal : Literal} :
    valueMeaning v = .ok literal ↔ Readable v ∧ literal = literalOf v := by
  constructor
  · intro h
    refine ⟨⟨literal, h⟩, ?_⟩
    rw [literalOf, (valueMeaning_spec.mp h).1, Option.getD_some]
  · rintro ⟨⟨found, hfound⟩, rfl⟩
    rw [literalOf, (valueMeaning_spec.mp hfound).1, Option.getD_some]
    exact hfound

/-- The keys and values of entries. -/
def pairsOf (es : List EntrySyntax) : List (Token × Token) :=
  es.map fun e => (e.key, e.value)

theorem entriesMeaning_eq_ok_iff {es : List EntrySyntax} {properties : Properties} :
    entriesMeaning es = .ok properties ↔
      (∀ e ∈ pairsOf es, Readable e.2) ∧ properties = propertiesOf (pairsOf es) := by
  induction es generalizing properties with
  | nil => simp [entriesMeaning, pairsOf, propertiesOf, eq_comm]
  | cons e es ih =>
    simp only [entriesMeaning, bind_eq_ok_iff, pure_eq_ok_iff, valueMeaning_eq_ok_iff, ih]
    simp only [pairsOf, List.map_cons, List.forall_mem_cons, propertiesOf]
    constructor
    · rintro ⟨_, ⟨hvalue, rfl⟩, _, ⟨hrest, rfl⟩, rfl⟩
      exact ⟨⟨hvalue, hrest⟩, rfl⟩
    · rintro ⟨⟨hvalue, hrest⟩, rfl⟩
      exact ⟨_, ⟨hvalue, rfl⟩, _, ⟨hrest, rfl⟩, rfl⟩

theorem repeatedKey?_eq_none_iff {seen : List String} {es : List EntrySyntax} :
    repeatedKey? seen es = none ↔
      ((pairsOf es).map (·.1.text)).Nodup ∧ ∀ e ∈ pairsOf es, e.1.text ∉ seen := by
  induction es generalizing seen with
  | nil => simp [repeatedKey?, pairsOf]
  | cons e es ih =>
    rw [repeatedKey?]
    by_cases hseen : e.key.text ∈ seen
    · simp [hseen, pairsOf]
    · rw [if_neg hseen, ih]
      have hcons : pairsOf (e :: es) = (e.key, e.value) :: pairsOf es := rfl
      rw [hcons, List.map_cons, List.nodup_cons, List.forall_mem_cons, List.mem_map]
      constructor
      · rintro ⟨hnodup, hnew⟩
        refine ⟨⟨?_, hnodup⟩, hseen, fun f hf hmem => hnew f hf (List.mem_cons_of_mem _ hmem)⟩
        rintro ⟨f, hf, heq⟩
        exact hnew f hf (heq ▸ List.mem_cons_self)
      · rintro ⟨⟨hkey, hnodup⟩, -, hnew⟩
        refine ⟨hnodup, fun f hf hmem => ?_⟩
        rcases List.mem_cons.mp hmem with heq | hmem
        · exact hkey ⟨f, hf, heq⟩
        · exact hnew f hf hmem

theorem mapMeaning_eq_ok_iff {es : List EntrySyntax} {properties : Properties} :
    mapMeaning es = .ok properties ↔
      Legible (pairsOf es) ∧ properties = propertiesOf (pairsOf es) := by
  have hkeys := @repeatedKey?_eq_none_iff [] es
  simp only [List.not_mem_nil, not_false_eq_true, implies_true, and_true] at hkeys
  simp only [mapMeaning, bind_eq_ok_iff, entriesMeaning_eq_ok_iff, Legible, ← hkeys]
  cases repeatedKey? [] es with
  | none => simp [pure_eq_ok_iff]
  | some key => simp [throw, throwThe, MonadExceptOf.throw]

theorem pairsOf_mapSyntax (d : properties.Derivation) : pairsOf (mapSyntax d) = mapOf d := by
  obtain ⟨opening, list, closing⟩ := d
  cases list with
  | none => rfl
  | some list =>
    obtain ⟨d, ds⟩ := list
    simp [mapSyntax, mapOf, entriesOf, pairsOf, entrySyntax, entryOf]

theorem mapMeaning?_eq_ok_iff {map : Option properties.Derivation}
    {properties : Option Properties} :
    mapMeaning? (map.map mapSyntax) = .ok properties ↔
      (∀ m ∈ (map.map mapOf).toList, Legible m) ∧
        properties = map.map fun d => propertiesOf (mapOf d) := by
  cases map with
  | none => simp [mapMeaning?, eq_comm]
  | some d =>
    have h : mapMeaning? (some (mapSyntax d)) = (mapMeaning (mapSyntax d) >>= fun m => pure (some m)) := by
      rw [mapMeaning?]
      cases mapMeaning (mapSyntax d) <;> rfl
    rw [Option.map_some, h, bind_eq_ok_iff]
    simp only [pure_eq_ok_iff, mapMeaning_eq_ok_iff, pairsOf_mapSyntax]
    simp

/-! ## Nodes and relationships -/

theorem nodeSyntax_meaning_iff {d : node.Derivation} {n : Node} :
    (nodeSyntax d).meaning = .ok n ↔ (∀ m ∈ nodeMaps d, Legible m) ∧ n = nodeOf d := by
  obtain ⟨opening, named, labels, map, closing⟩ := d
  have hname : (named.map (·.1)).map (·.text) = named.map (·.1.text) := by
    cases named <;> rfl
  simp only [NodeSyntax.meaning, nodeSyntax, bind_eq_ok_iff, pure_eq_ok_iff, nodeMaps, nodeOf,
    hname]
  constructor
  · rintro ⟨found, hfound, rfl⟩
    obtain ⟨hmaps, rfl⟩ := mapMeaning?_eq_ok_iff.mp hfound
    exact ⟨hmaps, rfl⟩
  · rintro ⟨hmaps, rfl⟩
    exact ⟨_, mapMeaning?_eq_ok_iff.mpr ⟨hmaps, rfl⟩, rfl⟩

theorem typesSyntax_names (d : relationshipTypes.Derivation) :
    (typesSyntax d).map (·.name) = typesOf d := by
  obtain ⟨⟨colon, first⟩, more⟩ := d
  simp [typesSyntax, typesOf]

theorem directionOf_eq (d : relationship.Derivation) :
    directionOf d = .ofArrows d.1.isSome d.2.2.2.2.isSome := by
  obtain ⟨left, dash, detail, dash', right⟩ := d
  cases left <;> cases right <;> rfl

theorem edgeSyntax_meaning_iff {d : relationship.Derivation} {r : Relationship} :
    (edgeSyntax d).meaning = .ok r ↔
      (∀ m ∈ relationshipMaps d, Legible m) ∧ r = relationshipOf d := by
  have hdirection := directionOf_eq d
  obtain ⟨left, dash, detail, dash', right⟩ := d
  cases detail with
  | none =>
    simp [EdgeSyntax.meaning, edgeSyntax, mapMeaning?, relationshipMaps, relationshipOf,
      hdirection, eq_comm]
  | some detail =>
    obtain ⟨opening, named, types, map, closing⟩ := detail
    have htypes : (((types.map typesSyntax).getD []).map fun t => t.name.text) =
        ((types.map typesOf).getD []).map (·.text) := by
      cases types with
      | none => rfl
      | some types =>
        simp only [Option.map_some, Option.getD_some, ← typesSyntax_names, List.map_map]
        rfl
    simp only [EdgeSyntax.meaning, edgeSyntax, Option.map_some, Option.getD_some, detailSyntax,
      bind_eq_ok_iff, pure_eq_ok_iff, relationshipMaps, relationshipOf, Option.bind_some, detailOf,
      hdirection]
    have hmap : (map.map mapOf).map propertiesOf = map.map fun d => propertiesOf (mapOf d) := by
      cases map <;> rfl
    constructor
    · rintro ⟨found, hfound, rfl⟩
      obtain ⟨hmaps, rfl⟩ := mapMeaning?_eq_ok_iff.mp hfound
      refine ⟨hmaps, ?_⟩
      rw [hmap, ← htypes]
    · rintro ⟨hmaps, rfl⟩
      refine ⟨_, mapMeaning?_eq_ok_iff.mpr ⟨hmaps, rfl⟩, ?_⟩
      rw [hmap, ← htypes]

/-! ## Paths and patterns -/

/-- Where each part is understood by itself, a row of parts is understood one by one. -/
theorem foldl_meaning_iff {δ : Type} {grow : PatternSyntax → δ → PatternSyntax}
    {add : Pattern → δ → Pattern} {good : δ → Prop}
    (h : ∀ p d P, (grow p d).meaning = .ok P ↔ ∃ Q, p.meaning = .ok Q ∧ good d ∧ P = add Q d)
    {ds : List δ} {p : PatternSyntax} {P : Pattern} :
    (ds.foldl grow p).meaning = .ok P ↔
      ∃ Q, p.meaning = .ok Q ∧ (∀ d ∈ ds, good d) ∧ P = ds.foldl add Q := by
  induction ds generalizing p with
  | nil => simp [eq_comm]
  | cons d ds ih =>
    simp only [List.foldl_cons, ih, h, List.forall_mem_cons]
    constructor
    · rintro ⟨_, ⟨Q, hQ, hd, rfl⟩, hds, rfl⟩
      exact ⟨Q, hQ, ⟨hd, hds⟩, rfl⟩
    · rintro ⟨Q, hQ, ⟨hd, hds⟩, rfl⟩
      exact ⟨_, ⟨Q, hQ, hd, rfl⟩, hds, rfl⟩

/-- The maps of a step. -/
def stepMaps (d : (seq relationship node).Derivation) : List (List (Token × Token)) :=
  relationshipMaps d.1 ++ nodeMaps d.2

theorem stepsSyntax_meaning_iff {p : PatternSyntax}
    {ds : List (seq relationship node).Derivation} {P : Pattern} :
    (stepsSyntax p ds).meaning = .ok P ↔
      ∃ Q, p.meaning = .ok Q ∧ (∀ d ∈ ds, ∀ m ∈ stepMaps d, Legible m) ∧
        P = ds.foldl (fun Q d => Q.step (relationshipOf d.1) (nodeOf d.2)) Q := by
  refine foldl_meaning_iff fun p d P => ?_
  simp only [PatternSyntax.meaning, bind_eq_ok_iff, pure_eq_ok_iff, edgeSyntax_meaning_iff,
    nodeSyntax_meaning_iff, stepMaps, List.mem_append]
  constructor
  · rintro ⟨Q, hQ, _, ⟨hedge, rfl⟩, _, ⟨hnode, rfl⟩, rfl⟩
    exact ⟨Q, hQ, fun m hm => hm.elim (hedge m) (hnode m), rfl⟩
  · rintro ⟨Q, hQ, hmaps, rfl⟩
    exact ⟨Q, hQ, _, ⟨fun m hm => hmaps m (.inl hm), rfl⟩, _, ⟨fun m hm => hmaps m (.inr hm), rfl⟩,
      rfl⟩

/-- The pattern of given paths, of which the last is given apart. -/
def ofPaths : List Path → Path → Pattern
  | [], last => ⟨last, []⟩
  | first :: more, last => ⟨first, more ++ [last]⟩

theorem extendLast_append (r : Relationship) (n : Node) (first : Path) (more : List Path)
    (last : Path) :
    Pattern.extendLast r n first (more ++ [last]) = (first, more ++ [last.extend r n]) := by
  induction more generalizing first with
  | nil => rfl
  | cons p more ih => simp only [List.cons_append, Pattern.extendLast, ih]

theorem ofPaths_step (done : List Path) (last : Path) (r : Relationship) (n : Node) :
    (ofPaths done last).step r n = ofPaths done (last.extend r n) := by
  cases done with
  | nil => rfl
  | cons first more => simp only [ofPaths, Pattern.step, extendLast_append]

theorem ofPaths_next (done : List Path) (last : Path) (n : Node) :
    (ofPaths done last).next n = ofPaths (done ++ [last]) ⟨n, []⟩ := by
  cases done <;> simp [ofPaths, Pattern.next]

theorem ofPaths_steps (done : List Path) (last : Path)
    (ds : List (seq relationship node).Derivation) :
    ds.foldl (fun Q d => Q.step (relationshipOf d.1) (nodeOf d.2)) (ofPaths done last) =
      ofPaths done ⟨last.first,
        last.steps ++ ds.map fun d => (relationshipOf d.1, nodeOf d.2)⟩ := by
  induction ds generalizing last with
  | nil => simp
  | cons d ds ih => simp [ofPaths_step, ih]

/-- The tree of a path is understood if what it is read after is, and its maps are legible. -/
theorem pathSyntax_meaning_iff {l : Lead} {d : path.Derivation} {P : Pattern} :
    (pathSyntax l d).meaning = .ok P ↔
      ∃ Q, (l.close (nodeSyntax d.1)).meaning = .ok Q ∧
        (∀ e ∈ d.2, ∀ m ∈ stepMaps e, Legible m) ∧
        P = d.2.foldl (fun Q e => Q.step (relationshipOf e.1) (nodeOf e.2)) Q := by
  obtain ⟨first, steps⟩ := d
  exact stepsSyntax_meaning_iff

theorem legible_path_iff {d : path.Derivation} :
    (∀ m ∈ pathMaps d, Legible m) ↔
      (∀ m ∈ nodeMaps d.1, Legible m) ∧ ∀ e ∈ d.2, ∀ m ∈ stepMaps e, Legible m := by
  obtain ⟨first, steps⟩ := d
  simp only [pathMaps, List.mem_append, List.mem_flatMap, stepMaps]
  constructor
  · intro h
    exact ⟨fun m hm => h m (.inl hm), fun e he m hm => h m (.inr ⟨e, he, hm⟩)⟩
  · rintro ⟨hfirst, hsteps⟩ m (hm | ⟨e, he, hm⟩)
    · exact hfirst m hm
    · exact hsteps e he m hm

/-- A further path is understood behind a pattern that is. -/
theorem comma_pathSyntax_meaning_iff {p : PatternSyntax}
    {d : (seq (token .comma) path).Derivation} {P : Pattern} :
    (pathSyntax (.comma p) d.2).meaning = .ok P ↔
      ∃ Q, p.meaning = .ok Q ∧ (∀ m ∈ pathMaps d.2, Legible m) ∧
        P = d.2.2.foldl (fun Q e => Q.step (relationshipOf e.1) (nodeOf e.2))
          (Q.next (nodeOf d.2.1)) := by
  rw [pathSyntax_meaning_iff, legible_path_iff]
  simp only [Lead.close, PatternSyntax.meaning, bind_eq_ok_iff, pure_eq_ok_iff,
    nodeSyntax_meaning_iff]
  constructor
  · rintro ⟨_, ⟨Q, hQ, _, ⟨hnode, rfl⟩, rfl⟩, hsteps, rfl⟩
    exact ⟨Q, hQ, ⟨hnode, hsteps⟩, rfl⟩
  · rintro ⟨Q, hQ, ⟨hnode, hsteps⟩, rfl⟩
    exact ⟨_, ⟨Q, hQ, _, ⟨hnode, rfl⟩, rfl⟩, hsteps, rfl⟩

theorem commaPaths_meaning_iff {p : PatternSyntax}
    {ds : List (seq (token .comma) path).Derivation} {P : Pattern} :
    (ds.foldl (fun p d => pathSyntax (.comma p) d.2) p).meaning = .ok P ↔
      ∃ Q, p.meaning = .ok Q ∧ (∀ d ∈ ds, ∀ m ∈ pathMaps d.2, Legible m) ∧
        P = ds.foldl (fun Q d => d.2.2.foldl
          (fun Q e => Q.step (relationshipOf e.1) (nodeOf e.2)) (Q.next (nodeOf d.2.1))) Q := by
  refine foldl_meaning_iff fun p d P => ?_
  exact comma_pathSyntax_meaning_iff

/-- The paths of a derivation, added one by one, make the pattern that it describes. -/
theorem ofPaths_foldl (done : List Path) (last : Path)
    (ds : List (seq (token .comma) path).Derivation) :
    ∃ done' last', ds.foldl (fun Q d => d.2.2.foldl
        (fun Q e => Q.step (relationshipOf e.1) (nodeOf e.2)) (Q.next (nodeOf d.2.1)))
          (ofPaths done last) = ofPaths done' last' ∧
      done' ++ [last'] = done ++ [last] ++ ds.map fun d => pathOf d.2 := by
  induction ds generalizing done last with
  | nil => exact ⟨done, last, rfl, by simp⟩
  | cons d ds ih =>
    obtain ⟨done', last', heq, hpaths⟩ := ih (done ++ [last]) (pathOf d.2)
    refine ⟨done', last', ?_, ?_⟩
    · rw [List.foldl_cons, ofPaths_next, ofPaths_steps, ← heq]
      rfl
    · rw [hpaths, List.map_cons]
      simp

theorem ofPaths_eq {done : List Path} {last first : Path} {more : List Path}
    (h : done ++ [last] = first :: more) : ofPaths done last = ⟨first, more⟩ := by
  cases done with
  | nil =>
    obtain ⟨rfl, rfl⟩ := List.cons.inj h
    rfl
  | cons p done =>
    obtain ⟨rfl, rfl⟩ := List.cons.inj h
    rfl

/-- The tree of a derivation is understood exactly when its maps are legible, as the pattern that
    the derivation describes. -/
theorem patternSyntax_meaning_iff {d : pattern.Derivation} {P : Pattern} :
    (patternSyntax d).meaning = .ok P ↔
      (∀ m ∈ patternMaps d, Legible m) ∧ P = patternOf d := by
  obtain ⟨first, more⟩ := d
  obtain ⟨done, last, heq, hpaths⟩ := ofPaths_foldl [] (pathOf first) more
  have hfirst (P : Pattern) : (pathSyntax .none first).meaning = .ok P ↔
      (∀ m ∈ pathMaps first, Legible m) ∧ P = ofPaths [] (pathOf first) := by
    rw [pathSyntax_meaning_iff, legible_path_iff]
    simp only [Lead.close, PatternSyntax.meaning, bind_eq_ok_iff, pure_eq_ok_iff,
      nodeSyntax_meaning_iff]
    have hsteps := ofPaths_steps [] ⟨nodeOf first.1, []⟩ first.2
    constructor
    · rintro ⟨_, ⟨_, ⟨hnode, rfl⟩, rfl⟩, hmaps, rfl⟩
      exact ⟨⟨hnode, hmaps⟩, hsteps⟩
    · rintro ⟨⟨hnode, hmaps⟩, rfl⟩
      exact ⟨_, ⟨_, ⟨hnode, rfl⟩, rfl⟩, hmaps, hsteps.symm⟩
  have hwhole : ofPaths done last = patternOf (first, more) := ofPaths_eq hpaths
  refine commaPaths_meaning_iff.trans ?_
  simp only [hfirst, patternMaps, List.mem_append, List.mem_flatMap]
  constructor
  · rintro ⟨_, ⟨hmaps, rfl⟩, hmore, rfl⟩
    refine ⟨?_, heq.trans hwhole⟩
    rintro m (hm | ⟨d, hd, hm⟩)
    · exact hmaps m hm
    · exact hmore d hd m hm
  · rintro ⟨hmaps, rfl⟩
    exact ⟨_, ⟨fun m hm => hmaps m (.inl hm), rfl⟩, fun d hd m hm => hmaps m (.inr ⟨d, hd, hm⟩),
      (heq.trans hwhole).symm⟩

end Grammar

end PatternSql
