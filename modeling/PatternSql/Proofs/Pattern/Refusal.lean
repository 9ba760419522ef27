import PatternSql.Proofs.Pattern.Acceptance

/-!
# Which maps are refused, and why

A tree that is not understood has a map that is not, and the failure is that of the first such map.
In a map it is that of the first value without a meaning, and if all values have one, it is a key
that is repeated.

Main results:

* `valueMeaning_eq_error_iff`: why a value has no meaning.
* `PatternSyntax.decides`: the failure of a tree is that of its first map that fails.
* `parsePattern_eq_error`: what can be wrong with a text for a pattern.
-/

namespace PatternSql

/-! ## Values -/

/-- The failure for a numeral beyond the doubles. -/
def Token.hugeNumber (t : Token) : Failure :=
  .input (.syntactic t.start.offset ["finite number literal"] (.hugeNumber t.text))

/-- The failure for a key that occurs earlier in the same map. -/
def Token.repeatedKey (t : Token) : Failure :=
  .input (.syntactic t.start.offset ["unique property key"] (.repeatedKey t.text))

/-- A value has no meaning if it is a numeral beyond the doubles, or has too many digits. -/
theorem valueMeaning_eq_error_iff {t : Token} {f : Failure} :
    valueMeaning t = .error f ↔
      (Literal.ofText? t.text = none ∧ f = .tooManyDigits) ∨
        (t.terminal = .number ∧ (∃ name, Literal.ofText? t.text = some (.identifier name)) ∧
          f = t.hugeNumber) := by
  unfold valueMeaning
  cases Literal.ofText? t.text with
  | none => simp [eq_comm]
  | some literal =>
    cases literal with
    | identifier name =>
      by_cases hnumber : t.terminal = .number
      · simp [hnumber, Token.hugeNumber, eq_comm]
      · simp [hnumber]
    | _ => simp

/-! ## Maps -/

/-- What is wrong with the first value of a map that has no meaning. -/
def FirstValueFails (es : List EntrySyntax) (f : Failure) : Prop :=
  ∃ before e after, es = before ++ e :: after ∧
    (∀ e ∈ before, ∃ literal, valueMeaning e.value = .ok literal) ∧ valueMeaning e.value = .error f

theorem entriesMeaning_eq_error {es : List EntrySyntax} {f : Failure}
    (h : entriesMeaning es = .error f) : FirstValueFails es f := by
  induction es with
  | nil => cases h
  | cons e es ih =>
    rw [entriesMeaning, bind_eq_error_iff] at h
    obtain herror | ⟨literal, hvalue, h⟩ := h
    · exact ⟨[], e, es, rfl, by simp, herror⟩
    rw [bind_eq_error_iff] at h
    obtain hrest | ⟨rest, -, hpure⟩ := h
    · obtain ⟨before, e', after, rfl, hbefore, herror⟩ := ih hrest
      exact ⟨e :: before, e', after, rfl, List.forall_mem_cons.mpr ⟨⟨literal, hvalue⟩, hbefore⟩,
        herror⟩
    · cases hpure

/-- A key that is found repeated stands behind an entry with the same key. -/
theorem repeatedKey?_eq_some {seen : List String} {es : List EntrySyntax} {key : Token}
    (h : repeatedKey? seen es = some key) :
    ∃ before e after, es = before ++ e :: after ∧ e.key = key ∧
      (key.text ∈ seen ∨ ∃ e ∈ before, e.key.text = key.text) := by
  induction es generalizing seen with
  | nil => cases h
  | cons e es ih =>
    rw [repeatedKey?] at h
    by_cases hseen : e.key.text ∈ seen
    · rw [if_pos hseen] at h
      obtain rfl := Option.some.inj h
      exact ⟨[], e, es, rfl, rfl, .inl hseen⟩
    · rw [if_neg hseen] at h
      obtain ⟨before, e', after, rfl, rfl, hearlier⟩ := ih h
      refine ⟨e :: before, e', after, rfl, rfl, ?_⟩
      rcases hearlier with hmem | ⟨e'', he'', htext⟩
      · rcases List.mem_cons.mp hmem with heq | hmem
        · exact .inr ⟨e, List.mem_cons_self, heq.symm⟩
        · exact .inl hmem
      · exact .inr ⟨e'', List.mem_cons_of_mem _ he'', htext⟩

/-- A map is refused for its first value without a meaning, and else for a key that is repeated. -/
theorem mapMeaning_eq_error {es : List EntrySyntax} {f : Failure} (h : mapMeaning es = .error f) :
    FirstValueFails es f ∨
      ∃ before e after, es = before ++ e :: after ∧ (∃ e' ∈ before, e'.key.text = e.key.text) ∧
        f = e.key.repeatedKey := by
  rw [mapMeaning, bind_eq_error_iff] at h
  obtain h | ⟨properties, -, h⟩ := h
  · exact .inl (entriesMeaning_eq_error h)
  · cases hkey : repeatedKey? [] es with
    | none =>
      rw [hkey] at h
      cases h
    | some key =>
      rw [hkey] at h
      obtain ⟨before, e, after, rfl, rfl, hmem | hearlier⟩ := repeatedKey?_eq_some hkey
      · cases hmem
      · exact .inr ⟨before, e, after, rfl, hearlier, (Except.error.inj h).symm⟩

/-! ## Trees -/

/-- The map of a node, if it has one. -/
def NodeSyntax.maps (n : NodeSyntax) : List (List EntrySyntax) :=
  n.map.toList

/-- The map of a relationship, if it has one. -/
def EdgeSyntax.maps (e : EdgeSyntax) : List (List EntrySyntax) :=
  (e.detail.bind (·.map)).toList

/-- The maps of a tree, in the order of the text. -/
def PatternSyntax.maps : PatternSyntax → List (List EntrySyntax)
  | node n => n.maps
  | next p n => p.maps ++ n.maps
  | step p e n => p.maps ++ (e.maps ++ n.maps)

/-- All of some maps are understood. -/
def AllUnderstood (maps : List (List EntrySyntax)) : Prop :=
  ∀ es ∈ maps, ∃ properties, mapMeaning es = .ok properties

/-- What is wrong with the first of some maps that is not understood. -/
def FirstMapFails (maps : List (List EntrySyntax)) (f : Failure) : Prop :=
  ∃ before es after, maps = before ++ es :: after ∧ AllUnderstood before ∧ mapMeaning es = .error f

/-- Maps are understood, or the first of them that is not decides. -/
def Decides {α : Type} (maps : List (List EntrySyntax)) : Except Failure α → Prop
  | .ok _ => AllUnderstood maps
  | .error f => FirstMapFails maps f

theorem AllUnderstood.append {as bs : List (List EntrySyntax)} (ha : AllUnderstood as)
    (hb : AllUnderstood bs) : AllUnderstood (as ++ bs) := by
  intro es hes
  rcases List.mem_append.mp hes with h | h
  · exact ha es h
  · exact hb es h

theorem FirstMapFails.append_left {as : List (List EntrySyntax)} {f : Failure}
    (h : FirstMapFails as f) (bs : List (List EntrySyntax)) : FirstMapFails (as ++ bs) f := by
  obtain ⟨before, es, after, rfl, hbefore, herror⟩ := h
  exact ⟨before, es, after ++ bs, by simp, hbefore, herror⟩

theorem FirstMapFails.append_right {as bs : List (List EntrySyntax)} {f : Failure}
    (ha : AllUnderstood as) (h : FirstMapFails bs f) : FirstMapFails (as ++ bs) f := by
  obtain ⟨before, es, after, rfl, hbefore, herror⟩ := h
  exact ⟨as ++ before, es, after, by simp, ha.append hbefore, herror⟩

/-- Parts that are understood one after the other are decided by their maps in this order. -/
theorem Decides.bind {α β : Type} {as bs : List (List EntrySyntax)} {x : Except Failure α}
    {y : α → Except Failure β} (hx : Decides as x) (hy : ∀ a, Decides bs (y a)) :
    Decides (as ++ bs) (x >>= y) := by
  cases x with
  | error f => exact hx.append_left bs
  | ok a =>
    have hrest := hy a
    show Decides (as ++ bs) (y a)
    cases hya : y a with
    | error f =>
      rw [hya] at hrest
      exact hrest.append_right hx
    | ok b =>
      rw [hya] at hrest
      exact hx.append hrest

/-- A part is decided by its maps, whatever is made of it. -/
theorem Decides.pure {α β : Type} {as : List (List EntrySyntax)} {x : Except Failure α} {g : α → β}
    (hx : Decides as x) : Decides as (x >>= fun a => Pure.pure (g a)) := by
  cases x with
  | error f => exact hx
  | ok a => exact hx

theorem decides_map? (map : Option (List EntrySyntax)) : Decides map.toList (mapMeaning? map) := by
  cases map with
  | none => exact fun es hes => absurd hes List.not_mem_nil
  | some es =>
    rw [mapMeaning?]
    cases h : mapMeaning es with
    | error f => exact ⟨[], es, [], rfl, fun es hes => absurd hes List.not_mem_nil, h⟩
    | ok properties =>
      intro es' hes'
      obtain rfl := List.mem_singleton.mp hes'
      exact ⟨properties, h⟩

theorem NodeSyntax.decides (n : NodeSyntax) : Decides n.maps n.meaning :=
  (decides_map? n.map).pure

theorem EdgeSyntax.decides (e : EdgeSyntax) : Decides e.maps e.meaning := by
  have hmap : (e.detail.getD ⟨none, [], none⟩).map = e.detail.bind (·.map) := by
    cases e.detail <;> rfl
  rw [EdgeSyntax.maps, ← hmap]
  exact (decides_map? _).pure

/-- A tree is decided by its maps. -/
theorem PatternSyntax.decides (p : PatternSyntax) : Decides p.maps p.meaning := by
  induction p with
  | node n => exact n.decides.pure
  | next p n ih => exact ih.bind fun p => n.decides.pure
  | step p e n ih => exact ih.bind fun p => e.decides.bind fun e => n.decides.pure

/-! ## Derivations -/

namespace Grammar

theorem nodeSyntax_maps (d : node.Derivation) :
    (nodeSyntax d).maps.map pairsOf = nodeMaps d := by
  obtain ⟨opening, named, labels, map, closing⟩ := d
  cases map with
  | none => rfl
  | some map => exact congrArg (fun m => [m]) (pairsOf_mapSyntax map)

theorem edgeSyntax_maps (d : relationship.Derivation) :
    (edgeSyntax d).maps.map pairsOf = relationshipMaps d := by
  obtain ⟨left, dash, detail, dash', right⟩ := d
  cases detail with
  | none => rfl
  | some detail =>
    obtain ⟨opening, named, types, map, closing⟩ := detail
    cases map with
    | none => rfl
    | some map => exact congrArg (fun m => [m]) (pairsOf_mapSyntax map)

theorem stepsSyntax_maps (p : PatternSyntax) (ds : List (Ebnf.seq relationship node).Derivation) :
    (stepsSyntax p ds).maps.map pairsOf = p.maps.map pairsOf ++ ds.flatMap stepMaps := by
  induction ds generalizing p with
  | nil => simp [stepsSyntax]
  | cons d ds ih =>
    have hcons : stepsSyntax p (d :: ds) =
        stepsSyntax (.step p (edgeSyntax d.1) (nodeSyntax d.2)) ds := rfl
    rw [hcons, ih, PatternSyntax.maps, List.map_append, List.map_append, edgeSyntax_maps,
      nodeSyntax_maps, List.flatMap_cons, List.append_assoc]
    rfl

theorem pathSyntax_maps (l : Lead) (d : path.Derivation) :
    (pathSyntax l d).maps.map pairsOf =
      (l.close (nodeSyntax d.1)).maps.map pairsOf ++ d.2.flatMap stepMaps := by
  obtain ⟨first, steps⟩ := d
  exact stepsSyntax_maps _ steps

/-- The maps of a tree are those of its derivation. -/
theorem patternSyntax_maps (d : pattern.Derivation) :
    (patternSyntax d).maps.map pairsOf = patternMaps d := by
  obtain ⟨first, more⟩ := d
  have hmore (p : PatternSyntax) :
      (more.foldl (fun p d => pathSyntax (.comma p) d.2) p).maps.map pairsOf =
        p.maps.map pairsOf ++ more.flatMap fun d => pathMaps d.2 := by
    induction more generalizing p with
    | nil => simp
    | cons d more ih =>
      have hpath : pathMaps d.2 = nodeMaps d.2.1 ++ d.2.2.flatMap stepMaps := rfl
      rw [List.foldl_cons, ih, pathSyntax_maps, Lead.close, PatternSyntax.maps, List.map_append,
        nodeSyntax_maps, List.flatMap_cons, hpath, List.append_assoc, List.append_assoc,
        List.append_assoc]
  rw [patternSyntax, hmore, pathSyntax_maps, Lead.close, PatternSyntax.maps, nodeSyntax_maps]
  rfl

end Grammar

/-! ## Texts -/

/-- A token of a map for which the map is refused. -/
inductive Failure.FoundAt (t : Token) : Failure → Prop
  /-- A whole number has too many digits. -/
  | digits (value : t.terminal.isName = true ∨ t.terminal.isLiteral = true)
      (none : Literal.ofText? t.text = none) : FoundAt t .tooManyDigits
  /-- A numeral is beyond the doubles. -/
  | huge (number : t.terminal = .number) : FoundAt t t.hugeNumber
  /-- A key is repeated. -/
  | key : FoundAt t t.repeatedKey

/-- A map that is refused is refused for one of its tokens. -/
theorem Grammar.foundAt_of_mapMeaning {ts : List Token} {es : List EntrySyntax} {f : Failure}
    (hentries : ∀ e ∈ pairsOf es, IsEntryIn ts e) (h : mapMeaning es = .error f) :
    ∃ t ∈ ts, f.FoundAt t := by
  have hmem {before after : List EntrySyntax} {e : EntrySyntax} (hes : es = before ++ e :: after) :
      IsEntryIn ts (e.key, e.value) :=
    hentries _ (List.mem_map.mpr ⟨e, by simp [hes], rfl⟩)
  obtain ⟨before, e, after, hes, -, herror⟩ | ⟨before, e, after, hes, -, rfl⟩ :=
    mapMeaning_eq_error h
  · refine ⟨e.value, (hmem hes).value_mem, ?_⟩
    obtain ⟨hnone, rfl⟩ | ⟨hnumber, -, rfl⟩ := valueMeaning_eq_error_iff.mp herror
    · exact .digits (hmem hes).value hnone
    · exact .huge hnumber
  · exact ⟨e.key, (hmem hes).key_mem, .key⟩

/-- A tree that is not understood is refused for one of its tokens. -/
theorem Grammar.foundAt_of_meaning {d : pattern.Derivation} {f : Failure}
    (h : (patternSyntax d).meaning = .error f) :
    FirstMapFails (patternSyntax d).maps f ∧ ∃ t ∈ pattern.tokens d, f.FoundAt t := by
  have hfails : FirstMapFails (patternSyntax d).maps f := by
    have := (patternSyntax d).decides
    rwa [h] at this
  refine ⟨hfails, ?_⟩
  obtain ⟨before, es, after, hmaps, -, herror⟩ := hfails
  refine foundAt_of_mapMeaning (fun e he => isEntryIn_pattern ?_ he) herror
  rw [← patternSyntax_maps, hmaps]
  exact List.mem_map_of_mem (by simp)

/-- What is wrong with tokens that are no pattern: they are no sentence, or the first map that is
    not understood is refused for one of its tokens. -/
theorem parsePattern_eq_error {text : String} {f : Failure} (h : parsePattern text = .error f) :
    (∃ e, readPattern text = .error e ∧ f = .input e) ∨
      ∃ syn, readPattern text = .ok syn ∧ FirstMapFails syn.maps f ∧
        ∃ t ∈ (scan text).tokens, f.FoundAt t := by
  rw [parsePattern, bind_eq_error_iff] at h
  obtain h | ⟨syn, hsyn, h⟩ := h
  · obtain ⟨e, he, rfl⟩ := mapError_eq_error_iff.mp h
    exact .inl ⟨e, he, rfl⟩
  · rw [mapError_eq_ok_iff] at hsyn
    obtain ⟨-, d, hd, rfl⟩ := readPattern_eq_ok_iff.mp hsyn
    obtain ⟨hfails, hfound⟩ := Grammar.foundAt_of_meaning h
    exact .inr ⟨_, hsyn, hfails, hd ▸ hfound⟩

end PatternSql
