import PatternSql.Proofs.Literal.Codec
import PatternSql.Proofs.Literal.Number
import PatternSql.Proofs.Pattern.Refusal

/-!
# What is wrong with a sentence, and where

A sentence of the grammar is refused if one of its maps holds a number that is too great for a
double or repeats a key. The first of these maps decides, in the order of the text. Its fault is
the first number that is too great; and only if there is none it is the first key that repeats an
earlier one, even where the key stands before all numbers. Without such a map the sentence is a
pattern whose maps are what is written.

All this is said of the tokens alone: what a number stands for is a rational number, and the bound
is exact.

Main results:

* `valueMeaning_eq_hugeNumber`, `readable_of_not_overflows`: which values have a meaning.
* `mapMeaning_eq_fault`: the fault of a map is what it is refused for.
* `pattern_faults`: which sentences are refused, and for what.
-/

namespace PatternSql

open Text Grammar

/-! ## Values -/

/-- The text of a token is a numeral that is too great for a double. -/
def Token.Overflows (t : Token) : Prop :=
  ∃ n : Numeral, n.WellFormed ∧ n.Spelled t.text.toList ∧ Double.bound ≤ |n.value|

/-- A token that can be a value and is no whole number of too many digits. -/
structure Token.IsValue (t : Token) : Prop where
  genuine : t.IsGenuine
  terminal : t.terminal.isName = true ∨ t.terminal.isLiteral = true
  short : ¬Literal.IsOverlongWhole t.text.toList

/-- Only a number has a text that is a numeral. -/
theorem Token.IsGenuine.eq_number {t : Token} {n : Numeral} (h : t.IsGenuine)
    (hn : Numeral.ofChars? t.text.toList = some n) : t.terminal = .number := by
  have hlexeme := (lexeme?_numeral hn).symm.trans h
  simpa using congrArg (Option.map Prod.fst) hlexeme.symm

theorem Token.Overflows.eq_number {t : Token} (h : t.Overflows) (ht : t.IsGenuine) :
    t.terminal = .number := by
  obtain ⟨n, hn, htext, -⟩ := h
  exact ht.eq_number (Numeral.ofChars?_of_spelled hn htext)

theorem Token.IsValue.digits {t : Token} {n : Numeral} (h : t.IsValue)
    (hn : Numeral.ofChars? t.text.toList = some n) (hinteger : n.isInteger = true) :
    n.whole.length ≤ digitLimit :=
  Nat.le_of_not_lt fun hlong => h.short (Literal.isOverlongWhole_of_numeral hn hinteger hlong)

/-- Whether a token overflows is said by the one numeral that its text spells. -/
theorem Token.overflows_iff {t : Token} {n : Numeral}
    (hn : Numeral.ofChars? t.text.toList = some n) : t.Overflows ↔ Double.bound ≤ |n.value| := by
  constructor
  · rintro ⟨n', hwell, hspelled, hbound⟩
    obtain rfl : n' = n :=
      Option.some.inj ((Numeral.ofChars?_of_spelled hwell hspelled).symm.trans hn)
    exact hbound
  · intro hbound
    obtain ⟨hwell, hspelled⟩ := Numeral.ofChars?_eq_some_iff_spelled.mp hn
    exact ⟨n, hwell, hspelled, hbound⟩

/-- A number that is too great is read as a name. -/
theorem Token.ofText?_overflows {t : Token} (ht : t.IsValue) (h : t.Overflows) :
    Literal.ofText? t.text = some (.identifier t.text) := by
  obtain ⟨n, hn, htext, hbound⟩ := h
  obtain ⟨literal, hliteral, hmeets⟩ := Literal.ofText?_meets hn htext
    (ht.digits (Numeral.ofChars?_of_spelled hn htext))
  rw [hliteral, hmeets.eq_identifier hbound]

/-- A number that is too great has no meaning as a value. -/
theorem valueMeaning_eq_hugeNumber {t : Token} (ht : t.IsValue) (h : t.Overflows) :
    valueMeaning t = .error t.hugeNumber :=
  valueMeaning_eq_error_iff.mpr
    (.inr ⟨h.eq_number ht.genuine, ⟨_, Token.ofText?_overflows ht h⟩, rfl⟩)

/-- Every other value has a meaning. -/
theorem readable_of_not_overflows {t : Token} (ht : t.IsValue) (h : ¬t.Overflows) : Readable t := by
  refine valueMeaning_isOk ht.genuine ht.terminal fun _ n hn => ⟨ht.digits hn, ?_⟩
  exact Numeral.toDouble_isFinite_iff.mpr
    (not_le.mp fun hbound => h ((t.overflows_iff hn).mpr hbound))

/-- A value with a meaning is not too long. -/
theorem Grammar.Readable.short {t : Token} (h : Readable t) :
    ¬Literal.IsOverlongWhole t.text.toList := by
  obtain ⟨literal, hliteral⟩ := h
  exact fun hlong => nomatch (valueMeaning_spec.mp hliteral).1.symm.trans hlong.ofText?_eq_none

/-- Nor is it too great. -/
theorem Grammar.Readable.not_overflows {t : Token} (h : Readable t) (hgenuine : t.IsGenuine)
    (hterminal : t.terminal.isName = true ∨ t.terminal.isLiteral = true) : ¬t.Overflows := by
  intro hvalue
  have herror := valueMeaning_eq_hugeNumber ⟨hgenuine, hterminal, h.short⟩ hvalue
  obtain ⟨literal, hliteral⟩ := h
  exact nomatch hliteral.symm.trans herror

/-! ## Maps -/

/-- A map cannot be understood: a number is too great, or a key is repeated. -/
def IsFaulty (m : List (Token × Token)) : Prop :=
  (∃ e ∈ m, e.2.Overflows) ∨ ¬(m.map (·.1.text)).Nodup

/-- What a map is refused for. -/
inductive MapFault (m : List (Token × Token)) : Failure → Prop
  /-- The first of its numbers that is too great. -/
  | number {before after : List (Token × Token)} {key value : Token}
      (entries : m = before ++ (key, value) :: after)
      (first : ∀ e ∈ before, ¬e.2.Overflows) (overflows : value.Overflows) :
      MapFault m value.hugeNumber
  /-- No number is too great: the first of its keys that repeats an earlier one. -/
  | key {before after : List (Token × Token)} {key value : Token}
      (entries : m = before ++ (key, value) :: after) (numbers : ∀ e ∈ m, ¬e.2.Overflows)
      (first : (before.map (·.1.text)).Nodup) (repeated : key.text ∈ before.map (·.1.text)) :
      MapFault m key.repeatedKey

/-- What is wrong with the first of some maps that cannot be understood. -/
def FirstFault (maps : List (List (Token × Token))) (f : Failure) : Prop :=
  ∃ before m after, maps = before ++ m :: after ∧ (∀ m ∈ before, ¬IsFaulty m) ∧ MapFault m f

/-- Where some element has a property, one is the first. -/
theorem exists_first {α : Type} {l : List α} {P : α → Prop} (h : ∃ x ∈ l, P x) :
    ∃ before x after, l = before ++ x :: after ∧ (∀ y ∈ before, ¬P y) ∧ P x := by
  classical
  have hfound : (l.find? fun x => decide (P x)).isSome = true := by
    simpa [List.find?_isSome] using h
  obtain ⟨x, hx⟩ := Option.isSome_iff_exists.mp hfound
  obtain ⟨hP, before, after, hl, hbefore⟩ := List.find?_eq_some_iff_append.mp hx
  exact ⟨before, x, after, hl, by simpa using hbefore, by simpa using hP⟩

/-- Where keys are not distinct, one is the first that repeats an earlier one. -/
theorem exists_first_repeated {m : List (Token × Token)} (h : ¬(m.map (·.1.text)).Nodup) :
    ∃ before e after, m = before ++ e :: after ∧ (before.map (·.1.text)).Nodup ∧
      e.1.text ∈ before.map (·.1.text) := by
  induction m using List.reverseRecOn with
  | nil => exact absurd List.nodup_nil h
  | append_singleton m e ih =>
    by_cases hm : (m.map (·.1.text)).Nodup
    · refine ⟨m, e, [], rfl, hm, by_contra fun hnew => h ?_⟩
      rw [List.map_append, List.map_singleton]
      refine List.nodup_append.mpr ⟨hm, by simp, ?_⟩
      rintro text htext last hlast rfl
      exact hnew (List.mem_singleton.mp hlast ▸ htext)
    · obtain ⟨before, e', after, rfl, hnodup, hmem⟩ := ih hm
      exact ⟨before, e', after ++ [e], by simp, hnodup, hmem⟩

/-- A map that cannot be understood has a fault. -/
theorem IsFaulty.exists_fault {m : List (Token × Token)} (h : IsFaulty m) : ∃ f, MapFault m f := by
  by_cases hnumbers : ∃ e ∈ m, e.2.Overflows
  · obtain ⟨before, ⟨key, value⟩, after, hm, hfirst, hvalue⟩ := exists_first hnumbers
    exact ⟨_, .number hm hfirst hvalue⟩
  · obtain ⟨before, ⟨key, value⟩, after, hm, hfirst, hrepeated⟩ :=
      exists_first_repeated (h.resolve_left hnumbers)
    exact ⟨_, .key hm (fun e he hvalue => hnumbers ⟨e, he, hvalue⟩) hfirst hrepeated⟩

theorem exists_firstFault {maps : List (List (Token × Token))} (h : ∃ m ∈ maps, IsFaulty m) :
    ∃ f, FirstFault maps f := by
  obtain ⟨before, m, after, hmaps, hfirst, hm⟩ := exists_first h
  obtain ⟨f, hf⟩ := hm.exists_fault
  exact ⟨f, before, m, after, hmaps, hfirst, hf⟩

/-! ## Understanding maps -/

/-- The first value without a meaning decides. -/
theorem entriesMeaning_of_first {before after : List EntrySyntax} {e : EntrySyntax} {f : Failure}
    (hbefore : ∀ e ∈ pairsOf before, Readable e.2) (he : valueMeaning e.value = .error f) :
    entriesMeaning (before ++ e :: after) = .error f := by
  induction before with
  | nil => exact bind_eq_error_iff.mpr (.inl he)
  | cons b before ih =>
    obtain ⟨⟨literal, hliteral⟩, hrest⟩ := List.forall_mem_cons.mp hbefore
    exact bind_eq_error_iff.mpr (.inr ⟨literal, hliteral, bind_eq_error_iff.mpr (.inl (ih hrest))⟩)

/-- Keys that are new are seen, one after the other. -/
theorem repeatedKey?_append {seen : List String} {before after : List EntrySyntax}
    (hnodup : ((pairsOf before).map (·.1.text)).Nodup)
    (hnew : ∀ e ∈ pairsOf before, e.1.text ∉ seen) :
    repeatedKey? seen (before ++ after) =
      repeatedKey? (((pairsOf before).map (·.1.text)).reverse ++ seen) after := by
  induction before generalizing seen with
  | nil => rfl
  | cons b before ih =>
    obtain ⟨hb, hrest⟩ := List.forall_mem_cons.mp hnew
    have hcons : pairsOf (b :: before) = (b.key, b.value) :: pairsOf before := rfl
    rw [hcons, List.map_cons, List.nodup_cons] at hnodup
    obtain ⟨hkey, hnodup⟩ := hnodup
    rw [List.cons_append, repeatedKey?, if_neg hb, ih hnodup, hcons, List.map_cons,
      List.reverse_cons, List.append_assoc, List.singleton_append]
    intro e he hmem
    rcases List.mem_cons.mp hmem with heq | hmem
    · exact hkey (List.mem_map.mpr ⟨e, he, heq⟩)
    · exact hrest e he hmem

/-- A map is refused for its first value without a meaning, whatever its keys are. -/
theorem mapMeaning_of_first {es : List EntrySyntax} {before after : List (Token × Token)}
    {key value : Token} {f : Failure} (hes : pairsOf es = before ++ (key, value) :: after)
    (hbefore : ∀ e ∈ before, Readable e.2) (hvalue : valueMeaning value = .error f) :
    mapMeaning es = .error f := by
  obtain ⟨before, rest, rfl, rfl, hrest⟩ := List.map_eq_append_iff.mp hes
  obtain ⟨e, after, rfl, he, -⟩ := List.map_eq_cons_iff.mp hrest
  obtain ⟨rfl, rfl⟩ := Prod.mk.inj he
  exact bind_eq_error_iff.mpr (.inl (entriesMeaning_of_first hbefore hvalue))

/-- The fault of a map is what it is refused for. -/
theorem mapMeaning_eq_fault {es : List EntrySyntax} (hes : ∀ e ∈ pairsOf es, e.2.IsValue)
    {f : Failure} (h : MapFault (pairsOf es) f) : mapMeaning es = .error f := by
  cases h with
  | number hentries hfirst hvalue =>
    refine mapMeaning_of_first hentries (fun e he => ?_) (valueMeaning_eq_hugeNumber ?_ hvalue)
    · exact readable_of_not_overflows (hes e (hentries ▸ List.mem_append_left _ he)) (hfirst e he)
    · exact hes (_, _) (hentries ▸ List.mem_append_right _ List.mem_cons_self)
  | key hentries hnumbers hfirst hrepeated =>
    have hvalues : entriesMeaning es = .ok (propertiesOf (pairsOf es)) :=
      entriesMeaning_eq_ok_iff.mpr
        ⟨fun e he => readable_of_not_overflows (hes e he) (hnumbers e he), rfl⟩
    obtain ⟨before, rest, rfl, rfl, hrest⟩ := List.map_eq_append_iff.mp hentries
    obtain ⟨e, after, rfl, he, -⟩ := List.map_eq_cons_iff.mp hrest
    obtain ⟨rfl, rfl⟩ := Prod.mk.inj he
    have hkey : repeatedKey? [] (before ++ e :: after) = some e.key := by
      rw [repeatedKey?_append hfirst (by simp), repeatedKey?, if_pos]
      rw [List.append_nil, List.mem_reverse]
      exact hrepeated
    refine bind_eq_error_iff.mpr (.inr ⟨_, hvalues, ?_⟩)
    rw [hkey]
    rfl

/-- A map without a fault is understood. -/
theorem legible_of_not_isFaulty {m : List (Token × Token)} (hm : ∀ e ∈ m, e.2.IsValue)
    (h : ¬IsFaulty m) : Legible m := by
  obtain ⟨hnumbers, hkeys⟩ := not_or.mp h
  exact ⟨not_not.mp hkeys, fun e he =>
    readable_of_not_overflows (hm e he) fun hvalue => hnumbers ⟨e, he, hvalue⟩⟩

/-! ## Trees -/

/-- There is one failure of the first map that is not understood. -/
theorem FirstMapFails.unique {maps : List (List EntrySyntax)} {f f' : Failure}
    (h : FirstMapFails maps f) (h' : FirstMapFails maps f') : f = f' := by
  obtain ⟨before, es, after, rfl, hbefore, herror⟩ := h
  obtain ⟨before', es', after', hmaps, hbefore', herror'⟩ := h'
  induction before generalizing before' with
  | nil =>
    cases before' with
    | nil =>
      obtain ⟨rfl, -⟩ := List.cons.inj hmaps
      exact Except.error.inj (herror.symm.trans herror')
    | cons b before' =>
      obtain ⟨rfl, -⟩ := List.cons.inj hmaps
      obtain ⟨properties, hok⟩ := hbefore' es List.mem_cons_self
      exact nomatch herror.symm.trans hok
  | cons b before ih =>
    cases before' with
    | nil =>
      obtain ⟨rfl, -⟩ := List.cons.inj hmaps
      obtain ⟨properties, hok⟩ := hbefore b List.mem_cons_self
      exact nomatch herror'.symm.trans hok
    | cons b' before' =>
      exact ih (fun es hes => hbefore es (List.mem_cons_of_mem _ hes)) before'
        (List.cons.inj hmaps).2 fun es hes => hbefore' es (List.mem_cons_of_mem _ hes)

/-- The first map that is not understood decides on a tree. -/
theorem PatternSyntax.meaning_of_first {syn : PatternSyntax}
    {before after : List (List (Token × Token))} {m : List (Token × Token)} {f : Failure}
    (hmaps : syn.maps.map pairsOf = before ++ m :: after) (hbefore : ∀ m ∈ before, Legible m)
    (hm : ∀ es, pairsOf es = m → mapMeaning es = .error f) : syn.meaning = .error f := by
  obtain ⟨before, rest, hsplit, rfl, hrest⟩ := List.map_eq_append_iff.mp hmaps
  obtain ⟨es, after, rfl, hes, -⟩ := List.map_eq_cons_iff.mp hrest
  have hfirst : FirstMapFails syn.maps f := by
    refine ⟨before, es, after, hsplit, fun b hb => ?_, hm es hes⟩
    exact ⟨_, mapMeaning_eq_ok_iff.mpr ⟨hbefore _ (List.mem_map_of_mem hb), rfl⟩⟩
  have hdecides := syn.decides
  cases hmeaning : syn.meaning with
  | ok P =>
    rw [hmeaning] at hdecides
    obtain ⟨properties, hok⟩ := hdecides es (by rw [hsplit]; simp)
    exact nomatch (hm es hes).symm.trans hok
  | error f' =>
    rw [hmeaning] at hdecides
    rw [hdecides.unique hfirst]

/-! ## Properties -/

/-- The properties of a node or a relationship, if it has a map. -/
def Element.properties : Element → Option Properties
  | node n => n.properties
  | relationship r => r.properties

/-- The properties of a path, in the order of its elements. -/
def Path.maps (p : Path) : List Properties :=
  p.elements.filterMap Element.properties

/-- The properties of a pattern, in the order of its elements. -/
def Pattern.maps (p : Pattern) : List Properties :=
  p.paths.flatMap Path.maps

/-- Properties are what a map says: the keys are distinct, and in order each entry is the text of a
    key and the literal of the value behind it. -/
structure Transcribes (m : List (Token × Token)) (properties : Properties) : Prop where
  distinct : (properties.map (·.1)).Nodup
  entries : List.Forall₂ (fun e property => property.1 = e.1.text ∧
    Literal.ofText? e.2.text = some property.2) m properties

theorem transcribes_of_legible {m : List (Token × Token)} (h : Legible m) :
    Transcribes m (propertiesOf m) := by
  refine ⟨?_, ?_⟩
  · rw [propertiesOf, List.map_map]
    exact h.1
  · refine List.forall₂_map_right_iff.mpr (List.forall₂_same.mpr fun e he => ⟨rfl, ?_⟩)
    obtain ⟨literal, hliteral⟩ := h.2 e he
    obtain ⟨hreadable, heq⟩ := valueMeaning_eq_ok_iff.mp hliteral
    rw [← heq]
    exact (valueMeaning_spec.mp hliteral).1

namespace Grammar

theorem nodeOf_properties (d : node.Derivation) :
    (Element.node (nodeOf d)).properties.toList = (nodeMaps d).map propertiesOf := by
  obtain ⟨opening, named, labels, map, closing⟩ := d
  cases map <;> rfl

theorem relationshipOf_properties (d : relationship.Derivation) :
    (Element.relationship (relationshipOf d)).properties.toList =
      (relationshipMaps d).map propertiesOf := by
  obtain ⟨left, dash, detail, dash', right⟩ := d
  cases detail with
  | none => rfl
  | some detail =>
    obtain ⟨opening, named, types, map, closing⟩ := detail
    cases map <;> rfl

theorem pathOf_maps (d : path.Derivation) : (pathOf d).maps = (pathMaps d).map propertiesOf := by
  have hcons (e : Element) (es : List Element) :
      (e :: es).filterMap Element.properties =
        e.properties.toList ++ es.filterMap Element.properties := by
    rw [List.filterMap_cons]
    cases e.properties <;> rfl
  obtain ⟨first, steps⟩ := d
  rw [Path.maps, pathOf, Path.elements, hcons, nodeOf_properties, pathMaps, List.map_append]
  congr 1
  induction steps with
  | nil => rfl
  | cons step steps ih =>
    rw [List.map_cons, List.flatMap_cons, List.cons_append, List.cons_append, List.nil_append,
      hcons, hcons, relationshipOf_properties, nodeOf_properties, ih, List.flatMap_cons,
      List.map_append, List.map_append, List.append_assoc]

/-- The properties that a derivation describes are those of its maps. -/
theorem patternOf_maps (d : pattern.Derivation) :
    (patternOf d).maps = (patternMaps d).map propertiesOf := by
  obtain ⟨first, more⟩ := d
  rw [Pattern.maps, patternOf, Pattern.paths, List.flatMap_cons, pathOf_maps, patternMaps,
    List.map_append, List.flatMap_map, List.map_flatMap]
  simp only [pathOf_maps]

end Grammar

/-! ## Texts -/

section

variable {text : String} {p : Cursor} {d : pattern.Derivation}

/-- What stands in the place of a value can be one, unless it is too long. -/
theorem isValue_of_mem (hgenuine : ∀ t ∈ pattern.tokens d, t.IsGenuine) {m : List (Token × Token)}
    (hm : m ∈ patternMaps d) {e : Token × Token} (he : e ∈ m)
    (hshort : ¬Literal.IsOverlongWhole e.2.text.toList) : e.2.IsValue := by
  have hentry := isEntryIn_pattern hm he
  exact ⟨hgenuine _ hentry.value_mem, hentry.value, hshort⟩

theorem isGenuine_of_tokens (hd : pattern.tokens d = (scan text).tokens) :
    ∀ t ∈ pattern.tokens d, t.IsGenuine :=
  fun _ ht => isGenuine_of_mem (hd ▸ ht)

/-- The first map of a sentence that is not understood is what the sentence is refused for. -/
theorem parsePattern_of_first (hstop : (scan text).stop = .finished p)
    (hd : pattern.tokens d = (scan text).tokens) {before after : List (List (Token × Token))}
    {m : List (Token × Token)} {f : Failure} (hmaps : patternMaps d = before ++ m :: after)
    (hbefore : ∀ m ∈ before, Legible m) (hm : ∀ es, pairsOf es = m → mapMeaning es = .error f) :
    parsePattern text = .error f := by
  have hread : readPattern text = .ok (patternSyntax d) :=
    readPattern_eq_ok_iff.mpr ⟨⟨p, hstop⟩, d, hd, rfl⟩
  rw [← patternSyntax_maps] at hmaps
  exact bind_eq_error_iff.mpr (.inr ⟨_, mapError_eq_ok_iff.mpr hread,
    PatternSyntax.meaning_of_first hmaps hbefore hm⟩)

/-- What is wrong with a sentence whose whole numbers are short. If some map is faulty, the sentence
    is refused for the first fault of the first of them, also where one node is asked for. If none
    is, it is a pattern whose properties are what the maps say. -/
theorem pattern_faults (hstop : (scan text).stop = .finished p)
    (hd : pattern.tokens d = (scan text).tokens)
    (hshort : ∀ t ∈ (scan text).tokens, ¬Literal.IsOverlongWhole t.text.toList) :
    ((∃ m ∈ patternMaps d, IsFaulty m) → ∃ f, FirstFault (patternMaps d) f) ∧
      (∀ f, FirstFault (patternMaps d) f →
        parsePattern text = .error f ∧ parseNode text = .error f) ∧
      ((∀ m ∈ patternMaps d, ¬IsFaulty m) →
        ∃ P, parsePattern text = .ok P ∧ List.Forall₂ Transcribes (patternMaps d) P.maps) := by
  have hvalues : ∀ m ∈ patternMaps d, ∀ e ∈ m, e.2.IsValue :=
    fun m hm e he => isValue_of_mem (isGenuine_of_tokens hd) hm he
      (hshort _ (hd ▸ (isEntryIn_pattern hm he).value_mem))
  refine ⟨exists_firstFault, fun f hf => ?_, fun hfaultless => ?_⟩
  · obtain ⟨before, m, after, hmaps, hbefore, hfault⟩ := hf
    have herror : parsePattern text = .error f := by
      refine parsePattern_of_first hstop hd hmaps (fun m hm => ?_) fun es hes => ?_
      · exact legible_of_not_isFaulty (hvalues m (hmaps ▸ List.mem_append_left _ hm)) (hbefore m hm)
      · refine mapMeaning_eq_fault (fun e he => hvalues m ?_ e (hes ▸ he)) (hes ▸ hfault)
        exact hmaps ▸ List.mem_append_right _ List.mem_cons_self
    exact ⟨herror, bind_eq_error_iff.mpr (.inl herror)⟩
  · have hlegible : ∀ m ∈ patternMaps d, Legible m :=
      fun m hm => legible_of_not_isFaulty (hvalues m hm) (hfaultless m hm)
    refine ⟨_, parsePattern_eq_ok_iff.mpr ⟨⟨p, hstop⟩, d, hd, hlegible, rfl⟩, ?_⟩
    rw [patternOf_maps]
    exact List.forall₂_map_right_iff.mpr
      (List.forall₂_same.mpr fun m hm => transcribes_of_legible (hlegible m hm))

end

/-- The derivation of `(a {k: 1, k: 1e999}), (b)`. -/
def faultyDerivation : pattern.Derivation :=
  (((markAt .leftParen "(" 0, some (nameAt "a" 1), none,
    some (markAt .leftBrace "\x7b" 3,
      some ((nameAt "k" 4, markAt .colon ":" 5, valueAt .number "1" 7 (by decide)),
        [(markAt .comma "," 8, nameAt "k" 10, markAt .colon ":" 11,
          valueAt .number "1e999" 13 (by decide))]),
      markAt .rightBrace "\x7d" 18),
    markAt .rightParen ")" 19), []),
    [(markAt .comma "," 20, (markAt .leftParen "(" 22, some (nameAt "b" 23), none, none,
      markAt .rightParen ")" 24), [])])

theorem scan_faultyDerivation :
    (scan "(a \x7bk: 1, k: 1e999\x7d), (b)").stop = .finished ⟨25, 1, 26⟩ ∧
      pattern.tokens faultyDerivation = (scan "(a \x7bk: 1, k: 1e999\x7d), (b)").tokens := by
  decide +kernel

theorem Token.not_overflows_one {t : Token} (h : t.text = "1") : ¬t.Overflows := by
  have hnumeral : Numeral.ofChars? t.text.toList = some ⟨false, ['1'], none, none⟩ := by
    rw [h]
    decide +kernel
  have hmagnitude : (⟨false, ['1'], none, none⟩ : Numeral).magnitude = ⟨1, 0⟩ := by
    decide +kernel
  rw [overflows_iff hnumeral, not_le, Numeral.abs_value, hmagnitude, Decimal.value]
  exact lt_of_lt_of_le (by norm_num) Double.le_bound

theorem Token.overflows_huge {t : Token} (h : t.text = "1e999") : t.Overflows := by
  have hnumeral : Numeral.ofChars? t.text.toList =
      some ⟨false, ['1'], none, some (false, ['9', '9', '9'])⟩ := by
    rw [h]
    decide +kernel
  rw [overflows_iff hnumeral, Numeral.abs_value]
  exact Decimal.bound_le_value (by decide +kernel) (by decide +kernel)

theorem pattern_faults_huge :
    (scan "(a \x7bk: 1, k: 1e999\x7d), (b)").stop = .finished ⟨25, 1, 26⟩ ∧
      parsePattern "(a \x7bk: 1, k: 1e999\x7d), (b)" =
        .error (.input (.syntactic (some 13) ["finite number literal"] (.hugeNumber "1e999"))) ∧
      parseNode "(a \x7bk: 1, k: 1e999\x7d), (b)" =
        .error (.input (.syntactic (some 13) ["finite number literal"] (.hugeNumber "1e999"))) := by
  obtain ⟨hstop, hd⟩ := scan_faultyDerivation
  have hshort : ∀ t ∈ (scan "(a \x7bk: 1, k: 1e999\x7d), (b)").tokens,
      ¬Literal.IsOverlongWhole t.text.toList := by
    intro t ht hlong
    rw [← hd] at ht
    have hall : ∀ t ∈ pattern.tokens faultyDerivation, t.text.toList.length ≤ digitLimit := by
      decide +kernel
    exact absurd hlong.length_lt (Nat.not_lt.mpr (hall t ht))
  have hfault : FirstFault (patternMaps faultyDerivation)
      (Token.hugeNumber ⟨.number, "1e999", ⟨13, 1, 14⟩, 18⟩) := by
    refine ⟨[], _, [], rfl, by simp, .number
      (show _ = [(⟨.identifier, "k", ⟨4, 1, 5⟩, 5⟩, ⟨.number, "1", ⟨7, 1, 8⟩, 8⟩)] ++ _ :: []
        from rfl) (fun e he => ?_) (Token.overflows_huge rfl)⟩
    obtain rfl := List.mem_singleton.mp he
    exact Token.not_overflows_one rfl
  exact ⟨hstop, (pattern_faults hstop hd hshort).2.1 _ hfault⟩

end PatternSql
