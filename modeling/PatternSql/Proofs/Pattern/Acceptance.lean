import PatternSql.Proofs.Literal.Coercion
import PatternSql.Proofs.Pattern.Following
import PatternSql.Proofs.Pattern.Understanding

/-!
# Which patterns are accepted, and as what

A text is read as a pattern exactly when its tokens are a sentence of the grammar, and the tree is
that of the one derivation of the sentence. The pattern is then what the derivation describes, as
long as its maps are legible; and they are if no key is repeated and no number is too great or too
long.

Main results:

* `readPattern_eq_ok_iff`, `parsePattern_eq_ok_iff`: what a text is read and understood as.
* `pattern_acceptance`: sentences of bounded numbers are understood as what they describe.
-/

namespace PatternSql

open Grammar

/-! ## Reading -/

/-- A text is read as the tree of a derivation of its tokens. -/
theorem readPattern_eq_ok_iff {text : String} {p : PatternSyntax} :
    readPattern text = .ok p ↔ (∃ q, (scan text).stop = .finished q) ∧
      ∃ d, pattern.tokens d = (scan text).tokens ∧ p = patternSyntax d := by
  rw [readPattern, Reader.read_eq_ok_iff]
  constructor
  · rintro ⟨s, q, hrun, hstop, hresult⟩
    have hderives : Remainder.Derives [pattern] (scan text).tokens :=
      patternReader_follows.accepts_iff.mp ⟨s, p, hrun, hresult⟩
    obtain ⟨d, hd⟩ := Remainder.derives_singleton_iff.mp hderives
    refine ⟨⟨q, hstop⟩, d, hd, ?_⟩
    have hreads := reads_pattern d
    rw [hd, Reader.Reads, hrun, Prod.mk.injEq] at hreads
    rw [hreads.1] at hresult
    exact (Option.some.inj hresult).symm
  · rintro ⟨⟨q, hstop⟩, d, hd, rfl⟩
    exact ⟨_, q, hd ▸ reads_pattern d, hstop, rfl⟩

/-- A text is understood as what the derivation of its tokens describes, if its maps are legible. -/
theorem parsePattern_eq_ok_iff {text : String} {P : Pattern} :
    parsePattern text = .ok P ↔ (∃ q, (scan text).stop = .finished q) ∧
      ∃ d, pattern.tokens d = (scan text).tokens ∧ (∀ m ∈ patternMaps d, Legible m) ∧
        P = patternOf d := by
  simp only [parsePattern, bind_eq_ok_iff, mapError_eq_ok_iff, readPattern_eq_ok_iff]
  constructor
  · rintro ⟨_, ⟨hstop, d, hd, rfl⟩, hmeaning⟩
    exact ⟨hstop, d, hd, patternSyntax_meaning_iff.mp hmeaning⟩
  · rintro ⟨hstop, d, hd, hmeaning⟩
    exact ⟨_, ⟨hstop, d, hd, rfl⟩, patternSyntax_meaning_iff.mpr hmeaning⟩

/-! ## The entries of a sentence -/

namespace Grammar

open Ebnf

/-- The keys and values of a map are of bounded size: no key is repeated, and no number is too great
    or, as a whole number, too long. -/
def Bounded (entries : List (Token × Token)) : Prop :=
  (entries.map (·.1.text)).Nodup ∧ ∀ e ∈ entries, e.2.terminal = .number →
    ∀ n, Numeral.ofChars? e.2.text.toList = some n → n.IsBounded

/-- A key and a value that stand in a row of tokens. -/
structure IsEntryIn (ts : List Token) (entry : Token × Token) : Prop where
  key_mem : entry.1 ∈ ts
  key : entry.1.terminal.isName = true
  value_mem : entry.2 ∈ ts
  value : entry.2.terminal.isName = true ∨ entry.2.terminal.isLiteral = true

theorem IsEntryIn.mono {ts us : List Token} {entry : Token × Token} (h : IsEntryIn ts entry)
    (hts : ∀ t ∈ ts, t ∈ us) : IsEntryIn us entry :=
  ⟨hts _ h.key_mem, h.key, hts _ h.value_mem, h.value⟩

section

variable {e f : Ebnf} {t : Token}

theorem mem_left {d : e.Derivation} {d' : f.Derivation} (h : t ∈ e.tokens d) :
    t ∈ (seq e f).tokens (d, d') :=
  List.mem_append_left _ h

theorem mem_right {d : e.Derivation} {d' : f.Derivation} (h : t ∈ f.tokens d') :
    t ∈ (seq e f).tokens (d, d') :=
  List.mem_append_right _ h

theorem mem_opt {d : e.Derivation} (h : t ∈ e.tokens d) : t ∈ (opt e).tokens (some d) :=
  h

theorem mem_many {d : e.Derivation} {ds : List e.Derivation} (hd : d ∈ ds) (h : t ∈ e.tokens d) :
    t ∈ (many e).tokens ds :=
  List.mem_flatMap.mpr ⟨d, hd, h⟩

end

theorem isEntryIn_property (d : property.Derivation) :
    IsEntryIn (property.tokens d) (entryOf d) := by
  obtain ⟨key, colon, value⟩ := d
  refine ⟨mem_left List.mem_cons_self, isName_of_mem key,
    mem_right (mem_right List.mem_cons_self), ?_⟩
  rcases isName_or_isLiteral value with h | ⟨-, h⟩
  · exact .inl h
  · exact .inr h

theorem isEntryIn_map {d : properties.Derivation} {e : Token × Token} (he : e ∈ mapOf d) :
    IsEntryIn (properties.tokens d) e := by
  obtain ⟨opening, list, closing⟩ := d
  cases list with
  | none => simp [mapOf] at he
  | some list =>
    obtain ⟨d, ds⟩ := list
    simp only [mapOf, entriesOf, Option.map_some, Option.getD_some, List.mem_cons,
      List.mem_map] at he
    rcases he with rfl | ⟨d', hd', rfl⟩
    · exact (isEntryIn_property d).mono fun t ht => mem_right (mem_left (mem_opt (mem_left ht)))
    · exact (isEntryIn_property d'.2).mono fun t ht =>
        mem_right (mem_left (mem_opt (mem_right (mem_many hd' (mem_right ht)))))

theorem isEntryIn_node {d : node.Derivation} {m : List (Token × Token)} (hm : m ∈ nodeMaps d)
    {e : Token × Token} (he : e ∈ m) : IsEntryIn (node.tokens d) e := by
  obtain ⟨opening, named, labels, map, closing⟩ := d
  cases map with
  | none => simp [nodeMaps] at hm
  | some map =>
    obtain rfl : m = mapOf map := by simpa [nodeMaps] using hm
    exact (isEntryIn_map he).mono fun t ht =>
      mem_right (mem_right (mem_right (mem_left (mem_opt ht))))

theorem isEntryIn_relationship {d : relationship.Derivation} {m : List (Token × Token)}
    (hm : m ∈ relationshipMaps d) {e : Token × Token} (he : e ∈ m) :
    IsEntryIn (relationship.tokens d) e := by
  obtain ⟨left, dash, detail, dash', right⟩ := d
  cases detail with
  | none => simp [relationshipMaps] at hm
  | some detail =>
    obtain ⟨opening, named, types, map, closing⟩ := detail
    cases map with
    | none => simp [relationshipMaps, detailOf] at hm
    | some map =>
      obtain rfl : m = mapOf map := by simpa [relationshipMaps, detailOf] using hm
      exact (isEntryIn_map he).mono fun t ht =>
        mem_right (mem_right (mem_left (mem_opt
          (mem_right (mem_right (mem_right (mem_left (mem_opt ht))))))))

theorem isEntryIn_path {d : path.Derivation} {m : List (Token × Token)} (hm : m ∈ pathMaps d)
    {e : Token × Token} (he : e ∈ m) : IsEntryIn (path.tokens d) e := by
  obtain ⟨first, steps⟩ := d
  simp only [pathMaps, List.mem_append, List.mem_flatMap] at hm
  rcases hm with hm | ⟨step, hstep, hm | hm⟩
  · exact (isEntryIn_node hm he).mono fun t ht => mem_left ht
  · exact (isEntryIn_relationship hm he).mono fun t ht => mem_right (mem_many hstep (mem_left ht))
  · exact (isEntryIn_node hm he).mono fun t ht => mem_right (mem_many hstep (mem_right ht))

/-- The entries of the maps of a pattern are among its tokens. -/
theorem isEntryIn_pattern {d : pattern.Derivation} {m : List (Token × Token)}
    (hm : m ∈ patternMaps d) {e : Token × Token} (he : e ∈ m) :
    IsEntryIn (pattern.tokens d) e := by
  obtain ⟨first, more⟩ := d
  simp only [patternMaps, List.mem_append, List.mem_flatMap] at hm
  rcases hm with hm | ⟨d, hd, hm⟩
  · exact (isEntryIn_path hm he).mono fun t ht => mem_left ht
  · exact (isEntryIn_path hm he).mono fun t ht => mem_right (mem_many hd (mem_right ht))

/-- Maps of bounded size are legible, since all other values are words and strings. -/
theorem legible_of_bounded {d : pattern.Derivation}
    (hgenuine : ∀ t ∈ pattern.tokens d, t.IsGenuine) {m : List (Token × Token)}
    (hm : m ∈ patternMaps d) (hbounded : Bounded m) : Legible m := by
  refine ⟨hbounded.1, fun e he => ?_⟩
  have hentry := isEntryIn_pattern hm he
  exact valueMeaning_isOk (hgenuine _ hentry.value_mem) hentry.value (hbounded.2 e he)

end Grammar

/-! ## Acceptance -/

/-- Of the texts that are tokens from end to end, the patterns are the sentences of the grammar; a
    sentence has one derivation; and where no key is repeated and no number is too great or too
    long, the text is understood as what the derivation describes. -/
theorem pattern_acceptance {text : String} {p : Cursor} (h : (scan text).stop = .finished p) :
    ((∃ syn, readPattern text = .ok syn) ↔ pattern.Derives (scan text).tokens) ∧
      (∀ d d', pattern.tokens d = (scan text).tokens → pattern.tokens d' = (scan text).tokens →
        d = d') ∧
      ∀ d, pattern.tokens d = (scan text).tokens → (∀ m ∈ patternMaps d, Bounded m) →
        parsePattern text = .ok (patternOf d) := by
  refine ⟨?_, fun d d' hd hd' => pattern_unique (hd.trans hd'.symm), fun d hd hbounded => ?_⟩
  · constructor
    · rintro ⟨syn, hsyn⟩
      obtain ⟨-, d, hd, -⟩ := readPattern_eq_ok_iff.mp hsyn
      exact ⟨d, hd⟩
    · rintro ⟨d, hd⟩
      exact ⟨_, readPattern_eq_ok_iff.mpr ⟨⟨p, h⟩, d, hd, rfl⟩⟩
  · have hgenuine : ∀ t ∈ pattern.tokens d, t.IsGenuine := by
      intro t ht
      rw [hd] at ht
      exact isGenuine_of_mem ht
    refine parsePattern_eq_ok_iff.mpr ⟨⟨p, h⟩, d, hd, fun m hm => ?_, rfl⟩
    exact legible_of_bounded hgenuine hm (hbounded m hm)

/-- The derivation of `(a:B:B {k: -1})`. -/
def labelledDerivation : pattern.Derivation :=
  let tok (x : Terminal) (text : String) (start : Nat) : Token :=
    ⟨x, text, ⟨start, 1, start + 1⟩, start + text.length⟩
  ((((⟨tok .leftParen "(" 0, by decide⟩,
    some ⟨tok .identifier "a" 1, by decide⟩,
    some ((⟨tok .colon ":" 2, by decide⟩, ⟨tok .identifier "B" 3, by decide⟩),
      [(⟨tok .colon ":" 4, by decide⟩, ⟨tok .identifier "B" 5, by decide⟩)]),
    some (⟨tok .leftBrace "\x7b" 7, by decide⟩,
      some ((⟨tok .identifier "k" 8, by decide⟩, ⟨tok .colon ":" 9, by decide⟩,
        ⟨tok .number "-1" 11, by decide⟩), []),
      ⟨tok .rightBrace "\x7d" 13, by decide⟩),
    ⟨tok .rightParen ")" 14, by decide⟩), [])), [])

theorem pattern_acceptance_labelled :
    (scan "(a:B:B \x7bk: -1\x7d)").stop = .finished ⟨15, 1, 16⟩ ∧
      (∃ syn, readPattern "(a:B:B \x7bk: -1\x7d)" = .ok syn) ∧
      parsePattern "(a:B:B \x7bk: -1\x7d)" =
        .ok ⟨⟨⟨"a", ["B"], some [("k", .integer (-1))], some 0⟩, []⟩, []⟩ := by
  have hstop : (scan "(a:B:B \x7bk: -1\x7d)").stop = .finished ⟨15, 1, 16⟩ := by decide +kernel
  have hd : pattern.tokens labelledDerivation = (scan "(a:B:B \x7bk: -1\x7d)").tokens := by
    decide +kernel
  obtain ⟨haccept, -, hmeaning⟩ := pattern_acceptance hstop
  refine ⟨hstop, haccept.mpr ⟨_, hd⟩, ?_⟩
  have hpattern : patternOf labelledDerivation =
      ⟨⟨⟨"a", ["B"], some [("k", .integer (-1))], some 0⟩, []⟩, []⟩ := by decide +kernel
  rw [← hpattern]
  refine hmeaning _ hd fun m hm => ?_
  obtain rfl : m = [(⟨.identifier, "k", ⟨8, 1, 9⟩, 9⟩, ⟨.number, "-1", ⟨11, 1, 12⟩, 13⟩)] :=
    List.mem_singleton.mp hm
  refine ⟨by decide, fun e he _ n hn => ?_⟩
  obtain rfl := List.mem_singleton.mp he
  obtain rfl : n = ⟨true, ['1'], none, none⟩ := by
    have : Numeral.ofChars? "-1".toList = some ⟨true, ['1'], none, none⟩ := by decide +kernel
    exact Option.some.inj (hn.symm.trans this)
  exact ⟨fun _ => by decide, by decide +kernel⟩

end PatternSql
