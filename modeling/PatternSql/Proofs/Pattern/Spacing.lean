import PatternSql.Proofs.Grammar.Location
import PatternSql.Proofs.Pattern.Refusal
import PatternSql.Proofs.Pattern.Relocation
import PatternSql.Proofs.Token.Spacing

/-!
# Blanks do not matter to patterns

Texts with the same tokens are read alike, wherever the tokens stand: as patterns that differ in the
places of their nodes and relationships alone, or with failures that differ in their places alone.
A place is that of a token, and corresponds to the place of the same token in the other text; the
end of one text corresponds to the end of the other.

Main results:

* `sameReading_of_contents`: texts of the same tokens are read alike.
* `blanks_insignificant`: other blanks between the tokens change places only.
-/

namespace PatternSql

/-! ## The places in a pattern -/

/-- Where a node or a relationship begins. -/
def Element.position : Element → Option Nat
  | node n => n.position
  | relationship r => r.position

/-- Where the nodes and relationships of a path begin. -/
def Path.positions (p : Path) : List (Option Nat) :=
  p.elements.map Element.position

/-- Where the nodes and relationships of a pattern begin. -/
def Pattern.positions (p : Pattern) : List (Option Nat) :=
  p.paths.flatMap Path.positions

theorem Path.positions_eq (p : Path) :
    p.positions = p.first.position :: p.steps.flatMap fun s => [s.1.position, s.2.position] := by
  rw [Path.positions, Path.elements, List.map_cons, List.map_flatMap]
  rfl

theorem Path.positions_moveTo (place : Nat → Cursor) (p : Path) :
    (p.moveTo place).positions = p.positions.map (offsetTo place) := by
  rw [positions_eq, positions_eq, Path.moveTo, List.map_cons, List.map_flatMap, List.flatMap_map]
  rfl

theorem Pattern.positions_moveTo (place : Nat → Cursor) (p : Pattern) :
    (p.moveTo place).positions = p.positions.map (offsetTo place) := by
  have hpaths : (p.moveTo place).paths = p.paths.map (·.moveTo place) := rfl
  rw [positions, positions, hpaths, List.flatMap_map, List.map_flatMap]
  simp only [Path.positions_moveTo]

namespace Grammar

open Ebnf

/-- A position is the start of one of the given tokens. -/
def StartsOne (ts : List Token) (position : Option Nat) : Prop :=
  ∃ t ∈ ts, position = some t.start.offset

theorem StartsOne.mono {ts us : List Token} {position : Option Nat} (h : StartsOne ts position)
    (hts : ∀ t ∈ ts, t ∈ us) : StartsOne us position := by
  obtain ⟨t, ht, hposition⟩ := h
  exact ⟨t, hts t ht, hposition⟩

theorem startsOne_node (d : node.Derivation) : StartsOne (node.tokens d) (nodeOf d).position := by
  obtain ⟨opening, named, labels, map, closing⟩ := d
  exact ⟨opening.1, mem_left List.mem_cons_self, rfl⟩

theorem startsOne_relationship (d : relationship.Derivation) :
    StartsOne (relationship.tokens d) (relationshipOf d).position := by
  obtain ⟨left, dash, detail, dash', right⟩ := d
  cases left with
  | none => exact ⟨dash.1, mem_right (mem_left List.mem_cons_self), rfl⟩
  | some left => exact ⟨left.1, mem_left (mem_opt List.mem_cons_self), rfl⟩

theorem startsOne_path (d : path.Derivation) {position : Option Nat}
    (h : position ∈ (pathOf d).positions) : StartsOne (path.tokens d) position := by
  obtain ⟨first, steps⟩ := d
  rw [Path.positions_eq, List.mem_cons, List.mem_flatMap] at h
  obtain rfl | ⟨s, hs, h⟩ := h
  · exact (startsOne_node first).mono fun t ht => mem_left ht
  · obtain ⟨d, hd, rfl⟩ := List.mem_map.mp hs
    rcases List.mem_pair.mp h with rfl | rfl
    · exact (startsOne_relationship d.1).mono fun t ht => mem_right (mem_many hd (mem_left ht))
    · exact (startsOne_node d.2).mono fun t ht => mem_right (mem_many hd (mem_right ht))

/-- Nodes and relationships begin where tokens of their pattern do. -/
theorem startsOne_pattern (d : pattern.Derivation) {position : Option Nat}
    (h : position ∈ (patternOf d).positions) : StartsOne (pattern.tokens d) position := by
  obtain ⟨first, more⟩ := d
  rw [Pattern.positions, List.mem_flatMap] at h
  obtain ⟨q, hq, h⟩ := h
  rcases List.mem_cons.mp hq with rfl | hq
  · exact (startsOne_path first h).mono fun t ht => mem_left ht
  · obtain ⟨d, hd, rfl⟩ := List.mem_map.mp hq
    exact (startsOne_path d.2 h).mono fun t ht => mem_right (mem_many hd (mem_right ht))

end Grammar

/-! ## Numbers of tokens -/

section

variable {text : String}

theorem start_lt_of_mem {t : Token} (h : t ∈ (scan text).tokens) :
    t.start.offset < text.length := by
  have hstands := standsIn_of_mem h
  have hne : t.text.length ≠ 0 := fun hlen => hstands.nonempty (String.length_eq_zero_iff.mp hlen)
  have hslice := congrArg String.length hstands.slice
  rw [slice, String.length_ofList, List.length_take, List.length_drop,
    String.length_toList] at hslice
  have := hstands.stop
  omega

theorem placeOf_of_length_le {p : Cursor} (hstop : (scan text).stop = .finished p) {i : Nat}
    (hi : (scan text).tokens.length ≤ i) : ((scan text).placeOf i).offset = text.length := by
  rw [Scan.placeOf, List.getElem?_eq_none hi, hstop]
  exact scan_finished_offset hstop

/-- A number that leads to where a token starts is that of a token. -/
theorem number_lt {p : Cursor} (hstop : (scan text).stop = .finished p) {i : Nat} {t : Token}
    (ht : t ∈ (scan text).tokens) (hi : ((scan text).placeOf i).offset = t.start.offset) :
    i < (scan text).tokens.length := by
  by_contra hle
  have hend := placeOf_of_length_le hstop (Nat.not_lt.mp hle)
  have := start_lt_of_mem ht
  omega

end

/-! ## Alike readings -/

/-- A failure at a token, given by its number, or at the end. -/
inductive Failure.Numbered (n : Nat) : Failure → Prop
  /-- At a token. -/
  | token (i : Nat) (expected : List String) (finding : Finding) (h : i < n)
      (other : finding ≠ .ending) : Numbered n (.input (.syntactic (some i) expected finding))
  /-- At the end. -/
  | ending (i : Nat) (expected : List String) (h : n ≤ i) :
      Numbered n (.input (.syntactic (some i) expected .ending))
  /-- At no place. -/
  | digits : Numbered n .tooManyDigits

/-- Two texts have the same tokens and are read alike: there is a pattern or a failure whose places
    are numbers of tokens, and with the places of these tokens in a text, and behind the tokens its
    end, it is what the text is read as. -/
structure SameReading (text text' : String) : Prop where
  /-- The second is read to its end as well. -/
  finished : ∃ p, (scan text').stop = .finished p
  /-- The tokens are the same but for their places. -/
  contents : (scan text').tokens.map Token.content = (scan text).tokens.map Token.content
  /-- The patterns are the same but for their places, which are those of the same tokens. -/
  pattern : ∀ P, parsePattern text = .ok P → ∃ N : Pattern,
    (∀ q ∈ N.positions, ∃ i < (scan text).tokens.length, q = some i) ∧
      P = N.moveTo (scan text).placeOf ∧
      parsePattern text' = .ok (N.moveTo (scan text').placeOf)
  /-- The failures are the same but for their places, which are those of the same token or the
      ends. -/
  failure : ∀ f, parsePattern text = .error f → ∃ g : Failure,
    g.Numbered (scan text).tokens.length ∧ f = g.moveTo (scan text).placeOf ∧
      parsePattern text' = .error (g.moveTo (scan text').placeOf)

/-- What a text is understood as has the places of its tokens. -/
theorem numbered_of_ok {text : String} {p : Cursor} (hstop : (scan text).stop = .finished p)
    {N : Pattern} (h : parsePattern text = .ok (N.moveTo (scan text).placeOf)) :
    ∀ q ∈ N.positions, ∃ i < (scan text).tokens.length, q = some i := by
  intro q hq
  obtain ⟨-, d, hd, -, hpattern⟩ := parsePattern_eq_ok_iff.mp h
  have hmem : offsetTo (scan text).placeOf q ∈ (Grammar.patternOf d).positions := by
    rw [← hpattern, Pattern.positions_moveTo]
    exact List.mem_map_of_mem hq
  obtain ⟨t, ht, hposition⟩ := Grammar.startsOne_pattern d hmem
  obtain ⟨i, rfl, hi⟩ := Option.map_eq_some_iff.mp hposition
  exact ⟨i, number_lt hstop (hd ▸ ht) hi, rfl⟩

/-- What is wrong with a text that is read to its end is wrong at one of its tokens or at the
    end. -/
theorem numbered_of_error {text : String} {p : Cursor} (hstop : (scan text).stop = .finished p)
    {g : Failure} (h : parsePattern text = .error (g.moveTo (scan text).placeOf)) :
    g.Numbered (scan text).tokens.length := by
  have hat {t : Token} (ht : t ∈ (scan text).tokens) {expected : List String} {finding : Finding}
      (hother : finding ≠ .ending)
      (hg : g.moveTo (scan text).placeOf =
        .input (.syntactic (some t.start.offset) expected finding)) :
      g.Numbered (scan text).tokens.length := by
    obtain ⟨i, rfl, hi⟩ := Failure.moveTo_eq_syntactic hg
    exact .token i expected finding (number_lt hstop ht hi) hother
  obtain ⟨e, he, hinput⟩ | ⟨syn, -, -, t, ht, hfound⟩ := parsePattern_eq_error h
  · have hcases := patternReader_follows.read_cases (s := .start .none) rfl text
    rw [← readPattern, he] at hcases
    rcases hcases with ⟨-, a, ha⟩ | ⟨t, e', ⟨before, after, htokens, -⟩, he', expected, rfl⟩ |
      ⟨e', -, he', expected, rfl⟩ | ⟨q, c, hrefused, -⟩
    · cases ha
    · obtain rfl := Except.error.inj he'
      exact hat (htokens ▸ by simp) (by simp) hinput
    · obtain rfl := Except.error.inj he'
      obtain ⟨i, rfl, hi⟩ := Failure.moveTo_eq_syntactic hinput
      refine .ending i expected (Nat.not_lt.mp fun hlt => ?_)
      have hget := List.getElem?_eq_getElem hlt
      rw [Scan.placeOf, hget] at hi
      exact absurd hi (Nat.ne_of_lt (start_lt_of_mem (List.getElem_mem hlt)))
    · exact absurd ⟨p, hstop⟩ hrefused.not_finished
  · generalize hg : g.moveTo (scan text).placeOf = f at hfound
    cases hfound with
    | digits value none =>
      obtain rfl := Failure.moveTo_eq_tooManyDigits hg
      exact .digits
    | huge number => exact hat ht (by simp) hg
    | key => exact hat ht (by simp) hg

/-- Texts of the same tokens are read alike. -/
theorem sameReading_of_contents {text text' : String} {p p' : Cursor}
    (hstop : (scan text).stop = .finished p) (hstop' : (scan text').stop = .finished p')
    (hcontents : (scan text').tokens.map Token.content = (scan text).tokens.map Token.content) :
    SameReading text text' := by
  have hread := parsePattern_eq_moveTo hstop
  have hread' := parsePattern_eq_moveTo hstop'
  rw [hcontents] at hread'
  generalize understand (.ofContents ((scan text).tokens.map Token.content)) = outcome
    at hread hread'
  refine ⟨⟨p', hstop'⟩, hcontents, fun P hP => ?_, fun f hf => ?_⟩
  · cases outcome with
    | error g => rw [hread] at hP; cases hP
    | ok N =>
      rw [hread] at hP
      exact ⟨N, numbered_of_ok hstop hread, (Except.ok.inj hP).symm, hread'⟩
  · cases outcome with
    | ok N => rw [hread] at hf; cases hf
    | error g =>
      rw [hread] at hf
      exact ⟨g, numbered_of_error hstop hread, (Except.error.inj hf).symm, hread'⟩

/-- Other blanks between the tokens of a text change places only. -/
theorem blanks_insignificant {text : String} {p : Cursor} {blanks : Nat → String}
    (hread : (scan text).stop = .finished p)
    (hblank : ∀ i ≤ (scan text).tokens.length, ∀ c ∈ (blanks i).toList,
      c ∈ [' ', '\t', '\x0c', '\r', '\n'])
    (hapart : ∀ i, 0 < i → i < (scan text).tokens.length → blanks i ≠ "") :
    SameReading text (respaced blanks text) := by
  have hspacing : IsSpacing (fun i => (blanks i).toList) (scan text).tokens.length :=
    ⟨fun i hi c hc => isGap_iff.mpr (hblank i hi c hc),
      fun i hi hlt hnil => hapart i hi hlt (String.toList_eq_nil_iff.mp hnil)⟩
  obtain ⟨hstop, hcontents⟩ := scan_respaced hspacing
  exact sameReading_of_contents hread hstop hcontents

theorem blanks_insignificant_path :
    (scan "(a\x7bk:1.e5\x7d)-->()").stop = .finished ⟨16, 1, 17⟩ ∧
      (∀ c ∈ "\n\t".toList, c ∈ [' ', '\t', '\x0c', '\r', '\n']) ∧
      respaced (fun i => if i = 0 then "" else "\n\t") "(a\x7bk:1.e5\x7d)-->()" =
        "(\n\ta\n\t\x7b\n\tk\n\t:\n\t1.e5\n\t\x7d\n\t)\n\t-\n\t-\n\t>\n\t(\n\t)\n\t" ∧
      SameReading "(a\x7bk:1.e5\x7d)-->()"
        (respaced (fun i => if i = 0 then "" else "\n\t") "(a\x7bk:1.e5\x7d)-->()") := by
  have hread : (scan "(a\x7bk:1.e5\x7d)-->()").stop = .finished ⟨16, 1, 17⟩ := by decide +kernel
  have hgaps : All isGap "\n\t".toList := by decide +kernel
  have hblank : ∀ c ∈ "\n\t".toList, c ∈ [' ', '\t', '\x0c', '\r', '\n'] :=
    fun c hc => isGap_iff.mp (hgaps c hc)
  refine ⟨hread, hblank, by decide +kernel, blanks_insignificant hread (fun i _ c hc => ?_) ?_⟩
  · by_cases hi : i = 0
    · rw [if_pos hi] at hc
      cases hc
    · rw [if_neg hi] at hc
      exact hblank c hc
  · intro i hi _
    rw [if_neg (Nat.ne_of_gt hi)]
    decide

end PatternSql
