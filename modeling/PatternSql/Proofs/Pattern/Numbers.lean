import PatternSql.Proofs.Pattern.Faults

/-!
# Numbers as values

A numeral is read exactly or to the nearest double, and from the bound on it is a name. As the value
of a property such a name would pass for a column, so there the text is refused, at the beginning of
the numeral: nothing behind it is looked at, and neither are the keys of its own map.

Main results:

* `number_literals`: what a numeral is read as, and which numerals are refused as values.
-/

namespace PatternSql

open Text Grammar

/-- Nothing is wrong with a map: no number is too great or too long, and no key is repeated. -/
structure IsFaultless (m : List (Token × Token)) : Prop where
  sound : ¬IsFaulty m
  short : ∀ e ∈ m, ¬Literal.IsOverlongWhole e.2.text.toList

/-- A value is looked at: nothing is wrong with the maps before its own, nor with the values before
    it. -/
def IsReached (maps : List (List (Token × Token))) (value : Token) : Prop :=
  ∃ earlier before key after later, maps = earlier ++ (before ++ (key, value) :: after) :: later ∧
    (∀ m ∈ earlier, IsFaultless m) ∧
    ∀ e ∈ before, ¬e.2.Overflows ∧ ¬Literal.IsOverlongWhole e.2.text.toList

/-- A value without a meaning that is looked at is what a pattern is refused for. -/
theorem Grammar.meaning_of_reached {d : pattern.Derivation}
    (hgenuine : ∀ t ∈ pattern.tokens d, t.IsGenuine) {value : Token} {f : Failure}
    (hreached : IsReached (patternMaps d) value) (hvalue : valueMeaning value = .error f) :
    (patternSyntax d).meaning = .error f := by
  obtain ⟨earlier, before, key, after, later, hmaps, hearlier, hbefore⟩ := hreached
  have hmem : before ++ (key, value) :: after ∈ patternMaps d :=
    hmaps ▸ List.mem_append_right _ List.mem_cons_self
  refine PatternSyntax.meaning_of_first ((patternSyntax_maps d).trans hmaps) (fun m hm => ?_)
    fun es hes => mapMeaning_of_first hes (fun e he => ?_) hvalue
  · have hm' : m ∈ patternMaps d := hmaps ▸ List.mem_append_left _ hm
    exact legible_of_not_isFaulty
      (fun e he => isValue_of_mem hgenuine hm' he ((hearlier m hm).short e he)) (hearlier m hm).sound
  · obtain ⟨hfits, hshort⟩ := hbefore e he
    exact readable_of_not_overflows
      (isValue_of_mem hgenuine hmem (List.mem_append_left _ he) hshort) hfits

/-- In a map that is understood nothing is wrong. -/
theorem isFaultless_of_legible {d : pattern.Derivation}
    (hgenuine : ∀ t ∈ pattern.tokens d, t.IsGenuine) {m : List (Token × Token)}
    (hm : m ∈ patternMaps d) (h : Legible m) : IsFaultless m where
  sound := by
    rintro (⟨e, he, hvalue⟩ | hkeys)
    · have hentry := isEntryIn_pattern hm he
      exact (h.2 e he).not_overflows (hgenuine _ hentry.value_mem) hentry.value hvalue
    · exact hkeys h.1
  short e he := (h.2 e he).short

theorem IsReached.mem {maps : List (List (Token × Token))} {value : Token}
    (h : IsReached maps value) : ∃ m ∈ maps, ∃ e ∈ m, e.2 = value := by
  obtain ⟨earlier, before, key, after, later, rfl, -, -⟩ := h
  exact ⟨before ++ (key, value) :: after, by simp, (key, value), by simp, rfl⟩

/-- The first number of a sentence that is too great is what the sentence is refused for, unless
    something is wrong before it. -/
theorem parsePattern_eq_hugeNumber {source : String} {p : Cursor} {d : pattern.Derivation}
    (hstop : (scan source).stop = .finished p) (hd : pattern.tokens d = (scan source).tokens)
    {value : Token} (hreached : IsReached (patternMaps d) value) (hvalue : value.Overflows)
    (hshort : ¬Literal.IsOverlongWhole value.text.toList) :
    parsePattern source = .error value.hugeNumber := by
  have hgenuine := isGenuine_of_tokens hd
  obtain ⟨m, hm, e, he, rfl⟩ := hreached.mem
  have hmeaning := meaning_of_reached hgenuine hreached
    (valueMeaning_eq_hugeNumber (isValue_of_mem hgenuine hm he hshort) hvalue)
  exact bind_eq_error_iff.mpr (.inr ⟨_, mapError_eq_ok_iff.mpr
    (readPattern_eq_ok_iff.mpr ⟨⟨p, hstop⟩, d, hd, rfl⟩), hmeaning⟩)

/-- What a text is that spells a numeral, of at most 4300 digits if it is a whole number. Within 64
    bits a whole number is the integer that it stands for; else, below the bound, a numeral is the
    nearest double of its sign; and from the bound on it is a name, and refused as the value of a
    property. -/
theorem number_literals {text : String} {n : Numeral} (hn : n.WellFormed)
    (htext : n.Spelled text.toList) (hdigits : n.isInteger = true → n.whole.length ≤ digitLimit) :
    (n.IsWord → ∃ i : Int, (i : ℚ) = n.value ∧ Literal.ofText? text = some (.integer i)) ∧
      (¬n.IsWord → |n.value| < Double.bound → ∃ x : Double, x.IsNearest n.value ∧
        x.isNegative = n.negative ∧ Literal.ofText? text = some (.float x)) ∧
      (Double.bound ≤ |n.value| →
        Literal.ofText? text = some (.identifier text) ∧
          ∀ (source : String) (p : Cursor) (d : pattern.Derivation) (value : Token),
            (scan source).stop = .finished p → pattern.tokens d = (scan source).tokens →
            value.text = text → IsReached (patternMaps d) value →
            parsePattern source = .error value.hugeNumber) := by
  obtain ⟨literal, hliteral, hmeets⟩ := Literal.ofText?_meets hn htext hdigits
  refine ⟨fun hword => ?_, fun hword hbound => ?_, fun hbound => ⟨?_, ?_⟩⟩
  · cases hmeets with
    | integer _ hvalue => exact ⟨_, hvalue, hliteral⟩
    | float hnot => exact absurd hword hnot
    | identifier hbound => exact absurd hword.abs_lt (not_lt.mpr hbound)
  · cases hmeets with
    | integer hnot => exact absurd hnot hword
    | float _ _ hnearest hsign => exact ⟨_, hnearest, hsign, hliteral⟩
    | identifier hnot => exact absurd hbound (not_lt.mpr hnot)
  · rw [hliteral, hmeets.eq_identifier hbound]
  · rintro source p d value hstop hd rfl hreached
    refine parsePattern_eq_hugeNumber hstop hd hreached ⟨n, hn, htext, hbound⟩ fun hlong => ?_
    obtain ⟨n', hn', hinteger, hdigits'⟩ := hlong.exists_numeral
    obtain rfl : n' = n :=
      Option.some.inj (hn'.symm.trans (Numeral.ofChars?_of_spelled hn htext))
    exact absurd (hdigits hinteger) (Nat.not_le.mpr hdigits')

theorem number_literals_kinds :
    (∃ i : Int, (i : ℚ) = -2 ^ 63 ∧
        Literal.ofText? "-9223372036854775808" = some (.integer i)) ∧
      (∃ x : Double, x.IsNearest (2 ^ 63) ∧ x.isNegative = false ∧
        Literal.ofText? "9223372036854775808" = some (.float x)) ∧
      Literal.ofText? "1e999" = some (.identifier "1e999") ∧
      parsePattern "(a \x7bk: 1, k: 1e999\x7d), (b)" =
        .error (.input (.syntactic (some 13) ["finite number literal"] (.hugeNumber "1e999"))) := by
  refine ⟨?_, ?_, ?_⟩
  · obtain ⟨hn, htext⟩ := Numeral.ofChars?_eq_some_iff_spelled.mp
      (Numeral.ofChars?_toString (-9223372036854775808))
    have hword : (Numeral.ofInt (-9223372036854775808)).IsWord :=
      (Numeral.isWord_iff rfl).mpr (by rw [Numeral.toInt_ofInt]; decide)
    obtain ⟨i, hvalue, hliteral⟩ := (number_literals hn htext fun _ => by decide +kernel).1 hword
    exact ⟨i, by rw [hvalue, Numeral.value_ofInt]; norm_num, hliteral⟩
  · obtain ⟨hn, htext⟩ := Numeral.ofChars?_eq_some_iff_spelled.mp
      (Numeral.ofChars?_toString 9223372036854775808)
    have hvalue : (Numeral.ofInt 9223372036854775808).value = 2 ^ 63 := by
      rw [Numeral.value_ofInt]
      norm_num
    have hword : ¬(Numeral.ofInt 9223372036854775808).IsWord := fun hword => by
      have hhigh := hword.high
      rw [hvalue] at hhigh
      norm_num at hhigh
    have hbound : |(Numeral.ofInt 9223372036854775808).value| < Double.bound := by
      rw [hvalue, abs_of_pos (by norm_num)]
      exact lt_of_lt_of_le (by norm_num) Double.le_bound
    obtain ⟨x, hnearest, hsign, hliteral⟩ :=
      (number_literals hn htext fun _ => by decide +kernel).2.1 hword hbound
    exact ⟨x, hvalue ▸ hnearest, hsign, hliteral⟩
  · obtain ⟨n, hn, htext, hbound⟩ :=
      Token.overflows_huge (t := ⟨.number, "1e999", ⟨13, 1, 14⟩, 18⟩) rfl
    obtain ⟨hstop, hd⟩ := scan_faultyDerivation
    have hreached : IsReached (patternMaps faultyDerivation)
        ⟨.number, "1e999", ⟨13, 1, 14⟩, 18⟩ := by
      refine ⟨[], [(⟨.identifier, "k", ⟨4, 1, 5⟩, 5⟩, ⟨.number, "1", ⟨7, 1, 8⟩, 8⟩)],
        ⟨.identifier, "k", ⟨10, 1, 11⟩, 11⟩, [], [], rfl, by simp, fun e he => ?_⟩
      obtain rfl := List.mem_singleton.mp he
      exact ⟨Token.not_overflows_one rfl, fun hlong => absurd hlong.length_lt (by decide)⟩
    have hdigits : n.isInteger = true → n.whole.length ≤ digitLimit := fun hinteger =>
      Nat.le_of_not_lt fun hlong => absurd (Literal.isOverlongWhole_of_numeral
        (Numeral.ofChars?_of_spelled hn htext) hinteger hlong).length_lt (by decide)
    obtain ⟨hliteral, hrefused⟩ := (number_literals hn htext hdigits).2.2 hbound
    exact ⟨hliteral, hrefused _ _ _ _ hstop hd rfl hreached⟩

/-- Between these decimals lies the bound. -/
example : Literal.ofText? "1.797693134862315807e308" =
      some (.float (.finite false (2 ^ 53 - 1) 971 (by decide))) ∧
    Literal.ofText? "1.797693134862315808e308" =
      some (.identifier "1.797693134862315808e308") := by
  decide +kernel

end PatternSql
