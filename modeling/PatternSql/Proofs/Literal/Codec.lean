import Mathlib.Data.List.DropRight
import PatternSql.Proofs.Literal.Spelling

/-!
# Texts and values of literals

Spelling a literal and reading a text undo each other. A literal has a spelling unless it is a
string with both quotes or a double that is not finite; the spelling is one token, and it is read as
the literal, whatever blanks stand around it. The other way round, what any text is read as has a
spelling that is read as the same again, unless it is a string with both quotes.

The second half is more than the first: a text that is nothing else is read as a name, even if it
is no word of a pattern, and the name is spelled as it stands.

Main results:

* `trim_surrounded`, `trim_trim`: blanks around a text do not count, and none are left around it.
* `exists_spelling_of_text`: what a text is read as is spelled by a text that is read as the same.
* `literal_codec`: spelling and reading are inverse to each other.
-/

namespace PatternSql

open Text

/-! ## Blanks around a text -/

namespace Text

theorem trimEnd_append_blanks {cs after : List Char} (h : All isBlank after) :
    trimEnd (cs ++ after) = trimEnd cs := by
  have hreverse : ∀ c ∈ after.reverse, isBlank c = true := fun c hc => h c (List.mem_reverse.mp hc)
  rw [trimEnd, trimEnd, List.reverse_append, List.dropWhile_append_of_pos hreverse]

theorem trimEnd_eq_nil {cs : List Char} (h : All isBlank cs) : trimEnd cs = [] := by
  have hcs : trimEnd ([] ++ cs) = trimEnd [] := trimEnd_append_blanks h
  rwa [List.nil_append] at hcs

/-- Blanks around a text do not count. -/
theorem trim_surrounded {before cs after : List Char} (hbefore : All isBlank before)
    (hafter : All isBlank after) : trim (before ++ (cs ++ after)) = trim cs := by
  rw [trim, trim, List.dropWhile_append_of_pos hbefore, List.dropWhile_append]
  split
  · rename_i hblank
    have hnil : cs.dropWhile isBlank = [] := List.isEmpty_iff.mp hblank
    have hall : All isBlank (after.dropWhile isBlank) := fun c hc =>
      hafter c ((List.dropWhile_suffix _).subset hc)
    rw [hnil, trimEnd_eq_nil hall]
    rfl
  · exact trimEnd_append_blanks hafter

/-- No blanks are left around a text. -/
theorem trim_trim (cs : List Char) : trim (trim cs) = trim cs := by
  have hend : trimEnd (trim cs) = trim cs := List.rdropWhile_idempotent isBlank _
  have hstart : (trim cs).dropWhile isBlank = trim cs := by
    refine dropWhile_of_stops fun c hc => ?_
    have hprefix : trim cs <+: cs.dropWhile isBlank := List.rdropWhile_prefix isBlank _
    obtain ⟨rest, hrest⟩ := hprefix
    refine stops_dropWhile isBlank cs c ?_
    rw [← hrest, List.head?_append, hc]
    rfl
  conv_lhs => rw [trim, hstart, hend]

end Text

/-! ## Texts that are read as something -/

namespace Literal

/-- A text is read as what it is without the blanks around it. -/
theorem ofText?_trim (text : String) :
    ofText? (String.ofList (trim text.toList)) = ofText? text := by
  rw [ofText?, ofText?, String.toList_ofList, trim_trim]

theorem ofText?_surrounded {before text after : String} (hbefore : All isBlank before.toList)
    (hafter : All isBlank after.toList) :
    ofText? (before ++ (text ++ after)) = ofText? text := by
  rw [ofText?, ofText?, String.toList_append, String.toList_append,
    trim_surrounded hbefore hafter]

/-- More digits than are read, perhaps with a minus in front of them, and nothing else. -/
def IsOverlongWhole (cs : List Char) : Prop :=
  ∃ digits, (cs = digits ∨ cs = '-' :: digits) ∧ All isDigit digits ∧ digitLimit < digits.length

theorem IsOverlongWhole.length_lt {cs : List Char} (h : IsOverlongWhole cs) :
    digitLimit < cs.length := by
  obtain ⟨digits, rfl | rfl, -, hlong⟩ := h
  · exact hlong
  · exact Nat.lt_succ_of_lt hlong

theorem isOverlongWhole_of_numeral {cs : List Char} {n : Numeral}
    (hn : Numeral.ofChars? cs = some n) (hinteger : n.isInteger = true)
    (hlong : digitLimit < n.whole.length) : IsOverlongWhole cs := by
  have hscan := Numeral.ofChars?_eq_some_iff.mp hn
  obtain ⟨hwell, -, spelled, ⟨x, hx, rfl⟩, htext⟩ := Numeral.scan_eq_some_iff.mp hscan
  obtain ⟨hfraction, hexponent⟩ := Numeral.isInteger_iff.mp hinteger
  rw [hexponent] at hx
  cases hx
  have hcs : cs = Numeral.signText n.negative ++ n.whole := by
    rw [htext, hfraction, Numeral.fractionText]
    simp
  refine ⟨n.whole, ?_, hwell.whole, hlong⟩
  cases hsign : n.negative with
  | false =>
    rw [hsign] at hcs
    exact .inl hcs
  | true =>
    rw [hsign] at hcs
    exact .inr hcs

/-- A whole number of too many digits is a numeral of too many digits. -/
theorem IsOverlongWhole.exists_numeral {cs : List Char} (h : IsOverlongWhole cs) :
    ∃ n, Numeral.ofChars? cs = some n ∧ n.isInteger = true ∧ digitLimit < n.whole.length := by
  obtain ⟨digits, htext, hall, hlong⟩ := h
  have hwell (negative : Bool) : (⟨negative, digits, none, none⟩ : Numeral).WellFormed := by
    refine ⟨hall, by rintro _ ⟨⟩, by rintro _ ⟨⟩, ?_⟩
    have hne : digits ≠ [] := List.ne_nil_of_length_pos (Nat.zero_lt_of_lt hlong)
    simp [hne]
  have hspelled (negative : Bool) : (⟨negative, digits, none, none⟩ : Numeral).Spelled
      (Numeral.signText negative ++ digits) :=
    ⟨[], .none, by simp [Numeral.fractionText]⟩
  rcases htext with rfl | rfl
  · exact ⟨_, Numeral.ofChars?_of_spelled (hwell false) (hspelled false), rfl, hlong⟩
  · exact ⟨_, Numeral.ofChars?_of_spelled (hwell true) (hspelled true), rfl, hlong⟩

/-- A whole number of too many digits is not read. -/
theorem IsOverlongWhole.ofText?_eq_none {text : String} (h : IsOverlongWhole text.toList) :
    ofText? text = none := by
  obtain ⟨n, hn, hinteger, hlong⟩ := h.exists_numeral
  rw [ofText?_number hn, ofNumeral?, if_pos hinteger, if_pos hlong]

/-- Strings that hold both quotes, and doubles that are not finite. -/
inductive IsUnspellable : Literal → Prop
  | string {value : String} (single : '\'' ∈ value.toList) (double : '"' ∈ value.toList) :
    IsUnspellable (.string value)
  | float {value : Double} (h : value.isFinite = false) : IsUnspellable (.float value)

/-- A literal has a spelling that is read as the literal. -/
def Returns (v : Literal) : Prop :=
  ∃ text, v.spelling = .ok text ∧ ofText? text = some v

theorem ReadsBack.returns {v : Literal} (h : v.ReadsBack) : v.Returns := by
  obtain ⟨x, text, hspelled⟩ := h
  exact ⟨text, hspelled.spelling, (valueMeaning_spec.mp (hspelled.meaning .start 0)).1⟩

/-- A text that is read as a name returns from it: the name is the text without outer blanks. -/
theorem returns_identifier {cs : List Char}
    (h : ofTrimmed? (trim cs) = some (.identifier (String.ofList (trim cs)))) :
    (identifier (String.ofList (trim cs))).Returns := by
  refine ⟨_, rfl, ?_⟩
  rw [ofText?, String.toList_ofList, trim_trim, h]

/-- What a numeral is read as returns, be it the number or the text as a name. -/
theorem returns_of_ofNumeral? {cs : List Char} {n : Numeral} {v : Literal}
    (h : ofTrimmed? (trim cs) = some v)
    (hv : ofNumeral? n (String.ofList (trim cs)) = some v) : v.Returns := by
  by_cases hname : ∃ name, v = .identifier name
  · obtain ⟨name, rfl⟩ := hname
    -- The only name that a numeral is read as is its own text.
    have htext : name = String.ofList (trim cs) := by
      unfold ofNumeral? ofDouble at hv
      split_ifs at hv <;> cases hv <;> rfl
    subst htext
    exact returns_identifier h
  · exact (readsBack_of_ofNumeral? hv fun name heq => hname ⟨name, heq⟩).returns

/-- What a text is read as has a spelling that is read as the same, unless it is a string with both
    quotes. -/
theorem exists_spelling_of_text {text : String} (h : ¬IsOverlongWhole (trim text.toList)) :
    ∃ v, ofText? text = some v ∧
      ((∃ value, v = .string value ∧ '\'' ∈ value.toList ∧ '"' ∈ value.toList) ∨ v.Returns) := by
  have hread : ∀ v, ofTrimmed? (trim text.toList) = some v → ofText? text = some v := fun v hv => hv
  cases hquote : unquote? (trim text.toList) with
  | some inner =>
    have hv : ofTrimmed? (trim text.toList) = some (.string (String.ofList inner)) := by
      rw [ofTrimmed?, hquote]
    refine ⟨_, hread _ hv, ?_⟩
    by_cases hboth : '\'' ∈ (String.ofList inner).toList ∧ '"' ∈ (String.ofList inner).toList
    · exact .inl ⟨_, rfl, hboth⟩
    · exact .inr (readsBack_string hboth).returns
  | none =>
    cases hword : ofWord? (String.ofList ((trim text.toList).map Char.toLower)) with
    | some v =>
      have hv : ofTrimmed? (trim text.toList) = some v := by rw [ofTrimmed?, hquote, hword]
      exact ⟨v, hread v hv, .inr (readsBack_of_ofWord? hword).returns⟩
    | none =>
      cases hnumeral : Numeral.ofChars? (trim text.toList) with
      | none =>
        have hv : ofTrimmed? (trim text.toList) =
            some (.identifier (String.ofList (trim text.toList))) := by
          rw [ofTrimmed?, hquote, hword, hnumeral]
        exact ⟨_, hread _ hv, .inr (returns_identifier hv)⟩
      | some n =>
        have hdigits : n.isInteger = true → n.whole.length ≤ digitLimit := fun hinteger =>
          Nat.not_lt.mp fun hlong => h (isOverlongWhole_of_numeral hnumeral hinteger hlong)
        have hsome : (ofNumeral? n (String.ofList (trim text.toList))).isSome = true :=
          ofNumeral?_isSome hdigits
        obtain ⟨v, hvalue⟩ := Option.isSome_iff_exists.mp hsome
        have hv : ofTrimmed? (trim text.toList) = some v := by
          rw [ofTrimmed?, hquote, hword, hnumeral, ← hvalue]
        exact ⟨v, hread v hv, .inr (returns_of_ofNumeral? hv hvalue)⟩

/-! ## Literals that are spelled -/

/-- The literals that have a class: integers of 64 bits and names that are one token among them. -/
def IsClassed : Literal → Prop
  | integer value => fitsWord value = true
  | identifier name => IsName name
  | unspecified => False
  | _ => True

theorem spelling_eq_error_of_isUnspellable {v : Literal} (h : v.IsUnspellable) :
    ∃ cause, v.spelling = .error cause := by
  cases h with
  | @string value single double =>
    exact ⟨.bothQuotes value, spelling_string_eq_error_iff.mpr ⟨rfl, single, double⟩⟩
  | @float value hfinite =>
    exact ⟨.notFinite value, if_neg (by rw [hfinite]; exact Bool.false_ne_true)⟩

/-- Literals that have a class and can be spelled are plain. -/
theorem IsClassed.isPlain {v : Literal} (h : v.IsClassed) (hspellable : ¬v.IsUnspellable) :
    v.IsPlain := by
  cases v with
  | string value => exact fun ⟨single, double⟩ => hspellable (.string single double)
  | float value =>
    by_contra hfinite
    exact hspellable (.float (Bool.eq_false_iff.mpr hfinite))
  | boolean value => exact trivial
  | null => exact trivial
  | integer value => exact h
  | identifier name => exact h
  | unspecified => exact h.elim

/-- A text of one lexeme is one token and nothing else. -/
theorem scan_of_lexeme? {text : String} {x : Terminal}
    (h : lexeme? text.toList = some (some x, text.toList.length)) :
    ∃ t p, scan text = ⟨[t], .finished p⟩ ∧ t.text = text ∧ t.terminal = x := by
  have hne : text.toList ≠ [] := by
    intro hnil
    have hpos := lexeme?_length_pos h
    rw [hnil] at hpos
    exact absurd hpos (Nat.lt_irrefl 0)
  have hscan : scan text = (scanFrom (Cursor.start.advance text.toList) []).prepend (some x) .start
      text.toList := by
    rw [scan, scanFrom_of_some hne h, List.take_length, List.drop_length]
  rw [hscan, scanFrom_nil]
  exact ⟨_, _, rfl, String.ofList_toList, rfl⟩

/-- The spelling of a literal is one token, which is read as the literal with any blanks around
    it. -/
theorem SpelledAs.one_token {v : Literal} {x : Terminal} {text : String} (h : v.SpelledAs x text) :
    ∃ t p, scan text = ⟨[t], .finished p⟩ ∧ ofText? t.text = some v ∧
      ∀ before after : String, All isBlank before.toList → All isBlank after.toList →
        ofText? (before ++ (text ++ after)) = some v := by
  obtain ⟨t, p, hscan, htext, -⟩ := scan_of_lexeme? h.lexeme
  have hmeaning : ofText? text = some v := (valueMeaning_spec.mp (h.meaning .start 0)).1
  refine ⟨t, p, hscan, htext ▸ hmeaning, fun before after hbefore hafter => ?_⟩
  rw [ofText?_surrounded hbefore hafter, hmeaning]

end Literal

open Literal

/-- Spelling literals and reading texts are inverse to each other. -/
theorem literal_codec :
    (∀ v : Literal, v.IsClassed →
      ((∃ cause, v.spelling = .error cause) ↔ v.IsUnspellable) ∧
      ∀ text, v.spelling = .ok text →
        ∃ t p, scan text = ⟨[t], .finished p⟩ ∧ ofText? t.text = some v ∧
          ∀ before after : String, All isBlank before.toList → All isBlank after.toList →
            ofText? (before ++ (text ++ after)) = some v) ∧
    ∀ text : String, ¬IsOverlongWhole (trim text.toList) →
      ∃ v, ofText? text = some v ∧
        ((∃ value, v = .string value ∧ '\'' ∈ value.toList ∧ '"' ∈ value.toList) ∨
          ∃ spelled, v.spelling = .ok spelled ∧ ofText? spelled = some v) := by
  refine ⟨fun v hv => ?_, fun text htext => exists_spelling_of_text htext⟩
  by_cases hunspellable : v.IsUnspellable
  · have herror := spelling_eq_error_of_isUnspellable hunspellable
    refine ⟨⟨fun _ => hunspellable, fun _ => herror⟩, fun text hok => ?_⟩
    obtain ⟨cause, hcause⟩ := herror
    rw [hcause] at hok
    cases hok
  · obtain ⟨x, text, hspelled⟩ := readsBack_of_isPlain (hv.isPlain hunspellable)
    constructor
    · constructor
      · rintro ⟨cause, hcause⟩
        rw [hspelled.spelling] at hcause
        cases hcause
      · exact fun h => absurd h hunspellable
    · intro text' hok
      obtain rfl : text = text' := Except.ok.inj (hspelled.spelling.symm.trans hok)
      exact hspelled.one_token

theorem literal_codec_negative :
    (integer (-5)).IsClassed ∧ ¬IsOverlongWhole (trim " -٥ ".toList) ∧
      (∃ t p, scan "-5" = ⟨[t], .finished p⟩ ∧ ofText? t.text = some (.integer (-5))) ∧
      ofText? "\u2003-5\n" = some (.integer (-5)) ∧
      ∃ v, ofText? " -٥ " = some v ∧ ∃ spelled, v.spelling = .ok spelled ∧
        ofText? spelled = some v := by
  have hclassed : (integer (-5)).IsClassed := show fitsWord (-5) = true by decide
  have htrim : trim " -٥ ".toList = ['-', '٥'] := by decide +kernel
  have hshort : ¬IsOverlongWhole (trim " -٥ ".toList) := by
    rw [htrim]
    rintro ⟨digits, hdigits | hdigits, -, hlong⟩
    · rw [← hdigits] at hlong
      exact absurd hlong (by decide)
    · rw [← (List.cons.inj hdigits).2] at hlong
      exact absurd hlong (by decide)
  obtain ⟨t, p, hscan, hvalue, hblanks⟩ := (literal_codec.1 _ hclassed).2 "-5" rfl
  have hsurrounded := hblanks "\u2003" "\n" (by decide +kernel) (by decide +kernel)
  obtain ⟨v, hv, hstring | hreturns⟩ := literal_codec.2 " -٥ " hshort
  · have hvalue' : ofText? " -٥ " = some (.integer (-5)) := by decide +kernel
    obtain ⟨value, rfl, -⟩ := hstring
    rw [hv] at hvalue'
    cases hvalue'
  · exact ⟨hclassed, hshort, ⟨t, p, hscan, hvalue⟩, hsurrounded, v, hv, hreturns⟩

end PatternSql
