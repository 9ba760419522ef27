import PatternSql.Proofs.Literal.Codec

/-!
# Literals that no text is read as

A double that is not finite, a whole number beyond 64 bits, a name that is read as something else,
and a literal of no kind are what no text is read as. All others are read from some text, strings
with both quotes among them, for what stands between the outer quotes is not looked at.

Spelling such a literal should be refused, and is so for doubles, for whole numbers of too many
digits and for literals of no kind. Whole numbers beyond 64 bits that are short enough, and names,
are spelled nevertheless: `9223372036854775808` is read as a double and `true` as a truth value.

Main results:

* `ofText?_cases`: what texts are read as.
* `isReadFrom_iff`: the literals that some text is read as.
* `spelling_characterised`: which literals are refused, and which are spelled by a text that is read
  as something else.
-/

namespace PatternSql

open Text

/-! ## Doubles -/

/-- Doubles of the same value are both finite or both not. -/
theorem Double.isFinite_of_sameValue {x y : Double} (h : x.sameValue y = true) :
    x.isFinite = y.isFinite := by
  cases x <;> cases y <;> first | rfl | cases h

theorem Double.sameValue_self {x : Double} (h : x.isFinite = true) : x.sameValue x = true := by
  cases x with
  | finite negative m e hx => simp [sameValue]
  | infinite negative => cases h
  | nan => cases h

namespace Literal

/-! ## What texts are read as -/

theorem ofWord?_cases {word : String} {v : Literal} (h : ofWord? word = some v) :
    (∃ b, v = .boolean b) ∨ v = .null := by
  unfold ofWord? at h
  split_ifs at h
  · exact .inl ⟨true, (Option.some.inj h).symm⟩
  · exact .inl ⟨false, (Option.some.inj h).symm⟩
  · exact .inr (Option.some.inj h).symm

theorem ofDouble_cases (x : Double) (text : String) :
    (x.isFinite = true ∧ ofDouble x text = .float x) ∨ ofDouble x text = .identifier text := by
  unfold ofDouble
  by_cases hfinite : x.isFinite = true
  · exact .inl ⟨hfinite, if_pos hfinite⟩
  · exact .inr (if_neg hfinite)

theorem ofNumeral?_cases {n : Numeral} {text : String} {v : Literal}
    (h : ofNumeral? n text = some v) :
    (∃ i, v = .integer i ∧ fitsWord i = true) ∨ (∃ x, v = .float x ∧ x.isFinite = true) ∨
      v = .identifier text := by
  have hdouble (hv : some (ofDouble n.toDouble text) = some v) :
      (∃ x, v = .float x ∧ x.isFinite = true) ∨ v = .identifier text := by
    rw [← Option.some.inj hv]
    rcases ofDouble_cases n.toDouble text with ⟨hfinite, hx⟩ | hname
    · exact .inl ⟨_, hx, hfinite⟩
    · exact .inr hname
  unfold ofNumeral? at h
  split_ifs at h with hinteger hlong hfits
  · exact .inl ⟨_, (Option.some.inj h).symm, hfits⟩
  · exact .inr (hdouble h)
  · exact .inr (hdouble h)

/-- A text is read as a string, a truth value, null, a number of bounded size, or its own name. -/
theorem ofText?_cases {text : String} {v : Literal} (h : ofText? text = some v) :
    (∃ s, v = .string s) ∨ (∃ b, v = .boolean b) ∨ v = .null ∨
      (∃ i, v = .integer i ∧ fitsWord i = true) ∨ (∃ x, v = .float x ∧ x.isFinite = true) ∨
      v = .identifier (String.ofList (trim text.toList)) := by
  unfold ofText? ofTrimmed? at h
  cases hquote : unquote? (trim text.toList) with
  | some inner =>
    rw [hquote] at h
    exact .inl ⟨_, (Option.some.inj h).symm⟩
  | none =>
    cases hword : ofWord? (String.ofList ((trim text.toList).map Char.toLower)) with
    | some literal =>
      rw [hquote, hword] at h
      obtain rfl := Option.some.inj h
      rcases ofWord?_cases hword with hboolean | hnull
      · exact .inr (.inl hboolean)
      · exact .inr (.inr (.inl hnull))
    | none =>
      cases hnumeral : Numeral.ofChars? (trim text.toList) with
      | some n =>
        rw [hquote, hword, hnumeral] at h
        exact .inr (.inr (.inr (ofNumeral?_cases h)))
      | none =>
        rw [hquote, hword, hnumeral] at h
        exact .inr (.inr (.inr (.inr (.inr (Option.some.inj h).symm))))

/-- The literals that no text is read as. -/
inductive IsUnreadable : Literal → Prop
  /-- A whole number beyond 64 bits. -/
  | integer {value : Int} (h : fitsWord value = false) : IsUnreadable (.integer value)
  /-- A double that is not finite. -/
  | float {value : Double} (h : value.isFinite = false) : IsUnreadable (.float value)
  /-- A name that is read as something else, or not at all. -/
  | identifier {name : String} (h : ofText? name ≠ some (.identifier name)) :
    IsUnreadable (.identifier name)
  /-- A literal of no kind. -/
  | unspecified : IsUnreadable .unspecified

/-- A text is read as a literal of the same kind and value. -/
def IsReadFrom (v : Literal) (text : String) : Prop :=
  ∃ w, ofText? text = some w ∧ w.sameValue v = true

theorem not_isUnreadable_of_ofText? {text : String} {v : Literal} (h : ofText? text = some v) :
    ¬v.IsUnreadable := by
  intro hv
  cases hv with
  | @integer value hfits =>
    obtain ⟨i, hi, hword⟩ : ∃ i, integer value = .integer i ∧ fitsWord i = true := by
      simpa using ofText?_cases h
    rw [← Literal.integer.inj hi, hfits] at hword
    cases hword
  | @float value hfinite =>
    obtain ⟨x, hx, hfinite'⟩ : ∃ x, float value = .float x ∧ x.isFinite = true := by
      simpa using ofText?_cases h
    rw [← Literal.float.inj hx, hfinite] at hfinite'
    cases hfinite'
  | @identifier name hname =>
    have htrim : name = String.ofList (trim text.toList) := by simpa using ofText?_cases h
    refine hname ?_
    rw [htrim, ofText?_trim, ← htrim, h]
  | unspecified => simpa using ofText?_cases h

/-- Literals of the same kind and value are both read from texts or both not. -/
theorem IsUnreadable.of_sameValue {v w : Literal} (h : v.IsUnreadable)
    (hw : w.sameValue v = true) : w.IsUnreadable := by
  cases w with
  | float x =>
    cases v with
    | float y =>
      cases h with
      | float hfinite => exact .float ((Double.isFinite_of_sameValue hw).trans hfinite)
    | _ => simp [sameValue] at hw
  | _ =>
    obtain rfl : _ = v := by simpa [sameValue] using hw
    exact h

theorem isReadFrom_of_returns {v : Literal} (h : v.Returns) (hv : v.sameValue v = true) :
    ∃ text, v.IsReadFrom text := by
  obtain ⟨text, -, htext⟩ := h
  exact ⟨text, v, htext, hv⟩

/-- A literal is read from some text unless it is one of those that no text is read as. -/
theorem isReadFrom_iff {v : Literal} : (∃ text, v.IsReadFrom text) ↔ ¬v.IsUnreadable := by
  constructor
  · rintro ⟨text, w, hw, hsame⟩ hv
    exact not_isUnreadable_of_ofText? hw (hv.of_sameValue hsame)
  · intro hv
    cases v with
    | string value =>
      have hread : ofText? (String.ofList ('\'' :: (value.toList ++ ['\'']))) =
          some (.string value) := by
        rw [ofText?_string String.toList_ofList (by decide), String.ofList_toList]
      exact ⟨_, _, hread, by simp [sameValue]⟩
    | integer value =>
      have hfits : fitsWord value = true := by
        by_contra hfits
        exact hv (.integer (by simpa using hfits))
      exact isReadFrom_of_returns (readsBack_integer hfits).returns (by simp [sameValue])
    | float value =>
      have hfinite : value.isFinite = true := by
        by_contra hfinite
        exact hv (.float (by simpa using hfinite))
      exact isReadFrom_of_returns (readsBack_float hfinite).returns (Double.sameValue_self hfinite)
    | boolean value =>
      exact isReadFrom_of_returns (readsBack_boolean value).returns (by simp [sameValue])
    | null => exact isReadFrom_of_returns readsBack_null.returns (by simp [sameValue])
    | identifier name =>
      by_cases hname : ofText? name = some (.identifier name)
      · exact ⟨name, _, hname, by simp [sameValue]⟩
      · exact absurd (.identifier hname) hv
    | unspecified => exact absurd .unspecified hv

/-! ## Spelling what cannot be read -/

/-- The literals that no text is read as and that are spelled nevertheless. -/
inductive IsMisspelled : Literal → Prop
  /-- A whole number beyond 64 bits that is short enough to be written. -/
  | integer {value : Int} (h : fitsWord value = false) (hshort : isOverlong value = false) :
    IsMisspelled (.integer value)
  /-- A name that is read as something else, or not at all. -/
  | identifier {name : String} (h : ofText? name ≠ some (.identifier name)) :
    IsMisspelled (.identifier name)

theorem IsMisspelled.isUnreadable {v : Literal} (h : v.IsMisspelled) : v.IsUnreadable := by
  cases h with
  | integer h _ => exact .integer h
  | identifier h => exact .identifier h

/-- A whole number beyond 64 bits is spelled by the text of a double, or else of a name. -/
theorem ofText?_beyond_word {value : Int} (h : fitsWord value = false)
    (hshort : isOverlong value = false) :
    ofText? (toString value) =
      some (ofDouble (Numeral.ofInt value).toDouble (toString value)) := by
  have hinteger : (Numeral.ofInt value).isInteger = true := rfl
  have hlength : ¬digitLimit < (Numeral.ofInt value).whole.length :=
    Nat.not_lt.mpr (Numeral.length_ofInt_le_iff.mpr hshort)
  rw [ofText?_number (Numeral.ofChars?_toString value), ofNumeral?, if_pos hinteger,
    if_neg hlength, Numeral.toInt_ofInt, h, if_neg Bool.false_ne_true]

/-- How spelling a literal ends. -/
structure SpellingOutcome (v : Literal) : Prop where
  /-- A literal that no text is read as is refused, unless it is misspelled. -/
  refused : v.IsUnreadable → ((∃ cause, v.spelling = .error cause) ↔ ¬v.IsMisspelled)
  /-- A literal that a text is read as is refused only if it is a string with both quotes. -/
  spelled : ¬v.IsUnreadable → ((∃ cause, v.spelling = .error cause) ↔
    ∃ value, v = .string value ∧ '\'' ∈ value.toList ∧ '"' ∈ value.toList)
  /-- The text of a literal is read as the literal exactly if it is not misspelled. -/
  returned : ∀ text, v.spelling = .ok text → (v.IsReadFrom text ↔ ¬v.IsMisspelled)

/-- A literal that is read back is not refused. -/
theorem ReadsBack.spellingOutcome {v : Literal} (h : v.ReadsBack) (hreadable : ¬v.IsUnreadable)
    (hv : v.sameValue v = true) : v.SpellingOutcome := by
  have hmisspelled : ¬v.IsMisspelled := fun hmis => hreadable hmis.isUnreadable
  obtain ⟨spelled, hspelled, hread⟩ := h.returns
  refine ⟨fun hun => absurd hun hreadable, fun _ => ⟨?_, ?_⟩, fun text htext => ?_⟩
  · rintro ⟨cause, hcause⟩
    rw [hspelled] at hcause
    cases hcause
  · rintro ⟨value, rfl, hboth⟩
    rw [spelling_string_eq_error_iff.mpr ⟨rfl, hboth⟩] at hspelled
    cases hspelled
  · obtain rfl := Except.ok.inj (hspelled.symm.trans htext)
    exact iff_of_true ⟨v, hread, hv⟩ hmisspelled

/-- A literal that is refused is not misspelled. -/
theorem SpellingOutcome.of_error {v : Literal} {cause : Unspellable}
    (h : v.spelling = .error cause) (hmisspelled : ¬v.IsMisspelled)
    (hstring : ¬v.IsUnreadable →
      ∃ value, v = .string value ∧ '\'' ∈ value.toList ∧ '"' ∈ value.toList) :
    v.SpellingOutcome := by
  refine ⟨fun _ => iff_of_true ⟨cause, h⟩ hmisspelled,
    fun hreadable => iff_of_true ⟨cause, h⟩ (hstring hreadable), fun text htext => ?_⟩
  rw [h] at htext
  cases htext

/-- A literal that is misspelled is not refused, and its text is not read as it. -/
theorem IsMisspelled.spellingOutcome {v : Literal} (h : v.IsMisspelled) {text : String}
    (htext : v.spelling = .ok text) : v.SpellingOutcome := by
  have hnone : ¬∃ text, v.IsReadFrom text := mt isReadFrom_iff.mp (not_not_intro h.isUnreadable)
  refine ⟨fun _ => iff_of_false ?_ (not_not_intro h), fun hreadable =>
    absurd h.isUnreadable hreadable, fun text' _ => iff_of_false ?_ (not_not_intro h)⟩
  · rintro ⟨cause, hcause⟩
    rw [htext] at hcause
    cases hcause
  · exact fun hread => hnone ⟨text', hread⟩

theorem spellingOutcome (v : Literal) : v.SpellingOutcome := by
  cases v with
  | string value =>
    have hreadable : ¬(string value).IsUnreadable := nofun
    by_cases hboth : '\'' ∈ value.toList ∧ '"' ∈ value.toList
    · exact .of_error (spelling_string_eq_error_iff.mpr ⟨rfl, hboth⟩) nofun
        fun _ => ⟨value, rfl, hboth⟩
    · exact (readsBack_string hboth).spellingOutcome hreadable (by simp [sameValue])
  | integer value =>
    cases hfits : fitsWord value with
    | true =>
      have hreadable : ¬(integer value).IsUnreadable := by
        rintro ⟨hbeyond⟩
        rw [hfits] at hbeyond
        cases hbeyond
      exact (readsBack_integer hfits).spellingOutcome hreadable (by simp [sameValue])
    | false =>
      cases hlong : isOverlong value with
      | false => exact (IsMisspelled.integer hfits hlong).spellingOutcome (if_neg (by simp [hlong]))
      | true =>
        have hmisspelled : ¬(integer value).IsMisspelled := by
          rintro ⟨-, hshort⟩
          rw [hlong] at hshort
          cases hshort
        exact .of_error (if_pos hlong) hmisspelled fun hreadable =>
          absurd (.integer hfits) hreadable
  | float value =>
    cases hfinite : value.isFinite with
    | true =>
      have hreadable : ¬(float value).IsUnreadable := by
        rintro (_ | ⟨hnot⟩)
        rw [hfinite] at hnot
        cases hnot
      exact (readsBack_float hfinite).spellingOutcome hreadable (Double.sameValue_self hfinite)
    | false =>
      exact .of_error (if_neg (by simp [hfinite])) nofun fun hreadable =>
        absurd (.float hfinite) hreadable
  | boolean value =>
    exact (readsBack_boolean value).spellingOutcome nofun (by simp [sameValue])
  | null => exact readsBack_null.spellingOutcome nofun (by simp [sameValue])
  | identifier name =>
    by_cases hname : ofText? name = some (.identifier name)
    · have hmisspelled : ¬(identifier name).IsMisspelled := by
        rintro (_ | ⟨hnot⟩)
        exact hnot hname
      have hreadable : ¬(identifier name).IsUnreadable := by
        rintro (_ | _ | ⟨hnot⟩)
        exact hnot hname
      refine ⟨fun hun => absurd hun hreadable, fun _ => iff_of_false ?_ ?_, fun text htext => ?_⟩
      · rintro ⟨cause, hcause⟩
        cases hcause
      · rintro ⟨value, hvalue, -⟩
        cases hvalue
      · obtain rfl : name = text := Except.ok.inj htext
        exact iff_of_true ⟨_, hname, by simp [sameValue]⟩ hmisspelled
    · exact (IsMisspelled.identifier hname).spellingOutcome rfl
  | unspecified => exact .of_error rfl nofun fun hreadable => absurd .unspecified hreadable

/-- Which literals are refused, and which are spelled by a text that is not read as them: of those
    that no text is read as, all are refused but names, and whole numbers beyond 64 bits that are
    short enough; the text of such a number is read as a double, or as a name if it is too great for
    one. -/
theorem spelling_characterised (v : Literal) :
    ((∃ text, v.IsReadFrom text) ↔ ¬v.IsUnreadable) ∧ v.SpellingOutcome ∧
      ∀ value, v = .integer value → v.IsMisspelled → v.spelling = .ok (toString value) ∧
        ofText? (toString value) =
          some (ofDouble (Numeral.ofInt value).toDouble (toString value)) := by
  refine ⟨isReadFrom_iff, v.spellingOutcome, ?_⟩
  rintro value rfl ⟨hbeyond, hshort⟩
  exact ⟨if_neg (by simp [hshort]), ofText?_beyond_word hbeyond hshort⟩

/-- The first whole number beyond 64 bits, and a word that is a truth value, are read from no text
    as a whole number and as a name, and yet are spelled. -/
theorem beyond_word_spelled :
    (¬∃ text, (integer 9223372036854775808).IsReadFrom text) ∧
      spelling (.integer 9223372036854775808) = .ok "9223372036854775808" ∧
      (∃ x, ofText? "9223372036854775808" = some (.float x)) ∧
      (¬∃ text, (identifier "true").IsReadFrom text) ∧
      spelling (.identifier "true") = .ok "true" ∧ ofText? "true" = some (.boolean true) := by
  have htrue : ofText? "true" = some (.boolean true) := by decide +kernel
  have hdouble : ofText? "9223372036854775808" =
      some (.float (Numeral.ofInt 9223372036854775808).toDouble) := by decide +kernel
  have hbeyond : fitsWord 9223372036854775808 = false := by decide
  have hname : ofText? "true" ≠ some (.identifier "true") := by
    rw [htrue]
    exact nofun
  exact ⟨mt isReadFrom_iff.mp (not_not_intro (.integer hbeyond)), by decide +kernel, ⟨_, hdouble⟩,
    mt isReadFrom_iff.mp (not_not_intro (.identifier hname)), rfl, htrue⟩

end Literal

end PatternSql
