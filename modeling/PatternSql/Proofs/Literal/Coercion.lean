import PatternSql.Pattern.Meaning
import PatternSql.Proofs.Token.Shape

/-!
# The literals of values

What the text of a value stands for is decided by its terminal, up to the words that are literals: a
word is a truth value, null or a name, what stands between quotes is a string, and a numeral is a
number. So only numbers can lack a meaning.

Main results:

* `Literal.ofText?_word`, `Literal.ofText?_string`, `Literal.ofText?_number`: the literal of a text
  by its shape.
* `valueMeaning_spec`: a value means what its text stands for.
* `valueMeaning_isOk`: a value of bounded size has a meaning.
-/

namespace PatternSql

open Text

/-! ## Texts without blanks -/

theorem trim_eq_of_all {cs : List Char} (h : All (fun c => !isBlank c) cs) : trim cs = cs := by
  cases cs with
  | nil => rfl
  | cons c cs =>
    have hne := List.cons_ne_nil c cs
    have hlast := h _ (List.getLast_mem hne)
    exact trim_eq_self (by simpa using (all_cons.mp h).1) (by simpa using hlast)
      (List.getLast?_eq_some_getLast hne)

/-- A blank is no digit. -/
theorem isBlank_of_isDigit {c : Char} (h : isDigit c = true) : isBlank c = false := by
  by_contra hblank
  rw [Bool.not_eq_false, isBlank, Ranges.has_iff] at hblank
  obtain ⟨range, hrange, hlow, hhigh⟩ := hblank
  have hall : ∀ range ∈ blankRanges, ∀ code ∈ List.range' range.1 (range.2 + 1 - range.1),
      isDigit (Char.ofNat code) = false := by decide +kernel
  have hcode := hall range hrange c.toNat (List.mem_range'_1.mpr ⟨hlow, by omega⟩)
  rw [Char.ofNat_toNat, h] at hcode
  exact absurd hcode (by decide)

namespace Numeral

theorem all_of_digits {cs : List Char} (h : All isDigit cs) : All (fun c => !isBlank c) cs := by
  intro c hc
  simp [isBlank_of_isDigit (h c hc)]

/-- There are no blanks in a spelled numeral. -/
theorem all_of_spelled {n : Numeral} {cs : List Char} (hn : n.WellFormed) (h : n.Spelled cs) :
    All (fun c => !isBlank c) cs := by
  obtain ⟨x, hx, rfl⟩ := h
  rw [all_append, all_append, all_append]
  refine ⟨?_, all_of_digits hn.whole, ?_, ?_⟩
  · cases n.negative
    · exact all_nil
    · exact all_cons.mpr ⟨by decide, all_nil⟩
  · cases hf : n.fraction with
    | none => exact all_nil
    | some digits => exact all_cons.mpr ⟨by decide, all_of_digits (hn.fraction digits hf)⟩
  · have hexponent := hn.exponent
    generalize n.exponent = e at hx hexponent
    cases hx with
    | none => exact all_nil
    | bare h =>
      refine all_cons.mpr ⟨?_, all_of_digits (hexponent _ rfl).1⟩
      rcases h with rfl | rfl <;> decide
    | plus h =>
      refine all_cons.mpr ⟨?_, all_cons.mpr ⟨by decide, all_of_digits (hexponent _ rfl).1⟩⟩
      rcases h with rfl | rfl <;> decide
    | minus h =>
      refine all_cons.mpr ⟨?_, all_cons.mpr ⟨by decide, all_of_digits (hexponent _ rfl).1⟩⟩
      rcases h with rfl | rfl <;> decide

theorem ofChars?_eq_some_iff {cs : List Char} {n : Numeral} :
    ofChars? cs = some n ↔ scan cs = some (n, []) := by
  unfold ofChars?
  constructor
  · intro h
    split at h
    · rename_i found heq
      rw [heq, Option.some.inj h]
    · simp at h
  · intro h
    rw [h]

/-- A numeral begins neither a name nor a string. -/
theorem head_of_scan {c : Char} {cs : List Char} (h : scan (c :: cs) ≠ none) :
    isNameStart c = false ∧ isQuote c = false := by
  constructor
  · by_contra hc
    have hzero := (plain_rules_of_isNameStart cs (Bool.not_eq_false _ ▸ hc)).1
    have hpos := numberLength_pos_iff.mpr h
    omega
  · by_contra hc
    refine h (scan_eq_none_iff.mpr ?_)
    simp only [isQuote, Bool.not_eq_false, Bool.or_eq_true, beq_iff_eq] at hc
    rcases hc with rfl | rfl <;> rfl

end Numeral

/-! ## The literal of a text -/

namespace Literal

theorem unquote?_of_not_isQuote {c : Char} {cs : List Char} (h : isQuote c = false) :
    unquote? (c :: cs) = none := by
  unfold isQuote at h
  simp only [unquote?, h, Bool.false_and, Bool.false_eq_true, if_false]

/-- A word that is a literal begins with a letter. -/
theorem ofWord?_eq_none {c : Char} {cs : List Char} (h : isNameStart c = false) :
    ofWord? (String.ofList ((c :: cs).map Char.toLower)) = none := by
  have hne (letter : Char) (hletter : 97 ≤ letter.toNat ∧ letter.toNat ≤ 122) :
      c.toLower ≠ letter := by
    rintro rfl
    rw [isNameStart_of_letter (toNat_of_toLower hletter)] at h
    exact absurd h (by decide)
  have hword (word : String) (letter : Char) (hhead : word.toList.head? = some letter)
      (hletter : 97 ≤ letter.toNat ∧ letter.toNat ≤ 122) :
      String.ofList ((c :: cs).map Char.toLower) ≠ word := by
    rintro rfl
    rw [String.toList_ofList, List.map_cons, List.head?_cons, Option.some.injEq] at hhead
    exact hne letter hletter hhead
  unfold ofWord?
  rw [if_neg (hword "true" 't' (by decide) (by decide)),
    if_neg (hword "false" 'f' (by decide) (by decide)),
    if_neg (hword "null" 'n' (by decide) (by decide))]

/-- A word is a truth value, null or a name. -/
theorem ofText?_word {text : String} {c : Char} {cs : List Char} (htext : text.toList = c :: cs)
    (hc : isNameStart c = true) (hcs : All isWord cs) :
    ofText? text = some ((ofWord? (String.ofList ((c :: cs).map Char.toLower))).getD
      (.identifier text)) := by
  have hquote : isQuote c = false := by
    simp only [isQuote, Bool.or_eq_false_iff, beq_eq_false_iff_ne]
    exact ⟨isNameStart_ne hc (by decide), isNameStart_ne hc (by decide)⟩
  have hnumber : Numeral.ofChars? (c :: cs) = none := by
    cases hn : Numeral.ofChars? (c :: cs) with
    | none => rfl
    | some n =>
      have hscan : Numeral.scan (c :: cs) ≠ none := by
        rw [Numeral.ofChars?_eq_some_iff.mp hn]
        simp
      have := (Numeral.head_of_scan hscan).1
      rw [hc] at this
      exact absurd this (by decide)
  rw [ofText?, htext, trim_word hc hcs, ofTrimmed?, unquote?_of_not_isQuote hquote, hnumber,
    ← htext, String.ofList_toList]
  dsimp only
  cases ofWord? (String.ofList (text.toList.map Char.toLower)) <;> rfl

/-- What stands between quotes is a string. -/
theorem ofText?_string {text : String} {q : Char} {cs : List Char}
    (htext : text.toList = q :: (cs ++ [q])) (hq : isQuote q = true) :
    ofText? text = some (.string (String.ofList cs)) := by
  have hunquote : unquote? (q :: (cs ++ [q])) = some cs := by
    unfold isQuote at hq
    simp [unquote?, hq]
  rw [ofText?, htext, trim_string hq, ofTrimmed?, hunquote]

/-- A numeral is a number. -/
theorem ofText?_number {text : String} {n : Numeral}
    (h : Numeral.ofChars? text.toList = some n) : ofText? text = ofNumeral? n text := by
  have hscan := Numeral.ofChars?_eq_some_iff.mp h
  obtain ⟨hn, -, cs, hcs, htext⟩ := Numeral.scan_eq_some_iff.mp hscan
  rw [List.append_nil] at htext
  have htrim : trim text.toList = text.toList := by
    rw [htext]
    exact trim_eq_of_all (Numeral.all_of_spelled hn hcs)
  rw [ofText?, htrim, ofTrimmed?]
  cases htext' : text.toList with
  | nil =>
    rw [htext'] at h
    simp [Numeral.ofChars?, Numeral.scan, Numeral.scanMinus, Numeral.scanFraction] at h
  | cons c cs =>
    rw [htext'] at h hscan
    obtain ⟨hname, hquote⟩ := Numeral.head_of_scan (by rw [hscan]; simp)
    rw [unquote?_of_not_isQuote hquote, ofWord?_eq_none hname, h, ← htext',
      String.ofList_toList]

/-- A numeral that is neither too long nor too great is a whole number or a double. -/
theorem ofNumeral?_of_bounded {n : Numeral} (text : String)
    (hdigits : n.isInteger = true → n.whole.length ≤ digitLimit)
    (hfinite : n.toDouble.isFinite = true) :
    ∃ literal, ofNumeral? n text = some literal ∧ ∀ name, literal ≠ .identifier name := by
  have hdouble : ofDouble n.toDouble text = .float n.toDouble := by
    rw [ofDouble, if_pos hfinite]
  unfold ofNumeral?
  rw [hdouble]
  split
  · rename_i hint
    rw [if_neg (Nat.not_lt.mpr (hdigits hint))]
    split
    · exact ⟨_, rfl, fun name hname => by cases hname⟩
    · exact ⟨_, rfl, fun name hname => by cases hname⟩
  · exact ⟨_, rfl, fun name hname => by cases hname⟩

end Literal

/-! ## Values -/

/-- A number is neither too long nor too great: as a whole number it has at most as many digits as
    are read, and the nearest double is finite. -/
structure Numeral.IsBounded (n : Numeral) : Prop where
  digits : n.isInteger = true → n.whole.length ≤ digitLimit
  finite : n.toDouble.isFinite = true

/-- The terminals of values. -/
theorem isValue_cases {x : Terminal}
    (h : x.isName = true ∨ x.isLiteral = true) : x.isWord = true ∨ x = .string ∨ x = .number := by
  cases x <;> simp_all [Terminal.isName, Terminal.isLiteral, Terminal.isWord]

theorem ne_number_of_isWord {x : Terminal} (h : x.isWord = true) : x ≠ .number := by
  rintro rfl
  exact absurd h (by decide)

/-- A value means what its text stands for, but no numeral is a name. -/
theorem valueMeaning_spec {t : Token} {v : Literal} :
    valueMeaning t = .ok v ↔
      Literal.ofText? t.text = some v ∧ ∀ name, v = .identifier name → t.terminal ≠ .number := by
  unfold valueMeaning
  cases htext : Literal.ofText? t.text with
  | none => simp
  | some literal =>
    rw [Option.some.injEq]
    cases literal with
    | identifier name =>
      dsimp only
      split
      · rename_i hnumber
        constructor
        · intro h
          cases h
        · rintro ⟨rfl, hv⟩
          exact absurd hnumber (hv name rfl)
      · rename_i hnumber
        rw [Except.ok.injEq]
        exact ⟨fun h => ⟨h, fun _ _ => hnumber⟩, fun h => h.1⟩
    | _ =>
      rw [Except.ok.injEq]
      refine ⟨fun h => ⟨h, fun name hname => ?_⟩, fun h => h.1⟩
      rw [← h] at hname
      cases hname

/-- A value of bounded size has a meaning. -/
theorem valueMeaning_isOk {v : Token} (hv : v.IsGenuine)
    (hx : v.terminal.isName = true ∨ v.terminal.isLiteral = true)
    (hbound : v.terminal = .number → ∀ n, Numeral.ofChars? v.text.toList = some n → n.IsBounded) :
    ∃ literal, valueMeaning v = .ok literal := by
  rcases isValue_cases hx with hx | hx | hx
  · obtain ⟨c, cs, htext, hc, hcs, -⟩ := hv.word hx
    exact ⟨_, valueMeaning_spec.mpr
      ⟨Literal.ofText?_word htext hc hcs, fun _ _ => ne_number_of_isWord hx⟩⟩
  · obtain ⟨q, cs, hq, -, htext⟩ := hv.string hx
    exact ⟨_, valueMeaning_spec.mpr
      ⟨Literal.ofText?_string htext hq, fun _ hname => by cases hname⟩⟩
  · obtain ⟨n, hn⟩ := hv.number hx
    obtain ⟨hdigits, hfinite⟩ := hbound hx n hn
    obtain ⟨literal, hliteral, hnot⟩ := Literal.ofNumeral?_of_bounded v.text hdigits hfinite
    exact ⟨literal, valueMeaning_spec.mpr
      ⟨(Literal.ofText?_number hn).trans hliteral, fun name hname => absurd hname (hnot name)⟩⟩

end PatternSql
