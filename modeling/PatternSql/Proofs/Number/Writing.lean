import PatternSql.Literal.Coercion
import PatternSql.Proofs.Number.Numeral
import PatternSql.Proofs.Number.Shortest

/-!
# Written numbers read back

The text of a number is one numeral from end to end. Wherever the point is put, the numeral has the
value of the decimal that is written, so the text of a finite double is a numeral that is rounded to
this very double. Unless digits that reach the units are written positionally beyond the bound, it
is never taken for a whole number, since there is a point or an exponent.

Main results:

* `NumberStyle.write_spelled`: a decimal is written as a numeral of its value.
* `Double.ofChars?_text`: the text of a finite double reads back.
* `Double.ofChars?_negative`: so does a minus in front of what the exact style makes of it.
* `Numeral.ofChars?_toString`: the text of an integer reads back.
-/

namespace PatternSql

open Text

namespace Numeral

/-! ## Numerals of a decimal -/

/-- A numeral of the given sign that stands for the value of a decimal. -/
structure Denotes (n : Numeral) (negative : Bool) (d : Decimal) : Prop where
  wellFormed : n.WellFormed
  sign : n.negative = negative
  value : n.magnitude.value = d.value
  exponent : n.magnitude.exponent = d.exponent ∨ n.magnitude.exponent = -1

/-- A numeral is rounded like the decimal that it stands for. -/
theorem Denotes.toDouble {n : Numeral} {negative : Bool} {d : Decimal} (h : n.Denotes negative d)
    (hd : d.IsModerate) : n.toDouble = .ofDecimal negative d := by
  have hn : n.magnitude.IsModerate := by
    rcases h.exponent with he | he
    · exact ⟨he ▸ hd.1, he ▸ hd.2⟩
    · exact ⟨by omega, by omega⟩
  rw [Numeral.toDouble, h.sign]
  exact Double.ofDecimal_congr negative hn hd h.value

/-- A spelled numeral is read from end to end. -/
theorem ofChars?_of_spelled {n : Numeral} {cs : List Char} (hn : n.WellFormed)
    (h : n.Spelled cs) : ofChars? cs = some n := by
  have := scan_spelled hn h n.endsBefore_nil
  rw [List.append_nil] at this
  rw [ofChars?, this]

/-- Digits with the point among them: those behind it are counted by the exponent. -/
theorem denotes_point {c : Nat} {e : Int} {whole fraction : List Char} (negative : Bool)
    (hwhole : All isDigit whole) (hfraction : All isDigit fraction) (hne : whole ≠ [])
    (hvalue : digitsValue (whole ++ fraction) = c) (hlength : (fraction.length : Int) = -e) :
    Denotes ⟨negative, whole, some fraction, none⟩ negative ⟨c, e⟩ where
  wellFormed := ⟨hwhole, by rintro _ ⟨⟩; exact hfraction, by rintro _ ⟨⟩, by simp [hne]⟩
  sign := rfl
  value := by
    simp only [magnitude, Option.getD_some, hvalue, hlength]
    norm_num
  exponent := .inl (by simp only [magnitude, Option.getD_some, hlength]; omega)

/-- Digits without a point. -/
theorem denotes_units {c : Nat} {digits : List Char} (negative : Bool)
    (hdigits : All isDigit digits) (hne : digits ≠ []) (hvalue : digitsValue digits = c) :
    Denotes ⟨negative, digits, none, none⟩ negative ⟨c, 0⟩ where
  wellFormed := ⟨hdigits, by rintro _ ⟨⟩, by rintro _ ⟨⟩, by simp [hne]⟩
  sign := rfl
  value := by simp [magnitude, hvalue]
  exponent := .inl (by simp [magnitude])

/-- Digits that are followed by zeros and a point weigh as much more as there are zeros. -/
theorem denotes_whole {c k : Nat} {digits : List Char} (negative : Bool)
    (hdigits : All isDigit digits) (hvalue : digitsValue digits = c) :
    Denotes ⟨negative, digits ++ List.replicate k '0', some ['0'], none⟩ negative ⟨c, k⟩ where
  wellFormed := ⟨all_append.mpr ⟨hdigits, all_replicate k⟩,
    by rintro _ ⟨⟩; exact all_replicate 1, by rintro _ ⟨⟩, by simp⟩
  sign := rfl
  value := by
    have hzero : ['0'] = List.replicate 1 '0' := rfl
    simp only [magnitude, Option.getD_some, hzero, digitsValue_append, digitsValue_replicate,
      List.length_replicate, hvalue, Decimal.value]
    push_cast
    rw [zpow_natCast]
    norm_num
    ring
  exponent := .inr rfl

/-- The digits of an exponent may begin with zeros. -/
theorem denotes_exponent {c : Nat} {e place : Int} {whole : List Char}
    {fraction : Option (List Char)} {k : Nat} (negative : Bool) (hwhole : All isDigit whole)
    (hfraction : ∀ digits ∈ fraction, All isDigit digits) (hne : whole ≠ [])
    (hvalue : digitsValue (whole ++ fraction.getD []) = c)
    (hlength : place - (fraction.getD []).length = e) :
    Denotes ⟨negative, whole, fraction, some (decide (place < 0),
      List.replicate k '0' ++ Nat.toDigits 10 place.natAbs)⟩ negative ⟨c, e⟩ := by
  have hpower : digitsValue (List.replicate k '0' ++ Nat.toDigits 10 place.natAbs) =
      place.natAbs := by
    rw [digitsValue_append, digitsValue_replicate, digitsValue_toDigits, Nat.zero_mul, Nat.zero_add]
  have hmagnitude : Numeral.magnitude ⟨negative, whole, fraction, some (decide (place < 0),
      List.replicate k '0' ++ Nat.toDigits 10 place.natAbs)⟩ = ⟨c, e⟩ := by
    rcases lt_or_ge place 0 with hplace | hplace
    · simp only [magnitude, hvalue, hplace, decide_true, hpower, Decimal.mk.injEq, true_and]
      omega
    · simp only [magnitude, hvalue, hplace.not_gt, decide_false, hpower, Decimal.mk.injEq,
        true_and]
      omega
  refine ⟨⟨hwhole, hfraction, ?_, by simp [hne]⟩, rfl, by rw [hmagnitude],
    .inl (by rw [hmagnitude])⟩
  rintro _ ⟨⟩
  refine ⟨all_append.mpr ⟨all_replicate k, all_toDigits _⟩, ?_⟩
  simp [Nat.toDigits_ne_nil]

end Numeral

namespace NumberStyle

open Numeral

variable {c : Nat} {e : Int} {digits : List Char} {style : NumberStyle}

/-- Digits written with a point and no exponent, or without either where they reach the units. -/
theorem positional_spelled (negative : Bool) (hdigits : All isDigit digits) (hne : digits ≠ [])
    (hvalue : digitsValue digits = c) {place : Int} (hplace : place = e + digits.length - 1)
    (hpositional : style.isPositional digits place = true) :
    ∃ n : Numeral, n.Denotes negative ⟨c, e⟩ ∧
      n.Spelled (signText negative ++ style.positional digits place) ∧
      (style.wholeDigits = false → n.isInteger = false) := by
  have hlength := List.length_pos_iff.mpr hne
  unfold positional
  split
  · refine ⟨⟨negative, ['0'], some (List.replicate (-place - 1).toNat '0' ++ digits), none⟩,
      denotes_point negative (all_replicate 1) (all_append.mpr ⟨all_replicate _, hdigits⟩)
        (by simp) ?_ ?_, ⟨_, .none, by simp [fractionText]⟩, fun _ => rfl⟩
    · have hzero : ['0'] = List.replicate 1 '0' := rfl
      rw [hzero, ← List.append_assoc, ← List.replicate_add, digitsValue_append,
        digitsValue_replicate, hvalue, Nat.zero_mul, Nat.zero_add]
    · rw [List.length_append, List.length_replicate]
      omega
  · rename_i hunits
    obtain ⟨k, hk⟩ : ∃ k : Nat, place = k := Int.eq_ofNat_of_zero_le (by omega)
    subst hk
    dsimp only
    rw [Int.toNat_natCast]
    split
    · rename_i hle
      obtain ⟨j, rfl⟩ : ∃ j : Nat, e = j := Int.eq_ofNat_of_zero_le (by omega)
      have hj : k + 1 - digits.length = j := by omega
      rw [hj]
      by_cases hbound : (k : Int) < style.bound
      · rw [if_pos hbound]
        exact ⟨_, denotes_whole negative hdigits hvalue, ⟨_, .none, by simp [fractionText]⟩,
          fun _ => rfl⟩
      · -- Beyond the bound only digits that reach the units, and no further, are positional.
        have hwhole : style.wholeDigits = true ∧ (k : Int) < digits.length := by
          simpa [isPositional, hbound] using (Bool.and_eq_true_iff.mp hpositional).2
        obtain rfl : j = 0 := by omega
        rw [if_neg hbound]
        exact ⟨_, denotes_units negative hdigits hne hvalue, ⟨_, .none, by simp [fractionText]⟩,
          fun h => absurd (hwhole.1.symm.trans h) (by decide)⟩
    · refine ⟨⟨negative, digits.take (k + 1), some (digits.drop (k + 1)), none⟩,
        denotes_point negative (fun c hc => hdigits c (List.mem_of_mem_take hc))
          (fun c hc => hdigits c (List.mem_of_mem_drop hc)) (by simp [hne]) ?_ ?_,
        ⟨_, .none, by simp [fractionText]⟩, fun _ => rfl⟩
      · rw [List.take_append_drop, hvalue]
      · rw [List.length_drop]
        omega

/-- Digits written with an exponent. -/
theorem scientific_spelled (negative : Bool) (hmark : style.mark = 'e' ∨ style.mark = 'E')
    (hdigits : All isDigit digits) (hne : digits ≠ []) (hvalue : digitsValue digits = c)
    {place : Int} (hplace : place = e + digits.length - 1) :
    ∃ n : Numeral, n.Denotes negative ⟨c, e⟩ ∧
      n.Spelled (signText negative ++ style.scientific digits place) ∧ n.isInteger = false := by
  obtain ⟨d, ds, rfl⟩ := List.exists_cons_of_ne_nil hne
  obtain ⟨hd, hds⟩ := all_cons.mp hdigits
  refine ⟨⟨negative, [d], if ds = [] then none else some ds, some (decide (place < 0),
      List.replicate (style.exponentWidth - (Nat.toDigits 10 place.natAbs).length) '0' ++
        Nat.toDigits 10 place.natAbs)⟩,
    denotes_exponent negative (all_cons.mpr ⟨hd, all_nil⟩) ?_ (by simp) ?_ ?_, ?_,
    Bool.and_false _⟩
  · intro digits h
    split at h
    · exact nomatch h
    · exact Option.some.inj h ▸ hds
  · split
    · rename_i hnil
      rw [← hvalue, hnil]
      rfl
    · exact hvalue
  · rw [hplace, List.length_cons]
    split
    · rename_i hnil
      rw [hnil]
      simp
    · rw [Option.getD_some]
      omega
  · have hfraction : fractionText (if ds = [] then none else some ds) =
        if (d :: ds).length ≤ 1 then [] else '.' :: ds := by
      cases ds <;> simp [fractionText]
    unfold scientific Spelled
    dsimp only
    rw [hfraction]
    rcases lt_or_ge place 0 with hneg | hpos
    · rw [decide_eq_true hneg, if_pos hneg]
      exact ⟨_, .minus hmark, by simp⟩
    · rw [decide_eq_false hpos.not_gt, if_neg hpos.not_gt]
      exact ⟨_, .plus hmark, by simp⟩

/-- A decimal in a style, with its sign in front. -/
theorem write_spelled (style : NumberStyle) (hmark : style.mark = 'e' ∨ style.mark = 'E')
    (negative : Bool) (d : Decimal) :
    ∃ n : Numeral, n.Denotes negative d ∧ n.Spelled (signText negative ++ style.write d) ∧
      (style.wholeDigits = false → n.isInteger = false) := by
  have hdigits := all_toDigits d.coefficient
  have hvalue := digitsValue_toDigits d.coefficient
  have hne := Nat.toDigits_ne_nil (b := 10) (n := d.coefficient)
  unfold write
  dsimp only
  generalize Nat.toDigits 10 d.coefficient = digits at hdigits hvalue hne ⊢
  split
  · rename_i hpositional
    exact positional_spelled negative hdigits hne hvalue rfl hpositional
  · obtain ⟨n, hn, hspelled, hinteger⟩ :=
      scientific_spelled negative hmark hdigits hne hvalue rfl
    exact ⟨n, hn, hspelled, fun _ => hinteger⟩

end NumberStyle

/-! ## Doubles -/

namespace Double

/-- The text of a finite double is a numeral, not a whole number, that is rounded to the double. -/
theorem ofChars?_text {x : Double} (h : x.isFinite = true) :
    ∃ n, Numeral.ofChars? x.text.toList = some n ∧ n.isInteger = false ∧ n.toDouble = x := by
  cases x with
  | infinite negative => exact nomatch h
  | nan => exact nomatch h
  | finite negative m e hcanonical =>
    obtain ⟨hmoderate, hread⟩ := ofDecimal_shortest negative hcanonical
    obtain ⟨n, hn, hspelled, hinteger⟩ :=
      NumberStyle.plain.write_spelled (.inl rfl) negative (shortest negative m e hcanonical)
    refine ⟨n, ?_, hinteger rfl, (hn.toDouble hmoderate).trans hread⟩
    rw [Double.text, Double.write, String.toList_ofList]
    have hsign : (if negative = true then '-' :: NumberStyle.plain.write
        (shortest negative m e hcanonical) else NumberStyle.plain.write
        (shortest negative m e hcanonical)) = Numeral.signText negative ++
          NumberStyle.plain.write (shortest negative m e hcanonical) := by
      cases negative <;> rfl
    rw [hsign]
    exact Numeral.ofChars?_of_spelled hn.wellFormed hspelled

/-- A double with the given sign. -/
def withSign (negative : Bool) : Double → Double
  | finite _ m e h => finite negative m e h
  | infinite _ => infinite negative
  | nan => nan

theorem withSign_pack (a b : Bool) (m : Nat) (e : Int) :
    (pack a m e).withSign b = pack b m e := by
  unfold pack
  dsimp only
  split <;> split <;> rfl

theorem withSign_ofRatio (a b : Bool) (num den : Nat) :
    (ofRatio a num den).withSign b = ofRatio b num den := by
  unfold ofRatio
  split
  · rfl
  · exact withSign_pack a b _ _

/-- The sign of a decimal takes no part in its rounding. -/
theorem withSign_ofDecimal (a b : Bool) (d : Decimal) :
    (ofDecimal a d).withSign b = ofDecimal b d := by
  unfold ofDecimal
  split_ifs
  · rfl
  · rfl
  · rfl
  · exact withSign_ofRatio a b _ _
  · exact withSign_ofRatio a b _ _

/-- A minus in front of the exact text of a magnitude is a numeral that is rounded to the negative
    double. -/
theorem ofChars?_negative {m : Nat} {e : Int} (h : Canonical m e) :
    ∃ n, Numeral.ofChars? ('-' :: ((finite false m e h).write .exact).toList) = some n ∧
      n.toDouble = finite true m e h := by
  obtain ⟨hmoderate, hread⟩ := ofDecimal_shortest false h
  obtain ⟨n, hn, hspelled, -⟩ :=
    NumberStyle.exact.write_spelled (.inr rfl) true (shortest false m e h)
  have hrounded : ofDecimal true (shortest false m e h) = finite true m e h := by
    rw [← withSign_ofDecimal false true, hread]
    rfl
  refine ⟨n, ?_, (hn.toDouble hmoderate).trans hrounded⟩
  rw [Double.write, String.toList_ofList]
  exact Numeral.ofChars?_of_spelled hn.wellFormed hspelled

end Double

/-! ## Integers -/

namespace Numeral

/-- The numeral of an integer. -/
def ofInt (i : Int) : Numeral :=
  ⟨decide (i < 0), Nat.toDigits 10 i.natAbs, none, none⟩

theorem toInt_ofInt (i : Int) : (ofInt i).toInt = i := by
  unfold ofInt toInt
  rw [digitsValue_toDigits]
  by_cases hi : i < 0
  · rw [decide_eq_true hi, if_pos rfl]
    omega
  · rw [decide_eq_false hi, if_neg (by simp)]
    omega

/-- The text of an integer is its numeral. -/
theorem ofChars?_toString (i : Int) : ofChars? (toString i).toList = some (ofInt i) := by
  refine ofChars?_of_spelled ⟨all_toDigits _, by rintro _ ⟨⟩, by rintro _ ⟨⟩, ?_⟩
    ⟨[], .none, ?_⟩
  · simp [ofInt, Nat.toDigits_ne_nil]
  · rw [Int.toString_eq_repr, Int.repr_eq_if]
    unfold ofInt
    split
    · rename_i hi
      have habs : i.toNat = i.natAbs := by omega
      rw [decide_eq_false (by omega), Nat.toList_repr, habs]
      simp [signText, fractionText]
    · rename_i hi
      have habs : (-i).toNat = i.natAbs := by omega
      rw [decide_eq_true (by omega), String.toList_append, Nat.toList_repr, habs]
      simp [signText, fractionText]

theorem length_ofInt_le_iff {i : Int} :
    (ofInt i).whole.length ≤ digitLimit ↔ Literal.isOverlong i = false := by
  rw [Literal.isOverlong, decide_eq_false_iff_not, Nat.not_lt]
  rfl

/-- Whole numbers of 64 bits are short enough to be read. -/
theorem length_ofInt_le {i : Int} (h : Literal.fitsWord i = true) :
    (ofInt i).whole.length ≤ digitLimit := by
  simp only [Literal.fitsWord, Bool.and_eq_true, decide_eq_true_eq] at h
  refine (Nat.length_toDigits_le_iff (by decide) (by decide)).mpr (Nat.lt_of_lt_of_le ?_
    (Nat.pow_le_pow_right (by decide) (by decide : 19 ≤ digitLimit)))
  omega

end Numeral

end PatternSql
