import PatternSql.Proofs.Literal.Coercion
import PatternSql.Proofs.Number.Nearest
import PatternSql.Proofs.Number.Writing

/-!
# The numbers that numerals stand for

A numeral stands for a rational number, and for no other: the number of its digits, with those
behind the point as decimals, times a power of ten, with its sign. As a literal a numeral is this
very number if it is written as a whole number of 64 bits; else it is the nearest double, which
keeps the sign of a zero; and where no finite double is nearest it is a name.

Main results:

* `Numeral.magnitude_value`: what is rounded is the number that the numeral stands for.
* `Literal.ofNumeral?_meets`: a numeral that is not too long has the literal that its number
  demands.
-/

namespace PatternSql

open Text

namespace Numeral

/-! ## Values -/

/-- The power of ten that a numeral is multiplied by. -/
def power (n : Numeral) : Int :=
  match n.exponent with
  | none => 0
  | some (true, digits) => -(digitsValue digits : Int)
  | some (false, digits) => digitsValue digits

/-- The magnitude of the digits of a numeral before it is multiplied: those behind the point are
    decimals. -/
def significand (n : Numeral) : ℚ :=
  digitsValue n.whole + digitsValue (n.fraction.getD []) / 10 ^ (n.fraction.getD []).length

/-- The number that a numeral stands for. -/
def value (n : Numeral) : ℚ :=
  Double.signed n.negative (n.significand * (10 : ℚ) ^ n.power)

/-- A numeral is written as a whole number and fits 64 bits with a sign. -/
structure IsWord (n : Numeral) : Prop where
  integer : n.isInteger = true
  low : -2 ^ 63 ≤ n.value
  high : n.value ≤ 2 ^ 63 - 1

/-- The digits of a numeral, read as one number and scaled by the places behind the point, are its
    magnitude. -/
theorem magnitude_value (n : Numeral) :
    n.value = Double.signed n.negative n.magnitude.value := by
  have hmagnitude : n.magnitude.value =
      (digitsValue (n.whole ++ n.fraction.getD []) : ℚ) *
        (10 : ℚ) ^ (n.power - (n.fraction.getD []).length) := rfl
  have hten : (10 : ℚ) ≠ 0 := by norm_num
  rw [value, significand, hmagnitude, digitsValue_append, zpow_sub₀ hten, zpow_natCast]
  push_cast
  congr 1
  field_simp

theorem abs_value (n : Numeral) : |n.value| = n.magnitude.value := by
  rw [magnitude_value, Double.abs_signed, abs_of_nonneg n.magnitude.value_nonneg]

/-- A numeral without point and exponent stands for the whole number of its digits. -/
theorem toInt_value {n : Numeral} (h : n.isInteger = true) : (n.toInt : ℚ) = n.value := by
  obtain ⟨hfraction, hexponent⟩ := isInteger_iff.mp h
  have hvalue : n.value = Double.signed n.negative (digitsValue n.whole) := by
    simp [value, significand, power, hfraction, hexponent]
  rw [hvalue, toInt, Double.signed]
  split <;> push_cast <;> rfl

theorem value_ofInt (i : Int) : (ofInt i).value = i := by
  rw [← toInt_value rfl, toInt_ofInt]

/-- The texts that are one numeral are its spellings. -/
theorem ofChars?_eq_some_iff_spelled {cs : List Char} {n : Numeral} :
    ofChars? cs = some n ↔ n.WellFormed ∧ n.Spelled cs := by
  constructor
  · intro h
    obtain ⟨hn, -, spelled, hspelled, htext⟩ := scan_eq_some_iff.mp (ofChars?_eq_some_iff.mp h)
    rw [List.append_nil] at htext
    exact ⟨hn, htext ▸ hspelled⟩
  · exact fun h => ofChars?_of_spelled h.1 h.2

theorem isWord_iff {n : Numeral} (h : n.isInteger = true) :
    n.IsWord ↔ Literal.fitsWord n.toInt = true := by
  have hlow : -2 ^ 63 ≤ n.value ↔ -0x8000000000000000 ≤ n.toInt := by
    rw [← toInt_value h]
    norm_cast
  have hhigh : n.value ≤ 2 ^ 63 - 1 ↔ n.toInt ≤ 0x7fffffffffffffff := by
    rw [← toInt_value h]
    norm_cast
  rw [Literal.fitsWord, Bool.and_eq_true, decide_eq_true_eq, decide_eq_true_eq, ← hlow, ← hhigh]
  exact ⟨fun h => ⟨h.low, h.high⟩, fun hbounds => ⟨h, hbounds.1, hbounds.2⟩⟩

/-! ## Doubles -/

/-- Below the bound a numeral is rounded to the nearest double of its sign. -/
theorem toDouble_isNearest {n : Numeral} (h : |n.value| < Double.bound) :
    n.toDouble.IsNearest n.value ∧ n.toDouble.isNegative = n.negative := by
  rw [abs_value] at h
  rw [magnitude_value]
  exact Double.ofDecimal_isNearest n.negative h

/-- The double of a numeral is finite exactly below the bound. -/
theorem toDouble_isFinite_iff {n : Numeral} :
    n.toDouble.isFinite = true ↔ |n.value| < Double.bound := by
  constructor
  · intro hfinite
    by_contra hbound
    rw [abs_value, not_lt] at hbound
    rw [toDouble, Double.ofDecimal_eq_infinite n.negative hbound] at hfinite
    cases hfinite
  · exact fun h => (toDouble_isNearest h).1.finite

/-- What fits 64 bits is far from the bound. -/
theorem IsWord.abs_lt {n : Numeral} (h : n.IsWord) : |n.value| < Double.bound := by
  have hword : |n.value| ≤ 2 ^ 63 := abs_le.mpr ⟨h.low, by linarith [h.high]⟩
  linarith [Double.le_bound]

end Numeral

namespace Literal

/-! ## Literals -/

/-- The literal that a numeral of a given text has to be: the number that it stands for if it is
    written as a whole number of 64 bits; else, below the bound, the nearest double of its sign; and
    else its text as a name. -/
inductive Meets (n : Numeral) (text : String) : Literal → Prop
  | integer {i : Int} (word : n.IsWord) (value : (i : ℚ) = n.value) : Meets n text (.integer i)
  | float {x : Double} (word : ¬n.IsWord) (bound : |n.value| < Double.bound)
      (nearest : x.IsNearest n.value) (sign : x.isNegative = n.negative) : Meets n text (.float x)
  | identifier (bound : Double.bound ≤ |n.value|) : Meets n text (.identifier text)

/-- From the bound on nothing but a name will do. -/
theorem Meets.eq_identifier {n : Numeral} {text : String} {literal : Literal}
    (h : Meets n text literal) (hbound : Double.bound ≤ |n.value|) :
    literal = .identifier text := by
  cases h with
  | integer hword => exact absurd hword.abs_lt (not_lt.mpr hbound)
  | float _ hbelow => exact absurd hbelow (not_lt.mpr hbound)
  | identifier => rfl

theorem meets_ofDouble {n : Numeral} (text : String) (h : ¬n.IsWord) :
    Meets n text (ofDouble n.toDouble text) := by
  unfold ofDouble
  split
  · rename_i hfinite
    have hbound := Numeral.toDouble_isFinite_iff.mp hfinite
    obtain ⟨hnearest, hsign⟩ := Numeral.toDouble_isNearest hbound
    exact .float h hbound hnearest hsign
  · rename_i hfinite
    exact .identifier (not_lt.mp fun hbound => hfinite (Numeral.toDouble_isFinite_iff.mpr hbound))

/-- A numeral that is not too long has the literal that it has to be. -/
theorem ofNumeral?_meets {n : Numeral} (text : String)
    (h : n.isInteger = true → n.whole.length ≤ digitLimit) :
    ∃ literal, ofNumeral? n text = some literal ∧ Meets n text literal := by
  unfold ofNumeral?
  split
  · rename_i hinteger
    rw [if_neg (Nat.not_lt.mpr (h hinteger))]
    split
    · rename_i hword
      exact ⟨_, rfl, .integer ((Numeral.isWord_iff hinteger).mpr hword)
        (Numeral.toInt_value hinteger)⟩
    · rename_i hword
      exact ⟨_, rfl, meets_ofDouble text fun h => hword ((Numeral.isWord_iff hinteger).mp h)⟩
  · rename_i hinteger
    exact ⟨_, rfl, meets_ofDouble text fun h => hinteger h.integer⟩

/-- A text that spells a numeral that is not too long is read as the literal that the numeral has
    to be. -/
theorem ofText?_meets {text : String} {n : Numeral} (hn : n.WellFormed)
    (htext : n.Spelled text.toList) (h : n.isInteger = true → n.whole.length ≤ digitLimit) :
    ∃ literal, ofText? text = some literal ∧ Meets n text literal := by
  rw [ofText?_number (Numeral.ofChars?_of_spelled hn htext)]
  exact ofNumeral?_meets text h

end Literal

end PatternSql
