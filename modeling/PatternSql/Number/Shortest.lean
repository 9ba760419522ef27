import PatternSql.Number.Numeral

/-!
# The shortest decimal of a double

`Double.shortest` is the decimal number with the fewest digits that reads back as the given double;
among those with that number of digits it is the nearest, and of two equally near ones the even one.
For each number of digits up to seventeen the two neighbours of the value on the grid of that many
digits are read back; seventeen digits always suffice.

Main results:

* `Decimal.value_stripZeros`: dropping zeros at the end of the digits keeps the number.
-/

namespace PatternSql

-- Powers of natural numbers are the core library's, whatever else is imported.
attribute [local instance (high)] instPowNat

/-- A decimal number without zeros at the end of its digits. -/
def Decimal.stripZeros (d : Decimal) : Decimal :=
  if h : 0 < d.coefficient ∧ d.coefficient % 10 = 0 then
    Decimal.stripZeros ⟨d.coefficient / 10, d.exponent + 1⟩
  else d
termination_by d.coefficient
decreasing_by exact Nat.div_lt_self h.1 (by decide)

namespace Double

/-- A magnitude as a quotient of natural numbers. -/
def ratio (coefficient : Nat) (exponent : Int) : Nat × Nat :=
  if 0 ≤ exponent then (coefficient * 2 ^ exponent.toNat, 1)
  else (coefficient, 2 ^ (-exponent).toNat)

/-- The number of decimal digits of a natural number. -/
def digitCount (n : Nat) : Nat :=
  (Nat.toDigits 10 n).length

/-- The greatest exponent of a power of ten that is at most the quotient, which is not zero. -/
def floorLog10 (num den : Nat) : Int :=
  if den ≤ num then digitCount (num / den) - 1
  else
    let k := digitCount (den / num) - 1
    if num * 10 ^ k = den then -(k : Int) else -(k : Int) - 1

/-- A quotient divided by a power of ten, as numerator and denominator. -/
def divideByTens (num den : Nat) (exponent : Int) : Nat × Nat :=
  if 0 ≤ exponent then (num, den * 10 ^ exponent.toNat) else (num * 10 ^ (-exponent).toNat, den)

/-- The better of the two neighbours of a quotient on a decimal grid, of those that read back as the
    given double. -/
def gridPoint? (x : Double) (negative : Bool) (num den : Nat) (exponent : Int) : Option Decimal :=
  let (n, d) := divideByTens num den exponent
  let below : Decimal := ⟨n / d, exponent⟩
  let above : Decimal := ⟨n / d + 1, exponent⟩
  match ofDecimal negative below == x, ofDecimal negative above == x with
  | true, true => some ⟨roundHalfEven n d, exponent⟩
  | true, false => some below
  | false, true => some above
  | false, false => none

/-- The shortest decimal that reads back as the finite double of these parts. -/
def shortest (negative : Bool) (coefficient : Nat) (exponent : Int)
    (h : Canonical coefficient exponent) : Decimal :=
  if coefficient = 0 then ⟨0, 0⟩
  else
    let (num, den) := ratio coefficient exponent
    let leading := floorLog10 num den
    let point? (digits : Nat) : Option Decimal :=
      gridPoint? (.finite negative coefficient exponent h) negative num den (leading - digits)
    ((((List.range 17).findSome? point?).getD ⟨coefficient, exponent⟩)).stripZeros

end Double

/-! ## Lemmas -/

/-- Dropping zeros at the end of the digits keeps the number: the digits dropped are made up for by
    the exponent. -/
theorem Decimal.value_stripZeros (d : Decimal) :
    ∃ k : Nat, d.coefficient = d.stripZeros.coefficient * 10 ^ k ∧
      d.stripZeros.exponent = d.exponent + k := by
  fun_induction Decimal.stripZeros d with
  | case1 d h ih =>
    obtain ⟨k, hc, he⟩ := ih
    refine ⟨k + 1, ?_, ?_⟩
    · have := Nat.div_add_mod d.coefficient 10
      dsimp only at hc
      rw [Nat.pow_succ, ← Nat.mul_assoc, ← hc]
      omega
    · dsimp only at he
      rw [he]
      omega
  | case2 d h => exact ⟨0, by simp, by simp⟩

end PatternSql
