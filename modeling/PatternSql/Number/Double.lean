/-!
# Double-precision numbers

A double is a sign, a coefficient below `2^53` and an exponent between `-1074` and `971`, or one of
the values that are no number. Each finite magnitude has one representation: either the coefficient
uses all 53 bits, or the exponent is the least one. `Double.ofRatio` rounds a quotient of natural
numbers to the nearest double, a tie going to the even coefficient, and to infinity where no finite
double is nearest.

Main results:

* `roundHalfEven_le`, `le_roundHalfEven`: rounding leaves the floor of the quotient or adds one.
-/

namespace PatternSql

-- Powers of natural numbers are the core library's, whatever else is imported.
attribute [local instance (high)] instPowNat

/-- The one representation of a finite magnitude: all 53 bits are used, or the exponent is least. -/
def Canonical (coefficient : Nat) (exponent : Int) : Prop :=
  coefficient < 2 ^ (53 : Nat) ∧ -1074 ≤ exponent ∧ exponent ≤ 971 ∧
    (2 ^ (52 : Nat) ≤ coefficient ∨ exponent = -1074)

instance (coefficient : Nat) (exponent : Int) : Decidable (Canonical coefficient exponent) :=
  inferInstanceAs (Decidable (_ ∧ _))

/-- A double-precision number. -/
inductive Double
  /-- The number `± coefficient * 2 ^ exponent`; zero has two signs. -/
  | finite (negative : Bool) (coefficient : Nat) (exponent : Int)
      (canonical : Canonical coefficient exponent)
  /-- One of the two infinities. -/
  | infinite (negative : Bool)
  /-- The value that is not a number. -/
  | nan
  deriving DecidableEq, Repr

namespace Double

/-- The zero of the given sign. -/
def signedZero (negative : Bool) : Double :=
  .finite negative 0 (-1074) (by decide)

/-- Whether a double stands for a number. -/
def isFinite : Double → Bool
  | finite .. => true
  | infinite _ => false
  | nan => false

/-- Equality of values: the two zeros are equal, and what is not a number equals nothing. -/
def sameValue : Double → Double → Bool
  | nan, _ => false
  | _, nan => false
  | finite s m e _, finite t n f _ => m == n && e == f && (s == t || m == 0)
  | infinite s, infinite t => s == t
  | _, _ => false

/-! ## Rounding -/

/-- The quotient rounded to the nearest natural number, a tie going to the even one. -/
def roundHalfEven (num den : Nat) : Nat :=
  let quotient := num / den
  let remainder := num % den
  if 2 * remainder < den then quotient
  else if den < 2 * remainder then quotient + 1
  else if quotient % 2 = 0 then quotient
  else quotient + 1

/-- A quotient divided by a power of two, as numerator and denominator. -/
def divideByPower (num den : Nat) (exponent : Int) : Nat × Nat :=
  if 0 ≤ exponent then (num, den * 2 ^ exponent.toNat) else (num * 2 ^ (-exponent).toNat, den)

/-- The greatest exponent of a power of two that is at most the quotient. -/
def floorLog2 (num den : Nat) : Int :=
  let estimate : Int := num.log2 - den.log2
  let (n, d) := divideByPower num den estimate
  if d ≤ n then estimate else estimate - 1

/-- A coefficient and an exponent as a double; infinity when the exponent is too great. A
    coefficient of 54 bits, which rounding up can leave, is halved. -/
def pack (negative : Bool) (coefficient : Nat) (exponent : Int) : Double :=
  let (m, e) :=
    if coefficient = 2 ^ (53 : Nat) then (2 ^ (52 : Nat), exponent + 1)
    else (coefficient, exponent)
  if h : Canonical m e then .finite negative m e h else .infinite negative

/-- The double nearest to a quotient, a tie going to the even coefficient. -/
def ofRatio (negative : Bool) (num den : Nat) : Double :=
  if num = 0 then signedZero negative
  else
    let exponent := max (-1074) (floorLog2 num den - 52)
    let (n, d) := divideByPower num den exponent
    pack negative (roundHalfEven n d) exponent

/-! ## Lemmas -/

theorem le_roundHalfEven (num den : Nat) : num / den ≤ roundHalfEven num den := by
  unfold roundHalfEven
  dsimp only
  repeat' split
  all_goals omega

theorem roundHalfEven_le (num den : Nat) : roundHalfEven num den ≤ num / den + 1 := by
  unfold roundHalfEven
  dsimp only
  repeat' split
  all_goals omega

end Double

end PatternSql
