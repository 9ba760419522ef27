import PatternSql.Number.Double
import PatternSql.Text.Digit

/-!
# Decimal numerals

A numeral is an optional minus, digits with an optional point among or around them, and an optional
exponent: `-12`, `.5`, `5.`, `1.5e-3`. The digits may be those of any script. `Numeral.scan` reads
the longest numeral that a text begins with, and `Numeral.toDouble` rounds its exact value.

Main results:

* `Numeral.scan_length_lt`: a scanned numeral takes at least one character.
* `Numeral.isInteger_iff`: a numeral is an integer when it has neither a point nor an exponent.
-/

namespace PatternSql

-- Powers of natural numbers are the core library's, whatever else is imported.
attribute [local instance (high)] instPowNat

/-- The exact decimal number `coefficient * 10 ^ exponent`. -/
structure Decimal where
  /-- The digits, read as one natural number. -/
  coefficient : Nat
  /-- The power of ten that the digits are multiplied by. -/
  exponent : Int
  deriving DecidableEq, Repr

namespace Double

/-- The double nearest to a decimal number. Numbers too great or too small for any double are not
    written out: their coefficient and exponent alone say so. -/
def ofDecimal (negative : Bool) (d : Decimal) : Double :=
  if d.coefficient = 0 then signedZero negative
  else if 400 < d.exponent then .infinite negative
  else if d.exponent < -(400 + d.coefficient.log2 : Nat) then signedZero negative
  else if 0 ≤ d.exponent then ofRatio negative (d.coefficient * 10 ^ d.exponent.toNat) 1
  else ofRatio negative d.coefficient (10 ^ (-d.exponent).toNat)

end Double

/-- A decimal numeral as it is written. -/
structure Numeral where
  /-- Whether a minus stands in front. -/
  negative : Bool
  /-- The digits before the point. -/
  whole : List Char
  /-- The digits after the point, if there is a point. -/
  fraction : Option (List Char)
  /-- The sign and the digits of the exponent, if there is one. -/
  exponent : Option (Bool × List Char)
  deriving DecidableEq, Repr

namespace Numeral

/-- Splits off a leading minus. -/
def scanMinus : List Char → Bool × List Char
  | '-' :: rest => (true, rest)
  | cs => (false, cs)

/-- Splits off the sign of an exponent. -/
def scanSign : List Char → Bool × List Char
  | '-' :: rest => (true, rest)
  | '+' :: rest => (false, rest)
  | cs => (false, cs)

/-- Splits off an exponent: the letter, an optional sign, and at least one digit. -/
def scanExponent : List Char → Option (Bool × List Char) × List Char
  | [] => (none, [])
  | c :: cs =>
    if c == 'e' || c == 'E' then
      let (negative, rest) := scanSign cs
      let digits := rest.takeWhile Text.isDigit
      if digits.isEmpty then (none, c :: cs)
      else (some (negative, digits), rest.dropWhile Text.isDigit)
    else (none, c :: cs)

/-- Splits off a point and the digits after it. -/
def scanFraction : List Char → Option (List Char) × List Char
  | '.' :: rest => (some (rest.takeWhile Text.isDigit), rest.dropWhile Text.isDigit)
  | cs => (none, cs)

/-- The longest numeral at the beginning of a text, and what follows it. There has to be a digit
    before the point or after it. -/
def scan (cs : List Char) : Option (Numeral × List Char) :=
  let (negative, unsigned) := scanMinus cs
  let whole := unsigned.takeWhile Text.isDigit
  let (fraction, rest) := scanFraction (unsigned.dropWhile Text.isDigit)
  if whole.isEmpty && (fraction.getD []).isEmpty then none
  else
    let (exponent, rest) := scanExponent rest
    some (⟨negative, whole, fraction, exponent⟩, rest)

/-- A text that is one numeral from end to end. -/
def ofChars? (cs : List Char) : Option Numeral :=
  match scan cs with
  | some (numeral, []) => some numeral
  | _ => none

/-- A numeral without point and exponent. -/
def isInteger (n : Numeral) : Bool :=
  n.fraction.isNone && n.exponent.isNone

/-- The value of the digits before the point, with the sign. -/
def toInt (n : Numeral) : Int :=
  if n.negative then -(Text.digitsValue n.whole : Int) else Text.digitsValue n.whole

/-- The exact magnitude of a numeral. -/
def magnitude (n : Numeral) : Decimal :=
  let fraction := n.fraction.getD []
  let power : Int := match n.exponent with
    | none => 0
    | some (true, digits) => -(Text.digitsValue digits : Int)
    | some (false, digits) => Text.digitsValue digits
  ⟨Text.digitsValue (n.whole ++ fraction), power - fraction.length⟩

/-- The double nearest to a numeral. -/
def toDouble (n : Numeral) : Double :=
  .ofDecimal n.negative n.magnitude

/-! ## Lemmas -/

theorem isInteger_iff {n : Numeral} :
    n.isInteger = true ↔ n.fraction = none ∧ n.exponent = none := by
  simp [isInteger]

theorem scanMinus_length_le (cs : List Char) : (scanMinus cs).2.length ≤ cs.length := by
  unfold scanMinus
  split <;> simp

theorem scanSign_length_le (cs : List Char) : (scanSign cs).2.length ≤ cs.length := by
  unfold scanSign
  split <;> simp

theorem length_dropWhile_le (p : Char → Bool) (cs : List Char) :
    (cs.dropWhile p).length ≤ cs.length :=
  (List.dropWhile_suffix p).length_le

theorem scanExponent_length_le (cs : List Char) : (scanExponent cs).2.length ≤ cs.length := by
  cases cs with
  | nil => simp [scanExponent]
  | cons c cs =>
    simp only [scanExponent]
    split
    · split
      · simp
      · have h₁ := length_dropWhile_le Text.isDigit (scanSign cs).2
        have h₂ := scanSign_length_le cs
        simp only [List.length_cons]
        omega
    · simp

theorem scanFraction_length_le (cs : List Char) : (scanFraction cs).2.length ≤ cs.length := by
  unfold scanFraction
  split
  · have := length_dropWhile_le Text.isDigit (by assumption)
    simp only [List.length_cons]
    omega
  · simp

theorem scanFraction_length_lt {cs : List Char}
    (h : ((scanFraction cs).1.getD []).isEmpty = false) :
    (scanFraction cs).2.length < cs.length := by
  unfold scanFraction at h ⊢
  split
  · have := length_dropWhile_le Text.isDigit (by assumption)
    simp only [List.length_cons]
    omega
  · simp at h

/-- A scanned numeral takes at least one character. -/
theorem scan_length_lt {cs rest : List Char} {n : Numeral} (h : scan cs = some (n, rest)) :
    rest.length < cs.length := by
  simp only [scan] at h
  split at h
  · simp at h
  · rename_i hdigits
    simp only [Option.some.injEq, Prod.mk.injEq] at h
    obtain ⟨-, rfl⟩ := h
    have h₀ := scanMinus_length_le cs
    have h₁ := scanExponent_length_le (scanFraction ((scanMinus cs).2.dropWhile Text.isDigit)).2
    have h₂ := scanFraction_length_le ((scanMinus cs).2.dropWhile Text.isDigit)
    have h₃ := length_dropWhile_le Text.isDigit (scanMinus cs).2
    cases hw : (List.takeWhile Text.isDigit (scanMinus cs).2).isEmpty with
    | true =>
      have hf : ((scanFraction ((scanMinus cs).2.dropWhile Text.isDigit)).1.getD []).isEmpty
          = false := by simpa [hw] using hdigits
      have := scanFraction_length_lt hf
      omega
    | false =>
      have hsplit := congrArg List.length
        (List.takeWhile_append_dropWhile (p := Text.isDigit) (l := (scanMinus cs).2))
      have hpos : 0 < (List.takeWhile Text.isDigit (scanMinus cs).2).length := by
        cases ht : List.takeWhile Text.isDigit (scanMinus cs).2 with
        | nil => simp [ht] at hw
        | cons _ _ => simp
      simp only [List.length_append] at hsplit
      omega

end Numeral

end PatternSql
