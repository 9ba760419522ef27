import PatternSql.Number.Shortest

/-!
# How doubles are written

The digits of a double are those of its shortest decimal; a style says where the point goes. The
plain style writes numbers from `0.0001` up to `10^16` positionally, always with a digit after the
point, and others with an exponent of two digits or more (`1e-05`, `1e+16`). The exact style, used
for negative numbers in commands, is positional down to `0.000001` and wherever the digits reach
the units, and writes exponents with a capital mark and no padding (`1E-7`, `1E+20`).
-/

namespace PatternSql

/-- A way to write digits and a decimal exponent. -/
structure NumberStyle where
  /-- The least place of the leading digit that is written positionally. -/
  lowest : Int
  /-- Places from here on need an exponent; below it a whole number keeps a zero after the point. -/
  bound : Int
  /-- Whether digits that reach the units are written positionally beyond the bound, too. -/
  wholeDigits : Bool
  /-- The letter in front of the exponent. -/
  mark : Char
  /-- The least number of digits of an exponent. -/
  exponentWidth : Nat

/-- Literals and positive numbers. -/
def NumberStyle.plain : NumberStyle := ⟨-4, 16, false, 'e', 2⟩

/-- Negative numbers in commands. -/
def NumberStyle.exact : NumberStyle := ⟨-6, 16, true, 'E', 1⟩

namespace NumberStyle

/-- Whether digits with the leading one at the given place are written positionally. -/
def isPositional (style : NumberStyle) (digits : List Char) (place : Int) : Bool :=
  style.lowest ≤ place &&
    (place < style.bound || style.wholeDigits && place < digits.length)

/-- Digits with a point, and zeros as needed on either side of it. -/
def positional (style : NumberStyle) (digits : List Char) (place : Int) : List Char :=
  if place < 0 then
    ['0', '.'] ++ List.replicate (-place - 1).toNat '0' ++ digits
  else
    let whole := place.toNat + 1
    if digits.length ≤ whole then
      digits ++ List.replicate (whole - digits.length) '0' ++
        (if place < style.bound then ['.', '0'] else [])
    else digits.take whole ++ '.' :: digits.drop whole

/-- One digit before the point, the others after it, and the exponent. -/
def scientific (style : NumberStyle) (digits : List Char) (place : Int) : List Char :=
  let power := Nat.toDigits 10 place.natAbs
  digits.take 1 ++ (if digits.length ≤ 1 then [] else '.' :: digits.drop 1) ++
    style.mark :: (if place < 0 then '-' else '+') ::
      (List.replicate (style.exponentWidth - power.length) '0' ++ power)

/-- A decimal number in the style, without sign. -/
def write (style : NumberStyle) (d : Decimal) : List Char :=
  let digits := Nat.toDigits 10 d.coefficient
  let place := d.exponent + digits.length - 1
  if style.isPositional digits place then style.positional digits place
  else style.scientific digits place

end NumberStyle

namespace Double

/-- A double in the given style. -/
def write (style : NumberStyle) : Double → String
  | finite negative m e h =>
    let text := style.write (shortest negative m e h)
    String.ofList (if negative then '-' :: text else text)
  | infinite negative => if negative then "-inf" else "inf"
  | nan => "nan"

/-- A double as a literal spells it. -/
def text (x : Double) : String :=
  x.write .plain

end Double

end PatternSql
