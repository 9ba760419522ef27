import PatternSql.Literal
import PatternSql.Text.Blank

/-!
# What a text means as a literal

A text is a string if it stands between two quotes of one kind, a truth value or null if it is that
word in any case, a whole number if it is written as one and fits 64 bits with a sign, a double if
it is a numeral of finite magnitude, and else a name. The first of these that fits counts. Blanks
around the text do not matter.

A numeral without point and exponent that has more than 4300 digits is refused; this is the only way
to fail.

Main results:

* `ofNumeral?_isSome`: a numeral of no more digits than that has a meaning.
-/

namespace PatternSql

namespace Literal

/-- What stands between two quotes of one kind. Model of `_is_quoted` and of what it guards. -/
def unquote? : List Char → Option (List Char)
  | [] => none
  | quote :: cs =>
    if (quote == '\'' || quote == '"') && cs.getLast? == some quote then some cs.dropLast else none

/-- The words that are literals, in small letters. -/
def ofWord? (word : String) : Option Literal :=
  if word = "true" then some (.boolean true)
  else if word = "false" then some (.boolean false)
  else if word = "null" then some .null
  else none

/-- A name, unless the double is finite. -/
def ofDouble (x : Double) (text : String) : Literal :=
  if x.isFinite then .float x else .identifier text

/-- Whether a number fits 64 bits with a sign. -/
def fitsWord (value : Int) : Bool :=
  -0x8000000000000000 ≤ value && value ≤ 0x7fffffffffffffff

/-- The number that a numeral stands for; its text as a name where the number is too great. Nothing
    if there are too many digits. -/
def ofNumeral? (n : Numeral) (text : String) : Option Literal :=
  if n.isInteger then
    if digitLimit < n.whole.length then none
    else if fitsWord n.toInt then some (.integer n.toInt)
    else some (ofDouble n.toDouble text)
  else some (ofDouble n.toDouble text)

/-- The literal that a text without outer blanks stands for: `coerce_text` after trimming. -/
def ofTrimmed? (cs : List Char) : Option Literal :=
  match unquote? cs with
  | some inner => some (.string (String.ofList inner))
  | none =>
    match ofWord? (String.ofList (cs.map Char.toLower)) with
    | some literal => some literal
    | none =>
      match Numeral.ofChars? cs with
      | some n => ofNumeral? n (String.ofList cs)
      | none => some (.identifier (String.ofList cs))

/-- The literal that a text stands for; nothing if it is a whole number of too many digits. Model of
    `coerce_text`, and so of `coerce_literal`. -/
def ofText? (text : String) : Option Literal :=
  ofTrimmed? (Text.trim text.toList)

/-! ## Lemmas -/

theorem ofNumeral?_isSome {n : Numeral} {text : String}
    (h : n.isInteger = true → n.whole.length ≤ digitLimit) : (ofNumeral? n text).isSome = true := by
  unfold ofNumeral?
  repeat' split
  · rename_i hi hl
    exact absurd (h hi) (by omega)
  all_goals rfl

end Literal

end PatternSql
