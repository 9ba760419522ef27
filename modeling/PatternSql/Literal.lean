import PatternSql.Number.Style
import PatternSql.Text.Quoted

/-!
# Literals

The values of properties: strings, whole numbers, doubles, truth values, null, and names that stand
for themselves. A literal is spelled in the way patterns are written. There are no escapes in a
string, so one that holds both kinds of quote has no spelling; nor have infinities, whole numbers of
more than 4300 digits, and literals of no kind.

Main results:

* `spelling_string_eq_error_iff`: a string lacks a spelling exactly when it holds both quotes.
-/

namespace PatternSql

/-- A whole number is read and written only up to this many digits. -/
def digitLimit : Nat := 4300

/-- The wording for a whole number that is too long to be written. -/
def overlongMessage : String :=
  "Exceeds the limit (" ++ toString digitLimit ++ " digits) for integer string conversion; " ++
    "use sys.set_int_max_str_digits() to increase the limit"

/-- The value of a property: the kinds of `Literal`. -/
inductive Literal
  | string (value : String)
  | integer (value : Int)
  | float (value : Double)
  | boolean (value : Bool)
  | null
  /-- A name used as a value. -/
  | identifier (name : String)
  /-- A literal of no kind, which is only good for being refused. -/
  | unspecified
  deriving DecidableEq, Repr

/-- Why a literal has no spelling. -/
inductive Unspellable
  /-- There is no quote left to surround the string. -/
  | bothQuotes (value : String)
  /-- The whole number has too many digits to be written. -/
  | tooManyDigits
  /-- The double is no finite number. -/
  | notFinite (value : Double)
  /-- The literal is of no kind. -/
  | unspecified
  deriving DecidableEq, Repr

/-- The wording of the causes. -/
def Unspellable.message : Unspellable → String
  | bothQuotes value => "String contains both quote characters: " ++ Text.quoted value
  | tooManyDigits => overlongMessage
  | notFinite value => "Float has no literal text: " ++ value.text
  | unspecified => ""

namespace Literal

/-- A string between quotes of the kind that it does not hold, preferably single ones. Model of
    `StringLiteral.to_literal_text`. -/
def spellString (value : String) : Except Unspellable String :=
  let single := value.toList.contains '\''
  if single && value.toList.contains '"' then .error (.bothQuotes value)
  else
    let quote := if single then '"' else '\''
    .ok (String.ofList (quote :: (value.toList ++ [quote])))

/-- Whether a whole number has more digits than are written. -/
def isOverlong (value : Int) : Bool :=
  digitLimit < (Nat.toDigits 10 value.natAbs).length

/-- The text of a literal in a pattern. Model of `to_literal_text`, one case for each kind. -/
def spelling : Literal → Except Unspellable String
  | string value => spellString value
  | integer value => if isOverlong value then .error .tooManyDigits else .ok (toString value)
  | float value => if value.isFinite then .ok value.text else .error (.notFinite value)
  | boolean value => .ok (if value then "true" else "false")
  | null => .ok "null"
  | identifier name => .ok name
  | unspecified => .error .unspecified

/-- Equality of kind and value; the two zeros are equal as doubles. -/
def sameValue : Literal → Literal → Bool
  | float x, float y => x.sameValue y
  | a, b => a == b

/-! ## Lemmas -/

theorem spelling_string_eq_error_iff {value : String} {cause : Unspellable} :
    spelling (.string value) = .error cause ↔
      cause = .bothQuotes value ∧ '\'' ∈ value.toList ∧ '"' ∈ value.toList := by
  simp only [spelling, spellString]
  split
  · rename_i h
    simp only [Bool.and_eq_true, List.contains_iff_mem] at h
    simp [h, eq_comm]
  · rename_i h
    simp only [Bool.and_eq_true, List.contains_iff_mem] at h
    simp only [reduceCtorEq, false_iff, not_and]
    exact fun _ h₁ h₂ => h ⟨h₁, h₂⟩

end Literal

end PatternSql
