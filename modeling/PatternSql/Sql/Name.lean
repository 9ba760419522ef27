import PatternSql.Sql.Lexeme
import PatternSql.Sql.Reserved
import PatternSql.Text.Digit
import PatternSql.Text.Word

/-!
# Names

A table, a column or an alias has a name, which is bare or in quotes; where the language has
parameters, one may stand in the place of a name. A name taken from a pattern is quoted unless it is
simple: word characters only, the first of them a letter of the seven-bit set or an underscore. A
name read from the body of a statement keeps the form in which it stands there. A bare name is
written in quotes where a dialect would not read it as a name.

Main results:

* `ofText_eq_bare_iff`: a text makes a bare name exactly when it is simple.
* `lexeme_bare`, `lexeme_quoted`: how names are written.
-/

namespace PatternSql.Sql

open Text

/-- The name of a table, a column or an alias. -/
inductive Name
  | bare (text : String)
  | quoted (text : String)
  | parameter (text : String)
  deriving DecidableEq, Repr

/-- The characters that a simple name begins with. -/
def isSimpleStart (c : Char) : Bool :=
  c.isAlpha || c == '_'

/-- Whether a text needs no quotes as a name. A line break at the very end goes unnoticed. -/
def isSimple (text : String) : Bool :=
  match text.toList with
  | [] => false
  | c :: cs =>
    let cs := if cs.getLast? = some '\n' then cs.dropLast else cs
    isSimpleStart c && cs.all isWord

/-- Whether a dialect reads a bare text as a name: it is not reserved, and does not begin with a
    digit unless names may. -/
def Dialect.admits (d : Dialect) (text : String) : Bool :=
  !isReservedName d text && (d.leadingDigits || !text.toList.head?.any isDigitLike)

namespace Name

/-- The text without quotes or signs. -/
def text : Name → String
  | bare t => t
  | quoted t => t
  | parameter t => t

/-- The name for a text. Model of `exp.to_identifier`. -/
def ofText (text : String) : Name :=
  if isSimple text then bare text else quoted text

/-- The lexeme that a name is written as, if all names are to be quoted or if not. -/
def lexeme (d : Dialect) (identify : Bool) : Name → Lexeme
  | bare t => if identify || !d.admits t then .name t else .word t
  | quoted t => .name t
  | parameter t => .parameter t

/-- The lexeme that the name of a function is written as. -/
def functionLexeme : Name → Lexeme
  | bare t => .word t
  | quoted t => .name t
  | parameter t => .parameter t

/-! ## Lemmas -/

@[simp] theorem ofText_text (t : String) : (ofText t).text = t := by
  unfold ofText
  split <;> rfl

theorem ofText_eq_bare_iff {t : String} : ofText t = bare t ↔ isSimple t = true := by
  unfold ofText
  split <;> simp_all

theorem lexeme_bare {d : Dialect} {t : String} (h : d.admits t = true) :
    lexeme d false (bare t) = .word t := by
  simp [lexeme, h]

theorem lexeme_quoted (d : Dialect) (identify : Bool) (t : String) :
    lexeme d identify (quoted t) = .name t := rfl

end Name

end PatternSql.Sql
