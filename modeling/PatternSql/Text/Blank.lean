import PatternSql.Text.Range

/-!
# Blank characters

Blanks separate the words of a text and are trimmed from its ends: the controls from tab to carriage
return, the four information separators, and every space and line separator of the character set.
The zero-width space and the byte order mark are not blanks.

Main results:

* `trim_eq_self`: a text with no blank at either end is its own trimmed form.
-/

namespace PatternSql.Text

/-- The code points of the blanks. -/
def blankRanges : Ranges := [
  (0x09, 0x0D), (0x1C, 0x20), (0x85, 0x85), (0xA0, 0xA0), (0x1680, 0x1680), (0x2000, 0x200A),
  (0x2028, 0x2029), (0x202F, 0x202F), (0x205F, 0x205F), (0x3000, 0x3000)
]

/-- Spaces and line separators of all kinds. -/
def isBlank (c : Char) : Bool :=
  blankRanges.has c.toNat

/-- A row of characters without the blanks at its end. -/
def trimEnd (cs : List Char) : List Char :=
  (cs.reverse.dropWhile isBlank).reverse

/-- A row of characters without the blanks at either end. -/
def trim (cs : List Char) : List Char :=
  trimEnd (cs.dropWhile isBlank)

/-! ## Lemmas -/

theorem trimEnd_eq_self {cs : List Char} {c : Char} (h : cs.getLast? = some c)
    (hc : isBlank c = false) : trimEnd cs = cs := by
  obtain ⟨front, rfl⟩ := List.getLast?_eq_some_iff.1 h
  simp [trimEnd, hc]

theorem trim_eq_self {c d : Char} {cs : List Char} (hc : isBlank c = false)
    (hd : isBlank d = false) (h : (c :: cs).getLast? = some d) : trim (c :: cs) = c :: cs := by
  rw [trim, List.dropWhile_cons_of_neg (by simp [hc])]
  exact trimEnd_eq_self h hd

end PatternSql.Text
