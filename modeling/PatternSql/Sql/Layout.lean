import PatternSql.Sql.Lexeme

/-!
# Layout

What is to be written is a row of pieces: lexemes, blanks, and breaks, each with the number of steps
by which the line after it is indented. A compact layout has no breaks. In a spread layout what
stands below a head goes one step deeper as a whole; a list goes one step deeper but for its last
line, which carries on the line of its head. A line break inside a name or a string belongs to it
and is no break.

Main results:

* `write_append`: pieces are written one after the other.
* `lexemes_nest`, `lexemes_hang`: indentation does not touch the lexemes.
* `lexemes_inWords`, `lexemes_enclosed`: nor does breaking lines.
-/

namespace PatternSql.Sql

/-- A part of what is to be written. -/
inductive Piece
  | lexeme (lexeme : Lexeme)
  /-- One space. -/
  | blank
  /-- A new line, indented by so many steps. -/
  | line (depth : Nat)
  deriving DecidableEq, Repr

/-- How commands are written. -/
structure Layout where
  /-- The dialect. -/
  dialect : Dialect
  /-- Whether lines are broken. -/
  spread : Bool
  /-- Whether all names are quoted. -/
  identify : Bool
  deriving DecidableEq, Repr

/-- The layout in which parts are shown on their own. -/
def Layout.plain : Layout := ⟨.generic, false, false⟩

/-! ## Indentation -/

/-- A piece, one step deeper. -/
def Piece.deeper : Piece → Piece
  | .line depth => .line (depth + 1)
  | p => p

/-- Whether a piece is a new line. -/
def Piece.isLine : Piece → Bool
  | .line _ => true
  | _ => false

/-- Pieces, one step deeper. -/
def nest (ps : List Piece) : List Piece :=
  ps.map Piece.deeper

/-- Pieces, one step deeper but for their last line. -/
def hang : List Piece → List Piece
  | [] => []
  | p :: ps => (if ps.any Piece.isLine then p.deeper else p) :: hang ps

/-! ## Characters -/

/-- The characters of a piece. -/
def Piece.text (d : Dialect) : Piece → List Char
  | .lexeme l => (l.text d).toList
  | .blank => [' ']
  | .line depth => '\n' :: List.replicate (2 * depth) ' '

/-- The characters of pieces. -/
def write (d : Dialect) (ps : List Piece) : List Char :=
  ps.flatMap (Piece.text d)

/-! ## Lists -/

/-- Pieces with a separator between them. -/
def separated (separator : List Piece) : List (List Piece) → List Piece
  | [] => []
  | [ps] => ps
  | ps :: rest => ps ++ separator ++ separated separator rest

/-- The greatest width of a row that is not broken. -/
def maxWidth : Nat := 80

/-- Whether parts are broken because they are too wide for a row. -/
def Layout.breaks (layout : Layout) (parts : List (List Piece)) : Bool :=
  layout.spread && maxWidth < (parts.flatMap (write layout.dialect)).length

/-- A mark. -/
def markPiece (m : Mark) : Piece :=
  .lexeme (.mark m)

/-- Parts with commas after all but the last. -/
def withCommas : List (List Piece) → List (List Piece)
  | [] => []
  | [ps] => [ps]
  | ps :: rest => (ps ++ [markPiece .comma]) :: withCommas rest

/-- Parts in a row with commas between them. -/
def inRow (parts : List (List Piece)) : List Piece :=
  separated [.blank] (withCommas parts)

/-- Parts one a line with commas between them, the first on a new line and what follows on a new
    line too. -/
def inLines (parts : List (List Piece)) : List Piece :=
  .line 0 :: separated [.line 0] (withCommas parts) ++ [.line 0]

/-- The arguments of a function, broken only where they are too wide. -/
def Layout.arguments (layout : Layout) (parts : List (List Piece)) : List Piece :=
  if layout.breaks parts then hang (inLines parts) else inRow parts

/-- The entries of a list, which hang from its head. -/
def Layout.entries (layout : Layout) (parts : List (List Piece)) : List Piece :=
  hang (if layout.breaks (withCommas parts) then inLines parts else inRow parts)

/-- Parts with blanks between them, or one a line where they are too wide. -/
def Layout.inWords (layout : Layout) (parts : List (List Piece)) : List Piece :=
  separated [if layout.breaks parts then .line 0 else .blank] parts

/-- Parts with blanks between them; where they are too wide, one a line, hanging from the first. -/
def Layout.hanging (layout : Layout) (parts : List (List Piece)) : List Piece :=
  if layout.breaks parts then hang (layout.inWords parts) else layout.inWords parts

/-- Pieces between parentheses, on lines of their own if lines are broken. -/
def Layout.enclosed (layout : Layout) (ps : List Piece) : List Piece :=
  if layout.spread then
    markPiece .leftParen :: .line 1 :: nest ps ++ [.line 0, markPiece .rightParen]
  else markPiece .leftParen :: ps ++ [markPiece .rightParen]

/-- The break before what stands below a head, one step deeper. -/
def Layout.breakBelow (layout : Layout) : Piece :=
  if layout.spread then .line 1 else .blank

/-- The break between two parts of a command. -/
def Layout.gap (layout : Layout) : Piece :=
  if layout.spread then .line 0 else .blank

/-! ## Lemmas -/

@[simp] theorem write_nil (d : Dialect) : write d [] = [] := rfl

@[simp] theorem write_cons (d : Dialect) (p : Piece) (ps : List Piece) :
    write d (p :: ps) = p.text d ++ write d ps := by
  simp [write]

/-- Pieces are written one after the other. -/
@[simp] theorem write_append (d : Dialect) (ps qs : List Piece) :
    write d (ps ++ qs) = write d ps ++ write d qs := by
  simp [write]

/-- The lexeme of a piece that is one. -/
def Piece.lexeme? : Piece → Option Lexeme
  | .lexeme l => some l
  | _ => none

/-- The lexemes among pieces. -/
def lexemesOf (ps : List Piece) : List Lexeme :=
  ps.filterMap Piece.lexeme?

@[simp] theorem lexeme?_deeper (p : Piece) : p.deeper.lexeme? = p.lexeme? := by
  cases p <;> rfl

@[simp] theorem lexemes_nil : lexemesOf [] = [] := rfl

@[simp] theorem lexemes_lexeme (l : Lexeme) (ps : List Piece) :
    lexemesOf (.lexeme l :: ps) = l :: lexemesOf ps := rfl

@[simp] theorem lexemes_mark (m : Mark) (ps : List Piece) :
    lexemesOf (markPiece m :: ps) = .mark m :: lexemesOf ps := rfl

@[simp] theorem lexemes_blank (ps : List Piece) : lexemesOf (.blank :: ps) = lexemesOf ps := rfl

@[simp] theorem lexemes_line (depth : Nat) (ps : List Piece) :
    lexemesOf (.line depth :: ps) = lexemesOf ps := rfl

@[simp] theorem lexemes_append (ps qs : List Piece) :
    lexemesOf (ps ++ qs) = lexemesOf ps ++ lexemesOf qs := by
  simp [lexemesOf]

@[simp] theorem lexemes_nest (ps : List Piece) : lexemesOf (nest ps) = lexemesOf ps := by
  simp only [lexemesOf, nest, List.filterMap_map, Function.comp_def, lexeme?_deeper]

@[simp] theorem lexemes_hang (ps : List Piece) : lexemesOf (hang ps) = lexemesOf ps := by
  induction ps with
  | nil => rfl
  | cons p ps ih =>
    have h : (if ps.any Piece.isLine then p.deeper else p).lexeme? = p.lexeme? := by
      split <;> simp
    simp only [lexemesOf] at ih
    simp only [hang, lexemesOf, List.filterMap_cons, ih, h]

/-- A separator without lexemes adds none. -/
theorem lexemes_separated {separator : List Piece} (h : lexemesOf separator = [])
    (parts : List (List Piece)) :
    lexemesOf (separated separator parts) = parts.flatMap lexemesOf := by
  fun_induction separated separator parts with
  | case1 => rfl
  | case2 => simp
  | case3 ps rest _ ih => rw [lexemes_append, lexemes_append, h, List.append_nil, ih,
      List.flatMap_cons]

@[simp] theorem lexemes_inWords (layout : Layout) (parts : List (List Piece)) :
    lexemesOf (layout.inWords parts) = parts.flatMap lexemesOf := by
  unfold Layout.inWords
  apply lexemes_separated
  split <;> rfl

@[simp] theorem lexemes_enclosed (layout : Layout) (ps : List Piece) :
    lexemesOf (layout.enclosed ps) = .mark .leftParen :: (lexemesOf ps ++ [.mark .rightParen]) := by
  unfold Layout.enclosed
  split <;> simp

/-- Where no lines are broken, nothing is too wide. -/
@[simp] theorem Layout.breaks_of_not_spread {layout : Layout} (h : layout.spread = false)
    (parts : List (List Piece)) : layout.breaks parts = false := by
  simp [breaks, h]

end PatternSql.Sql
