import PatternSql.Sql.Expr.Adapting
import PatternSql.Sql.Layout
import PatternSql.Text.Blank

/-!
# Writing expressions

Blanks stand on both sides of an operator, after a comma and after a keyword. A sign has none,
except before another sign: two in a row would begin a comment. No parentheses are written but those
that the expression has; the inside of these is one step deeper. Conditions with connectives between
them stand one a line where they are too wide.

Main results:

* `lexemes_binary`, `lexemes_paren`, `lexemes_not`: what is written, apart from blanks, is the parts
  of the expression in order, in every layout.
-/

namespace PatternSql.Sql

open Text

/-! ## Names and keywords -/

/-- The lines of a text. -/
def linesOf (cs : List Char) : List (List Char) :=
  match cs with
  | [] => [[]]
  | c :: cs =>
    match c == '\n', linesOf cs with
    | true, lines => [] :: lines
    | false, line :: lines => (c :: line) :: lines
    | false, [] => [[c]]

/-- The pieces of a word; where lines are broken, a line break in it is one of them. -/
def Layout.word (layout : Layout) (text : String) : List Piece :=
  if layout.spread && text.contains '\n' then
    separated [.line 0]
      ((linesOf text.toList).map fun line => [.lexeme (.word (String.ofList line))])
  else [.lexeme (.word text)]

/-- The pieces of a name. -/
def Layout.name (layout : Layout) (n : Name) : List Piece :=
  match n.lexeme layout.dialect layout.identify with
  | .word text => layout.word text
  | l => [.lexeme l]

/-- A keyword. -/
def keyword (text : String) : List Piece :=
  [.lexeme (.word text)]

/-- Pieces with points between them. -/
def dotted (parts : List (List Piece)) : List Piece :=
  separated [markPiece .dot] parts

/-- The pieces of an operator. -/
def Operator.pieces (d : Dialect) (op : Operator) : List Piece :=
  separated [.blank] ((op.lexemes d).map fun l => [.lexeme l])

/-- Whether pieces begin with a sign. -/
def beginsWithSign : List Piece → Bool
  | .lexeme (.mark .minus) :: _ => true
  | _ => false

/-- Parts, the first of which begins with an operator. -/
def led (d : Dialect) (op : Operator) : List (List Piece) → List (List Piece)
  | [] => []
  | ps :: rest => (op.pieces d ++ .blank :: ps) :: rest

/-! ## Expressions -/

namespace Expr

mutual

/-- The parts of an expression that may stand on lines of their own: the conditions between
    connectives, each with the connective before it; otherwise the whole. -/
def parts (layout : Layout) : Expr → List (List Piece)
  | .column qualifiers name =>
    [dotted (qualifiers.map layout.name ++ [layout.name name])]
  | .star qualifiers => [dotted (qualifiers.map layout.name ++ [[markPiece .star]])]
  | .number text => [[.lexeme (.number text)]]
  | .string text => [[.lexeme (.string text)]]
  | .strings _ texts =>
    [.lexeme (.word "CONCAT") :: markPiece .leftParen ::
      layout.arguments (texts.map fun text => [.lexeme (.string text)]) ++
      [markPiece .rightParen]]
  | .bytes base digits => [[.lexeme (.bytes base digits)]]
  | .boolean value => [keyword (if value then "TRUE" else "FALSE")]
  | .null => [keyword "NULL"]
  | .paren inner => [layout.enclosed (layout.inWords (inner.parts layout))]
  | .tuple entries =>
    [markPiece .leftParen :: layout.entries (partsAll layout entries) ++ [markPiece .rightParen]]
  | .array entries =>
    [.lexeme (.word "ARRAY") :: markPiece .leftBracket ::
      layout.entries (partsAll layout entries) ++ [markPiece .rightBracket]]
  | .query unique items sources =>
    let items := partsAll layout items
    let head := keyword "SELECT" ++ if unique then .blank :: keyword "DISTINCT" else []
    let items := if layout.spread then nest (.line 0 :: separated [.line 0] (withCommas items))
      else .blank :: inRow items
    let tail := if sources.isEmpty then []
      else layout.gap :: keyword "FROM" ++ .blank :: inRow (partsAll layout sources)
    [head ++ items ++ tail]
  | .negative operand =>
    let inner := layout.inWords (operand.parts layout)
    [markPiece .minus :: (if beginsWithSign inner then [.blank] else []) ++ inner]
  | .complement operand => [markPiece .tilde :: layout.inWords (operand.parts layout)]
  | .not operand => [keyword "NOT" ++ .blank :: layout.inWords (operand.parts layout)]
  | .binary op left right =>
    if op.isConnective then left.parts layout ++ led layout.dialect op (right.parts layout)
    else
      [layout.inWords (left.parts layout) ++ .blank :: op.pieces layout.dialect ++
        .blank :: layout.inWords (right.parts layout)]
  | .between operand low high =>
    [layout.inWords (operand.parts layout) ++ .blank :: keyword "BETWEEN" ++
      .blank :: layout.inWords (low.parts layout) ++ .blank :: keyword "AND" ++
      .blank :: layout.inWords (high.parts layout)]
  | .member operand list =>
    [layout.inWords (operand.parts layout) ++ .blank :: keyword "IN" ++
      .blank :: markPiece .leftParen :: layout.entries (partsAll layout list) ++
      [markPiece .rightParen]]
  | .memberOf operand collection =>
    [layout.inWords (operand.parts layout) ++ .blank :: keyword "IN" ++
      .blank :: layout.inWords (collection.parts layout)]
  | .escaping likeness mark =>
    [layout.inWords (likeness.parts layout) ++ .blank :: keyword "ESCAPE" ++
      .blank :: layout.inWords (mark.parts layout)]
  | .call function arguments =>
    [.lexeme function.functionLexeme :: markPiece .leftParen ::
      layout.arguments (partsAll layout arguments) ++ [markPiece .rightParen]]
  | .distinct entries =>
    [keyword "DISTINCT" ++
      if entries.isEmpty then [] else .blank :: inRow (partsAll layout entries)]
  | .access whole part =>
    [layout.inWords (whole.parts layout) ++ markPiece .dot :: layout.inWords (part.parts layout)]
  | .element whole indices =>
    [layout.inWords (whole.parts layout) ++ markPiece .leftBracket ::
      inRow (partsAll layout indices) ++ [markPiece .rightBracket]]
  | .choice cases =>
    [layout.hanging (keyword "CASE" :: rowsAll layout cases ++ [keyword "END"])]
  | .choiceOf subject cases =>
    let head := keyword "CASE" ++ .blank :: layout.inWords (subject.parts layout)
    [layout.hanging (head :: rowsAll layout cases ++ [keyword "END"])]
  | .when condition value =>
    [keyword "WHEN" ++ .blank :: layout.inWords (condition.parts layout),
      keyword "THEN" ++ .blank :: layout.inWords (value.parts layout)]
  | .otherwise value => [keyword "ELSE" ++ .blank :: layout.inWords (value.parts layout)]
  | .cast operand type =>
    [.lexeme (.word "CAST") :: markPiece .leftParen :: layout.inWords (operand.parts layout) ++
      .blank :: keyword "AS" ++ .blank :: .lexeme (.word type) :: [markPiece .rightParen]]
  | .named operand name =>
    [layout.inWords (operand.parts layout) ++ .blank :: keyword "AS" ++
      .blank :: layout.name name]
  | .unpacked operand names =>
    [layout.inWords (operand.parts layout) ++ .blank :: keyword "AS" ++
      .blank :: markPiece .leftParen :: inRow (names.map layout.name) ++
      [markPiece .rightParen]]

/-- The pieces of each of some expressions. -/
def partsAll (layout : Layout) : List Expr → List (List Piece)
  | [] => []
  | e :: es => layout.inWords (e.parts layout) :: partsAll layout es

/-- The parts of all of some expressions. -/
def rowsAll (layout : Layout) : List Expr → List (List Piece)
  | [] => []
  | e :: es => e.parts layout ++ rowsAll layout es

end

/-- The pieces of an expression that is of the dialect. -/
def pieces (layout : Layout) (e : Expr) : List Piece :=
  layout.inWords (e.parts layout)

/-- The pieces of any expression, which is first adapted to the dialect. -/
def adaptedPieces (layout : Layout) (e : Expr) : List Piece :=
  (e.adapt layout.dialect).pieces layout

/-- The text of an expression on its own. -/
def text (e : Expr) : String :=
  String.ofList (trim (write .generic (e.adaptedPieces .plain)))

/-! ## Lemmas -/

theorem parts_ne_nil (layout : Layout) (e : Expr) : e.parts layout ≠ [] := by
  cases e with
  | binary op left right =>
    rw [parts]
    split
    · simp [parts_ne_nil layout left]
    · simp
  | _ => rw [parts]; simp

theorem lexemes_operator (d : Dialect) (op : Operator) :
    lexemesOf (op.pieces d) = op.lexemes d := by
  rw [Operator.pieces, lexemes_separated rfl]
  simp [List.flatMap_map]

theorem lexemes_led {d : Dialect} {op : Operator} {parts : List (List Piece)} (h : parts ≠ []) :
    (led d op parts).flatMap lexemesOf = op.lexemes d ++ parts.flatMap lexemesOf := by
  cases parts with
  | nil => exact absurd rfl h
  | cons ps rest => simp [led, lexemes_operator]

@[simp] theorem lexemes_paren (layout : Layout) (e : Expr) :
    lexemesOf ((paren e).pieces layout) =
      .mark .leftParen :: (lexemesOf (e.pieces layout) ++ [.mark .rightParen]) := by
  simp [pieces, parts]

@[simp] theorem lexemes_not (layout : Layout) (e : Expr) :
    lexemesOf ((not e).pieces layout) = .word "NOT" :: lexemesOf (e.pieces layout) := by
  simp [pieces, parts, keyword]

/-- An operator stands between its operands, whether the line is broken before it or not. -/
@[simp] theorem lexemes_binary (layout : Layout) (op : Operator) (left right : Expr) :
    lexemesOf ((binary op left right).pieces layout) =
      lexemesOf (left.pieces layout) ++
        (op.lexemes layout.dialect ++ lexemesOf (right.pieces layout)) := by
  simp only [pieces, lexemes_inWords]
  rw [parts]
  split
  · rw [List.flatMap_append, lexemes_led (parts_ne_nil layout right)]
  · simp [lexemes_operator]

end Expr

end PatternSql.Sql
