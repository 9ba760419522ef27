import PatternSql.Number.Numeral
import PatternSql.Text.Word
import PatternSql.Token

/-!
# Reading the tokens of a text

At each place the rules are tried in a fixed order and the first that takes at least one character
makes the next token; blanks are skipped. The rules are arranged so that the first is also a
longest: a keyword ends where a word does, and a numeral, a string or an operator takes all it can.
Reading ends at the end of the text, or at the first character that no rule takes.

Main results:

* `lexeme?_length_pos`: what a rule takes is not empty.
* `scanFrom_nil`, `scanFrom_of_none`, `scanFrom_of_some`: reading, one lexeme at a time.
-/

namespace PatternSql

open Text

/-! ## The rules, by the number of characters they take -/

/-- A name begins with a word character that is no digit. -/
def isNameStart (c : Char) : Bool :=
  isWord c && !isDigit c

/-- Whether a character is a given small letter in either case, the long s being an s. -/
def isLetter (letter c : Char) : Bool :=
  c.toLower == letter || letter == 's' && c == 'ſ'

/-- Whether a text begins with a word, in any case. -/
def beginsWith : List Char → List Char → Bool
  | [], _ => true
  | _ :: _, [] => false
  | letter :: word, c :: cs => isLetter letter c && beginsWith word cs

/-- Whether a text begins with a character that would continue a word. -/
def continuesWord : List Char → Bool
  | [] => false
  | c :: _ => isWord c

/-- A keyword, unless a longer word begins with it: `MATCH`, `BOOLEAN`, `NULL` and the like. -/
def keywordLength (word : String) (cs : List Char) : Nat :=
  let letters := word.toList
  if beginsWith letters cs && !continuesWord (cs.drop letters.length) then letters.length else 0

/-- The longest name: `IDENTIFIER`. -/
def nameLength : List Char → Nat
  | [] => 0
  | c :: cs => if isNameStart c then 1 + (cs.takeWhile isWord).length else 0

/-- The longest numeral: `NUMBER`. -/
def numberLength (cs : List Char) : Nat :=
  match Numeral.scan cs with
  | some (_, rest) => cs.length - rest.length
  | none => 0

/-- The characters that open and close a string. -/
def isQuote (c : Char) : Bool :=
  c == '\'' || c == '"'

/-- A string up to the next quote of the kind that opened it: `STRING`. -/
def stringLength : List Char → Nat
  | [] => 0
  | quote :: cs =>
    if isQuote quote && cs.contains quote then (cs.takeWhile (· != quote)).length + 2 else 0

/-- A dollar sign and a name: `PARAMETER`. -/
def parameterLength : List Char → Nat
  | '$' :: cs => if nameLength cs = 0 then 0 else 1 + nameLength cs
  | _ => 0

/-- The blanks between tokens; other spaces of the character set are not among them. -/
def isGap (c : Char) : Bool :=
  c == ' ' || c == '\t' || c == '\x0c' || c == '\r' || c == '\n'

/-- A row of blanks: `WS`. -/
def gapLength (cs : List Char) : Nat :=
  (cs.takeWhile isGap).length

/-- The operators of two characters. -/
def longOperators : List (Char × Char) :=
  [('<', '>'), ('!', '='), ('<', '='), ('>', '='), ('=', '~')]

/-- An operator, preferably of two characters: `OPERATOR`. -/
def operatorLength : List Char → Nat
  | [] => 0
  | [c] => if "=+*/%^".toList.contains c then 1 else 0
  | c :: d :: _ =>
    if longOperators.contains (c, d) then 2
    else if "=+*/%^".toList.contains c then 1
    else 0

/-- The marks of one character. -/
def mark? : Char → Option Terminal
  | '(' => some .leftParen
  | ')' => some .rightParen
  | '[' => some .leftBracket
  | ']' => some .rightBracket
  | '\x7b' => some .leftBrace
  | '\x7d' => some .rightBrace
  | ',' => some .comma
  | '.' => some .dot
  | ':' => some .colon
  | '-' => some .minus
  | '<' => some .less
  | '>' => some .greater
  | '|' => some .bar
  | ';' => some .semicolon
  | _ => none

/-! ## The next lexeme -/

/-- What a text begins with: a token of some terminal, or blanks. -/
abbrev LexemeClass := Option Terminal

/-- The rules in the order in which they are tried; the marks come last, see `lexeme?`. -/
def rules : List (LexemeClass × (List Char → Nat)) := [
  (some .createWord, keywordLength "create"),
  (some .returnWord, keywordLength "return"),
  (some .boolean, fun cs => max (keywordLength "true" cs) (keywordLength "false" cs)),
  (some .matchWord, keywordLength "match"),
  (some .whereWord, keywordLength "where"),
  (some .null, keywordLength "null"),
  (some .number, numberLength),
  (some .string, stringLength),
  (some .parameter, parameterLength),
  (none, gapLength),
  (some .identifier, nameLength),
  (some .operator, operatorLength)
]

/-- The lexeme that a text begins with, as its class and its length. -/
def lexeme? (cs : List Char) : Option (LexemeClass × Nat) :=
  match rules.find? fun rule => 0 < rule.2 cs with
  | some rule => some (rule.1, rule.2 cs)
  | none => cs.head?.bind fun c => (mark? c).map fun terminal => (some terminal, 1)

/-! ## The whole text -/

/-- How reading ends. -/
inductive Stop
  /-- At the end of the text. -/
  | finished (p : Cursor)
  /-- At a character that no token begins with. -/
  | refused (p : Cursor) (c : Char)
  deriving DecidableEq, Repr

/-- The tokens of a text, and how reading them ended. -/
structure Scan where
  /-- The tokens in order. -/
  tokens : List Token
  /-- How reading ended. -/
  stop : Stop
  deriving DecidableEq, Repr

/-- The scan that reads one more lexeme in front. -/
def Scan.prepend (cls : LexemeClass) (p : Cursor) (text : List Char) (rest : Scan) : Scan :=
  match cls with
  | none => rest
  | some terminal =>
    ⟨⟨terminal, String.ofList text, p, p.offset + text.length⟩ :: rest.tokens, rest.stop⟩

/-- Reads a text that begins at a given place. -/
def scanFrom (p : Cursor) : List Char → Scan
  | [] => ⟨[], .finished p⟩
  | c :: cs =>
    match lexeme? (c :: cs) with
    | none => ⟨[], .refused p c⟩
    | some (cls, n) =>
      let text := c :: cs.take (n - 1)
      (scanFrom (p.advance text) (cs.drop (n - 1))).prepend cls p text
termination_by cs => cs.length
decreasing_by simp only [List.length_drop, List.length_cons]; omega

/-- The tokens of a text. Model of `tokenize`, with its error beside the tokens before it. -/
def scan (text : String) : Scan :=
  scanFrom .start text.toList

/-! ## Lemmas -/

theorem lexeme?_length_pos {cs : List Char} {cls : LexemeClass} {n : Nat}
    (h : lexeme? cs = some (cls, n)) : 0 < n := by
  unfold lexeme? at h
  split at h
  · rename_i rule hrule
    have := List.find?_some hrule
    simp only [decide_eq_true_eq] at this
    simp only [Option.some.injEq, Prod.mk.injEq] at h
    omega
  · simp only [Option.bind_eq_some_iff, Option.map_eq_some_iff, Prod.mk.injEq] at h
    obtain ⟨_, _, _, _, _, rfl⟩ := h
    decide

@[simp] theorem scanFrom_nil (p : Cursor) : scanFrom p [] = ⟨[], .finished p⟩ := by
  rw [scanFrom]

theorem scanFrom_of_none {p : Cursor} {c : Char} {cs : List Char} (h : lexeme? (c :: cs) = none) :
    scanFrom p (c :: cs) = ⟨[], .refused p c⟩ := by
  rw [scanFrom, h]

theorem scanFrom_of_some {p : Cursor} {cs : List Char} {cls : LexemeClass} {n : Nat}
    (hcs : cs ≠ []) (h : lexeme? cs = some (cls, n)) :
    scanFrom p cs = (scanFrom (p.advance (cs.take n)) (cs.drop n)).prepend cls p (cs.take n) := by
  cases cs with
  | nil => exact absurd rfl hcs
  | cons c cs =>
    obtain ⟨k, rfl⟩ := Nat.exists_eq_add_of_lt (lexeme?_length_pos h)
    rw [scanFrom, h]
    simp

end PatternSql
