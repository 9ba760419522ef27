/-!
# Tokens

The words and marks that a pattern or a statement is made of. A token knows its terminal, which is
its role in the grammar, the characters it was read from, and where they stand: offsets and columns
count characters, and only a line feed starts a line.
-/

namespace PatternSql

/-- The terminals of the grammar. Statement keywords are names as well, see `Terminal.isName`. -/
inductive Terminal
  | leftParen
  | rightParen
  | leftBracket
  | rightBracket
  | leftBrace
  | rightBrace
  | comma
  | dot
  | colon
  | minus
  | less
  | greater
  | bar
  | semicolon
  | identifier
  | string
  | number
  | boolean
  | null
  | parameter
  | operator
  | matchWord
  | createWord
  | whereWord
  | returnWord
  | endOfInput
  deriving DecidableEq, Repr

/-- The broad categories of tokens, `TokenKind`. -/
inductive TokenKind
  | identifier
  | string
  | number
  | boolean
  | null
  | parameter
  | punctuation
  | endOfInput
  deriving DecidableEq, Repr

/-- The word for a category. -/
def TokenKind.word : TokenKind → String
  | identifier => "identifier"
  | string => "string"
  | number => "number"
  | boolean => "boolean"
  | null => "null"
  | parameter => "parameter"
  | punctuation => "punctuation"
  | endOfInput => "end"

namespace Terminal

/-- The category of a terminal, `_KINDS`. Keywords count as identifiers, operators as punctuation. -/
def kind : Terminal → TokenKind
  | identifier | matchWord | createWord | whereWord | returnWord => .identifier
  | string => .string
  | number => .number
  | boolean => .boolean
  | null => .null
  | parameter => .parameter
  | endOfInput => .endOfInput
  | _ => .punctuation

/-- The symbol of a terminal in grammars. -/
def symbol : Terminal → String
  | leftParen => "LPAR"
  | rightParen => "RPAR"
  | leftBracket => "LSQB"
  | rightBracket => "RSQB"
  | leftBrace => "LBRACE"
  | rightBrace => "RBRACE"
  | comma => "COMMA"
  | dot => "DOT"
  | colon => "COLON"
  | minus => "MINUS"
  | less => "LESSTHAN"
  | greater => "MORETHAN"
  | bar => "VBAR"
  | semicolon => "SEMICOLON"
  | identifier => "IDENTIFIER"
  | string => "STRING"
  | number => "NUMBER"
  | boolean => "BOOLEAN"
  | null => "NULL"
  | parameter => "PARAMETER"
  | operator => "OPERATOR"
  | matchWord => "MATCH"
  | createWord => "CREATE"
  | whereWord => "WHERE"
  | returnWord => "RETURN"
  | endOfInput => "$END"

/-- How messages speak of a terminal. Model of `describe_terminal`. -/
def display : Terminal → String
  | leftParen => "'('"
  | rightParen => "')'"
  | leftBracket => "'['"
  | rightBracket => "']'"
  | leftBrace => "'\x7b'"
  | rightBrace => "'\x7d'"
  | comma => "','"
  | dot => "'.'"
  | colon => "':'"
  | minus => "'-'"
  | less => "'<'"
  | greater => "'>'"
  | bar => "'|'"
  | semicolon => "';'"
  | identifier => "identifier"
  | string => "string literal"
  | number => "number literal"
  | boolean => "boolean literal"
  | null => "null"
  | parameter => "parameter"
  | operator => "operator"
  | matchWord => "MATCH"
  | createWord => "CREATE"
  | whereWord => "WHERE"
  | returnWord => "RETURN"
  | endOfInput => "end of input"

/-- Names are identifiers and the statement keywords, which are reserved in no pattern: the rule
    `_name`. -/
def isName : Terminal → Bool
  | identifier | matchWord | createWord | whereWord | returnWord => true
  | _ => false

/-- The literals that are no names. -/
def isLiteral : Terminal → Bool
  | string | number | boolean | null => true
  | _ => false

end Terminal

/-- A place in a text. -/
structure Cursor where
  /-- The number of characters before it. -/
  offset : Nat
  /-- Its line, the first being one. -/
  line : Nat
  /-- Its column, the first of a line being one. -/
  column : Nat
  deriving DecidableEq, Repr

namespace Cursor

/-- The beginning of a text. -/
def start : Cursor := ⟨0, 1, 1⟩

/-- The place after a character. -/
def next (p : Cursor) (c : Char) : Cursor :=
  if c == '\n' then ⟨p.offset + 1, p.line + 1, 1⟩
  else ⟨p.offset + 1, p.line, p.column + 1⟩

/-- The place after a row of characters. -/
def advance (p : Cursor) (cs : List Char) : Cursor :=
  cs.foldl next p

@[simp] theorem advance_nil (p : Cursor) : p.advance [] = p := rfl

@[simp] theorem advance_cons (p : Cursor) (c : Char) (cs : List Char) :
    p.advance (c :: cs) = (p.next c).advance cs := rfl

theorem advance_append (p : Cursor) (cs ds : List Char) :
    p.advance (cs ++ ds) = (p.advance cs).advance ds :=
  List.foldl_append

@[simp] theorem next_offset (p : Cursor) (c : Char) : (p.next c).offset = p.offset + 1 := by
  unfold next
  split <;> rfl

@[simp] theorem advance_offset (p : Cursor) (cs : List Char) :
    (p.advance cs).offset = p.offset + cs.length := by
  induction cs generalizing p with
  | nil => rfl
  | cons c cs ih => simp [ih]; omega

end Cursor

/-- A token of a text, `Token`. -/
structure Token where
  /-- Its role in the grammar. -/
  terminal : Terminal
  /-- The characters it was read from. -/
  text : String
  /-- The place of its first character. -/
  start : Cursor
  /-- The number of characters up to its end. -/
  stop : Nat
  deriving DecidableEq, Repr

/-- The category of a token. -/
def Token.kind (t : Token) : TokenKind := t.terminal.kind

/-- The token that stands for the end of a text, the last that `tokenize` yields. -/
def Token.ending (p : Cursor) : Token := ⟨.endOfInput, "", p, p.offset⟩

end PatternSql
