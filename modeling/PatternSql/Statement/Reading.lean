import PatternSql.Pattern.Reading

/-!
# Reading statements

A statement matches a pattern, possibly with a condition, and returns a projection; or it creates a
pattern. A semicolon may end it. Condition and projection are bodies in another language: any tokens
except the two keywords that delimit them and the semicolon.

Main results:

* `StatementState.step_start`: a statement begins with one of two keywords.
-/

namespace PatternSql

open Terminal

/-- A statement, in its parts: the rules `match_statement` and `create_statement`. -/
inductive StatementSyntax
  /-- A pattern to match, the tokens of the condition if there is one, and those of the
      projection. -/
  | matching (p : PatternSyntax) (condition : Option (List Token)) (projection : List Token)
  /-- A pattern to create. -/
  | creating (p : PatternSyntax)
  deriving DecidableEq, Repr

/-- The terminals that a body is made of: the rule `_clause_token`. -/
def bodyTerminals : List Terminal := [
  leftParen, rightParen, leftBracket, rightBracket, leftBrace, rightBrace, comma, dot, colon, minus,
  less, greater, bar, identifier, string, number, boolean, null, parameter, operator, matchWord,
  createWord
]

/-- A place in a statement. -/
inductive StatementState
  /-- At the beginning. -/
  | start
  /-- In the pattern to match, or after it. -/
  | matching (s : PatternState)
  /-- In the condition, with its tokens so far. -/
  | filtering (p : PatternSyntax) (body : List Token)
  /-- In the projection, with its tokens so far. -/
  | returning (p : PatternSyntax) (condition : Option (List Token)) (body : List Token)
  /-- In the pattern to create, or after it. -/
  | creating (s : PatternState)
  /-- After the semicolon. -/
  | ended (st : StatementSyntax)
  deriving DecidableEq, Repr

namespace StatementState

/-- The state after a token that fits. -/
def step : StatementState → Token → Option StatementState
  | start, t =>
    if t.terminal = matchWord then some (matching (.start .none))
    else if t.terminal = createWord then some (creating (.start .none))
    else none
  | matching s, t =>
    match s.step t, s.result with
    | some s, _ => some (matching s)
    | none, some p =>
      if t.terminal = whereWord then some (filtering p [])
      else if t.terminal = returnWord then some (returning p none [])
      else none
    | none, none => none
  | filtering p body, t =>
    if bodyTerminals.contains t.terminal then some (filtering p (body ++ [t]))
    else if t.terminal = returnWord ∧ body ≠ [] then some (returning p (some body) [])
    else none
  | returning p condition body, t =>
    if bodyTerminals.contains t.terminal then some (returning p condition (body ++ [t]))
    else if t.terminal = semicolon ∧ body ≠ [] then some (ended (.matching p condition body))
    else none
  | creating s, t =>
    match s.step t, s.result with
    | some s, _ => some (creating s)
    | none, some p => if t.terminal = semicolon then some (ended (.creating p)) else none
    | none, none => none
  | ended _, _ => none

/-- The statement read, where it may end. -/
def result : StatementState → Option StatementSyntax
  | returning p condition (t :: ts) => some (.matching p condition (t :: ts))
  | creating s => s.result.map .creating
  | ended st => some st
  | _ => none

/-- What may follow a token of a body, in whichever body it is. -/
def afterBody : List Terminal := [semicolon, returnWord, endOfInput] ++ bodyTerminals

/-- The roles of what came last. -/
def roles : StatementState → List (List Terminal)
  | start => [[matchWord, createWord]]
  | matching s => s.roles [whereWord, returnWord]
  | filtering _ [] => [bodyTerminals]
  | filtering _ _ => [afterBody, [returnWord]]
  | returning _ _ [] => [bodyTerminals]
  | returning _ _ _ => [afterBody, [semicolon, endOfInput]]
  | creating s => s.roles [semicolon, endOfInput]
  | ended _ => [[endOfInput]]

end StatementState

/-- The reader of a text that is one statement. -/
def statementReader : Reader StatementState StatementSyntax :=
  ⟨StatementState.step, StatementState.result, StatementState.roles⟩

/-! ## Lemmas -/

theorem StatementState.step_start {t : Token} {s : StatementState} (h : start.step t = some s) :
    t.terminal = matchWord ∧ s = matching (.start .none) ∨
      t.terminal = createWord ∧ s = creating (.start .none) := by
  simp only [step] at h
  split at h
  · simp_all
  · split at h <;> simp_all

end PatternSql
