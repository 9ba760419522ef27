import PatternSql.Pattern.Reading
import PatternSql.Proofs.Grammar.Remainder
import PatternSql.Proofs.Grammar.Rules
import PatternSql.Statement.Reading

/-!
# The readers follow the grammar

Each state of the readers of patterns and statements stands for what the grammar leaves to be read.
What remains depends on the place alone, not on the tree read so far.

Main results:

* `patternReader_follows`, `statementReader_follows`: the readers take a token exactly where the
  grammar does, and go on as it does.
-/

namespace PatternSql

open Ebnf Grammar

/-! ## What remains at a place in a pattern -/

/-- What remains of a map. -/
def MapState.rest : MapState → Remainder
  | opened => [seq (opt propertyList) (token .rightBrace)]
  | key _ _ => [seq (token .colon) Grammar.value, many (seq (token .comma) property),
      token .rightBrace]
  | colon _ _ => [Grammar.value, many (seq (token .comma) property), token .rightBrace]
  | value _ _ => [many (seq (token .comma) property), token .rightBrace]
  | comma _ => [property, many (seq (token .comma) property), token .rightBrace]

/-- What remains of a node. -/
def NodeState.rest : NodeState → Remainder
  | opened => [seq (opt name) <| seq (opt labelList) <| seq (opt properties) (token .rightParen)]
  | named => [seq (opt labelList) <| seq (opt properties) (token .rightParen)]
  | colon => [name, many (seq (token .colon) name), seq (opt properties) (token .rightParen)]
  | label => [many (seq (token .colon) name), seq (opt properties) (token .rightParen)]
  | map m => m.rest ++ [token .rightParen]
  | mapped => [token .rightParen]

/-- What remains between the brackets of a relationship. -/
def DetailState.rest : DetailState → Remainder
  | opened =>
    [seq (opt name) <| seq (opt relationshipTypes) <| seq (opt properties) (token .rightBracket)]
  | named => [seq (opt relationshipTypes) <| seq (opt properties) (token .rightBracket)]
  | colon => [name, many (seq (token .bar) <| seq (opt (token .colon)) name),
      seq (opt properties) (token .rightBracket)]
  | type => [many (seq (token .bar) <| seq (opt (token .colon)) name),
      seq (opt properties) (token .rightBracket)]
  | bar => [seq (opt (token .colon)) name, many (seq (token .bar) <| seq (opt (token .colon)) name),
      seq (opt properties) (token .rightBracket)]
  | map m => m.rest ++ [token .rightBracket]
  | mapped => [token .rightBracket]

/-- What remains of a relationship. -/
def EdgeState.rest : EdgeState → Remainder
  | headed => [seq (token .minus) <| seq (opt relationshipDetail) <|
      seq (token .minus) (opt (token .greater))]
  | dashed => [seq (opt relationshipDetail) <| seq (token .minus) (opt (token .greater))]
  | detail _ s => s.rest ++ [seq (token .minus) (opt (token .greater))]
  | detailed => [seq (token .minus) (opt (token .greater))]
  | crossed => [opt (token .greater)]

/-- What remains of a path after a node, and of the pattern after the path. -/
def afterNodes : Remainder := [many (seq relationship node), many (seq (token .comma) path)]

/-- What remains of a pattern. -/
def PatternState.rest : PatternState → Remainder
  | start .none => [pattern]
  | start (.comma _) => [path, many (seq (token .comma) path)]
  | start (.edge _ _) => Grammar.node :: afterNodes
  | node _ _ s => s.rest ++ afterNodes
  | closed _ => afterNodes
  | edge _ _ s => s.rest ++ (Grammar.node :: afterNodes)

/-! ## Steps -/

theorem MapState.after_rest (s : MapState) (t : Token) (k : Remainder) :
    (s.rest ++ k).after t.terminal = ((s.step t).map fun
      | .go s => s.rest ++ k
      | .close _ => k).toList := by
  obtain ⟨x, text, start, stop⟩ := t
  cases s <;> cases x <;> rfl

theorem NodeState.after_rest (s : NodeState) (n : NodeSyntax) (t : Token) (k : Remainder) :
    (s.rest ++ k).after t.terminal = ((s.step n t).map fun
      | .go _ s => s.rest ++ k
      | .close _ => k).toList := by
  cases s with
  | map m =>
    simp only [rest, step, List.append_assoc, m.after_rest]
    cases m.step t with
    | none => rfl
    | some move => cases move <;> simp
  | _ =>
    obtain ⟨x, text, start, stop⟩ := t
    cases x <;> rfl

theorem DetailState.after_rest (s : DetailState) (d : DetailSyntax) (t : Token) (k : Remainder) :
    (s.rest ++ k).after t.terminal = ((s.step d t).map fun
      | .go _ s => s.rest ++ k
      | .close _ => k).toList := by
  cases s with
  | map m =>
    simp only [rest, step, List.append_assoc, m.after_rest]
    cases m.step t with
    | none => rfl
    | some move => cases move <;> simp
  | _ =>
    obtain ⟨x, text, start, stop⟩ := t
    cases x <;> rfl

theorem EdgeState.after_rest (s : EdgeState) (e : EdgeSyntax) (t : Token) :
    (s.rest ++ (Grammar.node :: afterNodes)).after t.terminal = ((s.step e t).map fun
      | .go _ s => s.rest ++ (Grammar.node :: afterNodes)
      | .finish _ => Grammar.node :: afterNodes
      | .node _ => NodeState.opened.rest ++ afterNodes).toList := by
  cases s with
  | detail d s =>
    simp only [rest, step, List.append_assoc, s.after_rest d]
    cases s.step d t with
    | none => rfl
    | some move => cases move <;> simp
  | _ =>
    obtain ⟨x, text, start, stop⟩ := t
    cases x <;> rfl

theorem PatternState.after_rest (s : PatternState) (t : Token) :
    s.rest.after t.terminal = ((s.step t).map rest).toList := by
  cases s with
  | node l n s =>
    simp only [rest, step, s.after_rest n]
    cases s.step n t with
    | none => rfl
    | some move => cases move <;> rfl
  | edge p e s =>
    simp only [rest, step, s.after_rest e]
    cases s.step e t with
    | none => rfl
    | some move => cases move <;> rfl
  | start l =>
    obtain ⟨x, text, start, stop⟩ := t
    cases l <;> cases x <;> rfl
  | closed p =>
    obtain ⟨x, text, start, stop⟩ := t
    cases x <;> rfl

/-! ## Ends -/

theorem MapState.isNullable_rest (s : MapState) (k : Remainder) :
    (s.rest ++ k).isNullable = false := by
  cases s <;> rfl

theorem NodeState.isNullable_rest (s : NodeState) (k : Remainder) :
    (s.rest ++ k).isNullable = false := by
  cases s with
  | map m => rw [rest, List.append_assoc, m.isNullable_rest]
  | _ => rfl

theorem DetailState.isNullable_rest (s : DetailState) (k : Remainder) :
    (s.rest ++ k).isNullable = false := by
  cases s with
  | map m => rw [rest, List.append_assoc, m.isNullable_rest]
  | _ => rfl

theorem EdgeState.isNullable_rest (s : EdgeState) (k : Remainder) :
    (s.rest ++ (Grammar.node :: k)).isNullable = false := by
  cases s with
  | detail d s => rw [rest, List.append_assoc, s.isNullable_rest]
  | _ => rfl

theorem PatternState.isNullable_rest (s : PatternState) :
    s.rest.isNullable = s.result.isSome := by
  cases s with
  | start l => cases l <;> rfl
  | node l n s => rw [rest, s.isNullable_rest]; rfl
  | closed p => rfl
  | edge p e s => rw [rest, s.isNullable_rest]; rfl

/-! ## Completion -/

theorem MapState.isInhabited_rest (s : MapState) : s.rest.isInhabited = true := by
  cases s <;> rfl

theorem NodeState.isInhabited_rest (s : NodeState) : s.rest.isInhabited = true := by
  cases s with
  | map m => rw [rest, Remainder.isInhabited_append, m.isInhabited_rest]; rfl
  | _ => rfl

theorem DetailState.isInhabited_rest (s : DetailState) : s.rest.isInhabited = true := by
  cases s with
  | map m => rw [rest, Remainder.isInhabited_append, m.isInhabited_rest]; rfl
  | _ => rfl

theorem EdgeState.isInhabited_rest (s : EdgeState) : s.rest.isInhabited = true := by
  cases s with
  | detail d s => rw [rest, Remainder.isInhabited_append, s.isInhabited_rest]; rfl
  | _ => rfl

theorem PatternState.isInhabited_rest (s : PatternState) : s.rest.isInhabited = true := by
  cases s with
  | start l => cases l <;> rfl
  | node l n s => rw [rest, Remainder.isInhabited_append, s.isInhabited_rest]; rfl
  | closed p => rfl
  | edge p e s => rw [rest, Remainder.isInhabited_append, s.isInhabited_rest]; rfl

/-- The reader of patterns takes a token exactly where the grammar does, and goes on as it does. -/
theorem patternReader_follows : patternReader.Follows PatternState.rest :=
  ⟨PatternState.after_rest, PatternState.isNullable_rest, PatternState.isInhabited_rest⟩

/-! ## Statements -/

/-- What remains of a statement after the projection has begun. -/
abbrev afterProjection : Ebnf := opt (token .semicolon)

/-- What remains of a statement after the condition. -/
abbrev afterCondition : Ebnf :=
  seq (token .returnWord) <| seq clauseText afterProjection

/-- What remains of a statement that matches after its pattern. -/
abbrev afterMatched : Ebnf :=
  seq (opt (seq (token .whereWord) clauseText)) afterCondition

/-- What remains of a statement. -/
def StatementState.rest : StatementState → Remainder
  | start => [statement]
  | matching s => s.rest ++ [afterMatched]
  | filtering _ [] => [clauseText, afterCondition]
  | filtering _ (_ :: _) => [many clauseToken, afterCondition]
  | returning _ _ [] => [seq clauseText afterProjection]
  | returning _ _ (_ :: _) => [many clauseToken, afterProjection]
  | creating s => s.rest ++ [opt (token .semicolon)]
  | ended _ => []

/-- After a pattern that may end, a token either goes on with the pattern or with what follows it. -/
theorem PatternState.after_rest_append (s : PatternState) (t : Token) (k : Remainder) :
    (s.rest ++ k).after t.terminal =
      ((s.step t).map fun s => s.rest ++ k).toList ++
        if s.result.isSome then k.after t.terminal else [] := by
  rw [Remainder.after_append, s.after_rest, s.isNullable_rest]
  cases s.step t <;> simp

theorem StatementState.after_rest (s : StatementState) (t : Token) :
    s.rest.after t.terminal = ((s.step t).map rest).toList := by
  cases s with
  | matching s =>
    rw [rest, s.after_rest_append]
    cases s with
    | closed p =>
      obtain ⟨x, text, start, stop⟩ := t
      cases x <;> rfl
    | _ =>
      simp only [step, PatternState.result]
      cases PatternState.step _ t <;> simp [rest]
  | creating s =>
    rw [rest, s.after_rest_append]
    cases s with
    | closed p =>
      obtain ⟨x, text, start, stop⟩ := t
      cases x <;> rfl
    | _ =>
      simp only [step, PatternState.result]
      cases PatternState.step _ t <;> simp [rest]
  | filtering p body =>
    obtain ⟨x, text, start, stop⟩ := t
    cases body <;> cases x <;> rfl
  | returning p condition body =>
    obtain ⟨x, text, start, stop⟩ := t
    cases body <;> cases x <;> rfl
  | _ =>
    obtain ⟨x, text, start, stop⟩ := t
    cases x <;> rfl

theorem StatementState.isNullable_rest (s : StatementState) :
    s.rest.isNullable = s.result.isSome := by
  cases s with
  | matching s => simp [rest, result, Remainder.isNullable, isNullable]
  | creating s =>
    rw [rest, Remainder.isNullable_append, s.isNullable_rest, result, Option.isSome_map]
    exact Bool.and_true _
  | filtering p body => cases body <;> rfl
  | returning p condition body => cases body <;> rfl
  | _ => rfl

theorem StatementState.isInhabited_rest (s : StatementState) : s.rest.isInhabited = true := by
  cases s with
  | matching s => rw [rest, Remainder.isInhabited_append, s.isInhabited_rest]; rfl
  | creating s => rw [rest, Remainder.isInhabited_append, s.isInhabited_rest]; rfl
  | filtering p body => cases body <;> rfl
  | returning p condition body => cases body <;> rfl
  | _ => rfl

/-- The reader of statements takes a token exactly where the grammar does, and goes on as it does. -/
theorem statementReader_follows : statementReader.Follows StatementState.rest :=
  ⟨StatementState.after_rest, StatementState.isNullable_rest, StatementState.isInhabited_rest⟩

end PatternSql
