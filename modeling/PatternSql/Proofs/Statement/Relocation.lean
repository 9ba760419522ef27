import PatternSql.Proofs.Pattern.Relocation
import PatternSql.Statement

/-!
# Reading the same statement in another place

The reader of statements, too, looks at the terminals of tokens only: it collects the tokens of the
bodies wherever they stand.

Main results:

* `statementReader_isNatural`: moved tokens are read as the moved statement.
-/

namespace PatternSql

variable (place : Nat → Cursor)

/-- A statement in another place. -/
def StatementSyntax.moveTo : StatementSyntax → StatementSyntax
  | matching p condition projection =>
    matching (p.moveTo place) (condition.map (·.map (·.moveTo place)))
      (projection.map (·.moveTo place))
  | creating p => creating (p.moveTo place)

/-- The state in a statement, its tokens in other places. -/
def StatementState.moveTo : StatementState → StatementState
  | start => start
  | matching s => matching (s.moveTo place)
  | filtering p body => filtering (p.moveTo place) (body.map (·.moveTo place))
  | returning p condition body =>
    returning (p.moveTo place) (condition.map (·.map (·.moveTo place)))
      (body.map (·.moveTo place))
  | creating s => creating (s.moveTo place)
  | ended st => ended (st.moveTo place)

variable {place}

theorem PatternState.result_moveTo (s : PatternState) :
    (s.moveTo place).result = s.result.map (·.moveTo place) := by
  cases s <;> rfl

theorem StatementState.step_moveTo (s : StatementState) (t : Token) :
    (s.moveTo place).step (t.moveTo place) = (s.step t).map (·.moveTo place) := by
  cases s with
  | start =>
    simp only [StatementState.moveTo, step, Token.moveTo_terminal, map_ite]
    rfl
  | matching s =>
    simp only [StatementState.moveTo, step, Token.moveTo_terminal, PatternState.step_moveTo,
      PatternState.result_moveTo]
    cases s.step t with
    | some s' => rfl
    | none =>
      cases s.result with
      | none => rfl
      | some p =>
        simp only [Option.map_none, Option.map_some, map_ite]
        rfl
  | filtering p body =>
    simp only [StatementState.moveTo, step, Token.moveTo_terminal, map_ite, Option.map_some,
      List.map_append, List.map_cons, List.map_nil, ne_eq, List.map_eq_nil_iff]
    rfl
  | returning p condition body =>
    simp only [StatementState.moveTo, step, Token.moveTo_terminal, map_ite, Option.map_some,
      List.map_append, List.map_cons, List.map_nil, ne_eq, List.map_eq_nil_iff]
    rfl
  | creating s =>
    simp only [StatementState.moveTo, step, Token.moveTo_terminal, PatternState.step_moveTo,
      PatternState.result_moveTo]
    cases s.step t with
    | some s' => rfl
    | none =>
      cases s.result with
      | none => rfl
      | some p =>
        simp only [Option.map_none, Option.map_some, map_ite]
        rfl
  | ended st => rfl

theorem StatementState.result_moveTo (s : StatementState) :
    (s.moveTo place).result = s.result.map (·.moveTo place) := by
  cases s with
  | returning p condition body => cases body <;> rfl
  | creating s =>
    simp only [StatementState.moveTo, result, PatternState.result_moveTo, Option.map_map]
    rfl
  | _ => rfl

theorem StatementState.roles_moveTo (s : StatementState) : (s.moveTo place).roles = s.roles := by
  cases s with
  | matching s => exact s.roles_moveTo _
  | filtering p body => cases body <;> rfl
  | returning p condition body => cases body <;> rfl
  | creating s => exact s.roles_moveTo _
  | _ => rfl

/-- Moved tokens are read as the moved statement. -/
theorem statementReader_isNatural :
    statementReader.IsNatural place (StatementState.moveTo place)
      (StatementSyntax.moveTo place) where
  step := StatementState.step_moveTo
  result := StatementState.result_moveTo
  roles := StatementState.roles_moveTo

end PatternSql
