import PatternSql.Request

/-!
# Conversion

The whole way from the text of a statement to the text of a command: the statement is split, its
pattern must be one node, then the condition is read and then the projection, and what they ask for
is carried out and written. The dialect is looked up when something is first read or written in it,
so a statement that creates a node fails for its own reasons first.

Main results:

* `convert_eq_ok_iff`: the stages of a conversion that succeeds.
-/

namespace PatternSql

open Sql

/-- The condition of a statement, if it has one: `parse_filter` on a clause that is there. -/
def readCondition (d : Dialect) : Option Clause → Except Failure (Option Expr)
  | none => .ok none
  | some c => (parseCondition d c).map some

/-- What the bodies of a statement that matches a node ask for: `StatementParser.parse` behind
    `single_node`, for a statement that creates nothing. -/
def readMatching (dialect : Option String) (n : Node) (condition : Option Clause)
    (projection : Clause) : Except Failure Request := do
  let d ← Dialect.named dialect
  let e ← readCondition d condition
  let items ← parseProjection d projection
  return .matching n e items

/-- What a statement asks for: `StatementParser.parse` behind `parse_raw`. -/
def Statement.request (dialect : Option String) (st : Statement) : Except Failure Request := do
  let n ← st.pattern.singleNode.mapError .input
  match st with
  | .matching _ condition projection => readMatching dialect n condition projection
  | .creating _ => return .creating n

/-- What the text of a statement asks for. Model of `StatementParser.parse`. -/
def parseStatement (dialect : Option String) (text : String) : Except Failure Request := do
  let st ← splitStatement text
  st.request dialect

/-- The command that the text of a statement is converted into. Model of
    `CypherToSQLConverter.convert`. -/
def convert (config : Config) (text : String) : Except Failure String := do
  let request ← parseStatement config.dialect text
  let command ← request.command
  command.render config

/-- The command that creates the node that a text is. Model of `translate_create` on a text,
    rendered without a configuration. -/
def createNode (text : String) : Except Failure String := do
  let n ← parseNode text
  let command ← (Request.creating n).command
  command.render {}

/-! ## Lemmas -/

/-- The stages of a conversion that succeeds. -/
theorem convert_eq_ok_iff {config : Config} {text result : String} :
    convert config text = .ok result ↔
      ∃ request command layout, parseStatement config.dialect text = .ok request ∧
        request.command = .ok command ∧ config.layout = .ok layout ∧
        result = command.text layout := by
  unfold convert
  cases hr : parseStatement config.dialect text with
  | error e => simp [bind, Except.bind]
  | ok request =>
    cases hc : request.command with
    | error e => simp [bind, Except.bind, hc]
    | ok command =>
      cases hl : config.layout with
      | error e => simp [bind, Except.bind, hc, Command.render, hl, Except.map]
      | ok layout => simp [bind, Except.bind, hc, Command.render, hl, Except.map, eq_comm]

end PatternSql
