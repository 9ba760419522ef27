import PatternSql.Sql.Expr.Reading

/-!
# Queries

A query has items; it may go on with the source of its rows, with joins, and with clauses for
groups, an order, bounds of their number and the like, which are only told apart here. It may also
be joined with another query.
-/

namespace PatternSql.Sql

open Text

/-! ## Modifiers -/

/-- A part of a query other than its items. -/
inductive Modifier
  | cluster
  | distinct
  | distribute
  | source
  | group
  | having
  | into
  | joins
  | kind
  | limit
  | locks
  | offset
  | order
  | qualify
  | sort
  deriving DecidableEq, Repr

/-- The name under which a modifier is reported. -/
def Modifier.name : Modifier → String
  | cluster => "cluster"
  | distinct => "distinct"
  | distribute => "distribute"
  | source => "from_"
  | group => "group"
  | having => "having"
  | into => "into"
  | joins => "joins"
  | kind => "kind"
  | limit => "limit"
  | locks => "locks"
  | offset => "offset"
  | order => "order"
  | qualify => "qualify"
  | sort => "sort"

/-- The modifiers in the order of their names. -/
def Modifier.all : List Modifier :=
  [cluster, distinct, distribute, source, group, having, into, joins, kind, limit, locks, offset,
    order, qualify, sort]

/-! ## Clauses -/

/-- Passes over a direction of an order and over where it has what is missing. -/
def passOrdering (ls : List Lexeme) : List Lexeme :=
  let (ascending, rest) := passWord "ASC" ls
  let (_, rest) := if ascending then (true, rest) else passWord "DESC" rest
  match afterWord? "NULLS" rest with
  | some rest' =>
    match afterWord? "FIRST" rest', afterWord? "LAST" rest' with
    | some rest, _ => rest
    | none, some rest => rest
    | none, none => rest
  | none => rest

/-- Passes over one expression or more with commas between them, each perhaps with an ordering. At
    most the given number of them are passed over. -/
def passList? (d : Dialect) : Nat → List Lexeme → Option (List Lexeme)
  | 0, _ => none
  | n + 1, ls =>
    (Expr.read? d ls).bind fun (_, rest) =>
      match passOrdering rest with
      | .mark .comma :: rest => passList? d n rest
      | rest => some rest

/-- The words that may follow the number of rows. -/
def passRows (ls : List Lexeme) : List Lexeme :=
  (passWord "ONLY" (passWord "ROWS" (passWord "ROW" ls).2).2).2

/-- The modifiers that a clause for the number of rows is, and the rest. -/
def limit? (d : Dialect) (ls : List Lexeme) : Option (List Modifier × List Lexeme) :=
  match Expr.readSum? d ls with
  | some (_, .mark .comma :: rest) =>
    (Expr.readSum? d rest).map fun (_, rest) => ([.limit, .offset], rest)
  | some (_, rest) => some ([.limit], passRows rest)
  | none =>
    (Expr.afterMark? .comma ls).bind fun rest =>
      (Expr.readSum? d rest).map fun (_, rest) => ([.limit], rest)

/-- The rest after a lock of the rows. -/
def lock? (ls : List Lexeme) : Option (List Lexeme) :=
  match afterWord? "UPDATE" ls with
  | some rest => some rest
  | none => afterWord? "SHARE" ls

/-- The modifiers that the clause after its first word is, and the rest. -/
def clauseBody? (d : Dialect) (word : String) (ls : List Lexeme) :
    Option (List Modifier × List Lexeme) :=
  match word with
  | "GROUP BY" =>
    match passList? d ls.length ls with
    | some rest => some ([.group], rest)
    | none => if ls.isEmpty then some ([.group], []) else none
  | "ORDER BY" => (passList? d ls.length ls).map ([.order], ·)
  | "CLUSTER BY" => (passList? d ls.length ls).map ([.cluster], ·)
  | "DISTRIBUTE BY" => (passList? d ls.length ls).map ([.distribute], ·)
  | "SORT BY" => (passList? d ls.length ls).map ([.sort], ·)
  | "HAVING" => (Expr.read? d ls).map fun (_, rest) => ([.having], rest)
  | "QUALIFY" => (Expr.read? d ls).map fun (_, rest) => ([.qualify], rest)
  | "OFFSET" => (Expr.readSum? d ls).map fun (_, rest) => ([.offset], passRows rest)
  | "LIMIT" => limit? d ls
  | "FETCH" =>
    let (first, rest) := passWord "FIRST" ls
    let (_, rest) := if first then (true, rest) else passWord "NEXT" rest
    match rest with
    | .number _ :: rest => some ([.limit], passRows rest)
    | rest => some ([.limit], passRows rest)
  | "FOR" => (lock? ls).map ([.locks], ·)
  | _ => none

/-- The modifiers that the clause is that lexemes begin with, and the rest. -/
def clause? (d : Dialect) : List Lexeme → Option (List Modifier × List Lexeme)
  | .word w :: ls => clauseBody? d (upper w) ls
  | _ => none

/-- The modifiers that lexemes begin with the clauses of, after those that were seen, and the rest.
    None may occur twice. At most the given number of clauses are read. -/
def clauses? (d : Dialect) : Nat → List Modifier → List Lexeme →
    Option (List Modifier × List Lexeme)
  | 0, seen, ls => some (seen, ls)
  | n + 1, seen, ls =>
    match clause? d ls with
    | some (ms, rest) =>
      if ms.any (seen.contains ·) then none else clauses? d n (seen ++ ms) rest
    | none => some (seen, ls)

/-! ## Sources -/

/-- Whether an expression may be the source of rows, apart from its alias. -/
def Expr.isSource : Expr → Bool
  | .named e _ => e.isSource
  | .unpacked e _ => e.isSource
  | .number _ => false
  | .star _ => false
  | .tuple _ => false
  | .negative _ => false
  | .not _ => false
  | .binary _ _ _ => false
  | _ => true

/-- Passes over a source of rows, perhaps with an alias. -/
def passSource? (d : Dialect) (ls : List Lexeme) : Option (List Lexeme) :=
  (Expr.readItem? d ls).bind fun (e, rest) => if e.isSource then some rest else none

/-- The words that may stand before the word for a join. -/
def joinWords : List String :=
  ["ANTI", "ASOF", "CROSS", "FULL", "INNER", "LEFT", "NATURAL", "OUTER", "RIGHT", "SEMI"]

/-- Passes over what two sources are joined on. -/
def passJoinCondition? (d : Dialect) (ls : List Lexeme) : Option (List Lexeme) :=
  match afterWord? "ON" ls, afterWord? "USING" ls with
  | some rest, _ => (Expr.read? d rest).map (·.2)
  | none, some rest => (Expr.read? d rest).map (·.2)
  | none, none => some ls

/-- The lexemes after the word for a join, if they begin with one. -/
def afterJoin? (ls : List Lexeme) : Option (List Lexeme) :=
  let rest := ls.dropWhile fun l => joinWords.any (isWordOf · l)
  match afterWord? "JOIN" rest with
  | some rest => some rest
  | none => afterWord? "STRAIGHT_JOIN" ls

/-- Passes over joins with further sources, and tells whether there are any. At most the given
    number of them are passed over. -/
def passJoins? (d : Dialect) : Nat → List Lexeme → Option (Bool × List Lexeme)
  | 0, ls => some (false, ls)
  | n + 1, ls =>
    match ls with
    | .mark .comma :: rest =>
      (passSource? d rest).bind fun rest => (passJoins? d n rest).map fun (_, rest) => (true, rest)
    | ls =>
      match afterJoin? ls with
      | some rest =>
        ((passSource? d rest).bind (passJoinCondition? d)).bind fun rest =>
          (passJoins? d n rest).map fun (_, rest) => (true, rest)
      | none => some (false, ls)

/-! ## Queries -/

/-- What the text of a query amounts to. -/
structure Query where
  /-- The items in order. -/
  items : List Expr
  /-- The parts other than items. -/
  modifiers : List Modifier
  /-- Whether it is joined with another query. -/
  compound : Bool
  deriving Repr

/-- Passes over a word and a source of rows after it, and tells whether they are there. -/
def passSourceAfter? (d : Dialect) (word : String) (ls : List Lexeme) :
    Option (Bool × List Lexeme) :=
  match afterWord? word ls with
  | some rest => (passSource? d rest).map fun rest => (true, rest)
  | none => some (false, ls)

/-- The modifiers of a list that are there. -/
def present (ms : List (Bool × Modifier)) : List Modifier :=
  (ms.filter (·.1)).map (·.2)

/-- The query without others joined to it that lexemes begin with, after its first word, and the
    rest. -/
def simpleQuery? (d : Dialect) (ls : List Lexeme) : Option (Query × List Lexeme) := do
  let (opening, rest) ← Expr.opening? ls
  let (items, rest) ← Expr.readItems? d rest
  let (into, rest) ← passSourceAfter? d "INTO" rest
  let (source, rest) ← passSourceAfter? d "FROM" rest
  let (joins, rest) ← passJoins? d rest.length rest
  let seen := present [(opening.unique, .distinct), (opening.shaped, .kind), (into, .into),
    (source, .source), (joins, .joins)]
  let (modifiers, rest) ← clauses? d rest.length seen rest
  return (⟨items, modifiers, false⟩, rest)

/-- Whether a lexeme joins two queries. -/
def isQueryJoin (l : Lexeme) : Bool :=
  ["UNION", "EXCEPT", "INTERSECT"].any (isWordOf · l)

/-- The lexemes of the query that another one is joined with, after its first word. -/
def joinedQuery? (ls : List Lexeme) : Option (List Lexeme) :=
  let (every, rest) := passWord "ALL" ls
  let (_, rest) := if every then (true, rest) else passWord "DISTINCT" rest
  afterWord? "SELECT" rest

/-- The query that lexemes are, after its first word. At most the given number of queries are
    joined. -/
def query? (d : Dialect) : Nat → List Lexeme → Option Query
  | 0, _ => none
  | n + 1, ls =>
    (simpleQuery? d ls).bind fun (q, rest) =>
      match rest with
      | [] => some q
      | l :: rest =>
        if isQueryJoin l then
          ((joinedQuery? rest).bind (query? d n)).map fun _ => { q with compound := true }
        else none

end PatternSql.Sql
