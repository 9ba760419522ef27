import PatternSql.Pattern.Syntax
import PatternSql.Reader

/-!
# Reading patterns

The states between the tokens of a pattern, and what each token makes of them. Nothing nests in a
pattern, so a state is a place in a node, a relationship or a map together with the tree read so
far.

A name may be the name of a node or a relationship, a label, a type, a key or a value, and until the
next token it counts as any of these; the name of a node or a relationship counts as either; a map
may belong to either, too. These are the roles that a report about an unexpected token goes by.

Main results:

* `isName_iff`: a token names something exactly when it is among the names.
-/

namespace PatternSql

open Terminal

/-! ## Roles -/

/-- What begins a name: the rule `_name`. -/
def names : List Terminal := [identifier, matchWord, createWord, whereWord, returnWord]

/-- What is a value: the rule `value`. -/
def values : List Terminal := [string, number, boolean, null] ++ names

/-- What may follow a name, whatever it names. -/
def afterName : List Terminal :=
  [rightParen, comma, colon, rightBracket, leftBrace, bar, rightBrace]

/-- What may follow the name of a node or of a relationship. -/
def afterVariable : List Terminal := [rightParen, colon, rightBracket, leftBrace]

/-- What may follow a map. -/
def afterMap : List Terminal := [rightParen, rightBracket]

/-- What may follow a node. -/
def afterNode : List Terminal :=
  [comma, minus, less, semicolon, whereWord, returnWord, endOfInput]

/-! ## Maps -/

/-- A place in a map: in the rules `properties`, `property_list` and `property`. -/
inductive MapState
  /-- After the brace that opens it. -/
  | opened
  /-- After a key. -/
  | key (es : List EntrySyntax) (k : Token)
  /-- After the colon that follows a key. -/
  | colon (es : List EntrySyntax) (k : Token)
  /-- After a value, the last of the entries, which is a name or not. -/
  | value (es : List EntrySyntax) (named : Bool)
  /-- After a comma. -/
  | comma (es : List EntrySyntax)
  deriving DecidableEq, Repr

/-- What a token does in a map. -/
inductive MapMove
  /-- It leads to another place. -/
  | go (s : MapState)
  /-- It closes the map. -/
  | close (es : List EntrySyntax)
  deriving DecidableEq, Repr

namespace MapState

/-- The move of a token. -/
def step (t : Token) : MapState → Option MapMove
  | opened =>
    if t.terminal = rightBrace then some (.close [])
    else if t.terminal.isName then some (.go (.key [] t))
    else none
  | key es k => if t.terminal = .colon then some (.go (.colon es k)) else none
  | colon es k =>
    if t.terminal.isName then some (.go (.value (es ++ [⟨k, t⟩]) true))
    else if t.terminal.isLiteral then some (.go (.value (es ++ [⟨k, t⟩]) false))
    else none
  | value es _ =>
    if t.terminal = rightBrace then some (.close es)
    else if t.terminal = .comma then some (.go (.comma es))
    else none
  | comma es => if t.terminal.isName then some (.go (.key es t)) else none

/-- The roles of what came last. -/
def roles : MapState → List (List Terminal)
  | opened => [rightBrace :: names]
  | key _ _ => [afterName, [.colon]]
  | colon _ _ => [values]
  | value _ true => [afterName, [.comma, rightBrace]]
  | value _ false => [[.comma, rightBrace]]
  | comma _ => [names]

end MapState

/-! ## Nodes -/

/-- A place in a node: in the rule `node_pattern`. -/
inductive NodeState
  /-- After the parenthesis that opens it. -/
  | opened
  /-- After its name. -/
  | named
  /-- After the colon in front of a label. -/
  | colon
  /-- After a label. -/
  | label
  /-- In its map. -/
  | map (m : MapState)
  /-- After its map. -/
  | mapped
  deriving DecidableEq, Repr

/-- What a token does in a node. -/
inductive NodeMove
  /-- It leads to another place, and the node may have grown. -/
  | go (n : NodeSyntax) (s : NodeState)
  /-- It closes the node. -/
  | close (n : NodeSyntax)
  deriving DecidableEq, Repr

namespace NodeState

/-- The move of a token that ends the node or begins a label or the map. -/
def stepPart (n : NodeSyntax) (t : Token) : Option NodeMove :=
  if t.terminal = rightParen then some (.close n)
  else if t.terminal = .colon then some (.go n .colon)
  else if t.terminal = leftBrace then some (.go n (.map .opened))
  else none

/-- The move of a token. -/
def step (n : NodeSyntax) (t : Token) : NodeState → Option NodeMove
  | opened => if t.terminal.isName then some (.go { n with name := some t } named) else stepPart n t
  | named => stepPart n t
  | colon =>
    if t.terminal.isName then some (.go { n with labels := n.labels ++ [t] } label) else none
  | label => stepPart n t
  | map m =>
    match m.step t with
    | some (.go m) => some (.go n (map m))
    | some (.close es) => some (.go { n with map := some es } mapped)
    | none => none
  | mapped => if t.terminal = rightParen then some (.close n) else none

/-- The roles of what came last. -/
def roles : NodeState → List (List Terminal)
  | opened => [[rightParen, .colon, leftBrace] ++ names]
  | named => [afterName, afterVariable, [rightParen, .colon, leftBrace]]
  | colon => [names]
  | label => [afterName, [rightParen, .colon, leftBrace]]
  | map m => m.roles
  | mapped => [afterMap, [rightParen]]

end NodeState

/-! ## Relationships -/

/-- A place between the brackets of a relationship: in the rules `relationship_detail` and
    `relationship_types`. -/
inductive DetailState
  /-- After the bracket that opens. -/
  | opened
  /-- After the name. -/
  | named
  /-- After a colon in front of a type. -/
  | colon
  /-- After a type. -/
  | type
  /-- After a bar. -/
  | bar
  /-- In the map. -/
  | map (m : MapState)
  /-- After the map. -/
  | mapped
  deriving DecidableEq, Repr

/-- What a token does between brackets. -/
inductive DetailMove
  /-- It leads to another place, and the detail may have grown. -/
  | go (d : DetailSyntax) (s : DetailState)
  /-- It closes the brackets. -/
  | close (d : DetailSyntax)
  deriving DecidableEq, Repr

namespace DetailState

/-- The move of a token that ends the detail or begins its map. -/
def stepPart (d : DetailSyntax) (t : Token) : Option DetailMove :=
  if t.terminal = rightBracket then some (.close d)
  else if t.terminal = leftBrace then some (.go d (.map .opened))
  else none

/-- The move of a type. -/
def stepType (d : DetailSyntax) (hasColon : Bool) (t : Token) : Option DetailMove :=
  if t.terminal.isName then some (.go { d with types := d.types ++ [⟨hasColon, t⟩] } type) else none

/-- The move of a token. -/
def step (d : DetailSyntax) (t : Token) : DetailState → Option DetailMove
  | opened =>
    if t.terminal.isName then some (.go { d with name := some t } named)
    else if t.terminal = .colon then some (.go d colon)
    else stepPart d t
  | named => if t.terminal = .colon then some (.go d colon) else stepPart d t
  | colon => stepType d true t
  | type => if t.terminal = .bar then some (.go d bar) else stepPart d t
  | bar => if t.terminal = .colon then some (.go d colon) else stepType d false t
  | map m =>
    match m.step t with
    | some (.go m) => some (.go d (map m))
    | some (.close es) => some (.go { d with map := some es } mapped)
    | none => none
  | mapped => if t.terminal = rightBracket then some (.close d) else none

/-- The roles of what came last. -/
def roles : DetailState → List (List Terminal)
  | opened => [[rightBracket, .colon, leftBrace] ++ names]
  | named => [afterName, afterVariable, [rightBracket, .colon, leftBrace]]
  | colon => [names]
  | type => [afterName, [rightBracket, leftBrace, .bar]]
  | bar => [.colon :: names]
  | map m => m.roles
  | mapped => [afterMap, [rightBracket]]

end DetailState

/-- A place in a relationship: in the rule `relationship_pattern`. -/
inductive EdgeState
  /-- After the arrow head that it begins with. -/
  | headed
  /-- After the first dash. -/
  | dashed
  /-- Between the brackets. -/
  | detail (d : DetailSyntax) (s : DetailState)
  /-- After the brackets. -/
  | detailed
  /-- After the second dash. -/
  | crossed
  deriving DecidableEq, Repr

/-- What a token does in a relationship. -/
inductive EdgeMove
  /-- It leads to another place, and the relationship may have grown. -/
  | go (e : EdgeSyntax) (s : EdgeState)
  /-- It is the arrow head that the relationship ends with. -/
  | finish (e : EdgeSyntax)
  /-- It is the parenthesis that the far node begins with. -/
  | node (e : EdgeSyntax)
  deriving DecidableEq, Repr

namespace EdgeState

/-- The move of a token. -/
def step (e : EdgeSyntax) (t : Token) : EdgeState → Option EdgeMove
  | headed => if t.terminal = minus then some (.go e dashed) else none
  | dashed =>
    if t.terminal = minus then some (.go e crossed)
    else if t.terminal = leftBracket then some (.go e (detail ⟨none, [], none⟩ .opened))
    else none
  | detail d s =>
    match s.step d t with
    | some (.go d s) => some (.go e (detail d s))
    | some (.close d) => some (.go { e with detail := some d } detailed)
    | none => none
  | detailed => if t.terminal = minus then some (.go e crossed) else none
  | crossed =>
    if t.terminal = greater then some (.finish { e with right := true })
    else if t.terminal = leftParen then some (.node e)
    else none

/-- The roles of what came last. -/
def roles : EdgeState → List (List Terminal)
  | headed => [[minus]]
  | dashed => [[minus, leftBracket]]
  | detail _ s => s.roles
  | detailed => [[minus]]
  | crossed => [[leftParen, greater]]

end EdgeState

/-! ## Patterns -/

/-- What a node is read after. -/
inductive Lead
  /-- Nothing. -/
  | none
  /-- A pattern and a comma. -/
  | comma (p : PatternSyntax)
  /-- A pattern and a relationship. -/
  | edge (p : PatternSyntax) (e : EdgeSyntax)
  deriving DecidableEq, Repr

/-- The pattern that a node makes of what it is read after. -/
def Lead.close (n : NodeSyntax) : Lead → PatternSyntax
  | none => .node n
  | comma p => .next p n
  | edge p e => .step p e n

/-- A place in a pattern: in the rules `pattern` and `path`. -/
inductive PatternState
  /-- Where a node has to begin. -/
  | start (l : Lead)
  /-- In a node. -/
  | node (l : Lead) (n : NodeSyntax) (s : NodeState)
  /-- After a node. -/
  | closed (p : PatternSyntax)
  /-- In a relationship. -/
  | edge (p : PatternSyntax) (e : EdgeSyntax) (s : EdgeState)
  deriving DecidableEq, Repr

namespace PatternState

/-- The state after the parenthesis that a node begins with. -/
def openNode (l : Lead) (t : Token) : PatternState :=
  .node l ⟨t, none, [], none⟩ .opened

/-- The state after a token that fits. -/
def step : PatternState → Token → Option PatternState
  | start l, t => if t.terminal = leftParen then some (openNode l t) else none
  | node l n s, t =>
    match s.step n t with
    | some (.go n s) => some (node l n s)
    | some (.close n) => some (closed (l.close n))
    | none => none
  | closed p, t =>
    if t.terminal = .comma then some (start (.comma p))
    else if t.terminal = less then some (edge p ⟨t, true, none, false⟩ .headed)
    else if t.terminal = minus then some (edge p ⟨t, false, none, false⟩ .dashed)
    else none
  | edge p e s, t =>
    match s.step e t with
    | some (.go e s) => some (edge p e s)
    | some (.finish e) => some (start (.edge p e))
    | some (.node e) => some (openNode (.edge p e) t)
    | none => none

/-- The pattern read, after a node. -/
def result : PatternState → Option PatternSyntax
  | closed p => some p
  | _ => none

/-- The roles of what came last, given what may follow the whole pattern. -/
def roles (following : List Terminal) : PatternState → List (List Terminal)
  | start _ => [[leftParen]]
  | node _ _ s => s.roles
  | closed _ => [afterNode, following]
  | edge _ _ s => s.roles

end PatternState

/-- The reader of a text that is one pattern. -/
def patternReader : Reader PatternState PatternSyntax :=
  ⟨PatternState.step, PatternState.result, PatternState.roles []⟩

/-! ## Lemmas -/

theorem isName_iff {t : Terminal} : t.isName = true ↔ t ∈ names := by
  cases t <;> decide

end PatternSql
