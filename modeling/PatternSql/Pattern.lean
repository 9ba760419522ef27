import PatternSql.Failure

/-!
# Patterns

A pattern describes a part of a graph. It is a row of paths, and a path goes from node to node along
relationships, so nodes and relationships alternate and a path begins and ends with a node: this is
in the shape of the types. Properties keep the order in which they are written.

Main results:

* `Pattern.singleNode_eq_ok_iff`: a pattern is taken for a node exactly when it is one.
-/

namespace PatternSql

/-- Keys with their values, in the order in which they are written: `MapLiteral`. -/
abbrev Properties := List (String × Literal)

/-- A node of a pattern, `NodePattern`. -/
structure Node where
  /-- The name of the node. -/
  name : Option String
  /-- The labels, each once. -/
  labels : List String
  /-- The properties; an empty map is not the same as none. -/
  properties : Option Properties
  /-- Where the node begins, if it was read from a text. -/
  position : Option Nat
  deriving DecidableEq, Repr

/-- Where a relationship points, `Direction`. -/
inductive Direction
  | outgoing
  | incoming
  /-- To neither side, or to both. -/
  | both
  deriving DecidableEq, Repr

/-- The direction of a relationship with the given arrow heads, as `relationship_pattern` finds it. -/
def Direction.ofArrows (left right : Bool) : Direction :=
  match left, right with
  | true, false => incoming
  | false, true => outgoing
  | _, _ => both

/-- The mark of a direction. -/
def Direction.mark : Direction → String
  | outgoing => ">"
  | incoming => "<"
  | both => "-"

/-- A relationship of a pattern, `RelationshipPattern`. -/
structure Relationship where
  /-- The name of the relationship. -/
  name : Option String
  /-- The types, as they are written. -/
  types : List String
  /-- The properties; an empty map is not the same as none. -/
  properties : Option Properties
  /-- Where it points. -/
  direction : Direction
  /-- Where it begins, if it was read from a text. -/
  position : Option Nat
  deriving DecidableEq, Repr

/-- A node or a relationship. -/
inductive Element
  | node (node : Node)
  | relationship (relationship : Relationship)
  deriving DecidableEq, Repr

/-- A path: its first node, and each relationship with the node that it leads to. `PatternPath` has
    the row `Path.elements` in its place. -/
structure Path where
  /-- Where the path begins. -/
  first : Node
  /-- The relationships, each with its far node. -/
  steps : List (Relationship × Node)
  deriving DecidableEq, Repr

namespace Path

/-- The nodes of a path. -/
def nodes (p : Path) : List Node :=
  p.first :: p.steps.map (·.2)

/-- The relationships of a path. -/
def relationships (p : Path) : List Relationship :=
  p.steps.map (·.1)

/-- Nodes and relationships in order. -/
def elements (p : Path) : List Element :=
  .node p.first :: p.steps.flatMap fun (r, n) => [.relationship r, .node n]

/-- A path with one more step. -/
def extend (p : Path) (r : Relationship) (n : Node) : Path :=
  { p with steps := p.steps ++ [(r, n)] }

end Path

/-- A pattern: one path or more. `Pattern` has the row `Pattern.paths` in its place. -/
structure Pattern where
  /-- The first path. -/
  first : Path
  /-- The other paths. -/
  others : List Path
  deriving DecidableEq, Repr

namespace Pattern

/-- The paths in order. -/
def paths (p : Pattern) : List Path :=
  p.first :: p.others

/-- The pattern that is one node. -/
def ofNode (n : Node) : Pattern :=
  ⟨⟨n, []⟩, []⟩

/-- A pattern with one more path, of one node. -/
def next (p : Pattern) (n : Node) : Pattern :=
  { p with others := p.others ++ [⟨n, []⟩] }

/-- Adds a step to the last of the given paths. -/
def extendLast (r : Relationship) (n : Node) : Path → List Path → Path × List Path
  | p, [] => (p.extend r n, [])
  | p, q :: qs =>
    let (q, qs) := extendLast r n q qs
    (p, q :: qs)

/-- A pattern with one more step at the end of its last path. -/
def step (p : Pattern) (r : Relationship) (n : Node) : Pattern :=
  let (first, others) := extendLast r n p.first p.others
  ⟨first, others⟩

/-- The only node of a pattern. Several paths are refused at the second one, and a path with
    relationships at the first of them. Model of `single_node`. -/
def singleNode (p : Pattern) : Except InputError Node :=
  match p.others, p.first.steps with
  | q :: _, _ => .error (.unsupported .severalPaths q.first.position)
  | [], (r, _) :: _ => .error (.unsupported .relationship r.position)
  | [], [] => .ok p.first.first

end Pattern

namespace Node

/-- Whether there is a property, `has_properties`. -/
def hasProperties (n : Node) : Bool :=
  match n.properties with
  | some (_ :: _) => true
  | _ => false

/-- The label that comes first, `NodePattern.label`. -/
def label (n : Node) : Option String :=
  n.labels.head?

end Node

/-- A map with one more entry: a new key goes to the end, a known one keeps its place. -/
def Properties.put (key : String) (value : Literal) : Properties → Properties
  | [] => [(key, value)]
  | (k, v) :: rest =>
    if k = key then (k, value) :: rest else (k, v) :: Properties.put key value rest

/-- The map that given entries amount to, the last value of a key counting. -/
def Properties.ofEntries (entries : List (String × Literal)) : Properties :=
  entries.foldl (fun map entry => map.put entry.1 entry.2) []

/-- A node that was not read from a text. Labels collapse to their first occurrences. Model of
    `create_node_pattern`. -/
def Node.build (name : Option String) (labels : List String)
    (properties : Option (List (String × Literal))) : Node :=
  ⟨name, labels.eraseDups, properties.map .ofEntries, none⟩

/-! ## Lemmas -/

@[simp] theorem Path.extend_first (p : Path) (r : Relationship) (n : Node) :
    (p.extend r n).first = p.first := rfl

@[simp] theorem Path.extend_steps (p : Path) (r : Relationship) (n : Node) :
    (p.extend r n).steps = p.steps ++ [(r, n)] := rfl

/-- A pattern is taken for a node exactly when it is one. -/
theorem Pattern.singleNode_eq_ok_iff {p : Pattern} {n : Node} :
    p.singleNode = .ok n ↔ p = .ofNode n := by
  obtain ⟨⟨first, steps⟩, others⟩ := p
  cases others <;> cases steps <;> simp [singleNode, ofNode]

end PatternSql
