import PatternSql.Pattern

/-!
# The syntax of patterns

What a text says, token by token, before the tokens are taken for names and values. The trees grow
at their right end, in the order of reading.
-/

namespace PatternSql

/-- A key and its value: the rule `property`. -/
structure EntrySyntax where
  /-- The name before the colon. -/
  key : Token
  /-- The literal or name after it. -/
  value : Token
  deriving DecidableEq, Repr

/-- A node: the rule `node_pattern`. -/
structure NodeSyntax where
  /-- The parenthesis that it begins with. -/
  opening : Token
  /-- The name of the node. -/
  name : Option Token
  /-- The names after colons. -/
  labels : List Token
  /-- The entries between braces, if there are braces. -/
  map : Option (List EntrySyntax)
  deriving DecidableEq, Repr

/-- A type of a relationship, of those in the rule `relationship_types`. -/
structure TypeSyntax where
  /-- Whether a colon stands in front. The first type has one; after a bar it may be missing. -/
  colon : Bool
  /-- The name of the type. -/
  name : Token
  deriving DecidableEq, Repr

/-- What stands between the brackets of a relationship: the rule `relationship_detail`. -/
structure DetailSyntax where
  /-- The name of the relationship. -/
  name : Option Token
  /-- The types, separated by bars. -/
  types : List TypeSyntax
  /-- The entries between braces, if there are braces. -/
  map : Option (List EntrySyntax)
  deriving DecidableEq, Repr

/-- A relationship: the rule `relationship_pattern`. -/
structure EdgeSyntax where
  /-- Its first token. -/
  opening : Token
  /-- Whether it begins with an arrow head. -/
  left : Bool
  /-- What stands between the brackets, if there are brackets. -/
  detail : Option DetailSyntax
  /-- Whether it ends with an arrow head. -/
  right : Bool
  deriving DecidableEq, Repr

/-- A pattern, in the order of reading: the rules `pattern` and `path`. -/
inductive PatternSyntax
  /-- The first node. -/
  | node (n : NodeSyntax)
  /-- A comma and the first node of another path. -/
  | next (p : PatternSyntax) (n : NodeSyntax)
  /-- A relationship and its far node. -/
  | step (p : PatternSyntax) (e : EdgeSyntax) (n : NodeSyntax)
  deriving DecidableEq, Repr

end PatternSql
