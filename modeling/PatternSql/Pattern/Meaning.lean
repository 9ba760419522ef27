import PatternSql.Literal.Coercion
import PatternSql.Pattern.Reading

/-!
# What the syntax of a pattern means

Names stand for their texts, values for the literals that their texts are read as. A map must not
repeat a key, and a numeral must not exceed the doubles. The maps are looked at in the order of the
text, and in each map all values come before the keys.

Main results:

* `parseNode_eq_ok_iff`: a text is taken for a node exactly when it is a pattern of one node.
-/

namespace PatternSql

/-! ## Maps -/

/-- The literal that a value stands for. Model of `CypherTransformer.value`. -/
def valueMeaning (t : Token) : Except Failure Literal :=
  match Literal.ofText? t.text with
  | none => .error .tooManyDigits
  | some (.identifier name) =>
    if t.terminal = .number then
      .error (.input
        (.syntactic t.start.offset ["finite number literal"] (.hugeNumber t.text)))
    else .ok (.identifier name)
  | some literal => .ok literal

/-- The keys and literals of entries. -/
def entriesMeaning : List EntrySyntax → Except Failure Properties
  | [] => .ok []
  | e :: es => do
    let value ← valueMeaning e.value
    let rest ← entriesMeaning es
    return (e.key.text, value) :: rest

/-- The first key that occurs among those seen before it, which `property_list` refuses. -/
def repeatedKey? (seen : List String) : List EntrySyntax → Option Token
  | [] => none
  | e :: es =>
    if e.key.text ∈ seen then some e.key else repeatedKey? (e.key.text :: seen) es

/-- The map of the given entries. Model of `CypherTransformer.property_list`, after `value` for each
    of them. -/
def mapMeaning (es : List EntrySyntax) : Except Failure Properties := do
  let properties ← entriesMeaning es
  match repeatedKey? [] es with
  | some key =>
    throw (.input
      (.syntactic key.start.offset ["unique property key"] (.repeatedKey key.text)))
  | none => return properties

/-- The map, if there is one. -/
def mapMeaning? : Option (List EntrySyntax) → Except Failure (Option Properties)
  | none => .ok none
  | some es => (mapMeaning es).map some

/-! ## Nodes, relationships and patterns -/

/-- The node that is written. Labels collapse to their first occurrences. Model of
    `CypherTransformer.node_pattern` and `label_list`. -/
def NodeSyntax.meaning (n : NodeSyntax) : Except Failure Node := do
  let properties ← mapMeaning? n.map
  return ⟨n.name.map (·.text), (n.labels.map (·.text)).eraseDups, properties,
    n.opening.start.offset⟩

/-- The relationship that is written. Model of `CypherTransformer.relationship_pattern` and
    `relationship_detail`. -/
def EdgeSyntax.meaning (e : EdgeSyntax) : Except Failure Relationship := do
  let d := e.detail.getD ⟨none, [], none⟩
  let properties ← mapMeaning? d.map
  return ⟨d.name.map (·.text), d.types.map (·.name.text), properties, .ofArrows e.left e.right,
    e.opening.start.offset⟩

/-- The pattern that is written. Model of `CypherTransformer.pattern` and `path`. -/
def PatternSyntax.meaning : PatternSyntax → Except Failure Pattern
  | node n => return .ofNode (← n.meaning)
  | next p n => do
    let p ← p.meaning
    return p.next (← n.meaning)
  | step p e n => do
    let p ← p.meaning
    let e ← e.meaning
    return p.step e (← n.meaning)

/-! ## Texts -/

/-- The syntax of a text that is one pattern. Model of `CypherParser.parse_tree` from the rule
    `pattern`. -/
def readPattern (text : String) : Except InputError PatternSyntax :=
  patternReader.read (.start .none) (scan text)

/-- The pattern that a text is. Model of `parse_pattern`. -/
def parsePattern (text : String) : Except Failure Pattern := do
  let p ← (readPattern text).mapError .input
  p.meaning

/-- The node that a text is. Model of `parse_node_pattern`. -/
def parseNode (text : String) : Except Failure Node := do
  let p ← parsePattern text
  p.singleNode.mapError .input

/-! ## Lemmas -/

/-- A text is taken for a node exactly when it is a pattern of one node. -/
theorem parseNode_eq_ok_iff {text : String} {n : Node} :
    parseNode text = .ok n ↔ parsePattern text = .ok (.ofNode n) := by
  simp only [parseNode, bind_eq_ok_iff, mapError_eq_ok_iff, Pattern.singleNode_eq_ok_iff]
  exact ⟨fun ⟨_, h, hp⟩ => hp ▸ h, fun h => ⟨_, h, rfl⟩⟩

end PatternSql
