import PatternSql.Pattern
import PatternSql.Literal.Coercion
import PatternSql.Proofs.Grammar.Ebnf

/-!
# The grammar of patterns and statements

The rules of the grammar as expressions, and what their derivations say. Nothing in the grammar
refers to itself, so a rule is an expression in which the rules that it uses stand written out.

Main results:

* `Grammar.pattern_unique`, `Grammar.statement_unique`: a sentence has one derivation.
-/

namespace PatternSql

namespace Grammar

open Ebnf

/-! ## The rules -/

/-- One given token. -/
abbrev token (x : Terminal) : Ebnf := oneOf [x]

/-- `_name`: identifiers, and the keywords of statements. -/
abbrev name : Ebnf := oneOf [.identifier, .matchWord, .createWord, .whereWord, .returnWord]

/-- `value`: a literal, or a name. -/
abbrev value : Ebnf :=
  oneOf [.string, .number, .boolean, .null, .identifier, .matchWord, .createWord, .whereWord,
    .returnWord]

/-- `property: _name ":" value` -/
abbrev property : Ebnf := seq name <| seq (token .colon) value

/-- `property_list: property ("," property)*` -/
abbrev propertyList : Ebnf := seq property <| many (seq (token .comma) property)

/-- `properties: "{" property_list? "}"` -/
abbrev properties : Ebnf :=
  seq (token .leftBrace) <| seq (opt propertyList) (token .rightBrace)

/-- `label_list: (":" _name)+` -/
abbrev labelList : Ebnf := many1 (seq (token .colon) name)

/-- `node_pattern: "(" variable? label_list? properties? ")"` -/
abbrev node : Ebnf :=
  seq (token .leftParen) <| seq (opt name) <| seq (opt labelList) <| seq (opt properties)
    (token .rightParen)

/-- `relationship_types: ":" _name ("|" ":"? _name)*` -/
abbrev relationshipTypes : Ebnf :=
  seq (seq (token .colon) name) <| many (seq (token .bar) <| seq (opt (token .colon)) name)

/-- `relationship_detail: "[" variable? relationship_types? properties? "]"` -/
abbrev relationshipDetail : Ebnf :=
  seq (token .leftBracket) <| seq (opt name) <| seq (opt relationshipTypes) <|
    seq (opt properties) (token .rightBracket)

/-- `relationship_pattern: left_arrow? "-" relationship_detail? "-" right_arrow?` -/
abbrev relationship : Ebnf :=
  seq (opt (token .less)) <| seq (token .minus) <| seq (opt relationshipDetail) <|
    seq (token .minus) (opt (token .greater))

/-- `path: node_pattern (relationship_pattern node_pattern)*` -/
abbrev path : Ebnf := seq node <| many (seq relationship node)

/-- `pattern: path ("," path)*` -/
abbrev pattern : Ebnf := seq path <| many (seq (token .comma) path)

/-- `_clause_token`: every token but the keywords WHERE and RETURN and the semicolon. -/
abbrev clauseToken : Ebnf :=
  oneOf [.identifier, .matchWord, .createWord, .string, .number, .boolean, .null, .parameter,
    .operator, .leftParen, .rightParen, .leftBracket, .rightBracket, .leftBrace, .rightBrace,
    .comma, .dot, .colon, .minus, .less, .greater, .bar]

/-- `clause_text: _clause_token+` -/
abbrev clauseText : Ebnf := many1 clauseToken

/-- `match_statement: MATCH pattern (WHERE clause_text)? RETURN clause_text SEMICOLON?` -/
abbrev matchStatement : Ebnf :=
  seq (seq (token .matchWord) pattern) <| seq (opt (seq (token .whereWord) clauseText)) <|
    seq (token .returnWord) <| seq clauseText (opt (token .semicolon))

/-- `create_statement: CREATE pattern SEMICOLON?` -/
abbrev createStatement : Ebnf :=
  seq (seq (token .createWord) pattern) (opt (token .semicolon))

/-- `statement: match_statement | create_statement` -/
abbrev statement : Ebnf := alt matchStatement createStatement

theorem pattern_unique {d d' : pattern.Derivation}
    (h : pattern.tokens d = pattern.tokens d') : d = d' :=
  unique_of_isPredictive (by decide) h

theorem statement_unique {d d' : statement.Derivation}
    (h : statement.tokens d = statement.tokens d') : d = d' :=
  unique_of_isPredictive (by decide) h

/-! ## Derivations of single tokens -/

/-- A token in a text of one line, from its first character on. -/
def tokenAt (x : Terminal) (text : String) (start : Nat) : Token :=
  ⟨x, text, ⟨start, 1, start + 1⟩, start + text.length⟩

/-- A token of the one terminal that may stand there. -/
def markAt (x : Terminal) (text : String) (start : Nat) : (token x).Derivation :=
  ⟨tokenAt x text start, List.mem_singleton.mpr rfl⟩

/-- An identifier where a name may stand. -/
def nameAt (text : String) (start : Nat) : name.Derivation :=
  ⟨tokenAt .identifier text start, List.mem_cons_self⟩

/-- A literal where a value may stand. -/
def valueAt (x : Terminal) (text : String) (start : Nat)
    (h : x ∈ [.string, .number, .boolean, .null]) : value.Derivation :=
  ⟨tokenAt x text start, List.mem_append_left _ h⟩

/-! ## What derivations say -/

/-- The key and the value of a property. -/
def entryOf : property.Derivation → Token × Token
  | (key, _, value) => (key.1, value.1)

/-- The keys and values of a list of properties, in order. -/
def entriesOf : propertyList.Derivation → List (Token × Token)
  | (d, ds) => entryOf d :: ds.map fun d => entryOf d.2

/-- The keys and values between two braces, in order. -/
def mapOf : properties.Derivation → List (Token × Token)
  | (_, list, _) => (list.map entriesOf).getD []

/-- The literal that the text of a value stands for. -/
def literalOf (value : Token) : Literal :=
  (Literal.ofText? value.text).getD .unspecified

/-- The properties that keys and values say. -/
def propertiesOf (entries : List (Token × Token)) : Properties :=
  entries.map fun entry => (entry.1.text, literalOf entry.2)

/-- The labels, as often as they are written. -/
def labelsOf : labelList.Derivation → List Token
  | (d, ds) => d.2.1 :: ds.map fun d => d.2.1

/-- The node that a derivation describes: each label once, where it is first written. -/
def nodeOf : node.Derivation → Node
  | (opening, named, labels, map, _) =>
    ⟨named.map (·.1.text), ((labels.map labelsOf).getD []).map (·.text) |>.eraseDups,
      map.map fun d => propertiesOf (mapOf d), opening.1.start.offset⟩

/-- The types of a relationship, as they are written. -/
def typesOf : relationshipTypes.Derivation → List Token
  | ((_, d), ds) => d.1 :: ds.map fun d => d.2.2.1

/-- The first token of a relationship. -/
def openingOf : relationship.Derivation → Token
  | (left, dash, _) => (left.map (·.1)).getD dash.1

/-- Where a relationship points: incoming if only a left arrow head is there, outgoing if only a
    right one is, and else both. -/
def directionOf : relationship.Derivation → Direction
  | (some _, _, _, _, none) => .incoming
  | (none, _, _, _, some _) => .outgoing
  | _ => .both

/-- What stands between the brackets of a relationship: its name, its types and its map. -/
def detailOf :
    relationshipDetail.Derivation → Option Token × List Token × Option (List (Token × Token))
  | (_, named, types, map, _) =>
    (named.map (·.1), (types.map typesOf).getD [], map.map mapOf)

/-- The relationship that a derivation describes. -/
def relationshipOf (d : relationship.Derivation) : Relationship :=
  let (named, types, map) := (d.2.2.1.map detailOf).getD (none, [], none)
  ⟨named.map (·.text), types.map (·.text), map.map propertiesOf, directionOf d,
    (openingOf d).start.offset⟩

/-- The path that a derivation describes. -/
def pathOf : path.Derivation → Path
  | (d, ds) => ⟨nodeOf d, ds.map fun d => (relationshipOf d.1, nodeOf d.2)⟩

/-- The pattern that a derivation describes. -/
def patternOf : pattern.Derivation → Pattern
  | (d, ds) => ⟨pathOf d, ds.map fun d => pathOf d.2⟩

/-- The map of a node, if it has one. -/
def nodeMaps : node.Derivation → List (List (Token × Token))
  | (_, _, _, map, _) => (map.map mapOf).toList

/-- The map of a relationship, if it has one. -/
def relationshipMaps (d : relationship.Derivation) : List (List (Token × Token)) :=
  (d.2.2.1.bind fun d => (detailOf d).2.2).toList

/-- The maps of a path, in the order of the text. -/
def pathMaps : path.Derivation → List (List (Token × Token))
  | (d, ds) => nodeMaps d ++ ds.flatMap fun d => relationshipMaps d.1 ++ nodeMaps d.2

/-- The maps of a pattern, in the order of the text. -/
def patternMaps : pattern.Derivation → List (List (Token × Token))
  | (d, ds) => pathMaps d ++ ds.flatMap fun d => pathMaps d.2

end Grammar

end PatternSql
