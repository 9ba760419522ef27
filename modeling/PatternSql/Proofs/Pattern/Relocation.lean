import PatternSql.Pattern.Meaning
import PatternSql.Proofs.Grammar.Relocation

/-!
# Patterns in other places

The tree of a pattern, and the pattern that it stands for, keep the places of their tokens and
nothing else of where these stand. So the same tokens in other places are read and understood in
the same way, and the pattern or the failure is found in those places.

Main results:

* `patternReader_isNatural`: moved tokens are read as the moved tree.
* `PatternSyntax.meaning_moveTo`: a moved tree is understood as the moved pattern.
* `parsePattern_eq_moveTo`: a text is understood as the contents of its tokens are, moved to where
  the text has them.
-/

namespace PatternSql

variable (place : Nat → Cursor)

/-! ## Trees -/

/-- An entry in another place. -/
def EntrySyntax.moveTo (e : EntrySyntax) : EntrySyntax :=
  ⟨e.key.moveTo place, e.value.moveTo place⟩

/-- A node in another place. -/
def NodeSyntax.moveTo (n : NodeSyntax) : NodeSyntax :=
  ⟨n.opening.moveTo place, n.name.map (·.moveTo place), n.labels.map (·.moveTo place),
    n.map.map (·.map (·.moveTo place))⟩

/-- A type in another place. -/
def TypeSyntax.moveTo (t : TypeSyntax) : TypeSyntax :=
  ⟨t.colon, t.name.moveTo place⟩

/-- What stands between brackets, in another place. -/
def DetailSyntax.moveTo (d : DetailSyntax) : DetailSyntax :=
  ⟨d.name.map (·.moveTo place), d.types.map (·.moveTo place), d.map.map (·.map (·.moveTo place))⟩

/-- A relationship in another place. -/
def EdgeSyntax.moveTo (e : EdgeSyntax) : EdgeSyntax :=
  ⟨e.opening.moveTo place, e.left, e.detail.map (·.moveTo place), e.right⟩

/-- A tree in another place. -/
def PatternSyntax.moveTo : PatternSyntax → PatternSyntax
  | node n => node (n.moveTo place)
  | next p n => next p.moveTo (n.moveTo place)
  | step p e n => step p.moveTo (e.moveTo place) (n.moveTo place)

/-! ## States -/

/-- The state in a map, its tokens in other places. -/
def MapState.moveTo : MapState → MapState
  | opened => opened
  | key es k => key (es.map (·.moveTo place)) (k.moveTo place)
  | colon es k => colon (es.map (·.moveTo place)) (k.moveTo place)
  | value es named => value (es.map (·.moveTo place)) named
  | comma es => comma (es.map (·.moveTo place))

/-- The move in a map, its tokens in other places. -/
def MapMove.moveTo : MapMove → MapMove
  | go s => go (s.moveTo place)
  | close es => close (es.map (·.moveTo place))

/-- The state in a node, its tokens in other places. -/
def NodeState.moveTo : NodeState → NodeState
  | map m => map (m.moveTo place)
  | s => s

/-- The move in a node, its tokens in other places. -/
def NodeMove.moveTo : NodeMove → NodeMove
  | go n s => go (n.moveTo place) (s.moveTo place)
  | close n => close (n.moveTo place)

/-- The state between brackets, its tokens in other places. -/
def DetailState.moveTo : DetailState → DetailState
  | map m => map (m.moveTo place)
  | s => s

/-- The move between brackets, its tokens in other places. -/
def DetailMove.moveTo : DetailMove → DetailMove
  | go d s => go (d.moveTo place) (s.moveTo place)
  | close d => close (d.moveTo place)

/-- The state in a relationship, its tokens in other places. -/
def EdgeState.moveTo : EdgeState → EdgeState
  | detail d s => detail (d.moveTo place) (s.moveTo place)
  | s => s

/-- The move in a relationship, its tokens in other places. -/
def EdgeMove.moveTo : EdgeMove → EdgeMove
  | go e s => go (e.moveTo place) (s.moveTo place)
  | finish e => finish (e.moveTo place)
  | node e => node (e.moveTo place)

/-- What a node is read after, in another place. -/
def Lead.moveTo : Lead → Lead
  | none => none
  | comma p => comma (p.moveTo place)
  | edge p e => edge (p.moveTo place) (e.moveTo place)

/-- The state in a pattern, its tokens in other places. -/
def PatternState.moveTo : PatternState → PatternState
  | start l => start (l.moveTo place)
  | node l n s => node (l.moveTo place) (n.moveTo place) (s.moveTo place)
  | closed p => closed (p.moveTo place)
  | edge p e s => edge (p.moveTo place) (e.moveTo place) (s.moveTo place)

/-! ## Steps -/

variable {place}

/-- A change of what is done under a condition is a change of each case. -/
theorem map_ite {α β : Type} (f : α → β) (c : Prop) [Decidable c] (x y : Option α) :
    (if c then x else y).map f = if c then x.map f else y.map f :=
  apply_ite (Option.map f) c x y

theorem MapState.step_moveTo (s : MapState) (t : Token) :
    (s.moveTo place).step (t.moveTo place) = (s.step t).map (·.moveTo place) := by
  cases s with
  | colon es k =>
    simp only [MapState.moveTo, step, Token.moveTo_terminal, map_ite, Option.map_some,
      MapMove.moveTo, List.map_append]
    rfl
  | _ =>
    simp only [MapState.moveTo, step, Token.moveTo_terminal, map_ite]
    rfl

theorem NodeState.stepPart_moveTo (n : NodeSyntax) (t : Token) :
    stepPart (n.moveTo place) (t.moveTo place) = (stepPart n t).map (·.moveTo place) := by
  simp only [stepPart, Token.moveTo_terminal, map_ite]
  rfl

theorem NodeState.step_moveTo (n : NodeSyntax) (s : NodeState) (t : Token) :
    (s.moveTo place).step (n.moveTo place) (t.moveTo place) =
      (s.step n t).map (·.moveTo place) := by
  cases s with
  | map m =>
    simp only [NodeState.moveTo, step, MapState.step_moveTo]
    cases m.step t with
    | none => rfl
    | some move => cases move <;> rfl
  | colon =>
    simp only [NodeState.moveTo, step, Token.moveTo_terminal, map_ite, Option.map_some,
      NodeMove.moveTo, NodeSyntax.moveTo, List.map_append]
    rfl
  | named => exact stepPart_moveTo n t
  | label => exact stepPart_moveTo n t
  | _ =>
    simp only [NodeState.moveTo, step, Token.moveTo_terminal, stepPart_moveTo, map_ite]
    rfl

theorem DetailState.stepPart_moveTo (d : DetailSyntax) (t : Token) :
    stepPart (d.moveTo place) (t.moveTo place) = (stepPart d t).map (·.moveTo place) := by
  simp only [stepPart, Token.moveTo_terminal, map_ite]
  rfl

theorem DetailState.stepType_moveTo (d : DetailSyntax) (hasColon : Bool) (t : Token) :
    stepType (d.moveTo place) hasColon (t.moveTo place) =
      (stepType d hasColon t).map (·.moveTo place) := by
  simp only [stepType, Token.moveTo_terminal, map_ite, Option.map_some, DetailMove.moveTo,
    DetailSyntax.moveTo, List.map_append]
  rfl

theorem DetailState.step_moveTo (d : DetailSyntax) (s : DetailState) (t : Token) :
    (s.moveTo place).step (d.moveTo place) (t.moveTo place) =
      (s.step d t).map (·.moveTo place) := by
  cases s with
  | map m =>
    simp only [DetailState.moveTo, step, MapState.step_moveTo]
    cases m.step t with
    | none => rfl
    | some move => cases move <;> rfl
  | colon => exact stepType_moveTo d true t
  | _ =>
    simp only [DetailState.moveTo, step, Token.moveTo_terminal, stepPart_moveTo, stepType_moveTo,
      map_ite]
    rfl

theorem EdgeState.step_moveTo (e : EdgeSyntax) (s : EdgeState) (t : Token) :
    (s.moveTo place).step (e.moveTo place) (t.moveTo place) =
      (s.step e t).map (·.moveTo place) := by
  cases s with
  | detail d s =>
    simp only [EdgeState.moveTo, step, DetailState.step_moveTo]
    cases s.step d t with
    | none => rfl
    | some move => cases move <;> rfl
  | _ =>
    simp only [EdgeState.moveTo, step, Token.moveTo_terminal, map_ite]
    rfl

theorem Lead.close_moveTo (l : Lead) (n : NodeSyntax) :
    (l.moveTo place).close (n.moveTo place) = (l.close n).moveTo place := by
  cases l <;> rfl

theorem PatternState.step_moveTo (s : PatternState) (t : Token) :
    (s.moveTo place).step (t.moveTo place) = (s.step t).map (·.moveTo place) := by
  cases s with
  | node l n s =>
    simp only [PatternState.moveTo, step, NodeState.step_moveTo]
    cases s.step n t with
    | none => rfl
    | some move =>
      cases move with
      | go n s => rfl
      | close n => exact congrArg (some ∘ closed) (l.close_moveTo n)
  | edge p e s =>
    simp only [PatternState.moveTo, step, EdgeState.step_moveTo]
    cases s.step e t with
    | none => rfl
    | some move => cases move <;> rfl
  | _ =>
    simp only [PatternState.moveTo, step, Token.moveTo_terminal, map_ite]
    rfl

/-! ## Roles -/

theorem MapState.roles_moveTo (s : MapState) : (s.moveTo place).roles = s.roles := by
  cases s with
  | value es named => cases named <;> rfl
  | _ => rfl

theorem NodeState.roles_moveTo (s : NodeState) : (s.moveTo place).roles = s.roles := by
  cases s with
  | map m => exact m.roles_moveTo
  | _ => rfl

theorem DetailState.roles_moveTo (s : DetailState) : (s.moveTo place).roles = s.roles := by
  cases s with
  | map m => exact m.roles_moveTo
  | _ => rfl

theorem EdgeState.roles_moveTo (s : EdgeState) : (s.moveTo place).roles = s.roles := by
  cases s with
  | detail d s => exact s.roles_moveTo
  | _ => rfl

theorem PatternState.roles_moveTo (following : List Terminal) (s : PatternState) :
    (s.moveTo place).roles following = s.roles following := by
  cases s with
  | node l n s => exact s.roles_moveTo
  | edge p e s => exact s.roles_moveTo
  | _ => rfl

/-- Moved tokens are read as the moved tree. -/
theorem patternReader_isNatural :
    patternReader.IsNatural place (PatternState.moveTo place) (PatternSyntax.moveTo place) where
  step := PatternState.step_moveTo
  result s := by cases s <;> rfl
  roles := PatternState.roles_moveTo []

/-! ## Patterns -/

/-- A node in another place. -/
def Node.moveTo (place : Nat → Cursor) (n : Node) : Node :=
  { n with position := offsetTo place n.position }

/-- A relationship in another place. -/
def Relationship.moveTo (place : Nat → Cursor) (r : Relationship) : Relationship :=
  { r with position := offsetTo place r.position }

/-- A path in another place. -/
def Path.moveTo (place : Nat → Cursor) (p : Path) : Path :=
  ⟨p.first.moveTo place, p.steps.map fun s => (s.1.moveTo place, s.2.moveTo place)⟩

/-- A pattern in another place. -/
def Pattern.moveTo (place : Nat → Cursor) (p : Pattern) : Pattern :=
  ⟨p.first.moveTo place, p.others.map (·.moveTo place)⟩

theorem Pattern.extendLast_moveTo (r : Relationship) (n : Node) (p : Path) (ps : List Path) :
    extendLast (r.moveTo place) (n.moveTo place) (p.moveTo place) (ps.map (·.moveTo place)) =
      ((extendLast r n p ps).1.moveTo place,
        (extendLast r n p ps).2.map (·.moveTo place)) := by
  induction ps generalizing p with
  | nil => simp [extendLast, Path.extend, Path.moveTo]
  | cons q ps ih => simp [extendLast, ih]

theorem Pattern.step_moveTo (p : Pattern) (r : Relationship) (n : Node) :
    (p.moveTo place).step (r.moveTo place) (n.moveTo place) = (p.step r n).moveTo place := by
  rw [step, step, Pattern.moveTo, extendLast_moveTo]
  rfl

theorem Pattern.next_moveTo (p : Pattern) (n : Node) :
    (p.moveTo place).next (n.moveTo place) = (p.next n).moveTo place := by
  simp [Pattern.next, Pattern.moveTo, Path.moveTo]

/-! ## Meaning -/

theorem valueMeaning_moveTo (t : Token) :
    valueMeaning (t.moveTo place) = changed id (Failure.moveTo place) (valueMeaning t) := by
  unfold valueMeaning
  rw [Token.moveTo_text]
  cases Literal.ofText? t.text with
  | none => rfl
  | some literal =>
    cases literal with
    | identifier name =>
      by_cases hnumber : t.terminal = .number
      · have hmoved : (t.moveTo place).terminal = .number := hnumber
        simp only [if_pos hnumber, if_pos hmoved]
        rfl
      · have hmoved : (t.moveTo place).terminal ≠ .number := hnumber
        simp only [if_neg hnumber, if_neg hmoved]
        rfl
    | _ => rfl

theorem entriesMeaning_moveTo (es : List EntrySyntax) :
    entriesMeaning (es.map (·.moveTo place)) =
      changed id (Failure.moveTo place) (entriesMeaning es) := by
  induction es with
  | nil => rfl
  | cons e es ih =>
    have hvalue : valueMeaning (e.moveTo place).value = _ := valueMeaning_moveTo e.value
    rw [List.map_cons, entriesMeaning, entriesMeaning, hvalue, ih]
    refine changed_bind fun value => ?_
    exact changed_bind fun rest => rfl

theorem repeatedKey?_moveTo (seen : List String) (es : List EntrySyntax) :
    repeatedKey? seen (es.map (·.moveTo place)) =
      (repeatedKey? seen es).map (·.moveTo place) := by
  induction es generalizing seen with
  | nil => rfl
  | cons e es ih =>
    have hkey : (e.moveTo place).key.text = e.key.text := rfl
    rw [List.map_cons, repeatedKey?, repeatedKey?, hkey, ih]
    split <;> rfl

theorem mapMeaning_moveTo (es : List EntrySyntax) :
    mapMeaning (es.map (·.moveTo place)) = changed id (Failure.moveTo place) (mapMeaning es) := by
  rw [mapMeaning, mapMeaning, entriesMeaning_moveTo, repeatedKey?_moveTo]
  refine changed_bind fun properties => ?_
  cases repeatedKey? [] es <;> rfl

theorem mapMeaning?_moveTo (map : Option (List EntrySyntax)) :
    mapMeaning? (map.map (·.map (·.moveTo place))) =
      changed id (Failure.moveTo place) (mapMeaning? map) := by
  cases map with
  | none => rfl
  | some es =>
    rw [Option.map_some, mapMeaning?, mapMeaning?, mapMeaning_moveTo]
    cases mapMeaning es <;> rfl

theorem text_moveTo (ts : List Token) : (ts.map (·.moveTo place)).map (·.text) = ts.map (·.text) :=
  List.map_map

theorem text?_moveTo (t : Option Token) : (t.map (·.moveTo place)).map (·.text) = t.map (·.text) :=
  Option.map_map _ _ _

theorem NodeSyntax.meaning_moveTo (n : NodeSyntax) :
    (n.moveTo place).meaning =
      changed (Node.moveTo place) (Failure.moveTo place) n.meaning := by
  rw [NodeSyntax.meaning, NodeSyntax.meaning, NodeSyntax.moveTo, mapMeaning?_moveTo, text_moveTo,
    text?_moveTo]
  exact changed_bind fun properties => rfl

theorem EdgeSyntax.meaning_moveTo (e : EdgeSyntax) :
    (e.moveTo place).meaning =
      changed (Relationship.moveTo place) (Failure.moveTo place) e.meaning := by
  have hdetail : (e.moveTo place).detail.getD ⟨none, [], none⟩ =
      (e.detail.getD ⟨none, [], none⟩).moveTo place := by
    rw [EdgeSyntax.moveTo]
    cases e.detail <;> rfl
  have htypes (ts : List TypeSyntax) :
      (ts.map (·.moveTo place)).map (·.name.text) = ts.map (·.name.text) := List.map_map
  rw [EdgeSyntax.meaning, EdgeSyntax.meaning, hdetail, DetailSyntax.moveTo, mapMeaning?_moveTo,
    text?_moveTo, htypes]
  exact changed_bind fun properties => rfl

/-- A moved tree is understood as the moved pattern. -/
theorem PatternSyntax.meaning_moveTo (p : PatternSyntax) :
    (p.moveTo place).meaning =
      changed (Pattern.moveTo place) (Failure.moveTo place) p.meaning := by
  induction p with
  | node n =>
    rw [PatternSyntax.moveTo, PatternSyntax.meaning, PatternSyntax.meaning, n.meaning_moveTo]
    exact changed_bind fun n => rfl
  | next p n ih =>
    rw [PatternSyntax.moveTo, PatternSyntax.meaning, PatternSyntax.meaning, ih, n.meaning_moveTo]
    refine changed_bind fun p => ?_
    exact changed_bind fun n => congrArg Except.ok (p.next_moveTo n)
  | step p e n ih =>
    rw [PatternSyntax.moveTo, PatternSyntax.meaning, PatternSyntax.meaning, ih, e.meaning_moveTo,
      n.meaning_moveTo]
    refine changed_bind fun p => ?_
    refine changed_bind fun r => ?_
    exact changed_bind fun n => congrArg Except.ok (p.step_moveTo r n)

/-! ## Texts -/

/-- The pattern that tokens are. -/
def understand (s : Scan) : Except Failure Pattern := do
  let p ← (patternReader.read (.start .none) s).mapError .input
  p.meaning

/-- Moved tokens are understood as the moved pattern. -/
theorem understand_moveTo (s : Scan) :
    understand (s.moveTo place) =
      changed (Pattern.moveTo place) (Failure.moveTo place) (understand s) := by
  have hread : patternReader.read ((PatternState.start .none).moveTo place) (s.moveTo place) =
      changed (PatternSyntax.moveTo place) (InputError.moveTo place)
        (patternReader.read (.start .none) s) := patternReader_isNatural.read_moveTo _ s
  have hstart : (PatternState.start .none).moveTo place = .start .none := rfl
  have hinput : (patternReader.read (.start .none) (s.moveTo place)).mapError Failure.input =
      changed (PatternSyntax.moveTo place) (Failure.moveTo place)
        ((patternReader.read (.start .none) s).mapError Failure.input) := by
    rw [hstart] at hread
    rw [hread]
    exact changed_input _
  rw [understand, understand, hinput]
  exact changed_bind fun p => p.meaning_moveTo

/-- A text is understood as the contents of its tokens are, moved to where the text has them. -/
theorem parsePattern_eq_moveTo {text : String} {p : Cursor} (h : (scan text).stop = .finished p) :
    parsePattern text = changed (Pattern.moveTo (scan text).placeOf)
      (Failure.moveTo (scan text).placeOf)
      (understand (.ofContents ((scan text).tokens.map Token.content))) := by
  rw [← understand_moveTo, ← scan_eq_moveTo h]
  rfl

end PatternSql
