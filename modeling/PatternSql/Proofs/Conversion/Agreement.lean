import PatternSql.Conversion
import PatternSql.Proofs.Statement.Creating
import PatternSql.Proofs.Statement.Derivation

/-!
# Two ways to create a node

A node can be created from the text of its pattern, or from a statement that has the pattern behind
the word that creates. Both ways lead to the same command or fail for the same reason, seven
characters further on in the statement; only a semicolon behind the pattern is taken in the
statement alone.

Main results:

* `command_moveTo`: a node in another place is created by the same command.
* `creation_agrees`: the two ways agree on every text.
-/

namespace PatternSql

open Grammar Sql

variable {place : Nat → Cursor}

/-! ## Requests in another place -/

theorem Pattern.singleNode_moveTo (p : Pattern) :
    (p.moveTo place).singleNode =
      changed (Node.moveTo place) (InputError.moveTo place) p.singleNode := by
  obtain ⟨⟨first, steps⟩, others⟩ := p
  cases others with
  | cons q others => rfl
  | nil => cases steps <;> rfl

theorem Node.table_moveTo (n : Node) :
    (n.moveTo place).table = changed id (InputError.moveTo place) n.table := by
  obtain ⟨name, labels, properties, position⟩ := n
  rcases labels with _ | ⟨label, _ | ⟨label', labels⟩⟩ <;> rfl

theorem Node.insertion_moveTo (n : Node) :
    (n.moveTo place).insertion = changed id (InputError.moveTo place) n.insertion := by
  rw [insertion, insertion, table_moveTo]
  refine changed_bind fun table => ?_
  obtain ⟨name, labels, properties, position⟩ := n
  rcases properties with _ | _ | ⟨entry, entries⟩ <;> rfl

theorem Sql.Insertion.command_moveTo (i : Insertion) :
    changed id (Failure.moveTo place) i.command = i.command := by
  rw [Insertion.command]
  split
  · rfl
  · cases rowOf i.values <;> rfl

/-- A node in another place is created by the same command. -/
theorem command_moveTo (n : Node) :
    (Request.creating (n.moveTo place)).command =
      changed id (Failure.moveTo place) (Request.creating n).command := by
  rw [Request.command, Request.command, Node.insertion_moveTo]
  cases n.insertion with
  | error e => rfl
  | ok i => exact i.command_moveTo.symm

/-- The node that a tree stands for. -/
def PatternSyntax.node? (p : PatternSyntax) : Except Failure Node := do
  let P ← p.meaning
  P.singleNode.mapError .input

theorem PatternSyntax.node?_moveTo (p : PatternSyntax) :
    (p.moveTo place).node? = changed (Node.moveTo place) (Failure.moveTo place) p.node? := by
  rw [node?, node?, p.meaning_moveTo]
  refine changed_bind fun P => ?_
  rw [P.singleNode_moveTo]
  exact changed_input _

theorem parseNode_of_read {text : String} {p : PatternSyntax} (h : readPattern text = .ok p) :
    parseNode text = p.node? := by
  rw [parseNode, parsePattern, h]
  rfl

theorem parseNode_of_not_read {text : String} {e : InputError} (h : readPattern text = .error e) :
    parseNode text = .error (.input e) := by
  rw [parseNode, parsePattern, h]
  rfl

variable {text : String}

/-- A pattern that is read behind the word that creates asks for its node. -/
theorem parseStatement_creation {p : PatternSyntax}
    (h : statementReader.read (.creating (.start .none)) (scan text) = .ok (.creating p))
    (dialect : Option String) :
    parseStatement dialect ("CREATE " ++ text) =
      changed (fun n => .creating (n.moveTo (inCreation text))) (Failure.moveTo (inCreation text))
        p.node? := by
  have hread : readStatement ("CREATE " ++ text) =
      .ok (.creating (p.moveTo (inCreation text))) := by
    rw [readStatement_creation, h]
    rfl
  have hnode : parseStatement dialect ("CREATE " ++ text) =
      (p.moveTo (inCreation text)).node?.map .creating := by
    rw [parseStatement, splitStatement_of_read hread, StatementSyntax.meaning,
      PatternSyntax.node?]
    cases (p.moveTo (inCreation text)).meaning with
    | error f => rfl
    | ok P => rfl
  rw [hnode, p.node?_moveTo]
  cases p.node? <;> rfl

theorem parseStatement_not_read {e : InputError}
    (h : statementReader.read (.creating (.start .none)) (scan text) = .error e)
    (dialect : Option String) :
    parseStatement dialect ("CREATE " ++ text) =
      .error (.input (e.moveTo (inCreation text))) := by
  rw [parseStatement, splitStatement, readStatement_creation, h]
  rfl

/-! ## The two ways -/

/-- A failure without what it says was expected. -/
def Failure.withoutExpected : Failure → Failure
  | input e => input e.withoutExpected
  | f => f

/-- The failure is that a semicolon of a text stands behind a complete pattern. -/
def Failure.IsSemicolon (f : Failure) (text : String) : Prop :=
  ∃ before t after e, (scan text).tokens = before ++ t :: after ∧ pattern.Derives before ∧
    t.terminal = .semicolon ∧ f = .input e ∧ e.IsAtToken t

/-- The last token of a text is a semicolon, and what is left without it is a node. -/
def IsNodeWithSemicolon (text : String) : Prop :=
  ∃ before t front blanks n, (scan text).tokens = before ++ [t] ∧ t.terminal = .semicolon ∧
    text = front ++ t.text ++ blanks ∧ front.length = t.start.offset ∧
    parseNode (front ++ blanks) = .ok n

/-- How the statement that creates and the text of its pattern agree. -/
structure CreationAgrees (text : String) : Prop where
  /-- The statement asks for the node, seven characters further on. -/
  node : ∀ n, parseNode text = .ok n → ∀ dialect,
    parseStatement dialect ("CREATE " ++ text) =
      .ok (.creating { n with position := n.position.map (· + 7) })
  /-- It is converted into the command that creates the node, or fails as this does. -/
  command : ∀ n, parseNode text = .ok n →
    convert {} ("CREATE " ++ text) =
      changed id (Failure.moveTo (inCreation text)) (createNode text)
  /-- Where there is no node there is no request, and for the same reason, unless it is that a
      semicolon stands behind the pattern. -/
  refused : ∀ f, parseNode text = .error f → ¬f.IsSemicolon text → ∀ dialect,
    ∃ f', parseStatement dialect ("CREATE " ++ text) = .error f' ∧
      f'.withoutExpected = (f.moveTo (inCreation text)).withoutExpected
  /-- A request is one for a node, with or without a semicolon. -/
  accepted : ∀ dialect request, parseStatement dialect ("CREATE " ++ text) = .ok request →
    (∃ n, parseNode text = .ok n) ∨ IsNodeWithSemicolon text

theorem parseNode_without_last {before : List Token} {t : Token} {q : Cursor} {p : PatternSyntax}
    (hstop : (scan text).stop = .finished q) (h : EndsAtSemicolon (scan text).tokens before t [] p)
    {n : Node} (hn : p.node? = .ok n) : IsNodeWithSemicolon text := by
  obtain ⟨front, blanks, htext, hblanks, hstart, hfront, q', hend⟩ := exists_last hstop h.tokens
  obtain ⟨s, hreads, hresult⟩ := h.pattern
  have hscan : scan (front ++ blanks) = ⟨before, .finished (q'.advance blanks.toList)⟩ := by
    rw [scan, String.toList_append, scanFrom_append_blanks hblanks hend, ← hfront]
    rfl
  have hread : readPattern (front ++ blanks) = .ok p := by
    rw [readPattern, hscan]
    exact Reader.read_eq_ok_iff.mpr ⟨s, _, hreads, rfl, hresult⟩
  exact ⟨before, t, front, blanks, n, h.tokens, h.semicolon, htext, hstart,
    (parseNode_of_read hread).trans hn⟩

/-- The ways agree where the pattern is read. -/
theorem creationAgrees_of_read {p : PatternSyntax} (hpattern : readPattern text = .ok p)
    (hcreating : statementReader.read (.creating (.start .none)) (scan text) =
      .ok (.creating p)) : CreationAgrees text := by
  have hnode := parseNode_of_read hpattern
  have hstatement := parseStatement_creation hcreating
  constructor
  · intro n hn dialect
    rw [hstatement, ← hnode, hn]
    rfl
  · intro n hn
    have hcommand : (Request.creating (n.moveTo (inCreation text))).command =
        changed id (Failure.moveTo (inCreation text)) (Request.creating n).command :=
      command_moveTo n
    rw [convert, hstatement, createNode, ← hnode, hn]
    change (Request.creating (n.moveTo (inCreation text))).command >>= _ =
      changed id _ ((Request.creating n).command >>= _)
    rw [hcommand]
    exact changed_bind fun command => rfl
  · intro f hf _ dialect
    rw [hstatement, ← hnode, hf]
    exact ⟨_, rfl, rfl⟩
  · intro dialect request hrequest
    rw [hstatement, ← hnode] at hrequest
    cases hn : parseNode text with
    | ok n => exact .inl ⟨n, rfl⟩
    | error f =>
      rw [hn] at hrequest
      cases hrequest

theorem InputError.withoutExpected_moveTo (e : InputError) :
    (e.moveTo place).withoutExpected = e.withoutExpected.moveTo place := by
  cases e <;> rfl

/-- The two ways to create a node agree on every text. -/
theorem creation_agrees (text : String) : CreationAgrees text := by
  rcases creating_cases (scan text) with ⟨p, hpattern, hcreating⟩ |
    ⟨e, e', hpattern, hcreating, he⟩ | ⟨before, t, after, p, hends, ⟨e, hpattern, hat⟩, hcreating⟩
  · exact creationAgrees_of_read hpattern hcreating
  · have hnode : parseNode text = .error (.input e) := parseNode_of_not_read hpattern
    have hstatement := parseStatement_not_read hcreating
    refine ⟨fun n hn => ?_, fun n hn => ?_, fun f hf _ dialect => ?_, fun dialect r hr => ?_⟩
    · cases hnode.symm.trans hn
    · cases hnode.symm.trans hn
    · obtain rfl := Except.error.inj (hnode.symm.trans hf)
      refine ⟨_, hstatement dialect, congrArg Failure.input ?_⟩
      rw [InputError.withoutExpected_moveTo, InputError.withoutExpected_moveTo, he]
    · cases (hstatement dialect).symm.trans hr
  · have hnode : parseNode text = .error (.input e) := parseNode_of_not_read hpattern
    refine ⟨fun n hn => ?_, fun n hn => ?_, fun f hf hno => ?_, fun dialect r hr => ?_⟩
    · cases hnode.symm.trans hn
    · cases hnode.symm.trans hn
    · obtain rfl := Except.error.inj (hnode.symm.trans hf)
      exact absurd ⟨before, t, after, e, hends.tokens, hends.derives, hends.semicolon, rfl, hat⟩ hno
    · cases hread : statementReader.read (.creating (.start .none)) (scan text) with
      | error e' => cases (parseStatement_not_read hread dialect).symm.trans hr
      | ok st =>
        obtain ⟨rfl, rfl, q, hstop⟩ := hcreating st hread
        rw [parseStatement_creation hread] at hr
        cases hn : p.node? with
        | error f =>
          rw [hn] at hr
          cases hr
        | ok n => exact .inr (parseNode_without_last hstop hends hn)

/-- Behind a pattern by itself a semicolon is refused, and behind a pattern to create it is not. -/
example :
    parseNode "(n);" = .error (.input (.syntactic (some 3) [] (.token .semicolon ";"))) ∧
    splitStatement "CREATE (n);" = .ok (.creating (.ofNode ⟨some "n", [], none, some 7⟩)) := by
  decide +kernel

end PatternSql
