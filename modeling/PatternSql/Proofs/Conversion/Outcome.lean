import PatternSql.CommandLine
import PatternSql.Proofs.Statement.Overlong

/-!
# How conversions end

Each stage of a conversion fails with an error in the statement, and a command is written in any
dialect that exists. There is one exception: a property whose value is a whole number of more digits
than are read. It fails wherever it is looked at, and the program ends without a message.

Main results:

* `convert_outcome`: a conversion yields a command or an error, unless it meets such a number.
* `conversion_ends`: the program answers with one of the two, or has met such a number.
-/

namespace PatternSql

open Sql

/-! ## Errors -/

/-- An error of one of the five kinds that are found in statements. -/
def InputError.IsKind (e : InputError) : Prop :=
  ∀ text, e ≠ .worded text

/-- A failure that is an error of one of the five kinds. -/
def Failure.IsError (f : Failure) : Prop :=
  ∃ e, f = .input e ∧ e.IsKind

/-- If an operation fails, its failure is as given. -/
def FailsWith {α : Type} (P : Failure → Prop) (x : Except Failure α) : Prop :=
  ∀ f, x = .error f → P f

section

variable {α β : Type} {P Q : Failure → Prop} {x : Except Failure α}

theorem FailsWith.ok (a : α) : FailsWith P (.ok a) := fun f h => by cases h

theorem FailsWith.error {f : Failure} (h : P f) : FailsWith P (.error f : Except Failure α) := by
  rintro f' ⟨⟩
  exact h

theorem FailsWith.mono (h : FailsWith P x) (hPQ : ∀ f, P f → Q f) : FailsWith Q x :=
  fun f hf => hPQ f (h f hf)

/-- A chain fails as one of its parts does. -/
theorem FailsWith.bind {y : α → Except Failure β} (hx : FailsWith P x)
    (hy : ∀ a, x = .ok a → FailsWith P (y a)) : FailsWith P (x >>= y) := by
  intro f hf
  obtain hf | ⟨a, ha, hf⟩ := bind_eq_error_iff.mp hf
  · exact hx f hf
  · exact hy a ha f hf

theorem FailsWith.map (hx : FailsWith P x) (g : α → β) : FailsWith P (x.map g) := by
  intro f hf
  cases x with
  | ok a => cases hf
  | error e => exact hx f (congrArg _ (Except.error.inj hf))

theorem failsWith_input {y : Except InputError α} (h : ∀ e, y = .error e → e.IsKind) :
    FailsWith Failure.IsError (y.mapError .input) := by
  intro f hf
  obtain ⟨e, he, rfl⟩ := mapError_eq_error_iff.mp hf
  exact ⟨e, rfl, h e he⟩

end

/-! ## Statements -/

theorem Reader.isKind_of_read {σ α : Type} {reader : Reader σ α} {s : σ} {scan : Scan}
    {e : InputError} (h : reader.read s scan = .error e) : e.IsKind := by
  rw [read] at h
  generalize reader.run s scan.tokens = r at h
  obtain ⟨s', rest⟩ := r
  dsimp only at h
  unfold conclude at h
  split at h
  · cases h
    exact fun text heq => by cases heq
  · cases h
    exact fun text heq => by cases heq
  · split at h
    · cases h
    · cases h
      exact fun text heq => by cases heq

/-- What is wrong with a text for a statement: it has an error, or it meets a number that is too
    long. -/
def Failure.IsErrorIn (text : String) (f : Failure) : Prop :=
  f.IsError ∨ f = .tooManyDigits ∧ MeetsOverlong text

theorem splitStatement_failsWith (text : String) :
    FailsWith (Failure.IsErrorIn text) (splitStatement text) := by
  intro f hf
  obtain ⟨e, he, rfl⟩ | ⟨t, ht, hfound⟩ := splitStatement_eq_error hf
  · exact .inl ⟨e, rfl, Reader.isKind_of_read he⟩
  · cases hfound with
    | digits => exact .inr ⟨rfl, splitStatement_eq_tooManyDigits_iff.mp hf⟩
    | huge number => exact .inl ⟨_, rfl, fun text heq => by cases heq⟩
    | key => exact .inl ⟨_, rfl, fun text heq => by cases heq⟩

/-! ## Requests -/

theorem Pattern.singleNode_isKind {p : Pattern} {e : InputError} (h : p.singleNode = .error e) :
    e.IsKind := by
  unfold singleNode at h
  split at h <;> cases h <;> exact fun text heq => by cases heq

theorem failsWith_malformed {α : Type} {expected : String} {finding : String → Finding}
    {c : Clause} :
    FailsWith Failure.IsError (.error (malformed expected finding c) : Except Failure α) := by
  exact .error ⟨_, rfl, fun text heq => by cases heq⟩

theorem parseCondition_failsWith (d : Dialect) (c : Clause) :
    FailsWith Failure.IsError (parseCondition d c) := by
  unfold parseCondition
  split
  · exact .ok _
  · exact failsWith_malformed

theorem parseProjection_failsWith (d : Dialect) (c : Clause) :
    FailsWith Failure.IsError (parseProjection d c) := by
  unfold parseProjection
  split
  · exact failsWith_malformed
  · split
    · exact failsWith_malformed
    · split
      · exact .ok _
      · exact .error ⟨_, rfl, fun text heq => by cases heq⟩

theorem readMatching_failsWith {dialect : Option String} {d : Dialect}
    (hd : Dialect.named dialect = .ok d) (n : Node) (condition : Option Clause)
    (projection : Clause) :
    FailsWith Failure.IsError (readMatching dialect n condition projection) := by
  rw [readMatching, hd]
  have hcondition : FailsWith Failure.IsError (readCondition d condition) := by
    cases condition with
    | none => exact .ok _
    | some c => exact (parseCondition_failsWith d c).map some
  exact hcondition.bind fun e _ => (parseProjection_failsWith d projection).bind fun items _ =>
    .ok _

/-- A statement is asked for something, or has an error. -/
theorem Statement.request_failsWith {dialect : Option String} {d : Dialect}
    (hd : Dialect.named dialect = .ok d) (st : Statement) :
    FailsWith Failure.IsError (st.request dialect) := by
  refine (failsWith_input fun e => Pattern.singleNode_isKind).bind fun n _ => ?_
  cases st with
  | matching p condition projection => exact readMatching_failsWith hd n condition projection
  | creating p => exact .ok _

theorem parseStatement_failsWith {dialect : Option String} {d : Dialect}
    (hd : Dialect.named dialect = .ok d) (text : String) :
    FailsWith (Failure.IsErrorIn text) (parseStatement dialect text) :=
  (splitStatement_failsWith text).bind fun st _ =>
    (Statement.request_failsWith hd st).mono fun _ => .inl

/-- The node that a request is about. -/
def Request.node : Request → Node
  | matching n _ _ => n
  | creating n => n

/-- The node of a request that a text makes has names and values that were read from tokens. -/
theorem node_holds_of_parseStatement {dialect : Option String} {text : String} {r : Request}
    (h : parseStatement dialect text = .ok r) : r.node.Holds Literal.ReadsBack := by
  obtain ⟨st, hst, h⟩ := bind_eq_ok_iff.mp h
  obtain ⟨n, hn, h⟩ := bind_eq_ok_iff.mp h
  rw [mapError_eq_ok_iff, Pattern.singleNode_eq_ok_iff] at hn
  have hholds := Statement.pattern_holds hst
  rw [hn] at hholds
  have hnode : r.node = n := by
    cases st with
    | creating p =>
      obtain rfl := pure_eq_ok_iff.mp h
      rfl
    | matching p condition projection =>
      simp only [readMatching, bind_eq_ok_iff] at h
      obtain ⟨d, -, e, -, items, -, h⟩ := h
      obtain rfl := pure_eq_ok_iff.mp h
      rfl
  rw [hnode]
  exact (hholds _ List.mem_cons_self).1

/-! ## Commands -/

/-- What reads back has a form as an expression. -/
theorem Literal.ReadsBack.ofLiteral {v : Literal} (h : v.ReadsBack) :
    ∃ e, Expr.ofLiteral v = .ok e := by
  obtain ⟨x, text, hspelled⟩ := h
  have hspelling := hspelled.spelling
  rw [Expr.ofLiteral_isOk_iff]
  refine ⟨?_, ?_, ?_⟩
  · rintro i rfl
    by_contra hlong
    rw [spelling, if_pos (by simpa using hlong)] at hspelling
    cases hspelling
  · rintro y rfl
    by_contra hfinite
    rw [spelling, if_neg hfinite] at hspelling
    cases hspelling
  · rintro rfl
    cases hspelling

theorem Node.table_isKind {n : Node} {e : InputError} (h : n.table = .error e) : e.IsKind := by
  unfold Node.table at h
  split at h <;> cases h <;> exact fun text heq => by cases heq

theorem Node.selection_isKind {n : Node} {condition : Option Expr} {items : List Expr}
    {e : InputError} (h : n.selection condition items = .error e) : e.IsKind := by
  obtain h | ⟨table, -, h⟩ := bind_eq_error_iff.mp h
  · exact Node.table_isKind h
  · cases h

theorem Node.insertion_isKind {n : Node} {e : InputError} (h : n.insertion = .error e) :
    e.IsKind := by
  obtain h | ⟨table, -, h⟩ := bind_eq_error_iff.mp h
  · exact Node.table_isKind h
  · split at h
    · cases h
    · cases h
      exact fun text heq => by cases heq

/-- A node whose values read back has as many columns as values, and all of them have a form. -/
theorem Node.insertion_command {n : Node} (hn : n.Holds Literal.ReadsBack) {i : Insertion}
    (h : n.insertion = .ok i) : ∃ c, i.command = .ok c := by
  obtain ⟨-, ps, -, hps, hcolumns, hvalues⟩ := Node.insertion_eq_ok_iff.mp h
  refine Insertion.command_isOk_iff.mpr ⟨?_, fun v hv => ?_⟩
  · rw [hcolumns, hvalues, List.length_map, List.length_map]
  · rw [hvalues] at hv
    obtain ⟨p, hp, rfl⟩ := List.mem_map.mp hv
    exact ((hn.map ps hps).2 p hp).2.ofLiteral

theorem Request.command_failsWith {r : Request}
    (h : ∀ n, r = .creating n → n.Holds Literal.ReadsBack) :
    FailsWith Failure.IsError r.command := by
  cases r with
  | matching n condition items =>
    cases hs : n.selection condition items with
    | ok s =>
      simp only [Request.command, hs]
      exact .ok _
    | error e =>
      simp only [Request.command, hs]
      exact .error ⟨e, rfl, Node.selection_isKind hs⟩
  | creating n =>
    cases hi : n.insertion with
    | ok i =>
      obtain ⟨c, hc⟩ := Node.insertion_command (h n rfl) hi
      simp only [Request.command, hi, hc]
      exact .ok c
    | error e =>
      simp only [Request.command, hi]
      exact .error ⟨e, rfl, Node.insertion_isKind hi⟩

/-! ## Conversions -/

/-- The dialects that exist, by the names under which they may be asked for here. -/
def knownDialects : List (Option String) :=
  [none, some "", some "postgres", some "mysql", some "sqlite"]

theorem exists_named {dialect : Option String} (h : dialect ∈ knownDialects) :
    ∃ d, Dialect.named dialect = .ok d := by
  simp only [knownDialects, List.mem_cons, List.not_mem_nil, or_false] at h
  rcases h with rfl | rfl | rfl | rfl | rfl
  · exact ⟨.generic, rfl⟩
  · exact ⟨.generic, by decide +kernel⟩
  · exact ⟨.postgres, by decide +kernel⟩
  · exact ⟨.mysql, by decide +kernel⟩
  · exact ⟨.sqlite, by decide +kernel⟩

/-- A conversion yields a command, or the statement has an error or meets a number that is too
    long. -/
theorem convert_outcome {config : Config} (h : config.dialect ∈ knownDialects) (text : String) :
    (∃ command, convert config text = .ok command) ∨
      ∃ f, convert config text = .error f ∧ f.IsErrorIn text := by
  obtain ⟨d, hd⟩ := exists_named h
  have hfails : FailsWith (Failure.IsErrorIn text) (convert config text) := by
    refine (parseStatement_failsWith hd text).bind fun r hr => ?_
    refine ((Request.command_failsWith fun n hn => ?_).mono fun _ => .inl).bind fun c _ => ?_
    · exact node_holds_of_parseStatement (r := .creating n) (hn ▸ hr)
    · rw [Command.render, Config.layout, hd]
      exact .ok _
  cases hconvert : convert config text with
  | ok command => exact .inl ⟨command, rfl⟩
  | error f => exact .inr ⟨f, rfl, hfails f hconvert⟩

/-- A number that is too long makes a conversion fail under every configuration. -/
theorem convert_of_meetsOverlong {text : String} (h : MeetsOverlong text) (config : Config) :
    convert config text = .error .tooManyDigits := by
  rw [convert, parseStatement, splitStatement_eq_tooManyDigits_iff.mpr h]
  rfl

/-- How the program answers: with a command, or with an error of one of the five kinds. -/
inductive Answer.IsProper (outcome : Except Failure String) : Answer → Prop
  /-- With a command. -/
  | command (text : String) (h : outcome = .ok text) :
      IsProper outcome ⟨0, text ++ "\n", "", none⟩
  /-- With an error. -/
  | error (e : InputError) (h : outcome = .error (.input e)) (kind : e.IsKind) :
      IsProper outcome ⟨1, "", "Error: " ++ e.message ++ "\n", none⟩

/-- The answer to a statement is proper if the outcome of its conversion is. -/
theorem answerStatement_isProper {config : Config} {text : String}
    (h : (∃ command, convert config text = .ok command) ∨
      ∃ e, convert config text = .error (.input e) ∧ e.IsKind) :
    (answerStatement config text).IsProper (convert config text) := by
  rw [answerStatement]
  obtain ⟨command, hcommand⟩ | ⟨e, he, hkind⟩ := h
  · rw [hcommand]
    exact .command command rfl
  · rw [he]
    exact .error e rfl hkind

/-- The program answers with the command or the error that a conversion ends with, unless the
    conversion meets a number that is too long. Then it fails in a way that is no error of any kind,
    and the program ends without a message. -/
theorem conversion_ends {config : Config} {text : String}
    (hdialect : config.dialect ∈ knownDialects) :
    (¬MeetsOverlong text →
      ((∃ command, convert config text = .ok command) ∨
        ∃ e, convert config text = .error (.input e) ∧ e.IsKind) ∧
      (answerStatement config text).IsProper (convert config text) ∧
      ∀ settings arguments i, parseArguments {} arguments = .ok i → i.help = false →
        i.positional = [text] → i.config settings = config →
          (answer settings arguments).IsProper (convert config text)) ∧
    (MeetsOverlong text →
      convert config text = .error .tooManyDigits ∧
      answerStatement config text = ⟨1, "", "", some .tooManyDigits⟩ ∧
      ∀ settings arguments i, parseArguments {} arguments = .ok i → i.help = false →
        i.positional = [text] → i.config settings = config →
          answer settings arguments = ⟨1, "", "", some .tooManyDigits⟩) := by
  have hanswer : ∀ settings arguments i, parseArguments {} arguments = .ok i → i.help = false →
      i.positional = [text] → i.config settings = config →
        answer settings arguments = answerStatement config text := by
    intro settings arguments i hi hhelp htext hconfig
    rw [answer, hi]
    simp only [hhelp, htext, hconfig, Bool.false_eq_true, if_false]
  constructor
  · intro hshort
    have hends : (∃ command, convert config text = .ok command) ∨
        ∃ e, convert config text = .error (.input e) ∧ e.IsKind := by
      obtain hcommand | ⟨f, hf, ⟨e, rfl, hkind⟩ | ⟨-, hlong⟩⟩ := convert_outcome hdialect text
      · exact .inl hcommand
      · exact .inr ⟨e, hf, hkind⟩
      · exact absurd hlong hshort
    have hproper := answerStatement_isProper hends
    refine ⟨hends, hproper, fun settings arguments i hi hhelp htext hconfig => ?_⟩
    rwa [hanswer settings arguments i hi hhelp htext hconfig]
  · intro hlong
    have hconvert := convert_of_meetsOverlong hlong config
    have hends : answerStatement config text = ⟨1, "", "", some .tooManyDigits⟩ := by
      rw [answerStatement, hconvert]
    refine ⟨hconvert, hends, fun settings arguments i hi hhelp htext hconfig => ?_⟩
    rw [hanswer settings arguments i hi hhelp htext hconfig, hends]

theorem conversion_ends_postgres :
    some "postgres" ∈ knownDialects ∧
      ¬MeetsOverlong "MATCH (n:T) WHERE n.k = 1 RETURN n" ∧
      (answer [] ["MATCH (n:T) WHERE n.k = 1 RETURN n", "--dialect", "postgres"]).IsProper
        (convert ⟨some "postgres", false, false⟩ "MATCH (n:T) WHERE n.k = 1 RETURN n") := by
  have hdialect : some "postgres" ∈ knownDialects := by decide
  have hshort : ¬MeetsOverlong "MATCH (n:T) WHERE n.k = 1 RETURN n" :=
    not_meetsOverlong_of_maps (by decide +kernel)
  refine ⟨hdialect, hshort, ?_⟩
  have hknown : (⟨some "postgres", false, false⟩ : Config).dialect ∈ knownDialects := hdialect
  exact ((conversion_ends hknown).1 hshort).2.2 []
    ["MATCH (n:T) WHERE n.k = 1 RETURN n", "--dialect", "postgres"]
    ⟨some "postgres", false, false, ["MATCH (n:T) WHERE n.k = 1 RETURN n"]⟩ (by decide +kernel) rfl
    rfl (by decide +kernel)

/-- The shortest number of ones that is too long. -/
theorem convert_overlong_ones :
    convert {} (creationOf (String.ofList (List.replicate 4301 '1'))) = .error .tooManyDigits ∧
      ∀ e, convert {} (creationOf (String.ofList (List.replicate 4301 '1'))) ≠
        .error (.input e) := by
  have hn : Numeral.ofChars? (String.ofList (List.replicate 4301 '1')).toList =
      some ⟨false, List.replicate 4301 '1', none, none⟩ := by
    rw [String.toList_ofList]
    refine Numeral.ofChars?_of_spelled ⟨fun c hc => ?_, by rintro _ ⟨⟩, by rintro _ ⟨⟩, rfl⟩
      ⟨[], .none, ?_⟩
    · rw [List.eq_of_mem_replicate hc]
      decide
    · exact (List.append_nil _).symm
  have hlong : digitLimit < (List.replicate 4301 '1').length := by
    rw [List.length_replicate]
    decide
  have hconvert := convert_of_meetsOverlong (meetsOverlong_creationOf hn rfl hlong) {}
  refine ⟨hconvert, fun e he => ?_⟩
  rw [hconvert] at he
  cases he

end PatternSql
