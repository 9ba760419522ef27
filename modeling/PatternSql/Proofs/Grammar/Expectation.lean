import PatternSql.Proofs.Grammar.Location
import PatternSql.Proofs.Grammar.Roles
import PatternSql.Proofs.Statement.Derivation
import PatternSql.Proofs.Token.Shape

/-!
# What a report expects

A text that is no sentence is reported with the terminals that could stand where it goes wrong. A
report omits something exactly where a pattern has been read to its end, or a body goes on, and the
offending terminal is one that follows other patterns or other bodies. There it omits at least a
comma; behind a pattern that should be the whole text it is empty. Everywhere else it omits nothing.

Main results:

* `StatementState.hasRead_of_run`: a state tells what was read before it.
* `PatternState.omits_iff`, `StatementState.omits_iff`: after which tokens a report omits something.
* `expected_or_omitted`: where reports are complete, and what they are where they are not.
-/

namespace PatternSql

open Terminal Reader

/-! ## What was read before a state -/

theorem Ebnf.Derives.seq {e f : Ebnf} {ts us : List Token} (h : e.Derives ts) (h' : f.Derives us) :
    (Ebnf.seq e f).Derives (ts ++ us) :=
  derives_seq_iff.mpr ⟨ts, us, rfl, h, h'⟩

namespace Grammar

open Ebnf

/-- `MATCH pattern` -/
abbrev matched : Ebnf := seq (token .matchWord) pattern

/-- `CREATE pattern` -/
abbrev created : Ebnf := seq (token .createWord) pattern

/-- `MATCH pattern WHERE` -/
abbrev filterHead : Ebnf := seq matched (token .whereWord)

/-- `MATCH pattern (WHERE clause_text)? RETURN` -/
abbrev returnHead : Ebnf :=
  seq matched <| seq (opt (seq (token .whereWord) clauseText)) (token .returnWord)

/-- After these tokens, in place of this terminal, a report on a pattern omits something: it is the
    list that is given. -/
inductive PatternOmits : List Token → Terminal → List Terminal → Prop
  | closed {before : List Token} {x : Terminal} (read : pattern.Derives before)
      (met : x ∈ [semicolon, whereWord, returnWord]) : PatternOmits before x []

/-- After these tokens, in place of this terminal, a report on a statement omits something: it is
    the list that is given. -/
inductive StatementOmits : List Token → Terminal → List Terminal → Prop
  | matched {before : List Token} {x : Terminal} (read : matched.Derives before)
      (met : x ∈ [semicolon, endOfInput]) : StatementOmits before x [whereWord, returnWord]
  | created {before : List Token} {x : Terminal} (read : created.Derives before)
      (met : x ∈ [whereWord, returnWord]) : StatementOmits before x [semicolon, endOfInput]
  | filtered {before : List Token} {x : Terminal}
      (read : (seq filterHead clauseText).Derives before) (met : x ∈ [semicolon, endOfInput]) :
    StatementOmits before x [returnWord]
  | returned {before : List Token} (read : (seq returnHead clauseText).Derives before) :
    StatementOmits before returnWord [semicolon, endOfInput]

theorem derives_token {x : Terminal} {t : Token} (h : t.terminal = x) : (token x).Derives [t] :=
  ⟨⟨t, List.mem_singleton.mpr h⟩, rfl⟩

/-- Tokens that a body is made of. -/
def IsBodyPart (ts : List Token) : Prop :=
  ∀ t ∈ ts, bodyTerminals.contains t.terminal = true

theorem IsBodyPart.append_singleton {ts : List Token} {t : Token} (h : IsBodyPart ts)
    (ht : bodyTerminals.contains t.terminal = true) : IsBodyPart (ts ++ [t]) := by
  intro u hu
  rcases List.mem_append.mp hu with hu | hu
  · exact h u hu
  · exact List.mem_singleton.mp hu ▸ ht

theorem isBodyPart_iff {ts : List Token} :
    IsBodyPart ts ↔ (many clauseToken).Derives ts := by
  have hmem (x : Terminal) : bodyTerminals.contains x = true → x ∈ [identifier, matchWord,
      createWord, string, number, boolean, null, parameter, operator, leftParen, rightParen,
      leftBracket, rightBracket, leftBrace, rightBrace, comma, dot, colon, minus, less, greater,
      bar] := by
    cases x <;> decide
  constructor
  · intro h
    exact ⟨ts.pmap Subtype.mk fun t ht => hmem _ (h t ht), by
      simp [tokens, List.unattach, List.map_pmap]⟩
  · rintro ⟨ds, rfl⟩ t ht
    obtain ⟨d, -, hd⟩ := List.mem_flatMap.mp ht
    obtain rfl := List.mem_singleton.mp hd
    exact contains_of_mem d

/-- A body of at least one token is a sentence. -/
theorem derives_clauseText {t : Token} {ts : List Token} (h : IsBodyPart (t :: ts)) :
    clauseText.Derives (t :: ts) := by
  obtain ⟨us, vs, rfl, hu, hv⟩ := derives_many_cons_iff.mp (isBodyPart_iff.mp h)
  exact derives_many1_iff.mpr ⟨t :: us, vs, rfl, hu, hv⟩

end Grammar

open Grammar Ebnf

/-- What was read to a state: its bodies are told token by token, its patterns by the state of the
    reader of patterns. -/
def StatementState.HasRead : StatementState → List Token → Prop
  | start, ts => ts = []
  | matching s, ts => ∃ t us, ts = t :: us ∧ t.terminal = matchWord ∧
      patternReader.Reads (.start .none) us s
  | filtering _ body, ts => ∃ head, ts = head ++ body ∧ filterHead.Derives head ∧ IsBodyPart body
  | returning _ _ body, ts => ∃ head, ts = head ++ body ∧ returnHead.Derives head ∧ IsBodyPart body
  | creating s, ts => ∃ t us, ts = t :: us ∧ t.terminal = createWord ∧
      patternReader.Reads (.start .none) us s
  | ended _, _ => True

namespace StatementState

variable {s s' : StatementState} {t : Token} {ts us : List Token}

theorem derives_of_reads {s : PatternState} {p : PatternSyntax}
    (h : patternReader.Reads (.start .none) us s) (hresult : s.result = some p) :
    pattern.Derives us :=
  Remainder.derives_singleton_iff.mp (patternReader_follows.accepts_iff.mp ⟨s, p, h, hresult⟩)

/-- What was read stays read, and the token is added to it. -/
theorem HasRead.step (h : s.HasRead ts) (hs : s.step t = some s') : s'.HasRead (ts ++ [t]) := by
  cases s with
  | start =>
    obtain rfl : ts = [] := h
    obtain ⟨ht, rfl⟩ | ⟨ht, rfl⟩ := step_start hs
    · exact ⟨t, [], rfl, ht, .nil⟩
    · exact ⟨t, [], rfl, ht, .nil⟩
  | matching s =>
    obtain ⟨w, us, rfl, hw, hus⟩ := h
    simp only [StatementState.step] at hs
    split at hs
    · rename_i s₁ hs₁
      obtain rfl := Option.some.inj hs
      exact ⟨w, us ++ [t], rfl, hw, hus.append (.one hs₁)⟩
    · rename_i p hstep hresult
      -- The pattern is whole, and the token opens a body.
      have hmatched : matched.Derives (w :: us) :=
        (derives_token hw).seq (derives_of_reads hus hresult)
      split_ifs at hs with hwhere hreturn
      · obtain rfl := Option.some.inj hs
        exact ⟨w :: us ++ [t], by simp, hmatched.seq (derives_token hwhere), by simp [IsBodyPart]⟩
      · obtain rfl := Option.some.inj hs
        refine ⟨w :: us ++ ([] ++ [t]), by simp, hmatched.seq (.seq ?_ (derives_token hreturn)),
          by simp [IsBodyPart]⟩
        exact derives_opt_iff.mpr (.inl rfl)
    · cases hs
  | filtering p body =>
    obtain ⟨head, rfl, hhead, hbody⟩ := h
    simp only [StatementState.step] at hs
    split_ifs at hs with ht hreturn
    · obtain rfl := Option.some.inj hs
      exact ⟨head, by simp, hhead, hbody.append_singleton ht⟩
    · obtain rfl := Option.some.inj hs
      -- The condition is whole: it becomes a part of what stands before the next body.
      obtain ⟨b, body, rfl⟩ := List.exists_cons_of_ne_nil hreturn.2
      obtain ⟨front, word, rfl, hfront, hwhere⟩ := derives_seq_iff.mp hhead
      refine ⟨front ++ ((word ++ b :: body) ++ [t]), by simp,
        hfront.seq (.seq ?_ (derives_token hreturn.1)), by simp [IsBodyPart]⟩
      exact derives_opt_iff.mpr (.inr (hwhere.seq (derives_clauseText hbody)))
  | returning p c body =>
    obtain ⟨head, rfl, hhead, hbody⟩ := h
    simp only [StatementState.step] at hs
    split_ifs at hs with ht hsemicolon
    · obtain rfl := Option.some.inj hs
      exact ⟨head, by simp, hhead, hbody.append_singleton ht⟩
    · obtain rfl := Option.some.inj hs
      trivial
  | creating s =>
    obtain ⟨w, us, rfl, hw, hus⟩ := h
    simp only [StatementState.step] at hs
    split at hs
    · rename_i s₁ hs₁
      obtain rfl := Option.some.inj hs
      exact ⟨w, us ++ [t], rfl, hw, hus.append (.one hs₁)⟩
    · split_ifs at hs
      obtain rfl := Option.some.inj hs
      trivial
    · cases hs
  | ended st => simp [StatementState.step] at hs

/-- A state tells what was read before it. -/
theorem hasRead_of_run (h : s.HasRead ts) (hrun : statementReader.run s us = (s', [])) :
    s'.HasRead (ts ++ us) := by
  induction us generalizing s ts with
  | nil =>
    obtain rfl : s = s' := (Prod.mk.inj hrun).1
    rwa [List.append_nil]
  | cons u us ih =>
    cases hs : statementReader.step s u with
    | none => exact nomatch (Reader.run_cons_of_none hs us).symm.trans hrun
    | some s₁ =>
      rw [Reader.run_cons_of_some hs] at hrun
      have := ih (h.step hs) hrun
      rwa [List.append_assoc, List.singleton_append] at this

end StatementState

/-! ## Omissions by tokens and by states -/

/-- What the reader of patterns has read tells in which states something is omitted. -/
theorem PatternState.omits_iff {before : List Token} {s : PatternState}
    (hrun : patternReader.run (.start .none) before = (s, [])) {x : Terminal} {xs : List Terminal} :
    PatternOmits before x xs ↔ s.Omits x xs := by
  constructor
  · rintro ⟨⟨d, rfl⟩, hmet⟩
    obtain rfl := (Prod.mk.inj (hrun.symm.trans (reads_pattern d))).1
    exact .closed hmet
  · rintro ⟨hmet⟩
    exact .closed (StatementState.derives_of_reads hrun rfl) hmet

namespace StatementState

open Reader

theorem reads_matchFront (d : matched.Derivation) :
    statementReader.Reads .start (matched.tokens d) (.matching (.closed (patternSyntax d.2))) := by
  refine .cons ?_ (reads_matched d.2)
  simp [statementReader, step, terminal_eq d.1]

theorem reads_createFront (d : created.Derivation) :
    statementReader.Reads .start (created.tokens d) (.creating (.closed (patternSyntax d.2))) := by
  refine .cons ?_ (reads_created d.2)
  simp [statementReader, step, terminal_eq d.1]

theorem reads_filtered (d : (seq filterHead clauseText).Derivation) :
    statementReader.Reads .start ((seq filterHead clauseText).tokens d)
      (.filtering (patternSyntax d.1.1.2) (bodyOf d.2)) := by
  refine ((reads_matchFront d.1.1).append (.one ?_)).append (reads_body (step_filtering _) d.2)
  simp [statementReader, step, PatternState.step, PatternState.result, terminal_eq d.1.2]

theorem reads_returned (d : (seq returnHead clauseText).Derivation) :
    statementReader.Reads .start ((seq returnHead clauseText).tokens d)
      (.returning (patternSyntax d.1.1.2) (d.1.2.1.map fun c => bodyOf c.2) (bodyOf d.2)) :=
  ((reads_matchFront d.1.1).append (reads_condition _ d.1.2.1 d.1.2.2)).append
    (reads_body (step_returning _ _) d.2)

/-- What the reader of statements has read tells in which states something is omitted. -/
theorem omits_iff {before : List Token} {s : StatementState}
    (hrun : statementReader.run .start before = (s, [])) {x : Terminal} {xs : List Terminal} :
    StatementOmits before x xs ↔ s.Omits x xs := by
  constructor
  · intro h
    -- A run ends in one state, so the state is the one that a derivation leads to.
    cases h with
    | matched hread hmet =>
      obtain ⟨d, rfl⟩ := hread
      obtain rfl := (Prod.mk.inj (hrun.symm.trans (reads_matchFront d))).1
      exact .matching hmet
    | created hread hmet =>
      obtain ⟨d, rfl⟩ := hread
      obtain rfl := (Prod.mk.inj (hrun.symm.trans (reads_createFront d))).1
      exact .creating hmet
    | filtered hread hmet =>
      obtain ⟨d, rfl⟩ := hread
      obtain rfl := (Prod.mk.inj (hrun.symm.trans (reads_filtered d))).1
      exact .filtering hmet
    | returned hread =>
      obtain ⟨d, rfl⟩ := hread
      obtain rfl := (Prod.mk.inj (hrun.symm.trans (reads_returned d))).1
      exact .returning
  · intro h
    have hstart : HasRead .start [] := rfl
    have hread := hasRead_of_run hstart hrun
    cases h with
    | matching hmet =>
      obtain ⟨t, us, rfl, ht, hus⟩ := hread
      exact .matched ((derives_token ht).seq (derives_of_reads hus rfl)) hmet
    | creating hmet =>
      obtain ⟨t, us, rfl, ht, hus⟩ := hread
      exact .created ((derives_token ht).seq (derives_of_reads hus rfl)) hmet
    | filtering hmet =>
      obtain ⟨head, rfl, hhead, hbody⟩ := hread
      exact .filtered (hhead.seq (derives_clauseText hbody)) hmet
    | returning =>
      obtain ⟨head, rfl, hhead, hbody⟩ := hread
      exact .returned (hhead.seq (derives_clauseText hbody))

end StatementState

/-! ## Reports -/

/-- A terminal may stand behind some tokens: with a token of it they begin a sentence of the rule,
    or it stands for the end, and they are one. -/
def Admits (rule : Ebnf) (before : List Token) (x : Terminal) : Prop :=
  (x = endOfInput ∧ rule.Derives before) ∨
    ∃ t : Token, t.terminal = x ∧ rule.Viable (before ++ [t])

/-- Where a text stops being the beginning of a sentence of the rule: the tokens up to there, and
    the terminal that is met behind them. -/
inductive Offends (rule : Ebnf) (text : String) : List Token → Terminal → Prop
  | token {before after : List Token} {t : Token}
      (tokens : (scan text).tokens = before ++ t :: after) (viable : rule.Viable before)
      (stray : ¬rule.Viable (before ++ [t])) :
    Offends rule text before t.terminal
  | ending (early : EndsEarly rule text) : Offends rule text (scan text).tokens endOfInput

/-- How the texts are reported that are no sentences of a rule, given where reports omit what, where
    reading gives one outcome and understanding what was read another. -/
structure Expectations {α β : Type} (rule : Ebnf)
    (omits : List Token → Terminal → List Terminal → Prop) (text : String)
    (syn : Except InputError α) (outcome : Except Failure β) : Prop where
  /-- What is reported with expected terminals stops being the beginning of a sentence. -/
  offends : ∀ position expected finding, syn = .error (.syntactic position expected finding) →
    ∃ before x, Offends rule text before x
  /-- Either the report is one that omits something, and then at least a comma that may stand there;
      or it is not empty, and nothing that may stand there is missing from it. -/
  reported : ∀ before x, Offends rule text before x →
    ∃ position xs finding, syn = .error (.syntactic position (xs.map Terminal.display) finding) ∧
      (∀ ys, omits before x ys → xs = ys ∧ Admits rule before .comma ∧ Terminal.comma ∉ xs) ∧
      ((∀ ys, ¬omits before x ys) → xs ≠ [] ∧ ∀ y, Admits rule before y → y ∈ xs)
  /-- What is not read is not understood, for the same reason. -/
  raised : ∀ e, syn = .error e → outcome = .error (.input e)

namespace Ebnf

/-- The terminals that occur in an expression. -/
def terminals : Ebnf → List Terminal
  | oneOf xs => xs
  | seq e f | alt e f => e.terminals ++ f.terminals
  | opt e | many e | many1 e => e.terminals

/-- A sentence is made of the terminals of its expression. -/
theorem Derives.terminal_mem {e : Ebnf} {ts : List Token} (h : e.Derives ts) :
    ∀ t ∈ ts, t.terminal ∈ e.terminals := by
  obtain ⟨d, rfl⟩ := h
  intro t ht
  induction e with
  | oneOf xs => exact List.mem_singleton.mp ht ▸ d.2
  | seq e f ihe ihf =>
    rcases List.mem_append.mp ht with ht | ht
    · exact List.mem_append_left _ (ihe d.1 ht)
    · exact List.mem_append_right _ (ihf d.2 ht)
  | alt e f ihe ihf =>
    cases d with
    | inl d => exact List.mem_append_left _ (ihe d ht)
    | inr d => exact List.mem_append_right _ (ihf d ht)
  | opt e ih =>
    cases d with
    | none => exact nomatch ht
    | some d => exact ih d ht
  | many e ih =>
    obtain ⟨d, -, ht⟩ := List.mem_flatMap.mp ht
    exact ih d ht
  | many1 e ih =>
    rcases List.mem_append.mp ht with ht | ht
    · exact ih d.1 ht
    · obtain ⟨d, -, ht⟩ := List.mem_flatMap.mp ht
      exact ih d ht

theorem Viable.terminal_mem {e : Ebnf} {ts : List Token} (h : e.Viable ts) :
    ∀ t ∈ ts, t.terminal ∈ e.terminals := by
  obtain ⟨us, hus⟩ := h
  exact fun t ht => hus.terminal_mem t (List.mem_append_left us ht)

/-- Behind the beginning of a sentence something may stand. -/
theorem Viable.exists_admits {rule : Ebnf} {before : List Token} (h : rule.Viable before) :
    ∃ x, Admits rule before x := by
  obtain ⟨us, hus⟩ := h
  cases us with
  | nil => exact ⟨_, .inl ⟨rfl, by rwa [List.append_nil] at hus⟩⟩
  | cons t us => exact ⟨_, .inr ⟨t, rfl, us, by rwa [List.append_assoc]⟩⟩

end Ebnf

theorem Offends.viable {rule : Ebnf} {text : String} {before : List Token} {x : Terminal}
    (h : Offends rule text before x) : rule.Viable before := by
  cases h with
  | token _ hviable => exact hviable
  | ending hearly => exact hearly.2.1

namespace Reader.Follows

variable {σ α β : Type} {reader : Reader σ α} {rest : σ → Remainder} {s₀ s : σ} {rule : Ebnf}
  {text : String} {before : List Token} {x : Terminal}

theorem viable_rule_iff (h : reader.Follows rest) (hs : rest s₀ = [rule]) {ts : List Token} :
    rule.Viable ts ↔ ∃ s, reader.run s₀ ts = (s, []) := by
  rw [← h.viable_iff, hs]
  simp only [Remainder.derives_singleton_iff]
  rfl

/-- What fits in a state is what may stand behind the tokens read to it. -/
theorem fits_iff (h : reader.Follows rest) (hs : rest s₀ = [rule])
    (hrun : reader.run s₀ before = (s, [])) : reader.Fits s x ↔ Admits rule before x := by
  refine or_congr (and_congr_right fun _ => ?_)
    (exists_congr fun t => and_congr_right fun _ => ?_)
  · rw [← Remainder.derives_singleton_iff, ← hs, ← h.accepts_iff, hrun, Option.isSome_iff_exists]
    constructor
    · rintro ⟨a, ha⟩
      exact ⟨s, a, rfl, ha⟩
    · rintro ⟨s', a, hs', ha⟩
      obtain rfl := (Prod.mk.inj hs').1
      exact ⟨a, ha⟩
  · rw [h.viable_rule_iff hs, run_append hrun]
    cases hstep : reader.step s t with
    | none => simp [run_cons_of_none hstep]
    | some s' => simp [run_cons_of_some hstep]

/-- Whether a token fits is told by its terminal. -/
theorem step_eq_none_congr (h : reader.Follows rest) {t u : Token} (htu : t.terminal = u.terminal) :
    reader.step s t = none ↔ reader.step s u = none := by
  have heq := (h.step s t).symm.trans (htu ▸ h.step s u)
  cases ht : reader.step s t <;> cases hu : reader.step s u <;> simp [ht, hu] at heq ⊢

/-- Reading stops where a text stops being the beginning of a sentence, and what is met there is
    reported by the state that reading stops in. -/
theorem read_offends (h : reader.Follows rest) (hs : rest s₀ = [rule])
    (hend : endOfInput ∉ rule.terminals) (hoffends : Offends rule text before x) :
    ∃ s position finding, reader.run s₀ before = (s, []) ∧ ¬reader.Fits s x ∧
      reader.read s₀ (scan text) = .error (reader.mismatch s position x finding) := by
  obtain ⟨s, hrun⟩ := (h.viable_rule_iff hs).mp hoffends.viable
  cases hoffends with
  | @token _ after t htokens hviable hstray =>
    have hstep : reader.step s t = none := by
      by_contra hstep
      obtain ⟨s', hs'⟩ := Option.ne_none_iff_exists'.mp hstep
      refine hstray ((h.viable_rule_iff hs).mpr ⟨s', ?_⟩)
      rw [run_append hrun, run_cons_of_some hs', run_nil]
    have ht : t ∈ (scan text).tokens := htokens ▸ List.mem_append_right _ List.mem_cons_self
    refine ⟨s, t.start.offset, .token t.terminal t.text, hrun, ?_, ?_⟩
    · rintro (⟨hx, -⟩ | ⟨u, hu, hstep'⟩)
      · exact (isGenuine_of_mem ht).ne_endOfInput hx
      · rw [(h.step_eq_none_congr hu).mpr hstep] at hstep'
        exact nomatch hstep'
    · rw [read, htokens, run_append hrun, run_cons_of_none hstep]
      rfl
  | ending hearly =>
    obtain ⟨⟨p, hstop⟩, -, hderives⟩ := hearly
    have hfits : ¬reader.Fits s endOfInput := by
      rw [h.fits_iff hs hrun]
      rintro (⟨-, hmore⟩ | ⟨t, ht, hmore⟩)
      · exact hderives hmore
      · exact hend (ht ▸ hmore.terminal_mem t (List.mem_append_right _ List.mem_cons_self))
    have hresult : reader.result s = none :=
      Option.not_isSome_iff_eq_none.mp fun hsome => hfits (.inl ⟨rfl, hsome⟩)
    refine ⟨s, p.offset, .ending, hrun, hfits, ?_⟩
    rw [read, hrun, hstop]
    simp only [conclude, hresult]

/-- A reader that follows a grammar, and whose states are complete or omit a comma, is complete
    except where its states are those that omit something. -/
theorem expectations (h : reader.Follows rest) (hs : rest s₀ = [rule])
    (hend : endOfInput ∉ rule.terminals) {omits : List Token → Terminal → List Terminal → Prop}
    {stateOmits : σ → Terminal → List Terminal → Prop}
    (homits : ∀ {before s}, reader.run s₀ before = (s, []) →
      ∀ {x xs}, omits before x xs ↔ stateOmits s x xs)
    (hcomma : ∀ {s x xs}, stateOmits s x xs → reader.OmitsComma s x xs)
    (hcases : ∀ {s x}, ¬reader.Fits s x → reader.Complete s x ∨ ∃ xs, stateOmits s x xs)
    {outcome : Except Failure β}
    (hraised : ∀ e, reader.read s₀ (scan text) = .error e → outcome = .error (.input e)) :
    Expectations rule omits text (reader.read s₀ (scan text)) outcome where
  offends := by
    intro position xs finding he
    rcases h.read_cases hs text with ⟨-, a, hread⟩ | ⟨t, e, hstray, -⟩ | ⟨e, hearly, -⟩ |
      ⟨p, c, -, hread⟩
    · exact nomatch hread.symm.trans he
    · obtain ⟨before, after, htokens, hviable, hstray⟩ := hstray
      exact ⟨before, t.terminal, .token htokens hviable hstray⟩
    · exact ⟨_, _, .ending hearly⟩
    · exact nomatch hread.symm.trans he
  reported := by
    intro before x hoffends
    obtain ⟨s, position, finding, hrun, hfits, hread⟩ := h.read_offends hs hend hoffends
    refine ⟨position, expected (reader.roles s) x, finding, hread, fun ys hys => ?_, fun hno => ?_⟩
    · obtain ⟨hreport, hfits, hmissing⟩ := hcomma ((homits hrun).mp hys)
      exact ⟨hreport, (h.fits_iff hs hrun).mp hfits, hreport ▸ hmissing⟩
    · obtain hcomplete | ⟨xs, hxs⟩ := hcases hfits
      · have hall : ∀ y, Admits rule before y → y ∈ expected (reader.roles s) x :=
          fun y hy => hcomplete y ((h.fits_iff hs hrun).mpr hy)
        obtain ⟨y, hy⟩ := hoffends.viable.exists_admits
        exact ⟨List.ne_nil_of_mem (hall y hy), hall⟩
      · exact absurd ((homits hrun).mpr hxs) (hno xs)
  raised := hraised

end Reader.Follows

/-- A report omits nothing that may stand where it goes wrong, except behind patterns that have been
    read to their end and in bodies that may go on, in place of what follows other patterns and
    other bodies: there it omits at least a comma. -/
theorem expected_or_omitted (text : String) :
    Expectations Grammar.pattern PatternOmits text (readPattern text) (parsePattern text) ∧
      Expectations Grammar.statement StatementOmits text (readStatement text)
        (splitStatement text) := by
  constructor
  · refine patternReader_follows.expectations rfl (by decide +kernel) PatternState.omits_iff
      PatternState.Omits.omitsComma PatternState.complete_or_omits fun e he => ?_
    rw [parsePattern, readPattern, he]
    rfl
  · refine statementReader_follows.expectations rfl (by decide +kernel) StatementState.omits_iff
      StatementState.Omits.omitsComma StatementState.complete_or_omits fun e he => ?_
    rw [splitStatement, readStatement, he]
    rfl

/-- The tokens of `(n)`. -/
def bareNode : List Token :=
  [⟨.leftParen, "(", .start, 1⟩, ⟨.identifier, "n", ⟨1, 1, 2⟩, 2⟩, ⟨.rightParen, ")", ⟨2, 1, 3⟩, 3⟩]

theorem run_bareNode : ∃ p, patternReader.run (.start .none) bareNode = (.closed p, []) :=
  ⟨_, rfl⟩

/-- Behind `(n)` a comma may stand, but where a semicolon stands nothing is reported as expected. -/
theorem comma_not_expected :
    Offends Grammar.pattern "(n);" bareNode semicolon ∧ Admits Grammar.pattern bareNode comma ∧
      parsePattern "(n);" = .error (.input (.syntactic (some 3) [] (.token semicolon ";"))) := by
  obtain ⟨p, hrun⟩ := run_bareNode
  have hscan : (scan "(n);").tokens = bareNode ++ [⟨.semicolon, ";", ⟨3, 1, 4⟩, 4⟩] := by
    decide +kernel
  have hviable : Grammar.pattern.Viable bareNode :=
    (patternReader_follows.viable_rule_iff rfl).mpr ⟨_, hrun⟩
  have hfits : patternReader.Fits (.closed p) comma := .inr ⟨⟨.comma, ",", .start, 1⟩, rfl, rfl⟩
  refine ⟨.token hscan hviable fun hmore => ?_, (patternReader_follows.fits_iff rfl hrun).mp hfits,
    by decide +kernel⟩
  have hmem := hmore.terminal_mem _ (List.mem_append_right _ (List.mem_singleton.mpr rfl))
  exact absurd hmem (by decide +kernel)

end PatternSql
