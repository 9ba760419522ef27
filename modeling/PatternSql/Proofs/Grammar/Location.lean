import PatternSql.Proofs.Pattern.Following
import PatternSql.Proofs.Token.Pieces
import PatternSql.Statement

/-!
# Where errors are found

A text that is no sentence is reported at the first place that no sentence could have: at a token
that cannot follow those before it, at the end of the text, or at a character that begins no token.
Which of these it is depends on the grammar and the text alone.

Main results:

* `Reader.Follows.located`: how a reader that follows a grammar ends on any text.
* `syntax_errors_located`: patterns and statements are refused at the leftmost place.
-/

namespace PatternSql

/-! ## Places -/

/-- The tokens of a text, or what is wrong with the first character that begins none. -/
def tokenize (text : String) : Except InputError (List Token) :=
  match (scan text).stop with
  | .finished _ => .ok (scan text).tokens
  | .refused p c => .error (.ofChar p c)

/-- Of three statements one holds and the others do not. -/
def ExactlyOne (a b c : Prop) : Prop :=
  (a ∧ ¬b ∧ ¬c) ∨ (¬a ∧ b ∧ ¬c) ∨ (¬a ∧ ¬b ∧ c)

/-- A token of a text is the first that cannot go on with a sentence of the rule. -/
def StrayAt (rule : Ebnf) (text : String) (t : Token) : Prop :=
  ∃ before after, (scan text).tokens = before ++ t :: after ∧ rule.Viable before ∧
    ¬rule.Viable (before ++ [t])

/-- All of a text could go on with a sentence of the rule, but it is none. -/
def EndsEarly (rule : Ebnf) (text : String) : Prop :=
  (∃ p, (scan text).stop = .finished p) ∧ rule.Viable (scan text).tokens ∧
    ¬rule.Derives (scan text).tokens

/-- A text could go on with a sentence of the rule up to a character that begins no token. -/
def RefusedAt (rule : Ebnf) (text : String) (p : Cursor) (c : Char) : Prop :=
  (scan text).stop = .refused p c ∧ rule.Viable (scan text).tokens

/-- The whole text is a sentence of the rule. -/
def IsSentence (rule : Ebnf) (text : String) : Prop :=
  (∃ p, (scan text).stop = .finished p) ∧ rule.Derives (scan text).tokens

/-- The error says that a token is not what was expected, at its start. -/
def InputError.IsAtToken (e : InputError) (t : Token) : Prop :=
  ∃ expected, e = .syntactic t.start.offset expected (.token t.terminal t.text)

/-- The error says that the text ends where something was expected. -/
def InputError.IsAtEnd (e : InputError) (text : String) : Prop :=
  ∃ expected, e = .syntactic text.length expected .ending

namespace Ebnf

variable {e : Ebnf}

theorem Viable.left {ts us : List Token} (h : e.Viable (ts ++ us)) : e.Viable ts := by
  obtain ⟨vs, hvs⟩ := h
  exact ⟨us ++ vs, by rwa [← List.append_assoc]⟩

/-- A viable part of a row of tokens ends in front of a token that is stray. -/
theorem length_le_of_stray {before before' after after' : List Token} {t t' : Token}
    (h : before ++ t :: after = before' ++ t' :: after')
    (hstray : ¬e.Viable (before ++ [t])) (hviable' : e.Viable before') :
    before'.length ≤ before.length := by
  by_contra hlt
  have hprefix : before ++ [t] <+: before' := by
    refine List.prefix_of_prefix_length_le ⟨after, ?_⟩ ⟨t' :: after', rfl⟩ ?_
    · rw [← h, List.append_assoc, List.singleton_append]
    · rw [List.length_append, List.length_singleton]
      omega
  obtain ⟨us, rfl⟩ := hprefix
  exact hstray hviable'.left

/-- The place where a row of tokens stops being viable is unique. -/
theorem stray_unique {before before' after after' : List Token} {t t' : Token}
    (h : before ++ t :: after = before' ++ t' :: after')
    (hviable : e.Viable before) (hstray : ¬e.Viable (before ++ [t]))
    (hviable' : e.Viable before') (hstray' : ¬e.Viable (before' ++ [t'])) : t = t' := by
  have hlen : before.length = before'.length :=
    Nat.le_antisymm (length_le_of_stray h.symm hstray' hviable)
      (length_le_of_stray h hstray hviable')
  exact (List.cons.inj (List.append_inj h hlen).2).1

end Ebnf

/-- A stray token leaves the tokens of the text without a continuation. -/
theorem StrayAt.not_viable {rule : Ebnf} {text : String} {t : Token} (h : StrayAt rule text t) :
    ¬rule.Viable (scan text).tokens := by
  obtain ⟨before, after, htokens, -, hstray⟩ := h
  intro hviable
  rw [htokens, ← List.singleton_append, ← List.append_assoc] at hviable
  exact hstray hviable.left

theorem StrayAt.unique {rule : Ebnf} {text : String} {t t' : Token} (h : StrayAt rule text t)
    (h' : StrayAt rule text t') : t = t' := by
  obtain ⟨before, after, htokens, hviable, hstray⟩ := h
  obtain ⟨before', after', htokens', hviable', hstray'⟩ := h'
  exact Ebnf.stray_unique (htokens.symm.trans htokens') hviable hstray hviable' hstray'

/-- A sentence could go on with nothing. -/
theorem IsSentence.viable {rule : Ebnf} {text : String} (h : IsSentence rule text) :
    rule.Viable (scan text).tokens :=
  ⟨[], by rw [List.append_nil]; exact h.2⟩

/-- A text that is tokens from end to end has no character that begins no token. -/
theorem RefusedAt.not_finished {rule : Ebnf} {text : String} {p : Cursor} {c : Char}
    (h : RefusedAt rule text p c) : ¬∃ q, (scan text).stop = .finished q := by
  rintro ⟨q, hq⟩
  rw [h.1] at hq
  cases hq

theorem RefusedAt.tokenize_eq {rule : Ebnf} {text : String} {p : Cursor} {c : Char}
    (h : RefusedAt rule text p c) : tokenize text = .error (.ofChar p c) := by
  rw [tokenize, h.1]

theorem RefusedAt.unique {rule : Ebnf} {text : String} {p p' : Cursor} {c c' : Char}
    (h : RefusedAt rule text p c) (h' : RefusedAt rule text p' c') : p = p' ∧ c = c' :=
  Stop.refused.inj (h.1.symm.trans h'.1)

/-! ## Outcomes -/

namespace Reader

variable {σ α : Type} {reader : Reader σ α} {rest : σ → Remainder}

/-- Reading stops in front of a token that does not fit, or at the end of the tokens. -/
theorem run_eq (reader : Reader σ α) (s : σ) (ts : List Token) :
    ∃ s' before after, ts = before ++ after ∧ reader.run s before = (s', []) ∧
      reader.run s ts = (s', after) ∧ ∀ t ∈ after.head?, reader.step s' t = none := by
  induction ts generalizing s with
  | nil => exact ⟨s, [], [], rfl, rfl, rfl, by simp⟩
  | cons t ts ih =>
    cases hs : reader.step s t with
    | none =>
      refine ⟨s, [], t :: ts, rfl, rfl, run_cons_of_none hs ts, ?_⟩
      rintro u hu
      obtain rfl : t = u := by simpa using hu
      exact hs
    | some s₁ =>
      obtain ⟨s', before, after, rfl, hbefore, hrun, hstep⟩ := ih s₁
      refine ⟨s', t :: before, after, rfl, ?_, ?_, hstep⟩
      · rw [run_cons_of_some hs, hbefore]
      · rw [run_cons_of_some hs, hrun]

/-- Reading a text by a grammar ends in one of four ways: the text is a sentence, or it is refused
    at a stray token, at its end, or at a character. -/
theorem Follows.read_cases (h : reader.Follows rest) {s : σ} {rule : Ebnf} (hs : rest s = [rule])
    (text : String) :
    (IsSentence rule text ∧ ∃ a, reader.read s (scan text) = .ok a) ∨
    (∃ t e, StrayAt rule text t ∧ reader.read s (scan text) = .error e ∧ e.IsAtToken t) ∨
    (∃ e, EndsEarly rule text ∧ reader.read s (scan text) = .error e ∧ e.IsAtEnd text) ∨
    ∃ p c, RefusedAt rule text p c ∧ reader.read s (scan text) = .error (.ofChar p c) := by
  have hviable : ∀ ts, rule.Viable ts ↔ ∃ s', reader.run s ts = (s', []) := by
    intro ts
    rw [← h.viable_iff, hs]
    simp only [Remainder.derives_singleton_iff]
    rfl
  obtain ⟨s', before, after, htokens, hbefore, hrun, hstep⟩ := run_eq reader s (scan text).tokens
  cases after with
  | cons t after =>
    let e := reader.mismatch s' t.start.offset t.terminal (.token t.terminal t.text)
    refine .inr (.inl ⟨t, e, ⟨before, after, htokens, (hviable _).mpr ⟨s', hbefore⟩, ?_⟩, ?_⟩)
    · intro hmore
      obtain ⟨s₁, hmore⟩ := (hviable _).mp hmore
      rw [run_append hbefore, run_cons_of_none (hstep t rfl)] at hmore
      simp at hmore
    · refine ⟨?_, _, rfl⟩
      rw [read, hrun]
      rfl
  | nil =>
    rw [List.append_nil] at htokens
    rw [← htokens] at hbefore
    cases hstop : (scan text).stop with
    | refused p c =>
      refine .inr (.inr (.inr ⟨p, c, ⟨hstop, (hviable _).mpr ⟨s', hbefore⟩⟩, ?_⟩))
      rw [read, hrun, hstop]
      rfl
    | finished p =>
      cases hresult : reader.result s' with
      | some a =>
        refine .inl ⟨⟨⟨p, hstop⟩, ?_⟩, a, ?_⟩
        · rw [← Remainder.derives_singleton_iff, ← hs, ← h.accepts_iff]
          exact ⟨s', a, hbefore, hresult⟩
        · exact read_eq_ok_iff.mpr ⟨s', p, hbefore, hstop, hresult⟩
      | none =>
        let e := reader.mismatch s' p.offset .endOfInput .ending
        refine .inr (.inr (.inl ⟨e, ⟨⟨p, hstop⟩, (hviable _).mpr ⟨s', hbefore⟩, ?_⟩, ?_, ?_⟩))
        · intro hderives
          rw [← Remainder.derives_singleton_iff, ← hs, ← h.accepts_iff] at hderives
          obtain ⟨s₁, a, hs₁, ha⟩ := hderives
          obtain rfl : s' = s₁ := (Prod.mk.inj (hbefore.symm.trans hs₁)).1
          simp [hresult] at ha
        · rw [read, hrun, hstop]
          simp only [conclude, hresult]
          rfl
        · rw [InputError.IsAtEnd, ← scan_finished_offset hstop]
          exact ⟨_, rfl⟩

end Reader

/-- How the texts are reported that are no sentences of a rule, where reading gives one outcome and
    understanding what was read another. -/
structure Located {α β : Type} (rule : Ebnf) (text : String) (syn : Except InputError α)
    (outcome : Except Failure β) : Prop where
  /-- Exactly the sentences are read. -/
  accepted : (∃ a, syn = .ok a) ↔ IsSentence rule text
  /-- What is not read has one of three things wrong with it. -/
  reason : ∀ e, syn = .error e →
    ExactlyOne (∃ t, StrayAt rule text t) (EndsEarly rule text) (∃ p c, RefusedAt rule text p c)
  /-- A stray token is reported at its start, whatever follows it. -/
  atToken : ∀ t, StrayAt rule text t → ∃ e, syn = .error e ∧ e.IsAtToken t
  /-- An end that comes too early is reported behind the last character. -/
  atEnd : EndsEarly rule text → ∃ e, syn = .error e ∧ e.IsAtEnd text
  /-- A character that begins no token is reported as reading the tokens alone reports it. -/
  atChar : ∀ p c, RefusedAt rule text p c →
    syn = .error (.ofChar p c) ∧ tokenize text = .error (.ofChar p c)
  /-- What is not read is not understood, for the same reason. -/
  raised : ∀ e, syn = .error e → outcome = .error (.input e)

/-- Of the four ways in which reading can end, no two are possible for one text. -/
theorem Reader.Follows.located {σ α β : Type} {reader : Reader σ α} {rest : σ → Remainder}
    (h : reader.Follows rest) {s : σ} {rule : Ebnf} (hs : rest s = [rule]) {text : String}
    {outcome : Except Failure β}
    (hraised : ∀ e, reader.read s (scan text) = .error e → outcome = .error (.input e)) :
    Located rule text (reader.read s (scan text)) outcome := by
  have hcases := h.read_cases hs text
  generalize reader.read s (scan text) = syn at hcases hraised
  rcases hcases with ⟨hsentence, a, rfl⟩ | ⟨t, e, hstray, rfl, hat⟩ | ⟨e, hearly, rfl, hat⟩ |
    ⟨p, c, hrefused, rfl⟩
  · exact {
      accepted := ⟨fun _ => hsentence, fun _ => ⟨a, rfl⟩⟩
      reason := by simp
      atToken := fun t ht => absurd hsentence.viable ht.not_viable
      atEnd := fun hearly => absurd hsentence.2 hearly.2.2
      atChar := fun p c hrefused => absurd hsentence.1 hrefused.not_finished
      raised := hraised }
  · have hno : ¬rule.Viable (scan text).tokens := hstray.not_viable
    exact {
      accepted := ⟨by simp, fun hsentence => absurd hsentence.viable hno⟩
      reason := fun _ _ => .inl ⟨⟨t, hstray⟩, fun hearly => hno hearly.2.1,
        fun ⟨p, c, hrefused⟩ => hno hrefused.2⟩
      atToken := fun u hu => hstray.unique hu ▸ ⟨e, rfl, hat⟩
      atEnd := fun hearly => absurd hearly.2.1 hno
      atChar := fun p c hrefused => absurd hrefused.2 hno
      raised := hraised }
  · exact {
      accepted := ⟨by simp, fun hsentence => absurd hsentence.2 hearly.2.2⟩
      reason := fun _ _ => .inr (.inl ⟨fun ⟨t, ht⟩ => ht.not_viable hearly.2.1, hearly,
        fun ⟨p, c, hrefused⟩ => hrefused.not_finished hearly.1⟩)
      atToken := fun t ht => absurd hearly.2.1 ht.not_viable
      atEnd := fun _ => ⟨e, rfl, hat⟩
      atChar := fun p c hrefused => absurd hearly.1 hrefused.not_finished
      raised := hraised }
  · exact {
      accepted := ⟨by simp, fun hsentence => absurd hsentence.1 hrefused.not_finished⟩
      reason := fun _ _ => .inr (.inr ⟨fun ⟨t, ht⟩ => ht.not_viable hrefused.2,
        fun hearly => hrefused.not_finished hearly.1, p, c, hrefused⟩)
      atToken := fun t ht => absurd hrefused.2 ht.not_viable
      atEnd := fun hearly => absurd hearly.1 hrefused.not_finished
      atChar := by
        intro q d hrefused'
        obtain ⟨rfl, rfl⟩ := hrefused.unique hrefused'
        exact ⟨rfl, hrefused.tokenize_eq⟩
      raised := hraised }

/-- Patterns and statements that the grammar refuses are refused at the leftmost place, and a later
    character that begins no token does not hide it. -/
theorem syntax_errors_located (text : String) :
    Located Grammar.pattern text (readPattern text) (parsePattern text) ∧
      Located Grammar.statement text (readStatement text) (splitStatement text) := by
  constructor
  · refine patternReader_follows.located rfl fun e he => ?_
    rw [parsePattern, readPattern, he]
    rfl
  · refine statementReader_follows.located rfl fun e he => ?_
    rw [splitStatement, readStatement, he]
    rfl

end PatternSql
