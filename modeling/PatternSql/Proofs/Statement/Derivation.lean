import PatternSql.Proofs.Pattern.Following
import PatternSql.Proofs.Pattern.Understanding
import PatternSql.Statement

/-!
# Reading the sentence of a statement

A derivation of a statement says which tree the reader of statements builds from its sentence. The
pattern is read as it would be by itself; the bodies are collected token by token.

Main results:

* `Grammar.reads_statement`: from the sentence of a derivation a reader of statements builds its
  tree.
* `readStatement_eq_ok_iff`, `splitStatement_of_read`: what a text is read and understood as.
-/

namespace PatternSql

open Terminal

namespace Grammar

open Ebnf Reader

/-- The tokens of a body. -/
def bodyOf : clauseText.Derivation → List Token
  | (t, ts) => t.1 :: ts.map (·.1)

/-- The tree of a statement. -/
def statementSyntax : statement.Derivation → StatementSyntax
  | .inl ((_, d), condition, _, body, _) =>
    .matching (patternSyntax d) (condition.map fun c => bodyOf c.2) (bodyOf body)
  | .inr ((_, d), _) => .creating (patternSyntax d)

theorem bodyOf_eq_tokens (d : clauseText.Derivation) : bodyOf d = clauseText.tokens d := by
  obtain ⟨t, ts⟩ := d
  simp only [bodyOf, tokens, List.singleton_append, List.cons.injEq, true_and]
  induction ts with
  | nil => rfl
  | cons u ts ih => simp [ih]

theorem contains_of_mem (t : clauseToken.Derivation) :
    bodyTerminals.contains t.1.terminal = true := by
  obtain ⟨⟨x, text, start, stop⟩, h⟩ := t
  cases x <;> revert h <;> simp [bodyTerminals]

/-! ## Bodies -/

/-- A body is collected token by token. -/
theorem reads_body {place : List Token → StatementState}
    (h : ∀ body t, bodyTerminals.contains t.terminal = true →
      statementReader.step (place body) t = some (place (body ++ [t])))
    (d : clauseText.Derivation) :
    statementReader.Reads (place []) (clauseText.tokens d) (place (bodyOf d)) := by
  obtain ⟨t, ts⟩ := d
  have hmore := Reads.collect place clauseToken.tokens (·.1)
    (fun body d => .one (h body d.1 (contains_of_mem d))) [t.1] ts
  exact Reads.cons (h [] t.1 (contains_of_mem t)) hmore

theorem step_filtering (p : PatternSyntax) (body : List Token) (t : Token)
    (ht : bodyTerminals.contains t.terminal = true) :
    statementReader.step (.filtering p body) t = some (.filtering p (body ++ [t])) := by
  simp only [statementReader, StatementState.step, ht, if_true]

theorem step_returning (p : PatternSyntax) (c : Option (List Token)) (body : List Token) (t : Token)
    (ht : bodyTerminals.contains t.terminal = true) :
    statementReader.step (.returning p c body) t = some (.returning p c (body ++ [t])) := by
  simp only [statementReader, StatementState.step, ht, if_true]

/-! ## Statements -/

/-- The pattern of a statement is read as it would be by itself. -/
theorem reads_matched (d : pattern.Derivation) :
    statementReader.Reads (.matching (.start .none)) (pattern.tokens d)
      (.matching (.closed (patternSyntax d))) := by
  refine (reads_pattern d).lift fun s t s' hs => ?_
  simp only [statementReader, StatementState.step]
  rw [show s.step t = some s' from hs]

theorem reads_created (d : pattern.Derivation) :
    statementReader.Reads (.creating (.start .none)) (pattern.tokens d)
      (.creating (.closed (patternSyntax d))) := by
  refine (reads_pattern d).lift fun s t s' hs => ?_
  simp only [statementReader, StatementState.step]
  rw [show s.step t = some s' from hs]

/-- The condition of a statement, if there is one, and the word in front of the projection. -/
theorem reads_condition (p : PatternSyntax)
    (d : (opt (seq (token .whereWord) clauseText)).Derivation)
    (t : (token .returnWord).Derivation) :
    statementReader.Reads (.matching (.closed p))
      ((opt (seq (token .whereWord) clauseText)).tokens d ++ [t.1])
      (.returning p (d.map fun c => bodyOf c.2) []) := by
  cases d with
  | none =>
    refine .one ?_
    simp [statementReader, StatementState.step, PatternState.step, PatternState.result,
      terminal_eq t]
  | some d =>
    obtain ⟨word, body⟩ := d
    have hword : statementReader.step (.matching (.closed p)) word.1 = some (.filtering p []) := by
      simp [statementReader, StatementState.step, PatternState.step, PatternState.result,
        terminal_eq word]
    have hbody := reads_body (step_filtering p) body
    refine .append (.cons hword hbody) (.one ?_)
    simp [statementReader, StatementState.step, terminal_eq t, bodyTerminals, bodyOf]

/-- From the sentence of a derivation a reader of statements builds its tree. -/
theorem reads_statement (d : statement.Derivation) :
    ∃ s, statementReader.Reads .start (statement.tokens d) s ∧
      s.result = some (statementSyntax d) := by
  rcases d with ⟨⟨word, d⟩, condition, returning, body, semicolon⟩ | ⟨⟨word, d⟩, semicolon⟩
  · have hword : statementReader.step .start word.1 = some (.matching (.start .none)) := by
      simp [statementReader, StatementState.step, terminal_eq word]
    have hfront := Reads.cons hword ((reads_matched d).append
      (reads_condition (patternSyntax d) condition returning))
    have hbody := hfront.append (reads_body (step_returning _ _) body)
    cases semicolon with
    | none =>
      refine ⟨.returning (patternSyntax d) (condition.map fun c => bodyOf c.2) (bodyOf body), ?_, rfl⟩
      simpa [tokens] using hbody
    | some semicolon =>
      have hlast : statementReader.step (.returning (patternSyntax d)
          (condition.map fun c => bodyOf c.2) (bodyOf body)) semicolon.1 =
          some (.ended (.matching (patternSyntax d) (condition.map fun c => bodyOf c.2)
            (bodyOf body))) := by
        simp [statementReader, StatementState.step, terminal_eq semicolon, bodyTerminals, bodyOf]
      refine ⟨.ended (.matching (patternSyntax d) (condition.map fun c => bodyOf c.2)
        (bodyOf body)), ?_, rfl⟩
      simpa [tokens] using hbody.append (.one hlast)
  · have hword : statementReader.step .start word.1 = some (.creating (.start .none)) := by
      simp [statementReader, StatementState.step, terminal_eq word]
    have hfront := Reads.cons hword (reads_created d)
    cases semicolon with
    | none =>
      refine ⟨.creating (.closed (patternSyntax d)), ?_, rfl⟩
      simpa [tokens] using hfront
    | some semicolon =>
      have hlast : statementReader.step (.creating (.closed (patternSyntax d))) semicolon.1 =
          some (.ended (.creating (patternSyntax d))) := by
        simp [statementReader, StatementState.step, PatternState.step, PatternState.result,
          terminal_eq semicolon]
      refine ⟨.ended (.creating (patternSyntax d)), ?_, rfl⟩
      simpa [tokens] using hfront.append (.one hlast)

end Grammar

open Grammar

/-- A text is read as the tree of a derivation of its tokens. -/
theorem readStatement_eq_ok_iff {text : String} {st : StatementSyntax} :
    readStatement text = .ok st ↔ (∃ q, (scan text).stop = .finished q) ∧
      ∃ d, statement.tokens d = (scan text).tokens ∧ st = statementSyntax d := by
  rw [readStatement, Reader.read_eq_ok_iff]
  constructor
  · rintro ⟨s, q, hrun, hstop, hresult⟩
    have hderives : Remainder.Derives [statement] (scan text).tokens :=
      statementReader_follows.accepts_iff.mp ⟨s, st, hrun, hresult⟩
    obtain ⟨d, hd⟩ := Remainder.derives_singleton_iff.mp hderives
    obtain ⟨s', hreads, hs'⟩ := reads_statement d
    rw [hd, Reader.Reads, hrun, Prod.mk.injEq] at hreads
    rw [hreads.1] at hresult
    exact ⟨⟨q, hstop⟩, d, hd, Option.some.inj (hresult.symm.trans hs')⟩
  · rintro ⟨⟨q, hstop⟩, d, hd, rfl⟩
    obtain ⟨s', hreads, hs'⟩ := reads_statement d
    exact ⟨s', q, hd ▸ hreads, hstop, hs'⟩

/-- A text that is read as a statement is understood as the tree is. -/
theorem splitStatement_of_read {text : String} {st : StatementSyntax}
    (h : readStatement text = .ok st) : splitStatement text = st.meaning text := by
  rw [splitStatement, h]
  rfl

end PatternSql
