import PatternSql.Proofs.Grammar.Location
import PatternSql.Proofs.Pattern.Understanding
import PatternSql.Proofs.Statement.Relocation
import PatternSql.Proofs.Token.Behind

/-!
# A pattern behind the word that creates

Behind the word that creates, the tokens of a pattern are those of the pattern by itself, moved. The
reader of statements takes them one by one as the reader of patterns does, and the two part only at
a semicolon behind a complete pattern: there a statement may end and a pattern may not go on.

Main results:

* `readStatement_creation`: what stands behind the word is read as by itself, moved.
* `creating_cases`: how the two readers of the same tokens end.
-/

namespace PatternSql

open Grammar

/-! ## The tokens -/

/-- Where the characters of a text stand behind the word that creates. -/
def inCreation (text : String) : Nat → Cursor :=
  placeBehind ("CREATE " ++ text) "CREATE ".toList

/-- The token of the word that creates. -/
def createToken : Token := ⟨.createWord, "CREATE", .start, 6⟩

theorem scan_creation (text : String) :
    scan ("CREATE " ++ text) =
      ⟨createToken :: ((scan text).moveTo (inCreation text)).tokens,
        ((scan text).moveTo (inCreation text)).stop⟩ := by
  have htext : ("CREATE " ++ text).toList = "CREATE ".toList ++ text.toList :=
    String.toList_append
  have hword : lexeme? ("CREATE".toList ++ ' ' :: text.toList) = some (some .createWord, 6) :=
    @lexeme?_word 'C' "REATE".toList _ (by decide +kernel) (by decide +kernel)
      (stops_cons.mpr (by decide +kernel))
  have hrest := scanFrom_behind htext
  rw [String.ofList_toList] at hrest
  have hfirst : scan ("CREATE " ++ text) =
      (scanFrom (Cursor.start.advance "CREATE".toList) (' ' :: text.toList)).prepend
        (some .createWord) .start "CREATE".toList := by
    rw [scan, htext]
    exact scanFrom_of_some (by simp) hword
  rw [hfirst, scanFrom_gap (by decide)]
  exact congrArg (Scan.prepend (some .createWord) .start "CREATE".toList) hrest

/-- What stands behind the word is read as by itself, moved. -/
theorem readStatement_creation (text : String) :
    readStatement ("CREATE " ++ text) =
      changed (StatementSyntax.moveTo (inCreation text)) (InputError.moveTo (inCreation text))
        (statementReader.read (.creating (.start .none)) (scan text)) := by
  rw [← statementReader_isNatural.read_moveTo, readStatement, scan_creation]
  rfl

/-! ## The readers -/

/-- An error without what it says was expected. -/
def InputError.withoutExpected : InputError → InputError
  | syntactic position _ finding => syntactic position [] finding
  | e => e

/-- Tokens that are a complete pattern, then a semicolon, then others. -/
structure EndsAtSemicolon (ts before : List Token) (t : Token) (after : List Token)
    (p : PatternSyntax) : Prop where
  /-- The tokens in their order. -/
  tokens : ts = before ++ t :: after
  /-- The first ones are a complete pattern. -/
  pattern : ∃ s, patternReader.Reads (.start .none) before s ∧ s.result = some p
  /-- The next one is the semicolon. -/
  semicolon : t.terminal = .semicolon

/-- The first tokens are a sentence. -/
theorem EndsAtSemicolon.derives {ts before after : List Token} {t : Token} {p : PatternSyntax}
    (h : EndsAtSemicolon ts before t after p) : Grammar.pattern.Derives before := by
  obtain ⟨s, hreads, hresult⟩ := h.pattern
  exact Remainder.derives_singleton_iff.mp
    (patternReader_follows.accepts_iff.mp ⟨s, p, hreads, hresult⟩)

theorem step_creating_of_some {s s' : PatternState} {t : Token} (h : s.step t = some s') :
    statementReader.step (.creating s) t = some (.creating s') := by
  simp only [statementReader, StatementState.step, h]

/-- A token that does not fit a pattern to create is not taken, unless it is a semicolon behind the
    pattern. -/
theorem step_creating_of_none {s : PatternState} {t : Token} (h : s.step t = none) :
    statementReader.step (.creating s) t = none ∨
      ∃ p, s.result = some p ∧ t.terminal = .semicolon ∧
        statementReader.step (.creating s) t = some (.ended (.creating p)) := by
  simp only [statementReader, StatementState.step, h]
  cases s.result with
  | none => exact .inl rfl
  | some p =>
    by_cases ht : t.terminal = .semicolon
    · exact .inr ⟨p, rfl, ht, if_pos ht⟩
    · exact .inl (if_neg ht)

theorem run_ended (st : StatementSyntax) (ts : List Token) :
    statementReader.run (.ended st) ts = (.ended st, ts) := by
  cases ts with
  | nil => rfl
  | cons t ts => exact Reader.run_cons_of_none rfl ts

/-- Behind the semicolon nothing may follow. -/
theorem conclude_ended {st st' : StatementSyntax} {rest : List Token} {stop : Stop}
    (h : statementReader.conclude (.ended st) rest stop = .ok st') :
    st' = st ∧ rest = [] ∧ ∃ q, stop = .finished q := by
  cases rest with
  | cons t rest => cases h
  | nil =>
    cases stop with
    | refused q c => cases h
    | finished q => exact ⟨(Except.ok.inj h).symm, rfl, q, rfl⟩

/-- The two readers end alike where neither takes another token. -/
theorem conclude_creating (s : PatternState) (rest : List Token) (stop : Stop) :
    (∃ p, patternReader.conclude s rest stop = .ok p ∧
      statementReader.conclude (.creating s) rest stop = .ok (.creating p)) ∨
    ∃ e e', patternReader.conclude s rest stop = .error e ∧
      statementReader.conclude (.creating s) rest stop = .error e' ∧
      e'.withoutExpected = e.withoutExpected := by
  cases rest with
  | cons t rest => exact .inr ⟨_, _, rfl, rfl, rfl⟩
  | nil =>
    cases stop with
    | refused q c => exact .inr ⟨_, _, rfl, rfl, rfl⟩
    | finished q =>
      cases hresult : s.result with
      | some p =>
        refine .inl ⟨p, ?_, ?_⟩ <;>
          simp [Reader.conclude, patternReader, statementReader, StatementState.result, hresult]
      | none =>
        refine .inr ⟨patternReader.mismatch s q.offset .endOfInput .ending,
          statementReader.mismatch (.creating s) q.offset .endOfInput .ending, ?_, ?_, rfl⟩ <;>
          simp [Reader.conclude, patternReader, statementReader, StatementState.result, hresult]

/-- The readers of patterns and of patterns to create read tokens alike, unless the tokens are a
    pattern and a semicolon; then the one refuses the semicolon, and the other takes it if it is the
    last token. -/
theorem creating_cases (s : Scan) :
    (∃ p, patternReader.read (.start .none) s = .ok p ∧
      statementReader.read (.creating (.start .none)) s = .ok (.creating p)) ∨
    (∃ e e', patternReader.read (.start .none) s = .error e ∧
      statementReader.read (.creating (.start .none)) s = .error e' ∧
      e'.withoutExpected = e.withoutExpected) ∨
    ∃ before t after p, EndsAtSemicolon s.tokens before t after p ∧
      (∃ e, patternReader.read (.start .none) s = .error e ∧ e.IsAtToken t) ∧
      ∀ st, statementReader.read (.creating (.start .none)) s = .ok st →
        st = .creating p ∧ after = [] ∧ ∃ q, s.stop = .finished q := by
  obtain ⟨s', before, after, htokens, hbefore, hrun, hstep⟩ :=
    Reader.run_eq patternReader (.start .none) s.tokens
  have hlift : statementReader.Reads (.creating (.start .none)) before (.creating s') :=
    Reader.Reads.lift hbefore fun _ _ _ => step_creating_of_some
  have hcreating : statementReader.run (.creating (.start .none)) s.tokens =
      statementReader.run (.creating s') after := by
    rw [htokens]
    exact Reader.run_append hlift after
  have hpattern : patternReader.read (.start .none) s = patternReader.conclude s' after s.stop := by
    rw [Reader.read, hrun]
  have hstatement {r : StatementState} {rest : List Token}
      (h : statementReader.run (.creating s') after = (r, rest)) :
      statementReader.read (.creating (.start .none)) s = statementReader.conclude r rest s.stop := by
    rw [Reader.read, hcreating, h]
  cases after with
  | nil =>
    rw [hpattern, hstatement rfl]
    exact (conclude_creating s' [] s.stop).imp_right .inl
  | cons t after =>
    rcases step_creating_of_none (hstep t rfl) with hnone | ⟨p, hresult, ht, hsome⟩
    · rw [hpattern, hstatement (Reader.run_cons_of_none hnone after)]
      exact (conclude_creating s' (t :: after) s.stop).imp_right .inl
    · refine .inr (.inr ⟨before, t, after, p, ⟨htokens, ⟨s', hbefore, hresult⟩, ht⟩,
        ⟨_, hpattern, ⟨_, rfl⟩⟩, fun st hst => ?_⟩)
      have hended : statementReader.run (.creating s') (t :: after) =
          (.ended (.creating p), after) := by
        rw [Reader.run_cons_of_some hsome]
        exact run_ended (.creating p) after
      rw [hstatement hended] at hst
      exact conclude_ended hst

end PatternSql
