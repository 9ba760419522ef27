import PatternSql.Proofs.Pattern.Refusal
import PatternSql.Proofs.Pattern.RoundTrip
import PatternSql.Proofs.Statement.Derivation

/-!
# The pattern of a statement

A statement is understood exactly if its pattern is, and fails as its pattern does. So the pattern
of a statement is what the derivation of some of the tokens describes, and its names and values are
such as are read from tokens.

Main results:

* `splitStatement_eq_ok`: the pattern of a statement is that of a derivation.
* `Statement.pattern_holds`: its values read back.
* `splitStatement_eq_error`: what can be wrong with a text for a statement.
-/

namespace PatternSql

open Grammar

/-- The tree of the pattern of a statement. -/
def StatementSyntax.pattern : StatementSyntax → PatternSyntax
  | matching p _ _ => p
  | creating p => p

theorem StatementSyntax.meaning_eq_ok {text : String} {syn : StatementSyntax} {st : Statement}
    (h : syn.meaning text = .ok st) : syn.pattern.meaning = .ok st.pattern := by
  cases syn with
  | matching p condition projection =>
    obtain ⟨P, hP, h⟩ := bind_eq_ok_iff.mp h
    obtain rfl := pure_eq_ok_iff.mp h
    exact hP
  | creating p =>
    obtain ⟨P, hP, h⟩ := bind_eq_ok_iff.mp h
    obtain rfl := pure_eq_ok_iff.mp h
    exact hP

theorem StatementSyntax.meaning_eq_error_iff {text : String} {syn : StatementSyntax}
    {f : Failure} : syn.meaning text = .error f ↔ syn.pattern.meaning = .error f := by
  cases syn with
  | matching p condition projection =>
    refine bind_eq_error_iff.trans ⟨?_, .inl⟩
    rintro (h | ⟨P, -, h⟩)
    · exact h
    · cases h
  | creating p =>
    refine bind_eq_error_iff.trans ⟨?_, .inl⟩
    rintro (h | ⟨P, -, h⟩)
    · exact h
    · cases h

namespace Grammar

/-- The derivation of the pattern in a statement. -/
def patternIn : statement.Derivation → pattern.Derivation
  | .inl ((_, d), _) => d
  | .inr ((_, d), _) => d

theorem statementSyntax_pattern (d : statement.Derivation) :
    (statementSyntax d).pattern = patternSyntax (patternIn d) := by
  rcases d with ⟨⟨word, d⟩, condition, returning, body, ending⟩ | ⟨⟨word, d⟩, ending⟩ <;> rfl

theorem mem_of_mem_patternIn {d : statement.Derivation} {t : Token}
    (h : t ∈ pattern.tokens (patternIn d)) : t ∈ statement.tokens d := by
  rcases d with ⟨⟨word, d⟩, rest⟩ | ⟨⟨word, d⟩, ending⟩
  · exact mem_left (mem_right h)
  · exact mem_left (mem_right h)

end Grammar

/-- The pattern of a statement is what a derivation of some of its tokens describes. -/
theorem splitStatement_eq_ok {text : String} {st : Statement} (h : splitStatement text = .ok st) :
    ∃ d, (∀ t ∈ pattern.tokens d, t ∈ (scan text).tokens) ∧ (∀ m ∈ patternMaps d, Legible m) ∧
      st.pattern = patternOf d := by
  obtain ⟨syn, hsyn, h⟩ := bind_eq_ok_iff.mp h
  rw [mapError_eq_ok_iff] at hsyn
  obtain ⟨-, d, hd, rfl⟩ := readStatement_eq_ok_iff.mp hsyn
  have hmeaning := StatementSyntax.meaning_eq_ok h
  rw [statementSyntax_pattern] at hmeaning
  exact ⟨patternIn d, fun t ht => hd ▸ mem_of_mem_patternIn ht,
    patternSyntax_meaning_iff.mp hmeaning⟩

/-- The names and values of a statement are such as are read from tokens. -/
theorem Statement.pattern_holds {text : String} {st : Statement}
    (h : splitStatement text = .ok st) : st.pattern.Holds Literal.ReadsBack := by
  obtain ⟨d, htokens, hlegible, hpattern⟩ := splitStatement_eq_ok h
  rw [hpattern]
  exact PatternSql.pattern_holds (fun t ht => isGenuine_of_mem (htokens t ht)) hlegible

/-- What is wrong with tokens that are no statement: they are no sentence, or the pattern is refused
    for one of its tokens. -/
theorem splitStatement_eq_error {text : String} {f : Failure} (h : splitStatement text = .error f) :
    (∃ e, readStatement text = .error e ∧ f = .input e) ∨
      ∃ t ∈ (scan text).tokens, f.FoundAt t := by
  obtain h | ⟨syn, hsyn, h⟩ := bind_eq_error_iff.mp h
  · obtain ⟨e, he, rfl⟩ := mapError_eq_error_iff.mp h
    exact .inl ⟨e, he, rfl⟩
  · rw [mapError_eq_ok_iff] at hsyn
    obtain ⟨-, d, hd, rfl⟩ := readStatement_eq_ok_iff.mp hsyn
    have hmeaning := StatementSyntax.meaning_eq_error_iff.mp h
    rw [statementSyntax_pattern] at hmeaning
    obtain ⟨-, t, ht, hfound⟩ := foundAt_of_meaning hmeaning
    exact .inr ⟨t, hd ▸ mem_of_mem_patternIn ht, hfound⟩

end PatternSql
