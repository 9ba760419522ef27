import PatternSql.Proofs.Grammar.Ebnf
import PatternSql.Reader

/-!
# What remains of a grammar while tokens are read

While a sentence is read, what is still to come is a row of expressions. A token that fits leaves
another row, so a reader whose states stand for such rows, and whose steps lead from row to row in
the way the grammar prescribes, accepts the sentences of the grammar and nothing else.

Main results:

* `Remainder.derives_cons_iff`: a token followed by others is derived exactly if the others are
  derived by one of the rows that remain after the token.
* `Reader.Follows.accepts_iff`: a reader that follows a grammar accepts its sentences.
* `Reader.Follows.viable_iff`: such a reader takes the beginnings of sentences, and stops at the
  first token that makes a row of tokens more than a beginning.
-/

namespace PatternSql

/-- The expressions that are still to be derived, in order. -/
abbrev Remainder := List Ebnf

namespace Remainder

/-- A row of tokens is derived by a row of expressions. -/
def Derives : Remainder → List Token → Prop
  | [], ts => ts = []
  | e :: k, ts => ∃ us vs, ts = us ++ vs ∧ e.Derives us ∧ Derives k vs

/-- Whether no token at all is enough. -/
def isNullable (k : Remainder) : Bool :=
  k.all (·.isNullable)

theorem derives_nil_iff {k : Remainder} : k.Derives [] ↔ k.isNullable = true := by
  induction k with
  | nil => simp [Derives, isNullable]
  | cons e k ih =>
    have hcons : isNullable (e :: k) = (e.isNullable && isNullable k) := rfl
    simp only [Derives, hcons, Bool.and_eq_true, ← Ebnf.derives_nil_iff, ← ih]
    constructor
    · rintro ⟨us, vs, hnil, hu, hv⟩
      obtain ⟨rfl, rfl⟩ := List.append_eq_nil_iff.mp hnil.symm
      exact ⟨hu, hv⟩
    · rintro ⟨hu, hv⟩
      exact ⟨[], [], rfl, hu, hv⟩

theorem derives_append_iff {k l : Remainder} {ts : List Token} :
    (k ++ l).Derives ts ↔ ∃ us vs, ts = us ++ vs ∧ k.Derives us ∧ l.Derives vs := by
  induction k generalizing ts with
  | nil => simp [Derives]
  | cons e k ih =>
    simp only [List.cons_append, Derives, ih]
    constructor
    · rintro ⟨us, _, rfl, hu, vs, ws, rfl, hv, hw⟩
      exact ⟨us ++ vs, ws, by simp, ⟨us, vs, rfl, hu, hv⟩, hw⟩
    · rintro ⟨_, ws, rfl, ⟨us, vs, rfl, hu, hv⟩, hw⟩
      exact ⟨us, vs ++ ws, by simp, hu, vs, ws, rfl, hv, hw⟩

theorem derives_singleton_iff {e : Ebnf} {ts : List Token} :
    Derives [e] ts ↔ e.Derives ts := by
  simp [Derives]

end Remainder

namespace Ebnf

/-- What may remain of an expression after a token of a terminal. -/
def after (x : Terminal) : Ebnf → List Remainder
  | oneOf xs => if xs.contains x then [[]] else []
  | seq e f => (e.after x).map (· ++ [f]) ++ if e.isNullable then f.after x else []
  | alt e f => e.after x ++ f.after x
  | opt e => e.after x
  | many e => (e.after x).map (· ++ [many e])
  | many1 e => (e.after x).map (· ++ [many e])

theorem derives_seq_iff {e f : Ebnf} {ts : List Token} :
    (seq e f).Derives ts ↔ ∃ us vs, ts = us ++ vs ∧ e.Derives us ∧ f.Derives vs := by
  constructor
  · rintro ⟨⟨d, d'⟩, rfl⟩
    exact ⟨e.tokens d, f.tokens d', rfl, ⟨d, rfl⟩, d', rfl⟩
  · rintro ⟨us, vs, rfl, ⟨d, rfl⟩, d', rfl⟩
    exact ⟨(d, d'), rfl⟩

theorem derives_alt_iff {e f : Ebnf} {ts : List Token} :
    (alt e f).Derives ts ↔ e.Derives ts ∨ f.Derives ts := by
  constructor
  · rintro ⟨d | d, rfl⟩
    · exact .inl ⟨d, rfl⟩
    · exact .inr ⟨d, rfl⟩
  · rintro (⟨d, rfl⟩ | ⟨d, rfl⟩)
    · exact ⟨.inl d, rfl⟩
    · exact ⟨.inr d, rfl⟩

theorem derives_opt_iff {e : Ebnf} {ts : List Token} :
    (opt e).Derives ts ↔ ts = [] ∨ e.Derives ts := by
  constructor
  · rintro ⟨_ | d, rfl⟩
    · exact .inl rfl
    · exact .inr ⟨d, rfl⟩
  · rintro (rfl | ⟨d, rfl⟩)
    · exact ⟨none, rfl⟩
    · exact ⟨some d, rfl⟩

theorem derives_many1_iff {e : Ebnf} {ts : List Token} :
    (many1 e).Derives ts ↔ ∃ us vs, ts = us ++ vs ∧ e.Derives us ∧ (many e).Derives vs :=
  derives_seq_iff (f := many e)

/-- The first copy that is not empty begins with the first token. -/
theorem derives_many_cons_iff {e : Ebnf} {t : Token} {ts : List Token} :
    (many e).Derives (t :: ts) ↔
      ∃ us vs, ts = us ++ vs ∧ e.Derives (t :: us) ∧ (many e).Derives vs := by
  constructor
  · rintro ⟨ds, hds⟩
    induction ds with
    | nil => simp [tokens] at hds
    | cons d ds ih =>
      simp only [tokens, List.flatMap_cons] at hds ih
      cases hd : e.tokens d with
      | nil => exact ih (by simpa [hd] using hds)
      | cons t' us =>
        rw [hd, List.cons_append, List.cons.injEq] at hds
        obtain ⟨rfl, rfl⟩ := hds
        exact ⟨us, ds.flatMap e.tokens, rfl, ⟨d, hd⟩, ds, rfl⟩
  · rintro ⟨us, vs, rfl, ⟨d, hd⟩, ds, rfl⟩
    exact ⟨d :: ds, by simp [tokens, hd]⟩

end Ebnf

namespace Remainder

/-- A sentence of two parts begins in the first part, or in the second if the first is empty. -/
theorem exists_append_cons_iff {p q : List Token → Prop} {t : Token} {ts : List Token} :
    (∃ us vs, t :: ts = us ++ vs ∧ p us ∧ q vs) ↔
      (∃ us vs, ts = us ++ vs ∧ p (t :: us) ∧ q vs) ∨ p [] ∧ q (t :: ts) := by
  constructor
  · rintro ⟨us, vs, hts, hp, hq⟩
    cases us with
    | nil => exact .inr ⟨hp, by rwa [hts]⟩
    | cons t' us =>
      rw [List.cons_append, List.cons.injEq] at hts
      obtain ⟨rfl, rfl⟩ := hts
      exact .inl ⟨us, vs, rfl, hp, hq⟩
  · rintro (⟨us, vs, rfl, hp, hq⟩ | ⟨hp, hq⟩)
    · exact ⟨t :: us, vs, rfl, hp, hq⟩
    · exact ⟨[], t :: ts, rfl, hp, hq⟩

/-- What remains of a first part, and then the second part. -/
theorem exists_map_append_iff {ks : List Remainder} {l : Remainder} {ts : List Token} :
    (∃ k ∈ ks.map (· ++ l), Derives k ts) ↔
      ∃ us vs, ts = us ++ vs ∧ (∃ k ∈ ks, Derives k us) ∧ Derives l vs := by
  simp only [List.mem_map, exists_exists_and_eq_and, derives_append_iff]
  constructor
  · rintro ⟨k, hk, us, vs, hts, hu, hv⟩
    exact ⟨us, vs, hts, ⟨k, hk, hu⟩, hv⟩
  · rintro ⟨us, vs, hts, ⟨k, hk, hu⟩, hv⟩
    exact ⟨k, hk, us, vs, hts, hu, hv⟩

theorem exists_mem_append_iff {ks ls : List Remainder} {ts : List Token} :
    (∃ k ∈ ks ++ ls, Derives k ts) ↔ (∃ k ∈ ks, Derives k ts) ∨ ∃ k ∈ ls, Derives k ts := by
  simp only [List.mem_append, or_and_right, exists_or]

theorem exists_mem_ite_iff {b : Bool} {ks : List Remainder} {ts : List Token} :
    (∃ k ∈ (if b then ks else []), Derives k ts) ↔ b = true ∧ ∃ k ∈ ks, Derives k ts := by
  cases b <;> simp

end Remainder

/-- A token begins a sentence of an expression exactly if what may remain of the expression after
    it derives the rest. -/
theorem Ebnf.derives_cons_iff {e : Ebnf} {t : Token} {ts : List Token} :
    e.Derives (t :: ts) ↔ ∃ k ∈ e.after t.terminal, Remainder.Derives k ts := by
  induction e generalizing ts with
  | oneOf xs =>
    constructor
    · rintro ⟨⟨t', ht'⟩, hd⟩
      simp only [tokens, List.cons.injEq] at hd
      obtain ⟨rfl, rfl⟩ := hd
      exact ⟨[], by simp [after, ht'], rfl⟩
    · rintro ⟨k, hk, hts⟩
      by_cases hx : t.terminal ∈ xs
      · simp only [after, List.contains_iff_mem, hx, if_true, List.mem_singleton] at hk
        subst hk
        exact ⟨⟨t, hx⟩, by simpa [tokens, Remainder.Derives] using hts.symm⟩
      · simp [after, hx] at hk
  | seq e f ihe ihf =>
    rw [derives_seq_iff, Remainder.exists_append_cons_iff, after, Remainder.exists_mem_append_iff,
      Remainder.exists_map_append_iff, Remainder.exists_mem_ite_iff, ← ihf, derives_nil_iff]
    simp only [ihe, Remainder.derives_singleton_iff]
  | alt e f ihe ihf =>
    rw [derives_alt_iff, after, Remainder.exists_mem_append_iff, ihe, ihf]
  | opt e ih => simp [derives_opt_iff, after, ih]
  | many e ih =>
    rw [derives_many_cons_iff, after, Remainder.exists_map_append_iff]
    simp only [ih, Remainder.derives_singleton_iff]
  | many1 e ih =>
    rw [derives_many1_iff, Remainder.exists_append_cons_iff, after,
      Remainder.exists_map_append_iff]
    simp only [ih, Remainder.derives_singleton_iff, derives_many_cons_iff]
    constructor
    · rintro (h | ⟨-, h⟩) <;> exact h
    · exact .inl

namespace Remainder

/-- What may remain of a row of expressions after a token of a terminal. -/
def after (x : Terminal) : Remainder → List Remainder
  | [] => []
  | e :: k => (e.after x).map (· ++ k) ++ if e.isNullable then after x k else []

/-- A token followed by others is derived exactly if the others are derived by one of the rows that
    remain after the token. -/
theorem derives_cons_iff {k : Remainder} {t : Token} {ts : List Token} :
    k.Derives (t :: ts) ↔ ∃ l ∈ k.after t.terminal, Derives l ts := by
  induction k with
  | nil => simp [Derives, after]
  | cons e k ih =>
    rw [Derives, exists_append_cons_iff, after, exists_mem_append_iff, exists_map_append_iff,
      exists_mem_ite_iff, ← ih, Ebnf.derives_nil_iff]
    simp only [Ebnf.derives_cons_iff]

theorem after_append (x : Terminal) (k l : Remainder) :
    after x (k ++ l) =
      (k.after x).map (· ++ l) ++ if k.isNullable then l.after x else [] := by
  induction k with
  | nil => simp [after, isNullable]
  | cons e k ih =>
    have hcons : isNullable (e :: k) = (e.isNullable && isNullable k) := rfl
    simp only [List.cons_append, after, ih, hcons]
    cases e.isNullable <;> simp

theorem isNullable_append (k l : Remainder) :
    isNullable (k ++ l) = (isNullable k && isNullable l) :=
  List.all_append

end Remainder

/-! ## Completion -/

/-- Whether an expression has a sentence: no set of terminals that it needs is empty. -/
def Ebnf.isInhabited : Ebnf → Bool
  | oneOf xs => !xs.isEmpty
  | seq e f => e.isInhabited && f.isInhabited
  | alt e f => e.isInhabited || f.isInhabited
  | opt _ => true
  | many _ => true
  | many1 e => e.isInhabited

theorem Ebnf.exists_derives {e : Ebnf} (h : e.isInhabited = true) : ∃ ts, e.Derives ts := by
  suffices ∃ _ : e.Derivation, True by
    obtain ⟨d, -⟩ := this
    exact ⟨e.tokens d, d, rfl⟩
  induction e with
  | oneOf xs =>
    cases xs with
    | nil => simp [isInhabited] at h
    | cons x xs => exact ⟨⟨⟨x, "", .start, 0⟩, by simp⟩, trivial⟩
  | seq e f ihe ihf =>
    obtain ⟨he, hf⟩ := Bool.and_eq_true_iff.mp h
    obtain ⟨d, -⟩ := ihe he
    obtain ⟨d', -⟩ := ihf hf
    exact ⟨(d, d'), trivial⟩
  | alt e f ihe ihf =>
    rcases Bool.or_eq_true_iff.mp h with h | h
    · obtain ⟨d, -⟩ := ihe h
      exact ⟨.inl d, trivial⟩
    · obtain ⟨d, -⟩ := ihf h
      exact ⟨.inr d, trivial⟩
  | opt e ih => exact ⟨none, trivial⟩
  | many e ih => exact ⟨[], trivial⟩
  | many1 e ih =>
    obtain ⟨d, -⟩ := ih h
    exact ⟨(d, []), trivial⟩

namespace Remainder

/-- Whether every expression of a row has a sentence. -/
def isInhabited (k : Remainder) : Bool :=
  k.all (·.isInhabited)

theorem exists_derives {k : Remainder} (h : k.isInhabited = true) : ∃ ts, k.Derives ts := by
  induction k with
  | nil => exact ⟨[], rfl⟩
  | cons e k ih =>
    obtain ⟨he, hk⟩ := Bool.and_eq_true_iff.mp h
    obtain ⟨us, hu⟩ := Ebnf.exists_derives he
    obtain ⟨vs, hv⟩ := ih hk
    exact ⟨us ++ vs, us, vs, rfl, hu, hv⟩

theorem isInhabited_append (k l : Remainder) :
    isInhabited (k ++ l) = (isInhabited k && isInhabited l) :=
  List.all_append

end Remainder

/-! ## Readers that follow a grammar -/

namespace Reader

variable {σ α : Type}

/-- The states of a reader stand for what remains of a grammar: each step leads to the only row of
    expressions that remains after the token, and there is a result where nothing need follow. -/
structure Follows (reader : Reader σ α) (rest : σ → Remainder) : Prop where
  /-- A token that fits leaves what the grammar leaves; one that does not fit leaves nothing. -/
  step : ∀ s t, (rest s).after t.terminal = ((reader.step s t).map rest).toList
  /-- There is a result exactly where the rest may be empty. -/
  result : ∀ s, (rest s).isNullable = (reader.result s).isSome
  /-- What remains can always be completed. -/
  inhabited : ∀ s, (rest s).isInhabited = true

namespace Follows

variable {reader : Reader σ α} {rest : σ → Remainder}

theorem derives_cons_iff (h : reader.Follows rest) {s : σ} {t : Token} {ts : List Token} :
    (rest s).Derives (t :: ts) ↔ ∃ s', reader.step s t = some s' ∧ (rest s').Derives ts := by
  rw [Remainder.derives_cons_iff, h.step]
  cases reader.step s t <;> simp

/-- A reader that follows a grammar accepts its sentences and nothing else. -/
theorem accepts_iff (h : reader.Follows rest) {s : σ} {ts : List Token} :
    (∃ s' a, reader.run s ts = (s', []) ∧ reader.result s' = some a) ↔ (rest s).Derives ts := by
  induction ts generalizing s with
  | nil =>
    rw [Remainder.derives_nil_iff, h.result, Option.isSome_iff_exists]
    simp
  | cons t ts ih =>
    rw [h.derives_cons_iff]
    cases hs : reader.step s t with
    | none => simp [run_cons_of_none hs]
    | some s₁ =>
      rw [run_cons_of_some hs, ih]
      simp

/-- A reader that follows a grammar reads on exactly as long as the tokens begin a sentence. -/
theorem viable_iff (h : reader.Follows rest) {s : σ} {ts : List Token} :
    (∃ us, (rest s).Derives (ts ++ us)) ↔ ∃ s', reader.run s ts = (s', []) := by
  constructor
  · rintro ⟨us, hus⟩
    induction ts generalizing s with
    | nil => exact ⟨s, rfl⟩
    | cons t ts ih =>
      obtain ⟨s₁, hs, hrest⟩ := h.derives_cons_iff.mp hus
      rw [run_cons_of_some hs]
      exact ih hrest
  · rintro ⟨s', hs'⟩
    obtain ⟨us, hus⟩ := Remainder.exists_derives (h.inhabited s')
    refine ⟨us, h.accepts_iff.mp ?_⟩
    rw [run_append hs']
    exact h.accepts_iff.mpr hus

end Follows

end Reader

end PatternSql
