import Mathlib.Tactic.Common
import PatternSql.Token

/-!
# Grammars as expressions

An extended grammar without recursion is one expression: sequences, choices, optional parts and
repetitions over the terminals. A derivation of such an expression is data of the same shape, a pair
for a sequence, a choice for a choice, a list for a repetition, with tokens at its leaves; the tokens
from left to right are the sentence that it derives.

Main results:

* `Ebnf.Predictive.unique`: where the next token always decides how to go on, a sentence has one
  derivation, also if more tokens follow it.
* `Ebnf.unique_of_isPredictive`: the same for a sentence that nothing follows.
-/

namespace PatternSql

/-- Expressions of a grammar. -/
inductive Ebnf
  /-- One token, of any of the given terminals. -/
  | oneOf (xs : List Terminal)
  /-- One expression and then another. -/
  | seq (e f : Ebnf)
  /-- One of two expressions. -/
  | alt (e f : Ebnf)
  /-- An expression or nothing. -/
  | opt (e : Ebnf)
  /-- An expression any number of times. -/
  | many (e : Ebnf)
  /-- An expression once or more. -/
  | many1 (e : Ebnf)
  deriving DecidableEq, Repr

namespace Ebnf

/-- The derivations of an expression. -/
@[reducible] def Derivation : Ebnf → Type
  | oneOf xs => {t : Token // t.terminal ∈ xs}
  | seq e f => e.Derivation × f.Derivation
  | alt e f => e.Derivation ⊕ f.Derivation
  | opt e => Option e.Derivation
  | many e => List e.Derivation
  | many1 e => e.Derivation × List e.Derivation

/-- The sentence that a derivation derives. -/
def tokens : (e : Ebnf) → e.Derivation → List Token
  | oneOf _, t => [t.1]
  | seq e f, (d, d') => e.tokens d ++ f.tokens d'
  | alt e _, .inl d => e.tokens d
  | alt _ f, .inr d => f.tokens d
  | opt _, none => []
  | opt e, some d => e.tokens d
  | many e, ds => ds.flatMap e.tokens
  | many1 e, (d, ds) => e.tokens d ++ ds.flatMap e.tokens

/-- A row of tokens is a sentence of the expression. -/
def Derives (e : Ebnf) (ts : List Token) : Prop :=
  ∃ d, e.tokens d = ts

/-- A row of tokens is the beginning of a sentence of the expression. -/
def Viable (e : Ebnf) (ts : List Token) : Prop :=
  ∃ us, e.Derives (ts ++ us)

/-- Whether no token at all is a sentence. -/
def isNullable : Ebnf → Bool
  | oneOf _ => false
  | seq e f => e.isNullable && f.isNullable
  | alt e f => e.isNullable || f.isNullable
  | opt _ => true
  | many _ => true
  | many1 e => e.isNullable

theorem tokens_ne_nil {e : Ebnf} (h : e.isNullable = false) (d : e.Derivation) :
    e.tokens d ≠ [] := by
  induction e with
  | oneOf xs => simp [tokens]
  | seq e f ihe ihf =>
    obtain ⟨d, d'⟩ := d
    intro hnil
    obtain ⟨h₁, h₂⟩ := List.append_eq_nil_iff.mp hnil
    rcases Bool.and_eq_false_iff.mp h with h | h
    · exact ihe h d h₁
    · exact ihf h d' h₂
  | alt e f ihe ihf =>
    obtain ⟨he, hf⟩ := Bool.or_eq_false_iff.mp h
    cases d with
    | inl d => exact ihe he d
    | inr d => exact ihf hf d
  | opt e ih => simp [isNullable] at h
  | many e ih => simp [isNullable] at h
  | many1 e ih =>
    obtain ⟨d, ds⟩ := d
    intro hnil
    exact ih h d (List.append_eq_nil_iff.mp hnil).1

theorem derives_nil_iff {e : Ebnf} : e.Derives [] ↔ e.isNullable = true := by
  constructor
  · rintro ⟨d, hd⟩
    by_contra h
    exact tokens_ne_nil (by simpa using h) d hd
  · intro h
    induction e with
    | oneOf xs => simp [isNullable] at h
    | seq e f ihe ihf =>
      obtain ⟨he, hf⟩ := Bool.and_eq_true_iff.mp h
      obtain ⟨d, hd⟩ := ihe he
      obtain ⟨d', hd'⟩ := ihf hf
      exact ⟨(d, d'), by simp [tokens, hd, hd']⟩
    | alt e f ihe ihf =>
      rcases Bool.or_eq_true_iff.mp h with h | h
      · obtain ⟨d, hd⟩ := ihe h
        exact ⟨.inl d, hd⟩
      · obtain ⟨d, hd⟩ := ihf h
        exact ⟨.inr d, hd⟩
    | opt e ih => exact ⟨none, rfl⟩
    | many e ih => exact ⟨[], rfl⟩
    | many1 e ih =>
      obtain ⟨d, hd⟩ := ih h
      exact ⟨(d, []), by simp [tokens, hd]⟩

/-! ## One derivation for a sentence -/

/-- The terminals that a sentence may begin with. -/
def first : Ebnf → List Terminal
  | oneOf xs => xs
  | seq e f => e.first ++ if e.isNullable then f.first else []
  | alt e f => e.first ++ f.first
  | opt e => e.first
  | many e => e.first
  | many1 e => e.first

/-- Two sets of terminals have none in common. -/
def apart (xs ys : List Terminal) : Bool :=
  xs.all fun x => !ys.contains x

/-- Whether the next token always decides how to go on, given the terminals that may follow the
    whole expression. -/
def isPredictive : Ebnf → List Terminal → Bool
  | oneOf _, _ => true
  | seq e f, next =>
    e.isPredictive (f.first ++ if f.isNullable then next else []) && f.isPredictive next
  | alt e f, next =>
    !e.isNullable && !f.isNullable && apart e.first f.first && e.isPredictive next &&
      f.isPredictive next
  | opt e, next => !e.isNullable && apart e.first next && e.isPredictive next
  | many e, next => !e.isNullable && apart e.first next && e.isPredictive (e.first ++ next)
  | many1 e, next => !e.isNullable && apart e.first next && e.isPredictive (e.first ++ next)

/-- A row of tokens is empty or begins with one of the given terminals. -/
def Begins (xs : List Terminal) (ts : List Token) : Prop :=
  ∀ t ∈ ts.head?, t.terminal ∈ xs

theorem not_mem_of_apart {xs ys : List Terminal} (h : apart xs ys = true) {x : Terminal}
    (hx : x ∈ xs) : x ∉ ys := by
  have := List.all_eq_true.mp h x hx
  simpa using this

theorem begins_flatMap {e : Ebnf} (h : ∀ d, Begins e.first (e.tokens d)) (ds : List e.Derivation) :
    Begins e.first (ds.flatMap e.tokens) := by
  induction ds with
  | nil => intro t ht; simp at ht
  | cons d ds ih =>
    intro t ht
    simp only [List.flatMap_cons, List.head?_append, Option.mem_def, Option.or_eq_some_iff] at ht
    rcases ht with ht | ⟨-, ht⟩
    · exact h d t ht
    · exact ih t ht

theorem begins_first (e : Ebnf) (d : e.Derivation) : Begins e.first (e.tokens d) := by
  induction e with
  | oneOf xs =>
    intro t ht
    simp only [tokens, List.head?_cons, Option.mem_def, Option.some.injEq] at ht
    exact ht ▸ d.2
  | seq e f ihe ihf =>
    obtain ⟨d, d'⟩ := d
    intro t ht
    simp only [tokens, List.head?_append, Option.mem_def, Option.or_eq_some_iff] at ht
    rcases ht with ht | ⟨hnil, ht⟩
    · exact List.mem_append_left _ (ihe d t ht)
    · have hnull : e.isNullable = true :=
        derives_nil_iff.mp ⟨d, List.head?_eq_none_iff.mp hnil⟩
      simp only [first, hnull, if_true]
      exact List.mem_append_right _ (ihf d' t ht)
  | alt e f ihe ihf =>
    intro t ht
    cases d with
    | inl d => exact List.mem_append_left _ (ihe d t ht)
    | inr d => exact List.mem_append_right _ (ihf d t ht)
  | opt e ih =>
    intro t ht
    cases d with
    | none => simp [tokens] at ht
    | some d => exact ih d t ht
  | many e ih => exact begins_flatMap ih d
  | many1 e ih => exact begins_flatMap ih (d.1 :: d.2)

/-- What follows an expression, seen from the end of the one before it. -/
theorem Begins.append {f : Ebnf} {next : List Terminal} {us : List Token} (h : Begins next us)
    (d : f.Derivation) :
    Begins (f.first ++ if f.isNullable then next else []) (f.tokens d ++ us) := by
  intro t ht
  simp only [List.head?_append, Option.mem_def, Option.or_eq_some_iff] at ht
  rcases ht with ht | ⟨hnil, ht⟩
  · exact List.mem_append_left _ (begins_first f d t ht)
  · have hnull : f.isNullable = true := derives_nil_iff.mp ⟨d, List.head?_eq_none_iff.mp hnil⟩
    simp only [hnull, if_true]
    exact List.mem_append_right _ (h t ht)

/-- A derivation that is not empty cannot be mistaken for what follows. -/
theorem tokens_append_ne {e : Ebnf} {next : List Terminal} (hnull : e.isNullable = false)
    (hapart : apart e.first next = true) (d : e.Derivation) (us : List Token) {vs : List Token}
    (hv : Begins next vs) : e.tokens d ++ us ≠ vs := by
  rintro rfl
  obtain ⟨t, ts, ht⟩ := List.exists_cons_of_ne_nil (tokens_ne_nil hnull d)
  have hfirst := begins_first e d t (by simp [ht])
  exact not_mem_of_apart hapart hfirst (hv t (by simp [ht]))

/-- Of two expressions that begin differently, none can be mistaken for the other. -/
theorem tokens_append_ne_tokens {e f : Ebnf} (hne : e.isNullable = false)
    (hnf : f.isNullable = false) (hapart : apart e.first f.first = true) (c : e.Derivation)
    (c' : f.Derivation) (us us' : List Token) : e.tokens c ++ us ≠ f.tokens c' ++ us' := by
  refine tokens_append_ne hne hapart c us ?_
  obtain ⟨t, ts, ht⟩ := List.exists_cons_of_ne_nil (tokens_ne_nil hnf c')
  intro t' ht'
  simp only [ht, List.cons_append, List.head?_cons, Option.mem_def, Option.some.injEq] at ht'
  exact begins_first f c' t' (by simp [ht, ht'])

/-- The step of `Predictive.unique` for repetitions. -/
theorem flatMap_tokens_unique {e : Ebnf} {next : List Terminal} (hnull : e.isNullable = false)
    (hapart : apart e.first next = true)
    (h : ∀ (d d' : e.Derivation) (us us' : List Token), Begins (e.first ++ next) us →
      Begins (e.first ++ next) us' → e.tokens d ++ us = e.tokens d' ++ us' → d = d' ∧ us = us')
    (ds ds' : List e.Derivation) {us us' : List Token} (hu : Begins next us)
    (hu' : Begins next us') (heq : ds.flatMap e.tokens ++ us = ds'.flatMap e.tokens ++ us') :
    ds = ds' ∧ us = us' := by
  have hbegins : ∀ (ds : List e.Derivation) {us : List Token}, Begins next us →
      Begins (e.first ++ next) (ds.flatMap e.tokens ++ us) := by
    intro ds us hu t ht
    simp only [List.head?_append, Option.mem_def, Option.or_eq_some_iff] at ht
    rcases ht with ht | ⟨-, ht⟩
    · exact List.mem_append_left _ (begins_flatMap (begins_first e) ds t ht)
    · exact List.mem_append_right _ (hu t ht)
  induction ds generalizing ds' with
  | nil =>
    cases ds' with
    | nil => exact ⟨rfl, by simpa using heq⟩
    | cons d' ds' =>
      simp only [List.flatMap_nil, List.nil_append, List.flatMap_cons, List.append_assoc] at heq
      exact absurd heq.symm (tokens_append_ne hnull hapart d' _ hu)
  | cons d ds ih =>
    cases ds' with
    | nil =>
      simp only [List.flatMap_nil, List.nil_append, List.flatMap_cons, List.append_assoc] at heq
      exact absurd heq (tokens_append_ne hnull hapart d _ hu')
    | cons d' ds' =>
      simp only [List.flatMap_cons, List.append_assoc] at heq
      obtain ⟨rfl, hrest⟩ := h d d' _ _ (hbegins ds hu) (hbegins ds' hu') heq
      obtain ⟨rfl, rfl⟩ := ih ds' hrest
      exact ⟨rfl, rfl⟩

/-- Where the next token always decides how to go on, a sentence has one derivation, whatever may
    follow it. -/
theorem Predictive.unique {e : Ebnf} {next : List Terminal} (h : e.isPredictive next = true)
    (d d' : e.Derivation) {us us' : List Token} (hu : Begins next us) (hu' : Begins next us')
    (heq : e.tokens d ++ us = e.tokens d' ++ us') : d = d' ∧ us = us' := by
  induction e generalizing next us us' with
  | oneOf xs =>
    simp only [tokens, List.singleton_append, List.cons.injEq] at heq
    exact ⟨Subtype.ext heq.1, heq.2⟩
  | seq e f ihe ihf =>
    obtain ⟨d, c⟩ := d
    obtain ⟨d', c'⟩ := d'
    obtain ⟨he, hf⟩ := Bool.and_eq_true_iff.mp h
    simp only [tokens, List.append_assoc] at heq
    obtain ⟨rfl, hrest⟩ := ihe he d d' (hu.append c) (hu'.append c') heq
    obtain ⟨rfl, rfl⟩ := ihf hf c c' hu hu' hrest
    exact ⟨rfl, rfl⟩
  | alt e f ihe ihf =>
    simp only [isPredictive, Bool.and_eq_true, Bool.not_eq_true'] at h
    obtain ⟨⟨⟨⟨hne, hnf⟩, hapart⟩, he⟩, hf⟩ := h
    have hclash := tokens_append_ne_tokens hne hnf hapart
    cases d with
    | inl d =>
      cases d' with
      | inl d' =>
        obtain ⟨rfl, rfl⟩ := ihe he d d' hu hu' heq
        exact ⟨rfl, rfl⟩
      | inr d' => exact absurd heq (hclash d d' us us')
    | inr d =>
      cases d' with
      | inl d' => exact absurd heq.symm (hclash d' d us' us)
      | inr d' =>
        obtain ⟨rfl, rfl⟩ := ihf hf d d' hu hu' heq
        exact ⟨rfl, rfl⟩
  | opt e ih =>
    simp only [isPredictive, Bool.and_eq_true, Bool.not_eq_true'] at h
    obtain ⟨⟨hnull, hapart⟩, he⟩ := h
    cases d with
    | none =>
      cases d' with
      | none => exact ⟨rfl, by simpa [tokens] using heq⟩
      | some d' => exact absurd heq.symm (tokens_append_ne hnull hapart d' us' hu)
    | some d =>
      cases d' with
      | none => exact absurd heq (tokens_append_ne hnull hapart d us hu')
      | some d' =>
        obtain ⟨rfl, rfl⟩ := ih he d d' hu hu' heq
        exact ⟨rfl, rfl⟩
  | many e ih =>
    simp only [isPredictive, Bool.and_eq_true, Bool.not_eq_true'] at h
    obtain ⟨⟨hnull, hapart⟩, he⟩ := h
    exact flatMap_tokens_unique hnull hapart (fun d d' us us' => ih he d d') d d' hu hu' heq
  | many1 e ih =>
    simp only [isPredictive, Bool.and_eq_true, Bool.not_eq_true'] at h
    obtain ⟨⟨hnull, hapart⟩, he⟩ := h
    obtain ⟨d, ds⟩ := d
    obtain ⟨d', ds'⟩ := d'
    have := flatMap_tokens_unique hnull hapart (fun d d' us us' => ih he d d') (d :: ds)
      (d' :: ds') hu hu' heq
    simpa [Prod.ext_iff] using this

theorem unique_of_isPredictive {e : Ebnf} (h : e.isPredictive [] = true) {d d' : e.Derivation}
    (heq : e.tokens d = e.tokens d') : d = d' :=
  (@Predictive.unique e [] h d d' [] [] (by simp [Begins]) (by simp [Begins]) (by rw [heq])).1

end Ebnf

end PatternSql
