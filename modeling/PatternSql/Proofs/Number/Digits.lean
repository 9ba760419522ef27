import Mathlib.Algebra.Ring.Nat
import Mathlib.Data.List.Induction
import Mathlib.Tactic.Common
import PatternSql.Proofs.Text.Run
import PatternSql.Text.Digit

/-!
# The digits of natural numbers

The digits that a natural number is written with are decimal digits, and they stand for it.

Main results:

* `digitsValue_toDigits`: the digits of a number stand for the number.
* `length_toDigits_bounds`: how many digits a number has.
-/

namespace PatternSql.Text

theorem digitChar_spec {n : Nat} (h : n < 10) :
    isDigit n.digitChar = true ∧ digitValue n.digitChar = n := by
  have hall : ∀ n < 10, isDigit n.digitChar = true ∧ digitValue n.digitChar = n := by decide
  exact hall n h

/-- Digits in front of others weigh as much more as there are others. -/
theorem digitsValue_append (cs ds : List Char) :
    digitsValue (cs ++ ds) = digitsValue cs * 10 ^ ds.length + digitsValue ds := by
  induction ds using List.reverseRecOn with
  | nil => simp
  | append_singleton ds d ih =>
    rw [← List.append_assoc, digitsValue_append_singleton, digitsValue_append_singleton, ih,
      List.length_append, List.length_singleton, Nat.pow_succ]
    rw [Nat.mul_add, ← Nat.mul_assoc, Nat.mul_comm 10 (digitsValue cs), Nat.mul_assoc,
      Nat.mul_comm 10 (10 ^ ds.length), Nat.add_assoc]

theorem digitsValue_replicate (k : Nat) : digitsValue (List.replicate k '0') = 0 := by
  induction k with
  | zero => rfl
  | succ k ih =>
    rw [List.replicate_succ', digitsValue_append_singleton, ih]
    decide

theorem all_replicate (k : Nat) : All isDigit (List.replicate k '0') := by
  intro c hc
  rw [List.eq_of_mem_replicate hc]
  decide

theorem toDigits_spec (n : Nat) :
    All isDigit (Nat.toDigits 10 n) ∧ digitsValue (Nat.toDigits 10 n) = n := by
  induction n using Nat.strongRecOn with
  | ind n ih =>
    rw [Nat.toDigits_eq_if (by decide)]
    split
    · rename_i hn
      obtain ⟨hdigit, hvalue⟩ := digitChar_spec hn
      refine ⟨all_cons.mpr ⟨hdigit, all_nil⟩, ?_⟩
      rw [← List.nil_append [n.digitChar], digitsValue_append_singleton, hvalue]
      simp
    · rename_i hn
      obtain ⟨hall, hvalue⟩ := ih (n / 10) (by omega)
      obtain ⟨hdigit, hlast⟩ := digitChar_spec (Nat.mod_lt n (by decide : 10 > 0))
      refine ⟨all_append.mpr ⟨hall, all_cons.mpr ⟨hdigit, all_nil⟩⟩, ?_⟩
      rw [digitsValue_append_singleton, hvalue, hlast, Nat.div_add_mod]

theorem all_toDigits (n : Nat) : All isDigit (Nat.toDigits 10 n) :=
  (toDigits_spec n).1

/-- The digits of a number stand for the number. -/
theorem digitsValue_toDigits (n : Nat) : digitsValue (Nat.toDigits 10 n) = n :=
  (toDigits_spec n).2

theorem length_toDigits_bounds {n : Nat} (h : 0 < n) :
    10 ^ ((Nat.toDigits 10 n).length - 1) ≤ n ∧ n < 10 ^ (Nat.toDigits 10 n).length := by
  have hpos := Nat.length_toDigits_pos (b := 10) (n := n)
  refine ⟨?_, (Nat.length_toDigits_le_iff (by decide) hpos).mp (Nat.le_refl _)⟩
  rcases Nat.eq_zero_or_pos ((Nat.toDigits 10 n).length - 1) with hzero | hk
  · rw [hzero]
    exact h
  · by_contra hlt
    have := (Nat.length_toDigits_le_iff (by decide) hk).mpr (Nat.lt_of_not_le hlt)
    omega

end PatternSql.Text
