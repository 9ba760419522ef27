import Mathlib.Algebra.Ring.Nat

/-!
# Occurrences

A block occurs so many times in a row if that many copies of it stand there one after the other, with
anything between them but without overlap. Rows that are put together have the occurrences of all of
them.

Main results:

* `Occurs.append`: occurrences add up.
* `Occurs.flatMap`: what each element becomes has the occurrences that the row has.
-/

namespace PatternSql

variable {α β : Type}

/-- A block occurs at least the given number of times, without overlap. -/
inductive Occurs (block : List α) : Nat → List α → Prop
  | none (xs : List α) : Occurs block 0 xs
  | next {n : Nat} {after : List α} (before : List α) (h : Occurs block n after) :
      Occurs block (n + 1) (before ++ (block ++ after))

/-- A block occurs at least the given number of times in some rows together. -/
inductive OccursIn (block : List α) : Nat → List (List α) → Prop
  | nil : OccursIn block 0 []
  | cons {m n : Nat} {xs : List α} {rows : List (List α)} (h : Occurs block m xs)
      (hrows : OccursIn block n rows) : OccursIn block (m + n) (xs :: rows)

section

variable {block xs ys : List α} {m n : Nat}

theorem Occurs.of_le (h : Occurs block n xs) (hm : m ≤ n) : Occurs block m xs := by
  induction h generalizing m with
  | none xs =>
    obtain rfl := Nat.le_zero.mp hm
    exact .none xs
  | next before h ih =>
    cases m with
    | zero => exact .none _
    | succ m => exact .next before (ih (Nat.le_of_succ_le_succ hm))

theorem Occurs.after (h : Occurs block n ys) (xs : List α) : Occurs block n (xs ++ ys) := by
  cases h with
  | none => exact .none _
  | next before h =>
    rw [← List.append_assoc]
    exact .next (xs ++ before) h

theorem Occurs.cons (h : Occurs block n xs) (x : α) : Occurs block n (x :: xs) :=
  h.after [x]

/-- Occurrences add up. -/
theorem Occurs.append (hx : Occurs block m xs) (hy : Occurs block n ys) :
    Occurs block (m + n) (xs ++ ys) := by
  induction hx with
  | none xs =>
    rw [Nat.zero_add]
    exact hy.after xs
  | next before h ih =>
    rw [Nat.add_right_comm, List.append_assoc, List.append_assoc]
    exact .next before ih

theorem Occurs.before (h : Occurs block n xs) (ys : List α) : Occurs block n (xs ++ ys) :=
  h.append (.none ys)

theorem Occurs.eq_zero_of_nil (hblock : block ≠ []) (h : Occurs block n []) : n = 0 := by
  generalize hxs : ([] : List α) = xs at h
  cases h with
  | none => rfl
  | next before h =>
    rw [List.nil_eq_append_iff, List.append_eq_nil_iff] at hxs
    exact absurd hxs.2.1 hblock

/-- What each element becomes has the occurrences that the row has. -/
theorem Occurs.flatMap (h : Occurs block n xs) (f : α → List β) :
    Occurs (block.flatMap f) n (xs.flatMap f) := by
  induction h with
  | none xs => exact .none _
  | next before h ih =>
    rw [List.flatMap_append, List.flatMap_append]
    exact .next (before.flatMap f) ih

theorem Occurs.only (h : Occurs block n xs) : OccursIn block n [xs] :=
  .cons h .nil

end

section

variable {block : List α} {rows more : List (List α)} {m n : Nat}

theorem OccursIn.append (h : OccursIn block m rows) (hmore : OccursIn block n more) :
    OccursIn block (m + n) (rows ++ more) := by
  induction h with
  | nil =>
    rw [Nat.zero_add]
    exact hmore
  | cons h _ ih =>
    rw [Nat.add_assoc]
    exact .cons h ih

theorem occursIn_zero (rows : List (List α)) : OccursIn block 0 rows := by
  induction rows with
  | nil => exact .nil
  | cons xs rows ih => exact .cons (.none xs) ih

theorem OccursIn.before (h : OccursIn block n rows) (more : List (List α)) :
    OccursIn block n (rows ++ more) :=
  h.append (occursIn_zero more)

theorem OccursIn.after (h : OccursIn block n rows) (more : List (List α)) :
    OccursIn block n (more ++ rows) := by
  have happend := (occursIn_zero more).append h
  rwa [Nat.zero_add] at happend

/-- Rows that are made of the elements of a list have the occurrences of all of them. -/
theorem occursIn_map {ι : Type} {l : List ι} {count : ι → Nat} {row : ι → List α}
    (h : ∀ i ∈ l, Occurs block (count i) (row i)) :
    OccursIn block (l.map count).sum (l.map row) := by
  induction l with
  | nil => exact .nil
  | cons i l ih =>
    obtain ⟨hi, hl⟩ := List.forall_mem_cons.mp h
    exact .cons hi (ih hl)

end

end PatternSql
