import Mathlib.Tactic.Common

/-!
# Runs of characters of a class

A run takes all characters of a class up to the first that is none. It is found again in any text
that has the run and then a character that is not of the class, or nothing.

Main results:

* `takeWhile_run`, `dropWhile_run`: a run and what stops it, found in their concatenation.
* `exists_run`: each text is a run and what stops it.
-/

namespace PatternSql

/-- A text does not go on with a character of a class. -/
def Stops (p : Char → Bool) (cs : List Char) : Prop :=
  ∀ c ∈ cs.head?, p c = false

/-- All characters of a text are of a class. -/
def All (p : Char → Bool) (cs : List Char) : Prop :=
  ∀ c ∈ cs, p c = true

instance (p : Char → Bool) (cs : List Char) : Decidable (All p cs) :=
  List.decidableBAll _ cs

variable {p : Char → Bool}

@[simp] theorem stops_nil : Stops p [] := by simp [Stops]

@[simp] theorem stops_cons {c : Char} {cs : List Char} : Stops p (c :: cs) ↔ p c = false := by
  simp [Stops]

@[simp] theorem all_nil : All p [] := by simp [All]

@[simp] theorem all_cons {c : Char} {cs : List Char} :
    All p (c :: cs) ↔ p c = true ∧ All p cs := by
  simp [All]

@[simp] theorem all_append {cs ds : List Char} : All p (cs ++ ds) ↔ All p cs ∧ All p ds := by
  simp only [All, List.mem_append, or_imp, forall_and]

theorem Stops.left {cs ds : List Char} (h : Stops p (cs ++ ds)) : Stops p cs := by
  cases cs with
  | nil => exact stops_nil
  | cons c cs => simpa using h

theorem Stops.append {cs ds : List Char} (h : Stops p cs) (h' : Stops p ds) :
    Stops p (cs ++ ds) := by
  cases cs with
  | nil => exact h'
  | cons c cs => simpa using h

theorem takeWhile_of_stops {cs : List Char} (h : Stops p cs) : cs.takeWhile p = [] := by
  cases cs with
  | nil => rfl
  | cons c cs => simp [stops_cons.mp h]

theorem dropWhile_of_stops {cs : List Char} (h : Stops p cs) : cs.dropWhile p = cs := by
  cases cs with
  | nil => rfl
  | cons c cs => simp [stops_cons.mp h]

theorem takeWhile_run {run rest : List Char} (hrun : All p run) (hrest : Stops p rest) :
    (run ++ rest).takeWhile p = run := by
  rw [List.takeWhile_append_of_pos hrun, takeWhile_of_stops hrest, List.append_nil]

theorem dropWhile_run {run rest : List Char} (hrun : All p run) (hrest : Stops p rest) :
    (run ++ rest).dropWhile p = rest := by
  rw [List.dropWhile_append_of_pos hrun, dropWhile_of_stops hrest]

theorem all_takeWhile (p : Char → Bool) (cs : List Char) : All p (cs.takeWhile p) :=
  List.all_eq_true.mp List.all_takeWhile

theorem stops_dropWhile (p : Char → Bool) (cs : List Char) : Stops p (cs.dropWhile p) := by
  intro c hc
  have := List.head?_dropWhile_not p cs
  rw [hc] at this
  simpa using this

/-- A run that ends within the first part of a text is found in that part alone. -/
theorem takeWhile_of_append {cs ds : List Char}
    (h : ((cs ++ ds).takeWhile p).length ≤ cs.length) :
    (cs ++ ds).takeWhile p = cs.takeWhile p := by
  rw [List.takeWhile_append] at h ⊢
  split_ifs at h ⊢ with hall
  · have hnil : ds.takeWhile p = [] := by
      rw [List.length_append] at h
      exact List.length_eq_zero_iff.mp (by omega)
    rw [hnil, List.append_nil]
    exact ((List.takeWhile_prefix p).eq_of_length hall).symm
  · rfl

/-- A run is found alike in a text that goes on with a character of another class. -/
theorem takeWhile_append_of_stops {cs ds : List Char} (h : Stops p ds) :
    (cs ++ ds).takeWhile p = cs.takeWhile p := by
  apply takeWhile_of_append
  rw [List.takeWhile_append, takeWhile_of_stops h]
  split_ifs
  · simp
  · exact (List.takeWhile_prefix p).length_le

theorem exists_run (p : Char → Bool) (cs : List Char) :
    ∃ run rest, cs = run ++ rest ∧ All p run ∧ Stops p rest ∧ cs.takeWhile p = run ∧
      cs.dropWhile p = rest :=
  ⟨cs.takeWhile p, cs.dropWhile p, List.takeWhile_append_dropWhile.symm, all_takeWhile p cs,
    stops_dropWhile p cs, rfl, rfl⟩

end PatternSql
