import PatternSql.Proofs.Sql.Faithful

/-!
# Operands with parts

After an operand stand the names of its parts, with points before them, and the numbers of its
elements. The names after a name make it a column, or all columns of a table. Whatever else has
parts is no stable expression, and it stays so however many parts follow.

Main results:

* `parts?_column`, `parts?_unnamed`: what the parts after a name, and after anything else, make of
  it.
* `Begins.operand`: an operand with its parts is read back if it is stable.
-/

namespace PatternSql.Sql

open Text

namespace Expr

/-! ## One part after the other -/

/-- Whether an expression is a part of something, or an element. -/
def isPart : Expr → Bool
  | .access _ _ => true
  | .element _ _ => true
  | _ => false

theorem isStable_of_isPart {e : Expr} (h : e.isPart = true) : e.isStable = false := by
  cases e <;> first | rfl | cases h

theorem ne_column_of_isPart {e : Expr} (h : e.isPart = true) (qualifiers : List Name) (n : Name) :
    e ≠ .column qualifiers n := by
  rintro rfl
  cases h

/-- The reader of parts leaves an expression as it is, or goes on with a part, with an element or
    with a further name. -/
theorem parts?_cases {n : Nat} {e : Expr} {ls : List Lexeme} {r : Expr × List Lexeme}
    (h : parts? .generic (n + 1) e ls = some r) :
    (r = (e, ls) ∧ ∀ more, ls ≠ .mark .dot :: more) ∨
      (∃ part more, part.isPart = true ∧ parts? .generic n part more = some r) ∨
      (∃ name more, parts? .generic n (e.withPart name) more = some r) ∨
      ∃ more, parts? .generic n e.withAllParts more = some r := by
  unfold parts? at h
  split at h
  · contradiction
  · obtain ⟨indices, -, h⟩ := Option.bind_eq_some_iff.mp h
    obtain ⟨more, -, h⟩ := Option.bind_eq_some_iff.mp h
    split at h
    · cases h
    · cases ‹n + 1 = _›
      exact Or.inr (Or.inl ⟨_, _, rfl, h⟩)
  · cases ‹n + 1 = _›
    split at h
    · split at h
      · cases h
      · obtain ⟨arguments, -, h⟩ := Option.bind_eq_some_iff.mp h
        obtain ⟨more, -, h⟩ := Option.bind_eq_some_iff.mp h
        exact Or.inr (Or.inl ⟨_, _, rfl, h⟩)
    · obtain ⟨arguments, -, h⟩ := Option.bind_eq_some_iff.mp h
      obtain ⟨more, -, h⟩ := Option.bind_eq_some_iff.mp h
      exact Or.inr (Or.inl ⟨_, _, rfl, h⟩)
    · split at h
      · cases h
      · exact Or.inr (Or.inr (Or.inl ⟨_, _, h⟩))
    · exact Or.inr (Or.inr (Or.inl ⟨_, _, h⟩))
    · exact Or.inr (Or.inr (Or.inl ⟨_, _, h⟩))
    · exact Or.inr (Or.inr (Or.inr ⟨_, h⟩))
    · cases h
    · obtain ⟨part, -, h⟩ := Option.bind_eq_some_iff.mp h
      exact Or.inr (Or.inl ⟨_, _, rfl, h⟩)
  · rename_i hdot
    exact Or.inl ⟨(Option.some.inj h).symm, hdot⟩

/-- Of what is no column there are only parts that are not named. -/
theorem parts?_unnamed {n : Nat} {e e' : Expr} {ls rest : List Lexeme}
    (hne : ∀ qualifiers m, e ≠ .column qualifiers m)
    (h : parts? .generic n e ls = some (e', rest)) : e' = e ∨ e'.isPart = true := by
  induction n generalizing e ls with
  | zero =>
    rw [parts?] at h
    cases h
  | succ n ih =>
    have hpart {part : Expr} {more : List Lexeme} (hpart : part.isPart = true)
        (h : parts? .generic n part more = some (e', rest)) : e'.isPart = true := by
      rcases ih (ne_column_of_isPart hpart) h with rfl | h
      · exact hpart
      · exact h
    rcases parts?_cases h with ⟨heq, -⟩ | ⟨part, more, hkind, h⟩ | ⟨name, more, h⟩ | ⟨more, h⟩
    · exact Or.inl (Prod.mk.inj heq).1
    · exact Or.inr (hpart hkind h)
    · refine Or.inr (hpart ?_ h)
      cases e <;> first | rfl | exact absurd rfl (hne _ _)
    · refine Or.inr (hpart ?_ h)
      cases e <;> first | rfl | exact absurd rfl (hne _ _)

/-- Of a column there are also columns, by further names, and all columns of a table. -/
theorem parts?_column {n : Nat} {qualifiers : List Name} {m : Name} {e' : Expr}
    {ls rest : List Lexeme} (h : parts? .generic n (.column qualifiers m) ls = some (e', rest)) :
    e'.isPart = true ∨ ∃ names,
      (e' = names.foldl withPart (.column qualifiers m) ∧
        (names = [] → ∀ more, ls ≠ .mark .dot :: more)) ∨
      e' = (names.foldl withPart (.column qualifiers m)).withAllParts := by
  induction n generalizing qualifiers m ls with
  | zero =>
    rw [parts?] at h
    cases h
  | succ n ih =>
    rcases parts?_cases h with ⟨heq, hdot⟩ | ⟨part, more, hkind, h⟩ | ⟨name, more, h⟩ | ⟨more, h⟩
    · exact Or.inr ⟨[], Or.inl ⟨(Prod.mk.inj heq).1, fun _ => hdot⟩⟩
    · rcases parts?_unnamed (ne_column_of_isPart hkind) h with rfl | h
      · exact Or.inl hkind
      · exact Or.inl h
    · rcases ih h with h | ⟨names, ⟨heq, -⟩ | heq⟩
      · exact Or.inl h
      · exact Or.inr ⟨name :: names, Or.inl ⟨heq, fun hnil => absurd hnil (List.cons_ne_nil _ _)⟩⟩
      · exact Or.inr ⟨name :: names, Or.inr heq⟩
    · rcases parts?_unnamed (fun _ _ heq => by cases heq) h with rfl | h
      · exact Or.inr ⟨[], Or.inr rfl⟩
      · exact Or.inl h

theorem isStable_column (qualifiers : List Name) (n : Name) :
    (column qualifiers n).isStable = areDotted (qualifiers ++ [n]) := rfl

/-- Only the first of several names has to be a name and nothing else. -/
theorem areDotted_concat {names : List Name} (h : names ≠ []) (n : Name) :
    areDotted (names ++ [n]) = (areDotted names && n.isStable) := by
  obtain ⟨first, more, rfl⟩ := List.exists_cons_of_ne_nil h
  rw [areDotted, areDotted, List.all_append, Bool.and_right_comm]
  simp

/-- A column is stable if all its names are. -/
theorem isStable_foldl (names : List Name) (qualifiers : List Name) (n : Name) :
    (names.foldl withPart (.column qualifiers n)).isStable =
        ((column qualifiers n).isStable && names.all Name.isStable) ∧
      (names.foldl withPart (.column qualifiers n)).withAllParts.isStable =
        ((column qualifiers n).isStable && names.all Name.isStable) := by
  induction names generalizing qualifiers n with
  | nil =>
    exact ⟨(Bool.and_true _).symm, (Bool.and_true _).symm⟩
  | cons m names ih =>
    have hstep : (column (qualifiers ++ [n]) m).isStable =
        ((column qualifiers n).isStable && m.isStable) := by
      rw [isStable_column, isStable_column, areDotted_concat (List.concat_ne_nil n qualifiers)]
    obtain ⟨hcolumn, hall⟩ := ih (qualifiers ++ [n]) m
    rw [hstep, Bool.and_assoc] at hcolumn hall
    exact ⟨hcolumn, hall⟩

/-- What is read before the parts of an operand: a name that may be the first of a column there, or
    a single operand. -/
def Begins (e : Expr) (rest : List Lexeme) : Prop :=
  (∃ q, e = ofName q ∧ leadsTo rest q) ∨ Single e

theorem isStable_of_parts? {n : Nat} {e e' : Expr} {ls rest : List Lexeme}
    (h : parts? .generic n e ls = some (e', rest)) (hstable : e'.isStable = true) :
    e.isStable = true := by
  have hpart (h : e'.isPart = true) : e.isStable = true := by
    rw [isStable_of_isPart h] at hstable
    cases hstable
  cases e with
  | column qualifiers m =>
    rcases parts?_column h with h | ⟨names, ⟨rfl, -⟩ | rfl⟩
    · exact hpart h
    · rw [(isStable_foldl names qualifiers m).1, Bool.and_eq_true] at hstable
      exact hstable.1
    · rw [(isStable_foldl names qualifiers m).2, Bool.and_eq_true] at hstable
      exact hstable.1
  | _ =>
    rcases parts?_unnamed (fun _ _ heq => by cases heq) h with heq | h
    · rwa [heq] at hstable
    · exact hpart h

theorem Opens.ofName {q : Name} {e : Expr} {ls : List Lexeme} (hrow : e.row = nameLexeme q :: ls)
    (hstable : q.isStable = true) (hleads : leads q = true) : Opens e :=
  ⟨_, _, hrow, opens_of_leads (nameLexeme_leads hstable hleads)⟩

/-- An operand with its parts, if it is stable. -/
theorem Begins.operand {n : Nat} {e e' : Expr} {ls rest : List Lexeme} (hbegins : Begins e ls)
    (h : parts? .generic n e ls = some (e', rest)) (hstable : e'.isStable = true) :
    FaithfulOperand e' := by
  have hpart {P : Prop} (h : e'.isPart = true) : P := by
    rw [isStable_of_isPart h] at hstable
    cases hstable
  rcases hbegins with ⟨q, rfl, hleads⟩ | hsingle
  · rcases parts?_column h with h | ⟨names, ⟨rfl, hdot⟩ | rfl⟩
    · exact hpart h
    · rw [(isStable_foldl names [] q).1, Bool.and_eq_true, List.all_eq_true] at hstable
      obtain ⟨hcolumn, hnames⟩ := hstable
      have hq : q.isStable = true := isStable_of_areDotted hcolumn List.mem_cons_self
      have hlead : leadsTo (pointed names) q := by
        refine ⟨hleads.1, fun text htext hcase => ?_⟩
        cases names with
        | nil =>
          obtain ⟨more, hmore⟩ := hleads.2 text htext hcase
          exact absurd hmore (hdot rfl more)
        | cons m names => exact ⟨_, rfl⟩
      obtain ⟨qualifiers', m', heq, -⟩ := foldl_withPart names [] q
      exact {
        opens := Opens.ofName (row_columnOf q names) hq hleads.1
        stands := stands_column hq hnames hlead
        level := by rw [heq]; rfl
        tight := fun k hk => by rw [heq] at hk; cases hk }
    · rw [(isStable_foldl names [] q).2, Bool.and_eq_true, List.all_eq_true] at hstable
      obtain ⟨hcolumn, hnames⟩ := hstable
      have hq : q.isStable = true := isStable_of_areDotted hcolumn List.mem_cons_self
      obtain ⟨qualifiers', m', heq, -⟩ := foldl_withPart names [] q
      exact {
        opens := Opens.ofName (row_withAllParts q names) hq hleads.1
        stands := stands_star hq hnames hleads.1
        level := by rw [heq]; rfl
        tight := fun k hk => by rw [heq] at hk; cases hk }
  · rcases parts?_unnamed hsingle.unnamed h with rfl | h
    · exact hsingle.operand
    · exact hpart h

end Expr

end PatternSql.Sql
