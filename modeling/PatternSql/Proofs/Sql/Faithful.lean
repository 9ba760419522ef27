import PatternSql.Proofs.Sql.Operands

/-!
# Expressions built from expressions that are read back

The readers build an expression from its operands in a few ways: they put an operand between
parentheses where an operator needs it, and negate what was tested. Whatever they build is read back
if the operands are and the whole is stable.

Main results:

* `Faithful`, `FaithfulOperand`: an expression, and an operand, as the readers give them.
* `Faithful.combine`, `Faithful.identity`: operands with an operator between them.
* `Faithful.like`, `Faithful.between`, `Faithful.member`: tests.
* `Single`: operands that are read back by themselves.
-/

namespace PatternSql.Sql

open Text

namespace Expr

/-! ## Expressions and operands -/

/-- An expression begins as an operand does and is read back. It takes an operator that binds less
    tightly than an equality for a part of it only if it is itself looser. -/
structure Faithful (e : Expr) : Prop where
  opens : Opens e
  resumes : Resumes e
  tight : ∀ k, e.takes k = true → e.level < k ∨ equalityLevel ≤ k

/-- An operand begins as one and is read back. It takes no operator for a part of it that binds less
    tightly than an equality, since a negation goes no further. -/
structure FaithfulOperand (e : Expr) : Prop where
  opens : Opens e
  stands : Stands e
  level : e.level = operandLevel
  tight : ∀ k, e.takes k = true → equalityLevel ≤ k

theorem FaithfulOperand.faithful {e : Expr} (h : FaithfulOperand e) : Faithful e where
  opens := h.opens
  resumes := h.stands.resumes h.level
  tight k hk := Or.inr (h.tight k hk)

theorem FaithfulOperand.negative {e : Expr} (h : FaithfulOperand e) :
    FaithfulOperand (.negative e) where
  opens := ⟨_, _, row_negative e, rfl⟩
  stands := h.stands.negative
  level := rfl
  tight k hk := h.tight k hk

theorem Faithful.not {e : Expr} (h : Faithful e) (hlevel : equalityLevel ≤ e.level) :
    FaithfulOperand (.not e) where
  opens := ⟨_, _, row_not e, by decide +kernel⟩
  stands := Stands.not h.resumes hlevel
  level := rfl
  tight k hk := by
    rw [takes, Bool.or_eq_true, Bool.and_eq_true, decide_eq_true_eq] at hk
    rcases hk with ⟨hk, -⟩ | hk
    · exact hk
    · have := h.tight k hk
      omega

/-- An operand that is read back by itself and has no parts. -/
structure Single (e : Expr) : Prop where
  alone : Alone e
  leads : ∃ l ls, e.row = l :: ls ∧ l.leads = true
  level : e.level = operandLevel
  takes : ∀ k, e.takes k = false
  unnamed : ∀ qualifiers n, e ≠ .column qualifiers n

theorem opens_of_leads {l : Lexeme} (h : l.leads = true) : l.opens = true := by
  rw [Lexeme.leads, Bool.and_eq_true, Bool.and_eq_true] at h
  exact h.1.1

theorem Single.operand {e : Expr} (h : Single e) : FaithfulOperand e where
  opens := by
    obtain ⟨l, ls, hrow, hl⟩ := h.leads
    exact ⟨l, ls, hrow, opens_of_leads hl⟩
  stands := h.alone.stands h.leads
  level := h.level
  tight k hk := by
    rw [h.takes k] at hk
    cases hk

/-- What stands between parentheses. -/
theorem Single.enclosed {e : Expr} {ls : List Lexeme} (h : Alone e)
    (hrow : e.row = .mark .leftParen :: ls) (hlevel : e.level = operandLevel)
    (htakes : ∀ k, e.takes k = false) (hunnamed : ∀ qualifiers n, e ≠ .column qualifiers n) :
    Single e where
  alone := h
  leads := ⟨_, _, hrow, rfl⟩
  level := hlevel
  takes := htakes
  unnamed := hunnamed

/-! ## Lists -/

theorem Opens.entry {e : Expr} (h : Opens e) (kind : Entry) :
    ∃ l ls, e.row = l :: ls ∧ kind.mayBegin l = true := by
  obtain ⟨l, ls, hrow, hl⟩ := h
  exact ⟨l, ls, hrow, by rw [Entry.mayBegin, hl, Bool.true_or]⟩

theorem Lists.nil (kind : Entry) : Lists kind [] where
  opens _ he := absurd he List.not_mem_nil
  last _ he := absurd he List.not_mem_nil
  inner _ he := absurd he List.not_mem_nil

theorem Lists.cons {kind : Entry} {e : Expr} {es : List Expr}
    (hopens : ∃ l ls, e.row = l :: ls ∧ kind.mayBegin l = true)
    (hlast : ∀ ls, Closes ls → Enters kind e ls)
    (hinner : es ≠ [] → ∀ ls, Enters kind e (.mark .comma :: ls)) (h : Lists kind es) :
    Lists kind (e :: es) where
  opens e' he' := by
    rcases List.mem_cons.mp he' with rfl | he'
    · exact hopens
    · exact h.opens e' he'
  last e' he' := by
    rcases List.mem_cons.mp he' with rfl | he'
    · exact hlast
    · exact h.last e' he'
  inner e' he' := by
    by_cases hnil : es = []
    · rw [hnil] at he'
      exact absurd he' List.not_mem_nil
    · rw [List.dropLast_cons_of_ne_nil hnil] at he'
      rcases List.mem_cons.mp he' with rfl | he'
      · exact hinner hnil
      · exact h.inner e' he'

/-- One expression is a list. -/
theorem Faithful.lists {e : Expr} (h : Faithful e) (kind : Entry) : Lists kind [e] :=
  Lists.cons (h.opens.entry kind) (fun _ hls => h.resumes.enters h.opens kind (Or.inl hls))
    (fun hne => absurd rfl hne) (Lists.nil kind)

/-! ## Parentheses and negations -/

theorem Faithful.paren {e : Expr} (h : Faithful e) : FaithfulOperand (.paren e) :=
  (Single.enclosed (alone_paren (h.lists .item)) (row_paren e) rfl (fun _ => rfl)
    (fun _ _ heq => by cases heq)).operand

theorem Faithful.guarded {e : Expr} (h : Faithful e) (needed : Bool) :
    Faithful (e.guarded needed) := by
  cases needed with
  | false => exact h
  | true => exact h.paren.faithful

@[simp] theorem isStable_guarded (e : Expr) (needed : Bool) :
    (e.guarded needed).isStable = e.isStable := by
  cases needed with
  | false => rfl
  | true => rw [Expr.guarded, if_pos rfl, isStable]

/-- Parentheses make nothing looser. -/
theorem level_guarded {k : Nat} (hk : k ≤ operandLevel) {e : Expr} (h : k ≤ e.level)
    (needed : Bool) : k ≤ (e.guarded needed).level := by
  cases needed with
  | false => exact h
  | true => exact hk

theorem isStable_negatedIf (e : Expr) (negated : Bool) :
    (e.negatedIf negated).isStable = e.isStable := by
  cases negated with
  | false => rfl
  | true => rw [negatedIf, if_pos rfl, isStable]

/-- The negation of a test is an operand. -/
theorem Faithful.negatedIf {e : Expr} (h : Faithful e) (hlevel : e.level = rangeLevel)
    (negated : Bool) :
    Faithful (e.negatedIf negated) ∧ rangeLevel ≤ (e.negatedIf negated).level := by
  cases negated with
  | false => exact ⟨h, Nat.le_of_eq hlevel.symm⟩
  | true =>
    have hnot := h.not (by rw [hlevel]; decide)
    exact ⟨hnot.faithful, Nat.le_of_lt (by decide : rangeLevel < operandLevel)⟩

/-! ## Operators -/

theorem isStable_binary {op : Operator} {left right : Expr} :
    (binary op left right).isStable = true ↔
      op.isStable = true ∧ left.takes (op.level .generic) = false ∧ left.isStable = true ∧
        right.isStable = true ∧ (op = .is → right.mayBeIdentity = true) := by
  rw [isStable]
  simp only [Bool.and_eq_true, Bool.not_eq_true', Bool.or_eq_true, decide_eq_true_eq, and_assoc,
    ne_eq, ← imp_iff_not_or]

/-- An expression with an operator takes for a part of it what its right operand does, and what
    binds more tightly than the operator. -/
theorem Faithful.tight_binary {op : Operator} {left right : Expr} (h : Faithful right)
    (hlevel : op.level .generic < right.level) (k : Nat)
    (hk : (binary op left right).takes k = true) :
    (binary op left right).level < k ∨ equalityLevel ≤ k := by
  have hop : (binary op left right).level = op.level .generic := rfl
  by_cases hnull : op = .is ∧ right = .null
  · obtain ⟨rfl, rfl⟩ := hnull
    cases hk
  · rw [takes_binary (fun hop hright => hnull ⟨hop, hright⟩), Bool.or_eq_true, Bool.and_eq_true,
      decide_eq_true_eq] at hk
    rw [hop]
    rcases hk with ⟨hk, -⟩ | hk
    · exact Or.inl hk
    · have := h.tight k hk
      omega

theorem Opens.append {e whole : Expr} (h : Opens e) {more : List Lexeme}
    (hrow : whole.row = e.row ++ more) : Opens whole := by
  obtain ⟨l, ls, hl, hopens⟩ := h
  exact ⟨l, ls ++ more, by rw [hrow, hl, List.cons_append], hopens⟩

/-- Whether an operator takes no identity for its operand as it stands. -/
def bars (op : Operator) : Bool :=
  op.isComparison || op = .sameAs

/-- The operand of an operator, between parentheses if the operator needs them. -/
def operandOf (op : Operator) (e : Expr) : Expr :=
  e.guarded (bars op && e.isIdentity)

theorem combine_generic (op : Operator) (left right : Expr) :
    combine .generic op left right = .binary op (operandOf op left) (operandOf op right) := by
  rw [combine, operandOf, operandOf, bars]
  cases op.isComparison || decide (op = .sameAs) <;> simp [asCompared, Expr.guarded]

/-- Once is enough. -/
theorem operandOf_operandOf (op : Operator) (e : Expr) :
    operandOf op (operandOf op e) = operandOf op e := by
  unfold operandOf
  cases hneeded : bars op && e.isIdentity with
  | false =>
    have hguarded : e.guarded false = e := rfl
    rw [hguarded, hneeded, hguarded]
  | true =>
    have hguarded : e.guarded true = .paren e := rfl
    have hparen : (Expr.paren e).isIdentity = false := rfl
    rw [hguarded, hparen, Bool.and_false]
    rfl

/-- An operator that is neither an identity nor a likeness. -/
theorem Faithful.combine {op : Operator} {left right : Expr} (hleft : Faithful left)
    (hright : Faithful right) (his : op ≠ .is) (hlike : ∀ negated, op ≠ .like negated)
    (hlow : op.level .generic ≤ left.level) (hhigh : op.level .generic < right.level)
    (hstable : (combine .generic op left right).isStable = true) :
    Faithful (combine .generic op left right) := by
  have hbound := op.level_lt_operandLevel .generic
  rw [combine_generic] at hstable ⊢
  obtain ⟨hop, htakes, -, -, -⟩ := isStable_binary.mp hstable
  have hl : Faithful (operandOf op left) := hleft.guarded _
  have hr : Faithful (operandOf op right) := hright.guarded _
  have hlowLevel : op.level .generic ≤ (operandOf op left).level :=
    level_guarded (Nat.le_of_lt hbound) hlow _
  have hhighLevel : op.level .generic + 1 ≤ (operandOf op right).level :=
    level_guarded hbound hhigh _
  have hcombine : Expr.combine .generic op (operandOf op left) (operandOf op right) =
      .binary op (operandOf op left) (operandOf op right) := by
    rw [combine_generic, operandOf_operandOf, operandOf_operandOf]
  exact {
    opens := hl.opens.append (row_binary _ _ _)
    resumes := hl.resumes.binary hr.resumes hop his hlike hr.opens hlowLevel hhighLevel htakes
      hcombine
    tight := hr.tight_binary hhighLevel }

/-! ## Identities -/

theorem single_null : Single .null where
  alone := alone_null
  leads := ⟨_, _, rfl, by decide +kernel⟩
  level := rfl
  takes _ := rfl
  unnamed _ _ heq := by cases heq

theorem asIdentified_kind (e : Expr) :
    e.asIdentified.isNegation = false ∧ e.asIdentified.isComparison = false := by
  rw [asIdentified]
  cases hneeded : e.isNegation || e.isComparison with
  | false => exact Bool.or_eq_false_iff.mp hneeded
  | true => exact ⟨rfl, rfl⟩

theorem asIdentity_kind (e : Expr) :
    e.asIdentity.isNegation = false ∧ e.asIdentity.isComparison = false ∧
      e.asIdentity.isRange = false := by
  rw [asIdentity]
  cases hneeded : e.isNegation || e.isComparison || e.isRange with
  | false =>
    obtain ⟨hkind, hrange⟩ := Bool.or_eq_false_iff.mp hneeded
    obtain ⟨hnegation, hcomparison⟩ := Bool.or_eq_false_iff.mp hkind
    exact ⟨hnegation, hcomparison, hrange⟩
  | true => exact ⟨rfl, rfl, rfl⟩

theorem mayBeIdentity_of_ne_null {e : Expr} (hnull : e ≠ .null) (h : e.mayBeIdentity = true) :
    e.beginsWith "NOT" = false ∧ e.beginsWith "NULL" = false := by
  rw [mayBeIdentity] at h
  · simpa using h
  · exact hnull

/-- An identity between operands of their kinds. -/
theorem Faithful.is {left right : Expr} (hleft : Faithful left) (hright : Faithful right)
    (hlow : rangeLevel ≤ left.level) (hhigh : rangeLevel < right.level)
    (hleftKind : left.isNegation = false ∧ left.isComparison = false)
    (hrightKind : right.isNegation = false ∧ right.isComparison = false ∧ right.isRange = false)
    (hstable : (binary .is left right).isStable = true) : Faithful (.binary .is left right) := by
  obtain ⟨-, htakes, -, -, hmay⟩ := isStable_binary.mp hstable
  have htakes : left.takes rangeLevel = false := htakes
  refine ⟨hleft.opens.append (row_is _ _), ?_, hright.tight_binary hhigh⟩
  by_cases hnull : right = .null
  · subst hnull
    exact hleft.resumes.isNull hlow htakes hleftKind
  · exact hleft.resumes.is hright.resumes hright.opens hlow hhigh htakes hleftKind hrightKind hnull
      (mayBeIdentity_of_ne_null hnull (hmay rfl))

/-- An identity or its negation. -/
theorem Faithful.identity {left right : Expr} (hleft : Faithful left) (hright : Faithful right)
    (hlow : rangeLevel ≤ left.level) (hhigh : rangeLevel < right.level) {negated : Bool}
    (hstable : (Expr.identity .generic negated left right).isStable = true) :
    Faithful (Expr.identity .generic negated left right) ∧
      rangeLevel ≤ (Expr.identity .generic negated left right).level := by
  rw [identity_generic, isStable_negatedIf] at hstable
  rw [identity_generic]
  have hidentity : Faithful (.binary .is left.asIdentified right.asIdentity) :=
    Faithful.is (hleft.guarded _) (hright.guarded _) (level_guarded (by decide) hlow _)
      (level_guarded (by decide) hhigh _) (asIdentified_kind left) (asIdentity_kind right) hstable
  exact hidentity.negatedIf rfl negated

/-! ## Tests -/

/-- What binds as tightly as a test is no comparison. -/
theorem isComparison_of_level {e : Expr} (h : rangeLevel ≤ e.level) : e.isComparison = false := by
  cases e with
  | binary op left right =>
    have hlevel : (binary op left right).level = op.level .generic := rfl
    rw [hlevel] at h
    cases op <;> first | rfl | exact absurd h (by decide)
  | _ => rfl

/-- Whether an operand is missing. -/
theorem Faithful.missing {e : Expr} (h : Faithful e) (hlow : rangeLevel ≤ e.level)
    (hkind : e.isNegation = false) (hstable : (binary .is e .null).isStable = true) :
    Faithful (.binary .is e .null) :=
  h.is single_null.operand.faithful hlow (by decide) ⟨hkind, isComparison_of_level hlow⟩
    ⟨rfl, rfl, rfl⟩ hstable

theorem Faithful.like {left right : Expr} {negated : Bool} (hleft : Faithful left)
    (hright : Faithful right) (hlow : rangeLevel ≤ left.level) (hhigh : rangeLevel < right.level)
    (hkind : left.isNegation = false)
    (hstable : (binary (.like negated) left right).isStable = true) :
    Faithful (.binary (.like negated) left right) := by
  obtain ⟨-, htakes, -, -, -⟩ := isStable_binary.mp hstable
  exact {
    opens := hleft.opens.append (row_binary _ _ _)
    resumes := Resumes.like negated hleft.resumes hright.resumes hlow hhigh htakes hkind
    tight := hright.tight_binary hhigh }

theorem Faithful.between {operand low high : Expr} (hoperand : Faithful operand)
    (hlow : Faithful low) (hhigh : Faithful high) (hlevel : rangeLevel ≤ operand.level)
    (hlowLevel : rangeLevel < low.level) (hhighLevel : rangeLevel < high.level)
    (hkind : operand.isNegation = false ∧ operand.isIdentity = false)
    (htakes : operand.takes rangeLevel = false) : Faithful (.between operand low high) := by
  -- The word between the bounds is no operator for the lower one.
  have hand : low.takes (Operator.and.level .generic) = false := by
    cases htakes : low.takes (Operator.and.level .generic) with
    | false => rfl
    | true =>
      have hlevels : Operator.and.level .generic = 1 ∧ equalityLevel = 2 ∧ rangeLevel = 4 :=
        ⟨rfl, rfl, rfl⟩
      have := hlow.tight _ htakes
      omega
  refine ⟨hoperand.opens.append (row_between _ _ _), hoperand.resumes.between hlow.resumes
    hhigh.resumes hlevel hlowLevel hhighLevel htakes hkind hand, fun k hk => ?_⟩
  have hrange : (Expr.between operand low high).level = rangeLevel := rfl
  rw [takes, Bool.or_eq_true, Bool.and_eq_true, decide_eq_true_eq] at hk
  rw [hrange]
  rcases hk with ⟨hk, -⟩ | hk
  · exact Or.inl hk
  · have := hhigh.tight k hk
    omega

theorem Faithful.member {operand : Expr} {list : List Expr} (hoperand : Faithful operand)
    (hlist : Lists .plain list) (hlevel : rangeLevel ≤ operand.level)
    (hkind : operand.isNegation = false) (htakes : operand.takes rangeLevel = false) :
    Faithful (.member operand list) where
  opens := hoperand.opens.append (row_member _ _)
  resumes := hoperand.resumes.member hlist hlevel htakes hkind
  tight k hk := by cases hk

/-! ## Single operands -/

theorem single_number (text : String) : Single (.number text) where
  alone := alone_number text
  leads := ⟨_, _, rfl, rfl⟩
  level := rfl
  takes _ := rfl
  unnamed _ _ heq := by cases heq

theorem single_string (text : String) : Single (.string text) where
  alone := alone_string text
  leads := ⟨_, _, rfl, rfl⟩
  level := rfl
  takes _ := rfl
  unnamed _ _ heq := by cases heq

theorem single_boolean (value : Bool) : Single (.boolean value) where
  alone := alone_boolean value
  leads := by cases value <;> exact ⟨_, _, rfl, by decide +kernel⟩
  level := rfl
  takes _ := rfl
  unnamed _ _ heq := by cases heq

theorem single_star : Single (.star []) where
  alone := alone_star
  leads := ⟨_, _, rfl, rfl⟩
  level := rfl
  takes _ := rfl
  unnamed _ _ heq := by cases heq

/-- What stands between parentheses, from what was read there. -/
theorem single_ofGroup {entries : List (Option Expr)} (h : Lists .item entries.reduceOption)
    (hstable : (ofGroup entries).isStable = true) : Single (ofGroup entries) := by
  revert hstable
  fun_cases ofGroup entries with
  | case1 e =>
    intro _
    exact Single.enclosed (alone_paren h) (row_paren e) rfl (fun _ => rfl)
      (fun _ _ heq => by cases heq)
  | case2 =>
    intro hstable
    rw [isStable, Bool.and_eq_true, decide_eq_true_eq] at hstable
    exact Single.enclosed (alone_tuple h hstable.1) (row_tuple _) rfl (fun _ => rfl)
      (fun _ _ heq => by cases heq)

/-- A call of a function of known meaning. -/
theorem single_call {function : String} {arguments : List Expr} (hfunction : function ∈ aggregates)
    (htakes : takesArguments function arguments.length = true)
    (harguments : Lists .argument arguments) : Single (.call (.bare function) arguments) where
  alone := alone_call hfunction htakes harguments
  leads := by
    obtain ⟨-, -, -, hcallable⟩ := aggregate_spec hfunction
    rw [isCallable, Bool.and_eq_true, Bool.not_eq_true'] at hcallable
    exact ⟨_, _, row_call _ _, Lexeme.leads_word hcallable.1⟩
  level := rfl
  takes _ := rfl
  unnamed _ _ heq := by cases heq

end Expr

end PatternSql.Sql
