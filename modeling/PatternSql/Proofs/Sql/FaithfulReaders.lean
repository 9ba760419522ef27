import PatternSql.Proofs.Sql.Parts

/-!
# What is read is read back

Whatever a reader gives, in however many steps and from whatever lexemes, is read back from its own
lexemes if it is stable. All the readers call one another with one step less, so this is shown for
all of them at once: if it holds of what they give within some steps, it holds within one more.

Main results:

* `Gives`, `Gives.succ`: what the readers give within a number of steps, and within one more.
* `faithful_of_read?`, `lists_of_readItems?`: expressions and lists that are read are read back.
-/

namespace PatternSql.Sql

open Text

namespace Expr

/-! ## Aliases -/

theorem withAlias_cases {name? : Lexeme → Option Name} {e e' : Expr} {ls rest : List Lexeme}
    (h : withAlias name? e ls = some (e', rest)) :
    e' = e ∨ (∃ name, e' = .named e name) ∨ ∃ names, e' = .unpacked e names := by
  unfold withAlias at h
  split at h
  · split at h
    · cases h
      exact Or.inr (Or.inr ⟨_, rfl⟩)
    · cases h
  · split at h
    · cases h
      exact Or.inr (Or.inl ⟨_, rfl⟩)
    · cases h
      exact Or.inl rfl
  · cases h
    exact Or.inl rfl

/-- An entry is an expression or one with an alias, if it is stable. -/
theorem alias?_cases {n : Nat} {kind : Entry} {e e' : Expr} {ls rest : List Lexeme}
    (h : alias? .generic n kind e ls = some (e', rest)) (hstable : e'.isStable = true) :
    e' = e ∨ ∃ name, e' = .named e name ∧ kind.mayBeLabelled = true := by
  have hnamed {name? : Lexeme → Option Name} {ls : List Lexeme}
      (h : withAlias name? e ls = some (e', rest)) : e' = e ∨ ∃ name, e' = .named e name := by
    rcases withAlias_cases h with heq | hname | ⟨names, rfl⟩
    · exact Or.inl heq
    · exact Or.inr hname
    · cases hstable
  cases n with
  | zero =>
    rw [alias?] at h
    cases h
  | succ n =>
    cases kind with
    | plain =>
      rw [alias?] at h
      cases h
      exact Or.inl rfl
    | argument =>
      rw [alias?] at h
      cases h
      exact Or.inl rfl
    | labelled =>
      rw [alias?] at h
      split at h
      · rcases hnamed h with heq | ⟨name, heq⟩
        · exact Or.inl heq
        · exact Or.inr ⟨name, heq, rfl⟩
      · cases h
        exact Or.inl rfl
    | item =>
      rw [alias?] at h
      split at h
      · cases h
        exact Or.inl rfl
      · have hname : e' = e ∨ ∃ name, e' = .named e name := by
          split at h
          · exact hnamed h
          · exact hnamed h
        rcases hname with heq | ⟨name, heq⟩
        · exact Or.inl heq
        · exact Or.inr ⟨name, heq, rfl⟩

/-! ## All readers -/

/-- An entry is read back at the end of a list, and before a comma if one followed it. -/
structure Listed (kind : Entry) (e : Expr) (rest : List Lexeme) : Prop where
  opens : ∃ l ls, e.row = l :: ls ∧ kind.mayBegin l = true
  last : ∀ ls, Closes ls → Enters kind e ls
  inner : ∀ more, rest = .mark .comma :: more → ∀ ls, Enters kind e (.mark .comma :: ls)

/-- What the readers give within a number of steps is read back if it is stable. What an expression
    is extended to, or tested for, is stable only if the expression is. -/
structure Gives (n : Nat) : Prop where
  operand : ∀ {ls rest e}, operand? .generic n ls = some (some e, rest) → e.isStable = true →
    FaithfulOperand e
  primary : ∀ {ls rest e}, primary? .generic n ls = some (some e, rest) → e.isStable = true →
    Begins e rest
  level : ∀ {least ls rest e}, least ≤ operandLevel →
    level? .generic n least ls = some (some e, rest) → e.isStable = true →
      Faithful e ∧ least ≤ e.level
  extend : ∀ {least most e ls rest e'}, extend? .generic n least most e ls = some (e', rest) →
    e'.isStable = true → e.isStable = true ∧
      (Faithful e → least ≤ e.level → most ≤ e.level → Faithful e' ∧ least ≤ e'.level)
  identity : ∀ {e ls rest e'}, identity? .generic n e ls = some (some (e', rest)) →
    e'.isStable = true → e.isStable = true ∧
      (Faithful e → rangeLevel ≤ e.level → Faithful e' ∧ rangeLevel ≤ e'.level)
  tested : ∀ {e negated test ls rest e'}, tested? .generic n e negated test ls = some (e', rest) →
    e'.isStable = true → e.isStable = true ∧
      (Faithful e → rangeLevel ≤ e.level → e.isNegation = false →
        Faithful e' ∧ rangeLevel ≤ e'.level)
  entries : ∀ {kind ls rest es}, entries? .generic n kind ls = some (es, rest) →
    areStable es.reduceOption = true →
      Lists kind es.reduceOption ∧ ∀ more, rest ≠ .mark .comma :: more
  listed : ∀ {kind ls rest e}, listed? .generic n kind ls = some (some e, rest) →
    e.isStable = true → Listed kind e rest

theorem required_eq_some_iff {r : Option (Option Expr × List Lexeme)} {e : Expr}
    {rest : List Lexeme} : required r = some (e, rest) ↔ r = some (some e, rest) := by
  unfold required
  split
  · simp
  · rename_i hne
    constructor
    · rintro ⟨⟩
    · rintro rfl
      exact absurd rfl (hne _ _)

theorem isStable_query {n : Nat} {ls rest : List Lexeme} {e : Expr}
    (h : query? .generic n ls = some (e, rest)) : e.isStable = false := by
  cases n with
  | zero =>
    rw [query?] at h
    cases h
  | succ n =>
    rw [query?] at h
    obtain ⟨⟨opening, rest₁⟩, -, h⟩ := Option.bind_eq_some_iff.mp h
    obtain ⟨⟨items, rest₂⟩, -, h⟩ := Option.bind_eq_some_iff.mp h
    dsimp only at h
    split at h
    · obtain ⟨⟨sources, rest₃⟩, -, h⟩ := Option.bind_eq_some_iff.mp h
      cases h
      rfl
    · cases h
      rfl

theorem isStable_choice {n : Nat} {ls rest : List Lexeme} {e : Expr}
    (h : choice? .generic n ls = some (e, rest)) : e.isStable = false := by
  cases n with
  | zero =>
    rw [choice?] at h
    cases h
  | succ n =>
    rw [choice?] at h
    obtain ⟨⟨subject, rest₁⟩, -, h⟩ := Option.bind_eq_some_iff.mp h
    obtain ⟨⟨cases, rest₂⟩, -, h⟩ := Option.bind_eq_some_iff.mp h
    dsimp only at h
    split at h
    · cases h
    · obtain ⟨⟨cases, rest₃⟩, -, h⟩ := Option.bind_eq_some_iff.mp h
      obtain ⟨rest₄, -, h⟩ := Option.bind_eq_some_iff.mp h
      cases h
      cases subject <;> rfl

theorem areStable_of_ofGroup {entries : List (Option Expr)}
    (h : (ofGroup entries).isStable = true) : areStable entries.reduceOption = true := by
  revert h
  fun_cases ofGroup entries with
  | case1 e =>
    intro h
    have hreduce : [some e].reduceOption = [e] := rfl
    rw [hreduce, areStable, areStable, Bool.and_true]
    exact h
  | case2 =>
    intro h
    rw [isStable, Bool.and_eq_true] at h
    exact h.2

variable {n : Nat} (hn : Gives n)

include hn

theorem Gives.operand_succ {ls rest : List Lexeme} {e : Expr}
    (h : operand? .generic (n + 1) ls = some (some e, rest)) (hstable : e.isStable = true) :
    FaithfulOperand e := by
  unfold operand? at h
  split at h
  · contradiction
  · cases ‹n + 1 = _›
    exact hn.operand h hstable
  · cases ‹n + 1 = _›
    obtain ⟨⟨e', rest'⟩, hread, h⟩ := Option.bind_eq_some_iff.mp h
    cases h
    exact (hn.operand (required_eq_some_iff.mp hread) hstable).negative
  · rw [if_neg (by decide)] at h
    obtain ⟨⟨e', rest'⟩, -, h⟩ := Option.bind_eq_some_iff.mp h
    cases h
    cases hstable
  · cases ‹n + 1 = _›
    split at h
    · obtain ⟨⟨e', rest'⟩, hread, h⟩ := Option.bind_eq_some_iff.mp h
      cases h
      obtain ⟨hfaithful, hlevel⟩ :=
        hn.level (by decide) (required_eq_some_iff.mp hread) hstable
      exact hfaithful.not hlevel
    · obtain ⟨⟨first, rest'⟩, hread, h⟩ := Option.bind_eq_some_iff.mp h
      cases first with
      | none => cases h
      | some first =>
        obtain ⟨⟨e', rest''⟩, hparts, h⟩ := Option.bind_eq_some_iff.mp h
        cases h
        exact (hn.primary hread (isStable_of_parts? hparts hstable)).operand hparts hstable

/-- What a word begins: a constant, a call or a column. -/
theorem Gives.primary_word {w : String} {ls rest : List Lexeme} {e : Expr}
    (h : primary? .generic (n + 1) (.word w :: ls) = some (some e, rest))
    (hstable : e.isStable = true) : Begins e rest := by
  rw [primary?] at h
  split at h
  · cases h
    exact Or.inr single_null
  · cases h
    exact Or.inr (single_boolean true)
  · cases h
    exact Or.inr (single_boolean false)
  · rename_i hnull htrue hfalse
    have hconstant : upper w ∉ constantWords := by
      simp only [constantWords, List.mem_cons, List.not_mem_nil, or_false, not_or]
      exact ⟨hfalse, hnull, htrue⟩
    split at h
    · obtain ⟨⟨e', rest'⟩, hread, h⟩ := Option.bind_eq_some_iff.mp h
      cases h
      rw [isStable_choice hread] at hstable
      cases hstable
    · rename_i hchoice
      have hcase (h : upper w = "CASE") : ∃ more, ls = .mark .dot :: more := by
        rw [h, beq_self_eq_true, Bool.true_and, Option.isNone_iff_eq_none] at hchoice
        obtain ⟨more, hmore⟩ := Option.ne_none_iff_exists'.mp hchoice
        exact ⟨more, afterMark?_eq_some_iff.mp hmore⟩
      split at h
      · rename_i more hcall
        obtain ⟨⟨arguments, rest'⟩, hread, h⟩ := Option.bind_eq_some_iff.mp h
        obtain ⟨rest'', -, h⟩ := Option.bind_eq_some_iff.mp h
        split at h
        · rename_i htakes
          cases h
          rw [isStable, Bool.and_eq_true] at hstable
          obtain ⟨hknown, harguments⟩ := hstable
          have hknown : aggregates.contains (upper w) = true := hknown
          rw [hknown, if_pos rfl] at hread
          exact Or.inr (single_call (List.contains_iff_mem.mp hknown) htakes
            (hn.entries hread harguments).1)
        · cases h
      · split at h
        · cases h
        · rename_i hreserved
          cases h
          refine Or.inl ⟨_, rfl, ?_, fun text htext hupper => ?_⟩
          · rw [leads, Bool.eq_false_of_not_eq_true hreserved]
            simpa using hconstant
          · cases htext
            exact hcase hupper

theorem Gives.primary_succ {ls rest : List Lexeme} {e : Expr}
    (h : primary? .generic (n + 1) ls = some (some e, rest)) (hstable : e.isStable = true) :
    Begins e rest := by
  by_cases hword : ∃ w more, ls = .word w :: more
  · obtain ⟨w, more, rfl⟩ := hword
    exact hn.primary_word h hstable
  · unfold primary? at h
    split at h
    · contradiction
    · cases h
      exact Or.inr (single_number _)
    · cases h
      exact Or.inr (single_number _)
    · cases h
      cases hstable
    · cases h
      exact Or.inr single_star
    · cases h
      cases hstable
    · rename_i t more _
      cases hrun : stringRun more with
      | mk ts rest' =>
        rw [hrun] at h
        cases h
        cases ts with
        | nil => exact Or.inr (single_string t)
        | cons t' ts => cases hstable
    · cases ‹n + 1 = _›
      obtain ⟨⟨arguments, rest'⟩, hread, h⟩ := Option.bind_eq_some_iff.mp h
      obtain ⟨rest'', -, h⟩ := Option.bind_eq_some_iff.mp h
      cases h
      cases hstable
    · cases h
      exact Or.inl ⟨_, rfl, rfl, fun text htext => by cases htext⟩
    · cases ‹n + 1 = _›
      split at h
      · obtain ⟨⟨e', rest'⟩, hread, h⟩ := Option.bind_eq_some_iff.mp h
        obtain ⟨rest'', -, h⟩ := Option.bind_eq_some_iff.mp h
        cases h
        rw [isStable, isStable_query hread] at hstable
        cases hstable
      · obtain ⟨⟨entries, rest'⟩, hread, h⟩ := Option.bind_eq_some_iff.mp h
        obtain ⟨rest'', -, h⟩ := Option.bind_eq_some_iff.mp h
        cases h
        exact Or.inr (single_ofGroup (hn.entries hread (areStable_of_ofGroup hstable)).1 hstable)
    · obtain ⟨⟨entries, rest'⟩, -, h⟩ := Option.bind_eq_some_iff.mp h
      obtain ⟨rest'', -, h⟩ := Option.bind_eq_some_iff.mp h
      cases h
      cases hstable
    · exact absurd ⟨_, _, rfl⟩ hword
    · cases h

theorem Gives.level_succ {least : Nat} (hleast : least ≤ operandLevel) {ls rest : List Lexeme}
    {e : Expr} (h : level? .generic (n + 1) least ls = some (some e, rest))
    (hstable : e.isStable = true) : Faithful e ∧ least ≤ e.level := by
  rw [level?] at h
  obtain ⟨⟨first, rest'⟩, hread, h⟩ := Option.bind_eq_some_iff.mp h
  cases first with
  | none => cases h
  | some first =>
    obtain ⟨⟨e', rest''⟩, hextend, h⟩ := Option.bind_eq_some_iff.mp h
    cases h
    obtain ⟨hfirst, hstep⟩ := hn.extend hextend hstable
    have hoperand := hn.operand hread hfirst
    exact hstep hoperand.faithful (by rwa [hoperand.level]) (Nat.le_of_eq hoperand.level.symm)

omit hn in
theorem markOperator?_kind {m : Mark} {op : Operator} (h : markOperator? .generic m = some op) :
    op ≠ .is ∧ ∀ negated, op ≠ .like negated := by
  cases m <;> cases h <;> exact ⟨by decide, fun _ heq => by cases heq⟩

omit hn in
/-- Identities and likenesses are no operators for the reader of operators. -/
theorem operator?_kind {ls rest : List Lexeme} {op : Operator}
    (h : operator? .generic ls = some (op, rest)) : op ≠ .is ∧ ∀ negated, op ≠ .like negated := by
  unfold operator? at h
  split at h
  · cases h
    exact ⟨by decide, fun _ heq => by cases heq⟩
  · cases h
    exact ⟨by decide, fun _ heq => by cases heq⟩
  · obtain ⟨op', hop, heq⟩ := Option.map_eq_some_iff.mp h
    cases heq
    exact markOperator?_kind hop
  · obtain ⟨op', hop, heq⟩ := Option.map_eq_some_iff.mp h
    cases heq
    unfold wordOperator? at hop
    split at hop
    · cases hop
      exact ⟨by decide, fun _ heq => by cases heq⟩
    · cases hop
      exact ⟨by decide, fun _ heq => by cases heq⟩
    · cases hop
    · cases hop
  · cases h

omit hn in
/-- What is combined to something stable is stable. -/
theorem isStable_of_combine {op : Operator} {left right : Expr}
    (h : (combine .generic op left right).isStable = true) :
    left.isStable = true ∧ right.isStable = true := by
  rw [combine_generic] at h
  obtain ⟨-, -, hleft, hright, -⟩ := isStable_binary.mp h
  rw [operandOf, isStable_guarded] at hleft hright
  exact ⟨hleft, hright⟩

omit hn in
theorem isStable_of_identity {negated : Bool} {left right : Expr}
    (h : (Expr.identity .generic negated left right).isStable = true) :
    left.isStable = true ∧ right.isStable = true := by
  rw [identity_generic, isStable_negatedIf] at h
  obtain ⟨-, -, hleft, hright, -⟩ := isStable_binary.mp h
  rw [asIdentified, isStable_guarded] at hleft
  rw [asIdentity, isStable_guarded] at hright
  exact ⟨hleft, hright⟩

theorem Gives.extend_succ {least most : Nat} {e e' : Expr} {ls rest : List Lexeme}
    (h : extend? .generic (n + 1) least most e ls = some (e', rest)) (hstable : e'.isStable = true) :
    e.isStable = true ∧
      (Faithful e → least ≤ e.level → most ≤ e.level → Faithful e' ∧ least ≤ e'.level) := by
  rw [extend?] at h
  dsimp only at h
  split at h
  · rename_i op more hop
    split at h
    · rename_i hfits
      rw [Bool.and_eq_true, decide_eq_true_eq, decide_eq_true_eq] at hfits
      obtain ⟨⟨right, more'⟩, hread, h⟩ := Option.bind_eq_some_iff.mp h
      obtain ⟨hcombined, hstep⟩ := hn.extend h hstable
      obtain ⟨he, hrightStable⟩ := isStable_of_combine hcombined
      obtain ⟨hright, hrightLevel⟩ := hn.level (op.level_lt_operandLevel .generic)
        (required_eq_some_iff.mp hread) hrightStable
      obtain ⟨his, hlike⟩ := operator?_kind hop
      have hlevel : (combine .generic op e right).level = op.level .generic := by
        rw [combine_generic]
        rfl
      refine ⟨he, fun hfaithful hleast hmost => ?_⟩
      have hcombine := hfaithful.combine hright his hlike (Nat.le_trans hfits.2 hmost) hrightLevel
        hcombined
      exact hstep hcombine (by rw [hlevel]; exact hfits.1) (Nat.le_of_eq hlevel.symm)
    · cases h
      exact ⟨hstable, fun hfaithful hleast _ => ⟨hfaithful, hleast⟩⟩
  · split at h
    · rename_i hfits
      rw [Bool.and_eq_true, decide_eq_true_eq, decide_eq_true_eq] at hfits
      obtain ⟨result, hread, h⟩ := Option.bind_eq_some_iff.mp h
      split at h
      · obtain ⟨hidentity, hstep⟩ := hn.extend h hstable
        obtain ⟨he, hread⟩ := hn.identity hread hidentity
        refine ⟨he, fun hfaithful hleast hmost => ?_⟩
        obtain ⟨hfaithful', hlevel⟩ := hread hfaithful (Nat.le_trans hfits.2 hmost)
        exact hstep hfaithful' (Nat.le_trans hfits.1 hlevel) hlevel
      · cases h
        exact ⟨hstable, fun hfaithful hleast _ => ⟨hfaithful, hleast⟩⟩
    · cases h
      exact ⟨hstable, fun hfaithful hleast _ => ⟨hfaithful, hleast⟩⟩
  · split at h
    · rename_i hfits
      rw [Bool.and_eq_true, decide_eq_true_eq, decide_eq_true_eq] at hfits
      obtain ⟨⟨test, more⟩, hread, h⟩ := Option.bind_eq_some_iff.mp h
      obtain ⟨htest, hstep⟩ := hn.extend h hstable
      obtain ⟨he, hread⟩ := hn.tested hread htest
      rw [asTested, isStable_guarded] at he
      refine ⟨he, fun hfaithful hleast hmost => ?_⟩
      obtain ⟨hfaithful', hlevel⟩ := hread (hfaithful.guarded _)
        (level_guarded (by decide) (Nat.le_trans hfits.2 hmost) _) (isNegation_asTested e)
      exact hstep hfaithful' (Nat.le_trans hfits.1 hlevel) hlevel
    · cases h
      exact ⟨hstable, fun hfaithful hleast _ => ⟨hfaithful, hleast⟩⟩
  · cases h
    exact ⟨hstable, fun hfaithful hleast _ => ⟨hfaithful, hleast⟩⟩

theorem Gives.identity_succ {e e' : Expr} {ls rest : List Lexeme}
    (h : identity? .generic (n + 1) e ls = some (some (e', rest))) (hstable : e'.isStable = true) :
    e.isStable = true ∧
      (Faithful e → rangeLevel ≤ e.level → Faithful e' ∧ rangeLevel ≤ e'.level) := by
  rw [identity?] at h
  split at h
  rename_i negated more _
  split at h
  · obtain ⟨⟨right, more'⟩, -, h⟩ := Option.bind_eq_some_iff.mp h
    cases h
    obtain ⟨hop, -⟩ := isStable_binary.mp hstable
    cases negated <;> cases hop
  · split at h
    · cases h
      refine ⟨(isStable_of_identity hstable).1, fun hfaithful hlevel => ?_⟩
      exact hfaithful.identity single_null.operand.faithful hlevel (by decide) hstable
    · obtain ⟨⟨right, more'⟩, hread, h⟩ := Option.bind_eq_some_iff.mp h
      cases right with
      | none => cases h
      | some right =>
        cases h
        obtain ⟨he, hrightStable⟩ := isStable_of_identity hstable
        obtain ⟨hright, hrightLevel⟩ := hn.level (by decide) hread hrightStable
        exact ⟨he, fun hfaithful hlevel => hfaithful.identity hright hlevel hrightLevel hstable⟩

omit hn in
theorem isStable_asBounded (e : Expr) : e.asBounded.isStable = e.isStable := by
  rw [asBounded, asCompared, isStable_guarded, asTested, isStable_guarded]

omit hn in
theorem isStable_between {operand low high : Expr} :
    (between operand low high).isStable = true ↔
      operand.takes rangeLevel = false ∧ operand.isStable = true ∧ low.isStable = true ∧
        high.isStable = true := by
  rw [isStable]
  simp only [Bool.and_eq_true, Bool.not_eq_true', and_assoc]

omit hn in
theorem isStable_member {operand : Expr} {list : List Expr} :
    (member operand list).isStable = true ↔
      operand.takes rangeLevel = false ∧ operand.isStable = true ∧ areStable list = true := by
  rw [isStable]
  simp only [Bool.and_eq_true, Bool.not_eq_true', and_assoc]

/-- What is tested for a list of its own. -/
theorem Gives.tested_list {e : Expr} {negated : Bool} {ls rest : List Lexeme}
    {entries : List (Option Expr)} (h : entries? .generic n .plain ls = some (entries, rest))
    (hstable : ((Expr.member e entries.reduceOption).negatedIf negated).isStable = true) :
    e.isStable = true ∧ (Faithful e → rangeLevel ≤ e.level → e.isNegation = false →
      Faithful ((Expr.member e entries.reduceOption).negatedIf negated) ∧
        rangeLevel ≤ ((Expr.member e entries.reduceOption).negatedIf negated).level) := by
  rw [isStable_negatedIf, isStable_member] at hstable
  obtain ⟨htakes, he, hlist⟩ := hstable
  refine ⟨he, fun hfaithful hlevel hkind => ?_⟩
  exact (hfaithful.member (hn.entries h hlist).1 hlevel hkind htakes).negatedIf rfl negated

/-- What is tested for membership. -/
theorem Gives.tested_member {e e' : Expr} {negated : Bool} {ls rest : List Lexeme}
    (h : tested? .generic (n + 1) e negated .member ls = some (e', rest))
    (hstable : e'.isStable = true) :
    e.isStable = true ∧ (Faithful e → rangeLevel ≤ e.level → e.isNegation = false →
      Faithful e' ∧ rangeLevel ≤ e'.level) := by
  unfold tested? at h
  dsimp only at h
  split at h
  · split at h
    · obtain ⟨⟨q, more⟩, -, h⟩ := Option.bind_eq_some_iff.mp h
      obtain ⟨more', -, h⟩ := Option.bind_eq_some_iff.mp h
      cases h
      rw [isStable_negatedIf] at hstable
      cases hstable
    · obtain ⟨⟨entries, more⟩, hread, h⟩ := Option.bind_eq_some_iff.mp h
      obtain ⟨more', -, h⟩ := Option.bind_eq_some_iff.mp h
      cases h
      exact hn.tested_list hread hstable
  · obtain ⟨⟨entries, more⟩, hread, h⟩ := Option.bind_eq_some_iff.mp h
    obtain ⟨more', -, h⟩ := Option.bind_eq_some_iff.mp h
    cases h
    exact hn.tested_list hread hstable
  · obtain ⟨⟨collection, more⟩, -, h⟩ := Option.bind_eq_some_iff.mp h
    cases collection with
    | none =>
      cases h
      rw [isStable_negatedIf, isStable_member] at hstable
      obtain ⟨htakes, he, -⟩ := hstable
      refine ⟨he, fun hfaithful hlevel hkind => ?_⟩
      exact (hfaithful.member (Lists.nil .plain) hlevel hkind htakes).negatedIf rfl negated
    | some collection =>
      obtain ⟨⟨collection', more'⟩, -, h⟩ := Option.bind_eq_some_iff.mp h
      cases h
      rw [isStable_negatedIf] at hstable
      cases hstable

theorem Gives.tested_succ {e e' : Expr} {negated : Bool} {test : Test} {ls rest : List Lexeme}
    (h : tested? .generic (n + 1) e negated test ls = some (e', rest))
    (hstable : e'.isStable = true) :
    e.isStable = true ∧ (Faithful e → rangeLevel ≤ e.level → e.isNegation = false →
      Faithful e' ∧ rangeLevel ≤ e'.level) := by
  cases test with
  | missing =>
    rw [tested?] at h
    cases h
    rw [isStable_negatedIf] at hstable
    obtain ⟨-, -, he, -, -⟩ := isStable_binary.mp hstable
    refine ⟨he, fun hfaithful hlevel hkind => ?_⟩
    exact (hfaithful.missing hlevel hkind hstable).negatedIf rfl negated
  | like =>
    rw [tested?] at h
    obtain ⟨⟨right, more⟩, hread, h⟩ := Option.bind_eq_some_iff.mp h
    dsimp only at h
    split at h
    · cases h
      cases hstable
    · cases h
    · cases h
      obtain ⟨-, -, he, hrightStable, -⟩ := isStable_binary.mp hstable
      obtain ⟨hright, hrightLevel⟩ :=
        hn.level (by decide) (required_eq_some_iff.mp hread) hrightStable
      refine ⟨he, fun hfaithful hlevel hkind => ⟨?_, Nat.le_refl _⟩⟩
      exact hfaithful.like hright hlevel hrightLevel hkind hstable
  | between =>
    rw [tested?] at h
    obtain ⟨⟨low, more⟩, hreadLow, h⟩ := Option.bind_eq_some_iff.mp h
    obtain ⟨⟨high, more'⟩, hreadHigh, h⟩ := Option.bind_eq_some_iff.mp h
    cases h
    rw [isStable_negatedIf, isStable_between] at hstable
    obtain ⟨htakes, he, hlowStable, hhighStable⟩ := hstable
    obtain ⟨hlow, hlowLevel⟩ :=
      hn.level (by decide) (required_eq_some_iff.mp hreadLow) hlowStable
    obtain ⟨hhigh, hhighLevel⟩ :=
      hn.level (by decide) (required_eq_some_iff.mp hreadHigh) hhighStable
    rw [isStable_asBounded] at he
    refine ⟨he, fun hfaithful hlevel _ => ?_⟩
    have hbounded : Faithful e.asBounded := (hfaithful.guarded _).guarded _
    have hboundedLevel : rangeLevel ≤ e.asBounded.level :=
      level_guarded (by decide) (level_guarded (by decide) hlevel _) _
    exact (hbounded.between hlow hhigh hboundedLevel hlowLevel hhighLevel
      (isIdentity_asBounded e).symm htakes).negatedIf rfl negated
  | member => exact hn.tested_member h hstable

theorem Gives.entries_succ {kind : Entry} {ls rest : List Lexeme} {es : List (Option Expr)}
    (h : entries? .generic (n + 1) kind ls = some (es, rest))
    (hstable : areStable es.reduceOption = true) :
    Lists kind es.reduceOption ∧ ∀ more, rest ≠ .mark .comma :: more := by
  rw [entries?] at h
  obtain ⟨⟨e, rest'⟩, hread, h⟩ := Option.bind_eq_some_iff.mp h
  dsimp only at h
  split at h
  · obtain ⟨⟨es', rest''⟩, hmore, h⟩ := Option.bind_eq_some_iff.mp h
    cases h
    cases e with
    | none =>
      have hreduce : (none :: es').reduceOption = es'.reduceOption := rfl
      rw [hreduce] at hstable ⊢
      exact hn.entries hmore hstable
    | some e =>
      have hreduce : (some e :: es').reduceOption = e :: es'.reduceOption := rfl
      rw [hreduce, areStable, Bool.and_eq_true] at hstable
      rw [hreduce]
      obtain ⟨hlists, hrest⟩ := hn.entries hmore hstable.2
      have hlisted := hn.listed hread hstable.1
      exact ⟨Lists.cons hlisted.opens hlisted.last (fun _ => hlisted.inner _ rfl) hlists, hrest⟩
  · rename_i hcomma
    cases h
    refine ⟨?_, fun more hrest => hcomma more hrest⟩
    cases e with
    | none => exact Lists.nil kind
    | some e =>
      have hreduce : [some e].reduceOption = [e] := rfl
      rw [hreduce, areStable, Bool.and_eq_true] at hstable
      rw [hreduce]
      have hlisted := hn.listed hread hstable.1
      exact Lists.cons hlisted.opens hlisted.last (fun hne => absurd rfl hne) (Lists.nil kind)

theorem Gives.listed_succ {kind : Entry} {ls rest : List Lexeme} {e : Expr}
    (h : listed? .generic (n + 1) kind ls = some (some e, rest)) (hstable : e.isStable = true) :
    Listed kind e rest := by
  rw [listed?] at h
  split at h
  · rename_i more hdistinct
    have hkind : kind = .argument ∨ kind = .labelled := by
      split at hdistinct
      · assumption
      · cases hdistinct
    obtain ⟨⟨entries, rest'⟩, hread, h⟩ := Option.bind_eq_some_iff.mp h
    cases h
    obtain ⟨hlists, hrest⟩ := hn.entries hread hstable
    exact {
      opens := ⟨_, _, row_distinct _, by rcases hkind with rfl | rfl <;> decide +kernel⟩
      last := fun ls hls => enters_distinct hlists hkind hls
      inner := fun more hmore => absurd hmore (hrest more) }
  · obtain ⟨⟨first, rest'⟩, hread, h⟩ := Option.bind_eq_some_iff.mp h
    dsimp only at h
    split at h
    · rename_i e₀
      obtain ⟨⟨e', rest''⟩, halias, h⟩ := Option.bind_eq_some_iff.mp h
      cases h
      rcases alias?_cases halias hstable with rfl | ⟨name, rfl, hkind⟩
      · obtain ⟨hfaithful, -⟩ := hn.level (Nat.zero_le _) hread hstable
        exact {
          opens := hfaithful.opens.entry kind
          last := fun ls hls => hfaithful.resumes.enters hfaithful.opens kind (Or.inl hls)
          inner := fun _ _ ls => hfaithful.resumes.enters hfaithful.opens kind (Or.inr ⟨_, rfl⟩) }
      · rw [isStable, Bool.and_eq_true] at hstable
        obtain ⟨hfaithful, -⟩ := hn.level (Nat.zero_le _) hread hstable.1
        have hname : name.isStable = true := isStable_of_areDotted hstable.2 List.mem_cons_self
        have henters := hfaithful.resumes.enters_named hfaithful.opens hname hkind
        exact {
          opens := (hfaithful.opens.append (row_named _ _)).entry kind
          last := fun ls _ => henters ls
          inner := fun _ _ ls => henters _ }
    · obtain ⟨rest'', -, heq⟩ := Option.map_eq_some_iff.mp h
      cases heq

/-- Within one more step as well. -/
theorem Gives.succ : Gives (n + 1) where
  operand := hn.operand_succ
  primary := hn.primary_succ
  level hleast := hn.level_succ hleast
  extend := hn.extend_succ
  identity := hn.identity_succ
  tested := hn.tested_succ
  entries := hn.entries_succ
  listed := hn.listed_succ

omit hn

end Expr

end PatternSql.Sql
