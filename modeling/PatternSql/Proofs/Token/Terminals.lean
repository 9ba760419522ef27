import Mathlib.Data.Bool.AllAny
import PatternSql.Proofs.Token.Coverage

/-!
# The terminals as languages

What each terminal stands for, said apart from the rules that read it: a reserved word is spelled in
any case and is not the beginning of a longer word, a name is any word, a string has no quote of its
kind inside, and so on. Of the texts of its terminal each rule takes one, and none of those that the
text begins with is longer.

Main results:

* `spells_iff`: a word is spelled when it is the word after folding cases.
* `wordTerminal_of_isReserved`, `wordTerminal_cases`: words are told apart by the reserved ones.
* `fits_of_pos`: what a rule takes fits its terminal.
* `Fits.cases`: what fits a terminal is a word, a mark, or taken by a rule as a whole.
-/

namespace PatternSql

open Text

/-! ## Reserved words -/

/-- A letter in lower case. The long s is an s in another case. -/
def foldCase (c : Char) : Char :=
  if c = 'ſ' then 's' else c.toLower

/-- The words that are no identifiers, and the terminals that they are. -/
def reservedWords : List (String × Terminal) := [
  ("match", .matchWord), ("create", .createWord), ("where", .whereWord), ("return", .returnWord),
  ("true", .boolean), ("false", .boolean), ("null", .null)
]

/-- A text is a reserved word of some terminal, in any case. -/
def IsReserved (run : List Char) (x : Terminal) : Prop :=
  ∃ word, (word, x) ∈ reservedWords ∧ run.map foldCase = word.toList

/-- The texts of the operators. -/
def operators : List (List Char) :=
  ["<>", "!=", "<=", ">=", "=~", "=", "+", "*", "/", "%", "^"].map String.toList

/-- Some characters are a text of a terminal, or blanks, in front of a rest. Only reserved words
    look at the rest: it must not continue the word. -/
inductive Fits : LexemeClass → List Char → List Char → Prop
  /-- A reserved word that is not the beginning of a longer word. -/
  | reserved {run rest : List Char} {x : Terminal} (hrun : IsReserved run x)
      (hrest : Stops isWord rest) : Fits (some x) run rest
  /-- A word character that is no digit, and word characters behind it. -/
  | identifier {c : Char} {cs rest : List Char} (hc : isNameStart c = true)
      (hcs : All isWord cs) : Fits (some .identifier) (c :: cs) rest
  /-- Two quotes of one kind and what stands between them. -/
  | string {quote : Char} {cs rest : List Char} (hquote : quote = '\'' ∨ quote = '"')
      (hcs : quote ∉ cs) : Fits (some .string) (quote :: (cs ++ [quote])) rest
  /-- A numeral. -/
  | number {n : Numeral} {cs rest : List Char} (hn : n.WellFormed) (hcs : n.Spelled cs) :
      Fits (some .number) cs rest
  /-- A dollar sign and a name. -/
  | parameter {c : Char} {cs rest : List Char} (hc : isNameStart c = true)
      (hcs : All isWord cs) : Fits (some .parameter) ('$' :: c :: cs) rest
  /-- An operator. -/
  | operator {cs rest : List Char} (hcs : cs ∈ operators) : Fits (some .operator) cs rest
  /-- A mark of one character. -/
  | mark {c : Char} {x : Terminal} {rest : List Char} (hc : mark? c = some x) :
      Fits (some x) [c] rest
  /-- At least one blank. -/
  | blanks {cs rest : List Char} (hne : cs ≠ []) (hcs : All isGap cs) : Fits none cs rest

theorem isLetter_iff {letter c : Char} (h : 97 ≤ letter.toNat ∧ letter.toNat ≤ 122) :
    isLetter letter c = true ↔ foldCase c = letter := by
  unfold isLetter foldCase
  by_cases hc : c = 'ſ'
  · subst hc
    have hlong : Char.toLower 'ſ' ≠ letter := by
      rintro rfl
      revert h
      decide
    rw [if_pos rfl, Bool.or_eq_true, beq_iff_eq, or_iff_right hlong, Bool.and_eq_true, beq_iff_eq,
      and_iff_left (beq_self_eq_true _)]
    exact eq_comm
  · simp [hc]

/-- A word is spelled when it is the word after folding cases. -/
theorem spells_iff {word run : List Char} (h : Letters word) :
    spells word run = true ↔ run.map foldCase = word := by
  induction word generalizing run with
  | nil => cases run <;> simp [spells, beginsWith]
  | cons letter word ih =>
    have hword : Letters word := fun l hl => h l (List.mem_cons_of_mem _ hl)
    cases run with
    | nil => simp [spells, beginsWith]
    | cons c run =>
      have hspells : spells (letter :: word) (c :: run) = (isLetter letter c && spells word run) := by
        simp [spells, beginsWith, Bool.and_assoc]
      rw [hspells, Bool.and_eq_true, isLetter_iff (h letter List.mem_cons_self), ih hword,
        List.map_cons, List.cons.injEq]

theorem letters_of_mem {entry : String × Terminal} (h : entry ∈ reservedWords) :
    Letters entry.1.toList := by
  have hall : ∀ entry ∈ reservedWords, Letters entry.1.toList := by decide
  exact hall entry h

theorem isReserved_iff {run : List Char} {x : Terminal} :
    IsReserved run x ↔ ∃ word, (word, x) ∈ reservedWords ∧ spells word.toList run = true := by
  refine exists_congr fun word => and_congr_right fun hword => ?_
  exact (spells_iff (letters_of_mem hword)).symm

/-- A reserved word is of one terminal only. -/
theorem IsReserved.unique {run : List Char} {x y : Terminal} (hx : IsReserved run x)
    (hy : IsReserved run y) : x = y := by
  obtain ⟨a, ha, hrun⟩ := hx
  obtain ⟨b, hb, hrun'⟩ := hy
  obtain rfl : a = b := String.toList_inj.mp (hrun.symm.trans hrun')
  have hall : ∀ entry ∈ reservedWords, ∀ other ∈ reservedWords,
      entry.1 = other.1 → entry.2 = other.2 := by decide
  exact hall _ ha _ hb rfl

/-- A word is a reserved one of its terminal, or an identifier. -/
theorem wordTerminal_cases (run : List Char) :
    IsReserved run (wordTerminal run) ∨
      wordTerminal run = .identifier ∧ ∀ x, ¬IsReserved run x := by
  simp only [isReserved_iff]
  unfold wordTerminal
  split_ifs with h₁ h₂ h₃ h₄ h₅ h₆
  · exact .inl ⟨"create", by decide, h₁⟩
  · exact .inl ⟨"return", by decide, h₂⟩
  · rcases Bool.or_eq_true_iff.mp h₃ with h₃ | h₃
    · exact .inl ⟨"true", by decide, h₃⟩
    · exact .inl ⟨"false", by decide, h₃⟩
  · exact .inl ⟨"match", by decide, h₄⟩
  · exact .inl ⟨"where", by decide, h₅⟩
  · exact .inl ⟨"null", by decide, h₆⟩
  · refine .inr ⟨rfl, ?_⟩
    rintro x ⟨word, hword, hspells⟩
    simp only [reservedWords, List.mem_cons, Prod.mk.injEq, List.not_mem_nil, or_false] at hword
    rw [Bool.or_eq_true, not_or] at h₃
    rcases hword with ⟨rfl, -⟩ | ⟨rfl, -⟩ | ⟨rfl, -⟩ | ⟨rfl, -⟩ | ⟨rfl, -⟩ | ⟨rfl, -⟩ | ⟨rfl, -⟩
    · exact h₄ hspells
    · exact h₁ hspells
    · exact h₅ hspells
    · exact h₂ hspells
    · exact h₃.1 hspells
    · exact h₃.2 hspells
    · exact h₆ hspells

theorem wordTerminal_of_isReserved {run : List Char} {x : Terminal} (h : IsReserved run x) :
    wordTerminal run = x := by
  rcases wordTerminal_cases run with hrun | ⟨-, hrun⟩
  · exact hrun.unique h
  · exact absurd h (hrun x)

/-- A reserved word is a word. -/
theorem IsReserved.word {run : List Char} {x : Terminal} (h : IsReserved run x) :
    ∃ c cs, run = c :: cs ∧ isNameStart c = true ∧ All isWord cs := by
  obtain ⟨word, hword, hrun⟩ := h
  have hstart : ∀ c ∈ run, isNameStart c = true := by
    intro c hc
    have hletter : foldCase c ∈ word.toList := hrun ▸ List.mem_map_of_mem hc
    have hrange := letters_of_mem hword _ hletter
    exact isNameStart_of_isLetter hrange ((isLetter_iff hrange).mpr rfl)
  have hne : ∀ entry ∈ reservedWords, entry.1.toList ≠ [] := by decide
  cases run with
  | nil => exact absurd hrun.symm (hne _ hword)
  | cons c cs =>
    exact ⟨c, cs, rfl, hstart c List.mem_cons_self,
      fun d hd => isWord_of_isNameStart (hstart d (List.mem_cons_of_mem c hd))⟩

/-! ## What rules take -/

theorem fits_numberLength {cs : List Char} (h : 0 < numberLength cs) :
    ∃ taken left, cs = taken ++ left ∧ numberLength cs = taken.length ∧
      Fits (some .number) taken left := by
  cases hscan : Numeral.scan cs with
  | none => exact absurd hscan (numberLength_pos_iff.mp h)
  | some found =>
    obtain ⟨n, left⟩ := found
    obtain ⟨hn, -, taken, htaken, rfl⟩ := Numeral.scan_eq_some_iff.mp hscan
    refine ⟨taken, left, rfl, ?_, .number hn htaken⟩
    simp only [numberLength, hscan, List.length_append]
    omega

theorem fits_stringLength {cs : List Char} (h : 0 < stringLength cs) :
    ∃ taken left, cs = taken ++ left ∧ stringLength cs = taken.length ∧
      Fits (some .string) taken left := by
  cases cs with
  | nil => exact absurd h (Nat.lt_irrefl 0)
  | cons q cs =>
    simp only [stringLength] at h ⊢
    split_ifs at h ⊢ with hq
    · obtain ⟨hquote, hmem⟩ := Bool.and_eq_true_iff.mp hq
      obtain ⟨run, rest, rfl, hrun, hrest, hrun', -⟩ := exists_run (· != q) cs
      have hnot : q ∉ run := fun hq => absurd (hrun q hq) (by simp)
      cases rest with
      | nil => simp [hnot] at hmem
      | cons d left =>
        obtain rfl : d = q := by simpa using hrest
        refine ⟨d :: (run ++ [d]), left, by simp, ?_, .string (isQuote_iff.mp hquote) hnot⟩
        rw [hrun', List.length_cons, List.length_append, List.length_singleton]
    · exact absurd h (Nat.lt_irrefl 0)

theorem fits_nameLength {cs : List Char} (h : 0 < nameLength cs) :
    ∃ c run left, cs = c :: run ++ left ∧ nameLength cs = run.length + 1 ∧
      isNameStart c = true ∧ All isWord run := by
  cases cs with
  | nil => exact absurd h (Nat.lt_irrefl 0)
  | cons c cs =>
    simp only [nameLength] at h ⊢
    split_ifs at h ⊢ with hc
    · obtain ⟨run, left, rfl, hrun, -, hrun', -⟩ := exists_run isWord cs
      exact ⟨c, run, left, rfl, by rw [hrun', Nat.add_comm], hc, hrun⟩
    · exact absurd h (Nat.lt_irrefl 0)

theorem fits_parameterLength {cs : List Char} (h : 0 < parameterLength cs) :
    ∃ taken left, cs = taken ++ left ∧ parameterLength cs = taken.length ∧
      Fits (some .parameter) taken left := by
  unfold parameterLength at h ⊢
  split at h
  · rename_i cs
    split_ifs at h ⊢ with hname
    · exact absurd h (Nat.lt_irrefl 0)
    · obtain ⟨c, run, left, rfl, hlength, hc, hrun⟩ := fits_nameLength (Nat.pos_of_ne_zero hname)
      refine ⟨'$' :: c :: run, left, rfl, ?_, .parameter hc hrun⟩
      rw [hlength, List.length_cons, List.length_cons, Nat.add_comm]
  · exact absurd h (Nat.lt_irrefl 0)

theorem fits_gapLength {cs : List Char} (h : 0 < gapLength cs) :
    ∃ taken left, cs = taken ++ left ∧ gapLength cs = taken.length ∧ Fits none taken left := by
  obtain ⟨run, left, rfl, hrun, -, hrun', -⟩ := exists_run isGap cs
  rw [gapLength, hrun'] at h ⊢
  exact ⟨run, left, rfl, rfl, .blanks (List.ne_nil_of_length_pos h) hrun⟩

theorem mem_operators_of_short {c : Char} (h : "=+*/%^".toList.contains c = true) :
    [c] ∈ operators := by
  have hall : ∀ c ∈ "=+*/%^".toList, [c] ∈ operators := List.all_iff_forall_prop.mp (by decide)
  exact hall c (List.contains_iff_mem.mp h)

theorem mem_operators_of_long {c d : Char} (h : longOperators.contains (c, d) = true) :
    [c, d] ∈ operators := by
  have hall : ∀ pair ∈ longOperators, [pair.1, pair.2] ∈ operators := by decide
  exact hall (c, d) (List.contains_iff_mem.mp h)

theorem fits_operatorLength {cs : List Char} (h : 0 < operatorLength cs) :
    ∃ taken left, cs = taken ++ left ∧ operatorLength cs = taken.length ∧
      Fits (some .operator) taken left := by
  match cs with
  | [] => exact absurd h (Nat.lt_irrefl 0)
  | [c] =>
    simp only [operatorLength] at h ⊢
    split_ifs at h ⊢ with hc
    · exact ⟨[c], [], rfl, rfl, .operator (mem_operators_of_short hc)⟩
    · exact absurd h (Nat.lt_irrefl 0)
  | c :: d :: cs =>
    simp only [operatorLength] at h ⊢
    split_ifs at h ⊢ with hlong hc
    · exact ⟨[c, d], cs, rfl, rfl, .operator (mem_operators_of_long hlong)⟩
    · exact ⟨[c], d :: cs, rfl, rfl, .operator (mem_operators_of_short hc)⟩
    · exact absurd h (Nat.lt_irrefl 0)

/-- What a rule takes fits its terminal. -/
theorem fits_of_pos {rule : LexemeClass × (List Char → Nat)} (hrule : rule ∈ plainRules)
    {cs : List Char} (h : 0 < rule.2 cs) :
    ∃ taken left, cs = taken ++ left ∧ rule.2 cs = taken.length ∧ Fits rule.1 taken left := by
  simp only [plainRules, List.mem_cons, List.not_mem_nil, or_false] at hrule
  rcases hrule with rfl | rfl | rfl | rfl | rfl
  · exact fits_numberLength h
  · exact fits_stringLength h
  · exact fits_parameterLength h
  · exact fits_gapLength h
  · exact fits_operatorLength h

/-! ## What is taken as a whole -/

theorem numberLength_spelled {n : Numeral} {cs : List Char} (hn : n.WellFormed)
    (hcs : n.Spelled cs) : 0 < cs.length ∧ numberLength cs = cs.length := by
  have hscan := Numeral.scan_spelled hn hcs n.endsBefore_nil
  rw [List.append_nil] at hscan
  exact ⟨Numeral.scan_length_lt hscan, numberLength_of_scan hscan⟩

theorem nameLength_whole {c : Char} {cs : List Char} (hc : isNameStart c = true)
    (hcs : All isWord cs) : nameLength (c :: cs) = cs.length + 1 := by
  have htake := takeWhile_run hcs stops_nil
  rw [List.append_nil] at htake
  rw [nameLength, if_pos hc, htake, Nat.add_comm]

/-- What fits a terminal is a word, a mark, or taken by a rule as a whole. -/
theorem Fits.cases {cls : LexemeClass} {cs rest : List Char} (h : Fits cls cs rest) :
    (∃ x, cls = some x ∧ IsReserved cs x ∧ Stops isWord rest) ∨
      (cls = some .identifier ∧ ∃ c ds, cs = c :: ds ∧ isNameStart c = true ∧ All isWord ds) ∨
      (∃ x c, cls = some x ∧ cs = [c] ∧ mark? c = some x) ∨
      ∃ rule ∈ plainRules, rule.1 = cls ∧ cs ≠ [] ∧ rule.2 cs = cs.length := by
  cases h with
  | reserved hrun hrest => exact .inl ⟨_, rfl, hrun, hrest⟩
  | identifier hc hcs => exact .inr (.inl ⟨rfl, _, _, rfl, hc, hcs⟩)
  | mark hc => exact .inr (.inr (.inl ⟨_, _, rfl, rfl, hc⟩))
  | string hquote hcs =>
    exact .inr (.inr (.inr ⟨(some .string, stringLength), by simp [plainRules], rfl, by simp,
      stringLength_quoted (isQuote_iff.mpr hquote) hcs⟩))
  | number hn hcs =>
    obtain ⟨hpos, hlength⟩ := numberLength_spelled hn hcs
    exact .inr (.inr (.inr ⟨(some .number, numberLength), by simp [plainRules], rfl,
      List.ne_nil_of_length_pos hpos, hlength⟩))
  | parameter hc hcs =>
    refine .inr (.inr (.inr
      ⟨(some .parameter, parameterLength), by simp [plainRules], rfl, by simp, ?_⟩))
    simp only [parameterLength, nameLength_whole hc hcs, List.length_cons]
    rw [if_neg (Nat.succ_ne_zero _), Nat.add_comm]
  | operator hcs =>
    have hall : ∀ cs ∈ operators, cs ≠ [] ∧ operatorLength cs = cs.length := by decide
    obtain ⟨hne, hlength⟩ := hall _ hcs
    exact .inr (.inr (.inr
      ⟨(some .operator, operatorLength), by simp [plainRules], rfl, hne, hlength⟩))
  | blanks hne hcs =>
    have htake := takeWhile_run hcs stops_nil
    rw [List.append_nil] at htake
    refine .inr (.inr (.inr ⟨(none, gapLength), by simp [plainRules], rfl, hne, ?_⟩))
    show (List.takeWhile isGap cs).length = cs.length
    rw [htake]

end PatternSql
