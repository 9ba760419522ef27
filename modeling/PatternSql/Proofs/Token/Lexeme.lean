import PatternSql.Proofs.Number.Numeral
import PatternSql.Token.Scan

/-!
# The lexeme that a text begins with

A word is one lexeme, and it is a keyword only as a whole. What else a text may begin with is told
from its first characters. Hence a lexeme does not change when the text is cut anywhere behind it,
nor when the text is continued by a character that stands in no word, numeral or operator.

Main results:

* `lexeme?_word`: a word is one lexeme, up to its last character.
* `lexeme?_of_append`: cutting a text behind a lexeme keeps the lexeme.
* `lexeme?_append`: continuing a text keeps its first lexeme, unless both could be one.
-/

namespace PatternSql

open Text

/-! ## The rules in their order -/

/-- The first of some rules that takes a character, with what it takes. -/
def firstOf (rules : List (LexemeClass × (List Char → Nat))) (cs : List Char) :
    Option (LexemeClass × Nat) :=
  (rules.find? fun rule => 0 < rule.2 cs).map fun rule => (rule.1, rule.2 cs)

/-- The mark that a text begins with. -/
def markOf (cs : List Char) : Option (LexemeClass × Nat) :=
  cs.head?.bind fun c => (mark? c).map fun terminal => (some terminal, 1)

theorem lexeme?_eq_or (cs : List Char) : lexeme? cs = (firstOf rules cs).or (markOf cs) := by
  unfold lexeme? firstOf
  cases rules.find? fun rule => 0 < rule.2 cs <;> rfl

theorem firstOf_cons (rule : LexemeClass × (List Char → Nat))
    (rules : List (LexemeClass × (List Char → Nat))) (cs : List Char) :
    firstOf (rule :: rules) cs =
      if 0 < rule.2 cs then some (rule.1, rule.2 cs) else firstOf rules cs := by
  unfold firstOf
  rw [List.find?_cons]
  by_cases h : 0 < rule.2 cs <;> simp [h]

/-! ## Letters of keywords -/

theorem toNat_of_toLower {c : Char} (h : 97 ≤ c.toLower.toNat ∧ c.toLower.toNat ≤ 122) :
    65 ≤ c.toNat ∧ c.toNat ≤ 90 ∨ 97 ≤ c.toNat ∧ c.toNat ≤ 122 := by
  unfold Char.toLower at h
  split at h
  · rename_i hc
    simp only [ge_iff_le, UInt32.le_iff_toNat_le] at hc
    exact .inl hc
  · exact .inr h

theorem isNameStart_of_letter {c : Char}
    (h : 65 ≤ c.toNat ∧ c.toNat ≤ 90 ∨ 97 ≤ c.toNat ∧ c.toNat ≤ 122) : isNameStart c = true := by
  have halpha : c.isAlpha = true := by
    change (decide ('A'.val ≤ c.val ∧ c.val ≤ 'Z'.val) ||
      decide ('a'.val ≤ c.val) && decide (c.val ≤ 'z'.val)) = true
    simp only [UInt32.le_iff_toNat_le, Bool.or_eq_true, Bool.and_eq_true, decide_eq_true_eq]
    exact h
  have hdigit : ('0' ≤ c && c ≤ '9') = false := by
    simp only [Char.le_def, UInt32.le_iff_toNat_le, Bool.and_eq_false_iff, decide_eq_false_iff_not]
    change ¬48 ≤ c.toNat ∨ ¬c.toNat ≤ 57
    omega
  have hsmall : c.toNat < 128 := by omega
  simp [isNameStart, isWord, isDigit, hsmall, Char.isAlphanum, halpha, hdigit]

/-- The letters of a word that is matched in any case. -/
def Letters (word : List Char) : Prop :=
  ∀ letter ∈ word, 97 ≤ letter.toNat ∧ letter.toNat ≤ 122

instance (word : List Char) : Decidable (Letters word) :=
  List.decidableBAll _ word

theorem isNameStart_of_isLetter {letter c : Char} (h : 97 ≤ letter.toNat ∧ letter.toNat ≤ 122)
    (hc : isLetter letter c = true) : isNameStart c = true := by
  simp only [isLetter, Bool.or_eq_true, beq_iff_eq, Bool.and_eq_true] at hc
  rcases hc with rfl | ⟨-, rfl⟩
  · exact isNameStart_of_letter (toNat_of_toLower h)
  · decide

theorem isWord_of_isNameStart {c : Char} (h : isNameStart c = true) : isWord c = true :=
  (Bool.and_eq_true_iff.mp h).1

theorem isNameStart_ne {c d : Char} (hc : isNameStart c = true) (hd : isNameStart d = false) :
    c ≠ d := by
  rintro rfl
  rw [hc] at hd
  exact absurd hd (by decide)

/-! ## Keywords -/

/-- A word is spelled by all letters of another, in any case. -/
def spells (word run : List Char) : Bool :=
  beginsWith word run && run.length == word.length

theorem beginsWith_of_run {word run rest : List Char} (hword : Letters word)
    (hrest : Stops isWord rest) (h : beginsWith word (run ++ rest) = true) :
    beginsWith word run = true ∧ word.length ≤ run.length := by
  induction word generalizing run with
  | nil => exact ⟨rfl, Nat.zero_le _⟩
  | cons letter word ih =>
    have hletter := hword letter (by simp)
    have hword' : Letters word := fun l hl => hword l (by simp [hl])
    cases run with
    | nil =>
      cases rest with
      | nil => simp [beginsWith] at h
      | cons c rest =>
        simp only [List.nil_append, beginsWith, Bool.and_eq_true] at h
        have := isWord_of_isNameStart (isNameStart_of_isLetter hletter h.1)
        rw [stops_cons.mp hrest] at this
        exact absurd this (by decide)
    | cons c run =>
      simp only [List.cons_append, beginsWith, Bool.and_eq_true] at h
      obtain ⟨hrun, hlen⟩ := ih hword' h.2
      simp only [beginsWith, Bool.and_eq_true, List.length_cons]
      exact ⟨⟨h.1, hrun⟩, by omega⟩

theorem beginsWith_append {word run : List Char} (h : beginsWith word run = true)
    (rest : List Char) : beginsWith word (run ++ rest) = true := by
  induction word generalizing run with
  | nil => rfl
  | cons letter word ih =>
    cases run with
    | nil => simp [beginsWith] at h
    | cons c run =>
      simp only [beginsWith, Bool.and_eq_true] at h
      simp only [List.cons_append, beginsWith, Bool.and_eq_true]
      exact ⟨h.1, ih h.2⟩

theorem continuesWord_drop {run rest : List Char} {k : Nat} (hrun : All isWord run)
    (hrest : Stops isWord rest) (hk : k ≤ run.length) :
    continuesWord ((run ++ rest).drop k) = false ↔ run.length = k := by
  rw [List.drop_append_of_le_length hk]
  cases hd : run.drop k with
  | nil =>
    have hlen := List.drop_eq_nil_iff.mp hd
    have hstop : continuesWord rest = false := by
      cases rest with
      | nil => rfl
      | cons c rest => exact stops_cons.mp hrest
    simp only [List.nil_append, hstop, true_iff]
    omega
  | cons c cs =>
    have hc : isWord c = true := hrun c (List.mem_of_mem_drop (by rw [hd]; simp))
    have hlen := congrArg List.length hd
    simp only [List.length_drop, List.length_cons] at hlen
    simp only [List.cons_append, continuesWord, hc, Bool.true_eq_false, false_iff]
    omega

/-- A keyword takes a whole word or nothing. -/
theorem keywordLength_run {word : String} {run rest : List Char} (hword : Letters word.toList)
    (hrun : All isWord run) (hrest : Stops isWord rest) :
    keywordLength word (run ++ rest) = if spells word.toList run then run.length else 0 := by
  unfold keywordLength
  dsimp only
  by_cases hspells : spells word.toList run = true
  · obtain ⟨hbegin, hlen⟩ := Bool.and_eq_true_iff.mp hspells
    simp only [beq_iff_eq] at hlen
    have hstop := (continuesWord_drop hrun hrest (by omega : word.toList.length ≤ _)).mpr hlen
    rw [beginsWith_append hbegin, hstop, hspells]
    simp [hlen]
  · rw [if_neg hspells, if_neg]
    intro h
    simp only [Bool.and_eq_true, Bool.not_eq_true'] at h
    obtain ⟨hbegin, hlen⟩ := beginsWith_of_run hword hrest h.1
    have := (continuesWord_drop hrun hrest hlen).mp h.2
    exact hspells (by simp [spells, hbegin, this])

theorem keywordLength_of_not_isNameStart {word : String} {c : Char} (cs : List Char)
    (hword : Letters word.toList) (hc : isNameStart c = false) :
    keywordLength word (c :: cs) = 0 := by
  unfold keywordLength
  dsimp only
  cases hl : word.toList with
  | nil => simp
  | cons letter letters =>
    have hletter : isLetter letter c = false := by
      rw [Bool.eq_false_iff]
      intro h
      have := isNameStart_of_isLetter (hword letter (by simp [hl])) h
      rw [hc] at this
      exact absurd this (by decide)
    simp [beginsWith, hletter]

/-! ## Words -/

/-- The terminal of a whole word. -/
def wordTerminal (run : List Char) : Terminal :=
  if spells "create".toList run then .createWord
  else if spells "return".toList run then .returnWord
  else if spells "true".toList run || spells "false".toList run then .boolean
  else if spells "match".toList run then .matchWord
  else if spells "where".toList run then .whereWord
  else if spells "null".toList run then .null
  else .identifier

/-- The rules other than those of keywords do not fit a text that begins with a name. -/
theorem plain_rules_of_isNameStart {c : Char} (cs : List Char) (hc : isNameStart c = true) :
    numberLength (c :: cs) = 0 ∧ stringLength (c :: cs) = 0 ∧ parameterLength (c :: cs) = 0 ∧
      gapLength (c :: cs) = 0 := by
  have hdigit : isDigit c = false := by
    have := (Bool.and_eq_true_iff.mp hc).2
    simpa using this
  have hquote : isQuote c = false := by
    simp only [isQuote, Bool.or_eq_false_iff, beq_eq_false_iff_ne]
    exact ⟨isNameStart_ne hc (by decide), isNameStart_ne hc (by decide)⟩
  have hgap : isGap c = false := by
    simp only [isGap, Bool.or_eq_false_iff, beq_eq_false_iff_ne]
    refine ⟨⟨⟨⟨?_, ?_⟩, ?_⟩, ?_⟩, ?_⟩ <;> exact isNameStart_ne hc (by decide)
  refine ⟨?_, by simp [stringLength, hquote], ?_, by simp [gapLength, hgap]⟩
  · have hscan : Numeral.scan (c :: cs) = none := by
      rw [Numeral.scan_eq_none_iff, Numeral.scanMinus_of_ne (isNameStart_ne hc (by decide))]
      have hpoint : c ≠ '.' := isNameStart_ne hc (by decide)
      simp [Numeral.beginsUnsigned, hdigit, hpoint]
    simp [numberLength, hscan]
  · have hdollar : c ≠ '$' := isNameStart_ne hc (by decide)
    unfold parameterLength
    split
    · rename_i heq
      exact absurd (List.cons.inj heq).1 hdollar
    · rfl

/-- A rule of a keyword, in its place among the rules. -/
theorem ite_keyword {b : Bool} {n : Nat} (hn : 0 < n) (cls : LexemeClass)
    (y : Option (LexemeClass × Nat)) :
    (if 0 < (if b then n else 0) then some (cls, if b then n else 0) else y) =
      if b then some (cls, n) else y := by
  cases b <;> simp [hn]

theorem max_keyword (b c : Bool) (n : Nat) :
    max (if b then n else 0) (if c then n else 0) = if b || c then n else 0 := by
  cases b <;> cases c <;> simp

/-- A word is one lexeme, up to its last character. -/
theorem lexeme?_word {c : Char} {cs rest : List Char} (hc : isNameStart c = true)
    (hcs : All isWord cs) (hrest : Stops isWord rest) :
    lexeme? (c :: cs ++ rest) = some (some (wordTerminal (c :: cs)), (c :: cs).length) := by
  have hrun : All isWord (c :: cs) := all_cons.mpr ⟨isWord_of_isNameStart hc, hcs⟩
  have hkey : ∀ word : String, Letters word.toList →
      keywordLength word (c :: cs ++ rest) =
        if spells word.toList (c :: cs) then (c :: cs).length else 0 :=
    fun word hword => keywordLength_run hword hrun hrest
  obtain ⟨hnumber, hstring, hparameter, hgap⟩ := plain_rules_of_isNameStart (cs ++ rest) hc
  have hname : nameLength (c :: cs ++ rest) = (c :: cs).length := by
    have := takeWhile_run hcs hrest
    simp only [List.cons_append, nameLength, hc, if_true, this, List.length_cons]
    omega
  rw [← List.cons_append] at hnumber hstring hparameter hgap
  have hpos : 0 < (c :: cs).length := by simp
  generalize (c :: cs).length = n at *
  generalize c :: cs ++ rest = ds at *
  simp only [lexeme?_eq_or, rules, firstOf_cons, hkey "create" (by decide),
    hkey "return" (by decide), hkey "true" (by decide), hkey "false" (by decide),
    hkey "match" (by decide), hkey "where" (by decide), hkey "null" (by decide), hname,
    hnumber, hstring, hparameter, hgap, max_keyword, ite_keyword hpos, Nat.lt_irrefl, hpos,
    if_true, if_false, wordTerminal]
  split_ifs <;> rfl

/-! ## Other lexemes -/

/-- The rules that fit a text that does not begin with a name. -/
def plainRules : List (LexemeClass × (List Char → Nat)) := [
  (some .number, numberLength),
  (some .string, stringLength),
  (some .parameter, parameterLength),
  (none, gapLength),
  (some .operator, operatorLength)
]

theorem lexeme?_of_not_isNameStart {c : Char} (cs : List Char) (hc : isNameStart c = false) :
    lexeme? (c :: cs) = (firstOf plainRules (c :: cs)).or (markOf (c :: cs)) := by
  have hkey : ∀ word : String, Letters word.toList → keywordLength word (c :: cs) = 0 :=
    fun word hword => keywordLength_of_not_isNameStart cs hword hc
  have hname : nameLength (c :: cs) = 0 := by simp [nameLength, hc]
  simp only [lexeme?_eq_or, rules, plainRules, firstOf_cons, hkey "create" (by decide),
    hkey "return" (by decide), hkey "true" (by decide), hkey "false" (by decide),
    hkey "match" (by decide), hkey "where" (by decide), hkey "null" (by decide), hname,
    Nat.max_self, Nat.lt_irrefl, if_false]

theorem lexeme?_nil : lexeme? [] = none := by decide

/-! ## Lengths -/

theorem stringLength_le (cs : List Char) : stringLength cs ≤ cs.length := by
  cases cs with
  | nil => exact Nat.le_refl 0
  | cons q cs =>
    by_cases hq : (isQuote q && cs.contains q) = true
    · have hmem : q ∈ cs := List.contains_iff_mem.mp (Bool.and_eq_true_iff.mp hq).2
      obtain ⟨run, rest, rfl, hrun, hrest, -, -⟩ := exists_run (· != q) cs
      cases rest with
      | nil =>
        rw [List.append_nil] at hmem
        exact absurd (hrun q hmem) (by simp)
      | cons d rest =>
        rw [stringLength, if_pos hq, takeWhile_run hrun hrest]
        simp only [List.length_cons, List.length_append]
        omega
    · simp only [stringLength, hq, Bool.false_eq_true, if_false]
      exact Nat.zero_le _

theorem nameLength_le (cs : List Char) : nameLength cs ≤ cs.length := by
  cases cs with
  | nil => exact Nat.le_refl 0
  | cons c cs =>
    have := (List.takeWhile_sublist (l := cs) isWord).length_le
    by_cases hc : isNameStart c = true
    · rw [nameLength, if_pos hc, List.length_cons]
      omega
    · simp [nameLength, hc]

theorem length_le_of_mem {rule : LexemeClass × (List Char → Nat)} (h : rule ∈ plainRules)
    (cs : List Char) : rule.2 cs ≤ cs.length := by
  simp only [plainRules, List.mem_cons, List.not_mem_nil, or_false] at h
  rcases h with rfl | rfl | rfl | rfl | rfl
  · simp only [numberLength]
    split <;> omega
  · exact stringLength_le cs
  · simp only [parameterLength]
    split
    · rename_i cs
      have := nameLength_le cs
      split <;> simp only [List.length_cons] <;> omega
    · exact Nat.zero_le _
  · exact (List.takeWhile_sublist isGap).length_le
  · match cs with
    | [] => exact Nat.le_refl 0
    | [c] => simp only [operatorLength]; split <;> simp
    | c :: d :: cs =>
      simp only [operatorLength, List.length_cons]
      repeat' split
      all_goals omega

/-- A lexeme is no longer than the text. -/
theorem lexeme?_length_le {cs : List Char} {cls : LexemeClass} {n : Nat}
    (h : lexeme? cs = some (cls, n)) : n ≤ cs.length := by
  cases cs with
  | nil => simp [lexeme?_nil] at h
  | cons c cs =>
    cases hc : isNameStart c with
    | true =>
      obtain ⟨run, rest, rfl, hrun, hrest, -, -⟩ := exists_run isWord cs
      rw [← List.cons_append, lexeme?_word hc hrun hrest, Option.some.injEq, Prod.mk.injEq] at h
      rw [← h.2]
      simp
    | false =>
      rw [lexeme?_of_not_isNameStart cs hc, Option.or_eq_some_iff] at h
      rcases h with h | ⟨-, h⟩
      · simp only [firstOf, Option.map_eq_some_iff, Prod.mk.injEq] at h
        obtain ⟨rule, hrule, -, rfl⟩ := h
        exact length_le_of_mem (List.mem_of_find?_eq_some hrule) _
      · simp only [markOf, List.head?_cons, Option.bind_some, Option.map_eq_some_iff,
          Prod.mk.injEq] at h
        obtain ⟨_, -, -, rfl⟩ := h
        simp

/-! ## Cutting a text -/

/-- A rule sees the same in a text as in what the text begins with, as long as it takes no more. -/
def CutsWell (f : List Char → Nat) : Prop :=
  ∀ cs ds, cs ≠ [] → (0 < f cs → 0 < f (cs ++ ds)) ∧
    (0 < f (cs ++ ds) → f (cs ++ ds) ≤ cs.length → f cs = f (cs ++ ds))

theorem numberLength_pos_iff {cs : List Char} :
    0 < numberLength cs ↔ Numeral.scan cs ≠ none := by
  unfold numberLength
  cases h : Numeral.scan cs with
  | none => simp
  | some found =>
    obtain ⟨n, rest⟩ := found
    have := Numeral.scan_length_lt h
    simp only [ne_eq, reduceCtorEq, not_false_eq_true, iff_true]
    omega

/-- A numeral from end to end is taken as a whole. -/
theorem numberLength_of_scan {cs : List Char} {n : Numeral} (h : Numeral.scan cs = some (n, [])) :
    numberLength cs = cs.length := by
  rw [numberLength, h]
  exact Nat.sub_zero _

theorem cutsWell_numberLength : CutsWell numberLength := by
  intro cs ds _
  rw [numberLength_pos_iff, numberLength_pos_iff]
  refine ⟨fun h => Numeral.scan_append_ne_none h ds, fun h hle => ?_⟩
  unfold numberLength at hle ⊢
  cases hscan : Numeral.scan (cs ++ ds) with
  | none => exact absurd hscan h
  | some found =>
    obtain ⟨n, rest⟩ := found
    have hlt := Numeral.scan_length_lt hscan
    simp only [hscan, List.length_append] at hle hlt
    obtain ⟨r, rfl, hr⟩ := Numeral.scan_append_of_le hscan (by omega)
    simp only [hr, List.length_append]
    omega

theorem takeWhile_ne_of_mem {q : Char} {cs : List Char} (h : q ∈ cs) (ds : List Char) :
    (cs ++ ds).takeWhile (· != q) = cs.takeWhile (· != q) := by
  rw [List.takeWhile_append, if_neg]
  intro hlen
  have hall := (List.takeWhile_prefix (· != q)).eq_of_length hlen
  have := all_takeWhile (· != q) cs q (by rwa [hall])
  simp at this

theorem stringLength_append {q : Char} {cs : List Char} (h : q ∈ cs) (ds : List Char) :
    stringLength (q :: cs ++ ds) = stringLength (q :: cs) := by
  simp [stringLength, h, takeWhile_ne_of_mem h]

/-- What stands between two quotes of one kind is taken as a whole, unless it holds the quote. -/
theorem stringLength_quoted {q : Char} {cs : List Char} (hq : isQuote q = true) (hcs : q ∉ cs) :
    stringLength (q :: (cs ++ [q])) = (q :: (cs ++ [q])).length := by
  have hrun : All (· != q) cs := by
    intro c hc
    exact bne_iff_ne.mpr (ne_of_mem_of_not_mem hc hcs)
  have hstops : Stops (· != q) [q] := stops_cons.mpr (by simp)
  have hmem : (cs ++ [q]).contains q = true := by simp
  rw [stringLength, hq, hmem, takeWhile_run hrun hstops]
  simp

theorem cutsWell_stringLength : CutsWell stringLength := by
  intro cs ds hcs
  obtain ⟨q, cs, rfl⟩ := List.exists_cons_of_ne_nil hcs
  by_cases hq : q ∈ cs
  · rw [stringLength_append hq]
    exact ⟨id, fun _ _ => rfl⟩
  · have hzero : stringLength (q :: cs) = 0 := by simp [stringLength, hq]
    refine ⟨by omega, fun hpos hle => ?_⟩
    have hlen : cs.length ≤ ((cs ++ ds).takeWhile (· != q)).length := by
      rw [List.takeWhile_append_of_pos (by simpa using fun a ha => ne_of_mem_of_not_mem ha hq)]
      simp
    simp only [List.cons_append, stringLength, List.length_cons] at hle hpos
    split_ifs at hle hpos <;> omega

theorem nameLength_of_append {cs ds : List Char} (hcs : cs ≠ [])
    (h : nameLength (cs ++ ds) ≤ cs.length) : nameLength (cs ++ ds) = nameLength cs := by
  obtain ⟨c, cs, rfl⟩ := List.exists_cons_of_ne_nil hcs
  simp only [List.cons_append, nameLength, List.length_cons] at h ⊢
  split_ifs at h ⊢
  · rw [takeWhile_of_append (by omega)]
  · rfl

theorem nameLength_pos_append {cs : List Char} (h : 0 < nameLength cs) (ds : List Char) :
    0 < nameLength (cs ++ ds) := by
  cases cs with
  | nil => simp [nameLength] at h
  | cons c cs =>
    simp only [List.cons_append, nameLength] at h ⊢
    split_ifs at h ⊢ <;> omega

theorem parameterLength_of_ne {c : Char} {cs : List Char} (h : c ≠ '$') :
    parameterLength (c :: cs) = 0 := by
  unfold parameterLength
  split
  · rename_i heq
    exact absurd (List.cons.inj heq).1 h
  · rfl

theorem cutsWell_parameterLength : CutsWell parameterLength := by
  intro cs ds hcs
  obtain ⟨c, cs, rfl⟩ := List.exists_cons_of_ne_nil hcs
  by_cases hc : c = '$'
  · subst hc
    simp only [List.cons_append, parameterLength, List.length_cons]
    constructor
    · intro h
      have : 0 < nameLength cs := by
        split_ifs at h <;> omega
      have := nameLength_pos_append this ds
      split_ifs <;> omega
    · intro hpos hle
      cases cs with
      | nil =>
        simp only [List.nil_append, List.length_nil] at hpos hle
        split_ifs at hpos hle
        · omega
        · exact absurd hle (by omega)
      | cons c cs =>
        split_ifs at hpos hle with h
        · omega
        · rw [nameLength_of_append (by simp) (by omega)] at h ⊢
  · simp [parameterLength_of_ne hc]

theorem cutsWell_gapLength : CutsWell gapLength := by
  intro cs ds hcs
  unfold gapLength
  refine ⟨fun h => ?_, fun _ hle => by rw [takeWhile_of_append hle]⟩
  rw [List.takeWhile_append]
  split_ifs
  · rw [List.length_append]
    have := List.length_pos_iff.mpr hcs
    omega
  · exact h

theorem cutsWell_operatorLength : CutsWell operatorLength := by
  intro cs ds hcs
  match cs, ds with
  | [c], [] => simp
  | [c], d :: ds =>
    simp only [List.singleton_append, operatorLength, List.length_singleton]
    constructor
    · intro h
      split_ifs at h ⊢ <;> simp_all
    · intro hpos hle
      split_ifs at hpos hle ⊢ <;> simp_all
  | c :: d :: cs, ds => exact ⟨id, fun _ _ => rfl⟩

theorem cutsWell_of_mem {rule : LexemeClass × (List Char → Nat)} (h : rule ∈ plainRules) :
    CutsWell rule.2 := by
  simp only [plainRules, List.mem_cons, List.not_mem_nil, or_false] at h
  rcases h with rfl | rfl | rfl | rfl | rfl
  · exact cutsWell_numberLength
  · exact cutsWell_stringLength
  · exact cutsWell_parameterLength
  · exact cutsWell_gapLength
  · exact cutsWell_operatorLength

theorem firstOf_of_append {rules : List (LexemeClass × (List Char → Nat))}
    (h : ∀ rule ∈ rules, CutsWell rule.2) {cs : List Char} (ds : List Char) (hcs : cs ≠ []) :
    (firstOf rules (cs ++ ds) = none → firstOf rules cs = none) ∧
      ∀ cls n, firstOf rules (cs ++ ds) = some (cls, n) → n ≤ cs.length →
        firstOf rules cs = some (cls, n) := by
  induction rules with
  | nil => simp [firstOf]
  | cons rule rules ih =>
    obtain ⟨hnone, hsome⟩ := ih fun r hr => h r (by simp [hr])
    obtain ⟨hpos, heq⟩ := h rule (by simp) cs ds hcs
    rw [firstOf_cons, firstOf_cons]
    by_cases hlong : 0 < rule.2 (cs ++ ds)
    · rw [if_pos hlong]
      refine ⟨by simp, fun cls n hn hle => ?_⟩
      simp only [Option.some.injEq, Prod.mk.injEq] at hn
      obtain ⟨rfl, rfl⟩ := hn
      rw [heq hlong hle, if_pos hlong]
    · have hshort : ¬0 < rule.2 cs := fun hc => hlong (hpos hc)
      rw [if_neg hlong, if_neg hshort]
      exact ⟨hnone, hsome⟩

/-- Cutting a text behind its first lexeme keeps the lexeme. -/
theorem lexeme?_of_append {cs ds : List Char} {cls : LexemeClass} {n : Nat}
    (h : lexeme? (cs ++ ds) = some (cls, n)) (hn : n ≤ cs.length) :
    lexeme? cs = some (cls, n) := by
  have hpos := lexeme?_length_pos h
  obtain ⟨c, cs, rfl⟩ := List.exists_cons_of_ne_nil (List.ne_nil_of_length_pos (by omega) : cs ≠ [])
  cases hc : isNameStart c with
  | true =>
    have hword : ∀ es : List Char, lexeme? (c :: es) =
        some (some (wordTerminal (c :: es.takeWhile isWord)), (es.takeWhile isWord).length + 1) := by
      intro es
      have := lexeme?_word hc (all_takeWhile isWord es) (stops_dropWhile isWord es)
      rwa [List.cons_append, List.takeWhile_append_dropWhile] at this
    rw [List.cons_append, hword] at h
    have hlen := (Prod.mk.inj (Option.some.inj h)).2
    rw [takeWhile_of_append (by simp only [List.length_cons] at hn; omega)] at h
    rw [hword, h]
  | false =>
    obtain ⟨hnone, hsome⟩ := firstOf_of_append (fun _ => cutsWell_of_mem) ds
      (List.cons_ne_nil c cs)
    rw [List.cons_append, lexeme?_of_not_isNameStart _ hc, ← List.cons_append] at h
    rw [lexeme?_of_not_isNameStart _ hc]
    cases hfirst : firstOf plainRules (c :: cs ++ ds) with
    | none =>
      rw [hfirst] at h
      rw [hnone hfirst]
      exact h
    | some found =>
      obtain ⟨cls', n'⟩ := found
      rw [hfirst, Option.some_or, Option.some.injEq, Prod.mk.injEq] at h
      obtain ⟨rfl, rfl⟩ := h
      rw [hsome _ _ hfirst hn]
      rfl

/-! ## Continuing a text -/

/-- A text does not go on with a character that stands in a word, a numeral or an operator of two
    characters. -/
def Separates (cs : List Char) : Prop :=
  ∀ c ∈ cs.head?, isWord c = false ∧ isDigit c = false ∧ c ∉ ['.', '+', '-', '=', '>', '~']

theorem separates_cons {c : Char} {cs : List Char} :
    Separates (c :: cs) ↔
      isWord c = false ∧ isDigit c = false ∧ c ∉ ['.', '+', '-', '=', '>', '~'] := by
  simp [Separates]

theorem Separates.stops_isWord {cs : List Char} (h : Separates cs) : Stops isWord cs :=
  fun c hc => (h c hc).1

theorem Separates.breaks {cs : List Char} (h : Separates cs) : Numeral.Breaks cs := by
  intro c hc
  obtain ⟨hword, hdigit, hmark⟩ := h c hc
  simp only [List.mem_cons, List.not_mem_nil, or_false, not_or] at hmark
  refine ⟨hdigit, hmark.1, hmark.2.1, hmark.2.2.1, ?_, ?_⟩ <;> rintro rfl <;>
    exact absurd hword (by decide)

theorem numberLength_append {cs ds : List Char} (hcs : cs ≠ []) (h : Numeral.Breaks ds) :
    numberLength (cs ++ ds) = numberLength cs := by
  unfold numberLength
  cases hscan : Numeral.scan cs with
  | none => rw [Numeral.scan_append_eq_none hcs hscan h]
  | some found =>
    obtain ⟨n, rest⟩ := found
    rw [Numeral.scan_append_of_breaks hscan h]
    simp only [List.length_append]
    omega

theorem nameLength_append {cs ds : List Char} (h : Separates ds) :
    nameLength (cs ++ ds) = nameLength cs := by
  cases cs with
  | nil =>
    cases ds with
    | nil => rfl
    | cons d ds => simp [nameLength, isNameStart, (h d rfl).1]
  | cons c cs => simp [nameLength, takeWhile_append_of_stops h.stops_isWord]

theorem parameterLength_append {cs ds : List Char} (hcs : cs ≠ []) (h : Separates ds) :
    parameterLength (cs ++ ds) = parameterLength cs := by
  obtain ⟨c, cs, rfl⟩ := List.exists_cons_of_ne_nil hcs
  by_cases hc : c = '$'
  · subst hc
    simp only [List.cons_append, parameterLength, nameLength_append h]
  · rw [List.cons_append, parameterLength_of_ne hc, parameterLength_of_ne hc]

theorem gapLength_append {cs ds : List Char} (hcs : cs ≠ [])
    (h : Stops isGap cs ∨ Stops isGap ds) : gapLength (cs ++ ds) = gapLength cs := by
  unfold gapLength
  rcases h with h | h
  · obtain ⟨c, cs, rfl⟩ := List.exists_cons_of_ne_nil hcs
    have hc := stops_cons.mp h
    simp [hc]
  · rw [takeWhile_append_of_stops h]

theorem operatorLength_append {cs ds : List Char} (hcs : cs ≠ []) (h : Separates ds) :
    operatorLength (cs ++ ds) = operatorLength cs := by
  match cs, ds with
  | [c], [] => rfl
  | [c], d :: ds =>
    obtain ⟨-, -, hmark⟩ := h d rfl
    have hlong : longOperators.contains (c, d) = false := by
      simp only [List.mem_cons, List.not_mem_nil, or_false, not_or] at hmark
      simp [longOperators, hmark]
    simp only [List.singleton_append, operatorLength, hlong, Bool.false_eq_true, if_false]
  | c :: d :: cs, ds => rfl

/-- An opening quote that is not closed begins no lexeme. -/
theorem lexeme?_of_unclosed {q : Char} {cs : List Char} (hq : isQuote q = true) (h : q ∉ cs) :
    lexeme? (q :: cs) = none := by
  simp only [isQuote, Bool.or_eq_true, beq_iff_eq] at hq
  have hstring : stringLength (q :: cs) = 0 := by simp [stringLength, h]
  have hnumber : Numeral.scan (q :: cs) = none := by
    rw [Numeral.scan_eq_none_iff, Numeral.scanMinus_of_ne (by rcases hq with rfl | rfl <;> decide)]
    rcases hq with rfl | rfl <;> rfl
  have hoperator : operatorLength (q :: cs) = 0 := by
    rcases hq with rfl | rfl <;> cases cs <;> simp [operatorLength, longOperators]
  rw [lexeme?_of_not_isNameStart _ (by rcases hq with rfl | rfl <;> decide)]
  simp only [plainRules, firstOf_cons, hstring, numberLength, hnumber, hoperator,
    parameterLength_of_ne (by rcases hq with rfl | rfl <;> decide : q ≠ '$')]
  rcases hq with rfl | rfl <;> rfl

/-- Continuing a text by a character that stands in no word, numeral or operator keeps the lexeme
    that it begins with, unless that is a row of blanks that goes on. -/
theorem lexeme?_append {cs ds : List Char} {cls : LexemeClass} {n : Nat}
    (h : lexeme? cs = some (cls, n)) (hds : Separates ds)
    (hgap : Stops isGap cs ∨ Stops isGap ds) : lexeme? (cs ++ ds) = some (cls, n) := by
  cases cs with
  | nil => simp [lexeme?_nil] at h
  | cons c cs =>
    cases hc : isNameStart c with
    | true =>
      obtain ⟨run, rest, rfl, hrun, hrest, -, -⟩ := exists_run isWord cs
      rw [← List.cons_append, lexeme?_word hc hrun hrest] at h
      rw [← List.cons_append, List.append_assoc,
        lexeme?_word hc hrun (hrest.append hds.stops_isWord), h]
    | false =>
      have hstring : stringLength (c :: cs ++ ds) = stringLength (c :: cs) := by
        by_cases hmem : c ∈ cs
        · exact stringLength_append hmem ds
        · have hquote : isQuote c = false := by
            by_contra hq
            rw [lexeme?_of_unclosed (by simpa using hq) hmem] at h
            exact absurd h (by simp)
          simp [stringLength, hquote]
      have hne := List.cons_ne_nil c cs
      rw [lexeme?_of_not_isNameStart _ hc] at h
      rw [List.cons_append, lexeme?_of_not_isNameStart _ hc, ← List.cons_append, ← h]
      simp only [plainRules, firstOf_cons, numberLength_append hne hds.breaks, hstring,
        parameterLength_append hne hds, gapLength_append hne hgap, operatorLength_append hne hds]
      rfl

end PatternSql
