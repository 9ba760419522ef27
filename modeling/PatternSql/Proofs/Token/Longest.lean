import PatternSql.Proofs.Token.Terminals

/-!
# The first rule takes the longest text

At each place that reading comes to, the first rule that takes anything takes at least as much as
any terminal could have there. This depends on the order of the rules and on how they end: reserved
words are tried before names but take only whole words, operators of two characters are tried before
those of one, and marks are tried last. What begins neither with a word nor with a mark is told from
its first character alone.

Main results:

* `firstOf_plainRules`: at most one rule fits a text that begins with no name.
* `fits_of_lexeme?`: what is read fits its terminal.
* `exists_lexeme?_of_fits`: where something fits, what is read is no shorter.
* `longest_match`: at each place that reading comes to, what is read is the longest that fits.
-/

namespace PatternSql

open Text

/-! ## One rule by the first character -/

/-- The class of a text that begins with no name and is no mark, by its first character. -/
def opened? (c : Char) : Option LexemeClass :=
  if isDigit c || c == '-' || c == '.' then some (some .number)
  else if isQuote c then some (some .string)
  else if c == '$' then some (some .parameter)
  else if isGap c then some none
  else if "<>!=+*/%^".toList.contains c then some (some .operator)
  else none

theorem opened?_of_number {c : Char} {cs : List Char} (h : 0 < numberLength (c :: cs)) :
    opened? c = some (some .number) := by
  have hbegins : isDigit c = true ∨ c = '-' ∨ c = '.' := by
    by_contra hnot
    obtain ⟨hdigit, hminus, hpoint⟩ : ¬isDigit c = true ∧ c ≠ '-' ∧ c ≠ '.' := by
      simpa only [not_or] using hnot
    refine numberLength_pos_iff.mp h ?_
    rw [Numeral.scan_eq_none_iff, Numeral.scanMinus_of_ne hminus]
    simp [Numeral.beginsUnsigned, hdigit, hpoint]
  rw [opened?, if_pos]
  simpa only [Bool.or_eq_true, beq_iff_eq, or_assoc] using hbegins

theorem opened?_of_operator {c : Char} {cs : List Char} (h : 0 < operatorLength (c :: cs)) :
    opened? c = some (some .operator) := by
  have hshort : ∀ c ∈ "=+*/%^".toList, opened? c = some (some .operator) :=
    List.all_iff_forall_prop.mp (by decide)
  have hlong : ∀ pair ∈ longOperators, opened? pair.1 = some (some .operator) := by decide
  cases cs with
  | nil =>
    simp only [operatorLength] at h
    split_ifs at h with hc
    · exact hshort c (List.contains_iff_mem.mp hc)
    · exact absurd h (Nat.lt_irrefl 0)
  | cons d cs =>
    simp only [operatorLength] at h
    split_ifs at h with hcd hc
    · exact hlong (c, d) (List.contains_iff_mem.mp hcd)
    · exact hshort c (List.contains_iff_mem.mp hc)
    · exact absurd h (Nat.lt_irrefl 0)

/-- The class of what a rule takes is told by the first character. -/
theorem opened?_of_pos {rule : LexemeClass × (List Char → Nat)} (hrule : rule ∈ plainRules)
    {c : Char} {cs : List Char} (h : 0 < rule.2 (c :: cs)) : opened? c = some rule.1 := by
  simp only [plainRules, List.mem_cons, List.not_mem_nil, or_false] at hrule
  rcases hrule with rfl | rfl | rfl | rfl | rfl
  · exact opened?_of_number h
  · have hquote : isQuote c = true := by
      by_contra hnot
      simp [stringLength, hnot] at h
    rcases isQuote_iff.mp hquote with rfl | rfl <;> decide
  · have hdollar : c = '$' := by
      by_contra hne
      simp [parameterLength_of_ne hne] at h
    subst hdollar
    decide
  · have hgap : isGap c = true := by
      by_contra hnot
      simp [gapLength, hnot] at h
    have hall : ∀ c ∈ [' ', '\t', '\x0c', '\r', '\n'], opened? c = some none :=
      List.all_iff_forall_prop.mp (by decide)
    exact hall c (isGap_iff.mp hgap)
  · exact opened?_of_operator h

theorem isNameStart_of_opened? {c : Char} {cls : LexemeClass} (h : opened? c = some cls) :
    isNameStart c = false := by
  unfold opened? at h
  split_ifs at h with hnumber hquote hdollar hgap hoperator
  · simp only [Bool.or_eq_true, beq_iff_eq, or_assoc] at hnumber
    rcases hnumber with hdigit | rfl | rfl
    · simp [isNameStart, hdigit]
    · decide
    · decide
  · rcases isQuote_iff.mp hquote with rfl | rfl <;> decide
  · obtain rfl := beq_iff_eq.mp hdollar
    decide
  · have hall : ∀ c ∈ [' ', '\t', '\x0c', '\r', '\n'], isNameStart c = false :=
      List.all_iff_forall_prop.mp (by decide)
    exact hall c (isGap_iff.mp hgap)
  · have hall : ∀ c ∈ "<>!=+*/%^".toList, isNameStart c = false :=
      List.all_iff_forall_prop.mp (by decide)
    exact hall c (List.contains_iff_mem.mp hoperator)

/-- At most one rule fits a text that begins with no name, so their order does not matter. -/
theorem firstOf_plainRules {rule : LexemeClass × (List Char → Nat)} (hrule : rule ∈ plainRules)
    {cs : List Char} (hne : cs ≠ []) (h : 0 < rule.2 cs) :
    firstOf plainRules cs = some (rule.1, rule.2 cs) := by
  obtain ⟨c, cs, rfl⟩ := List.exists_cons_of_ne_nil hne
  have hunique : ∀ other ∈ plainRules, other.1 = rule.1 → other = rule := by
    intro other hother hclass
    simp only [plainRules, List.mem_cons, List.not_mem_nil, or_false] at hrule hother
    rcases hrule with rfl | rfl | rfl | rfl | rfl <;>
      rcases hother with rfl | rfl | rfl | rfl | rfl <;> first | rfl | cases hclass
  unfold firstOf
  cases hfind : plainRules.find? fun rule => 0 < rule.2 (c :: cs) with
  | none =>
    have hnone := List.find?_eq_none.mp hfind rule hrule
    exact absurd (decide_eq_true h) hnone
  | some other =>
    have hother : other ∈ plainRules := List.mem_of_find?_eq_some hfind
    have hpos : 0 < other.2 (c :: cs) := by simpa using List.find?_some hfind
    have hclass : some other.1 = some rule.1 :=
      (opened?_of_pos hother hpos).symm.trans (opened?_of_pos hrule h)
    rw [hunique other hother (Option.some.inj hclass), Option.map_some]

/-- A rule that takes a text as a whole takes no less when the text goes on. -/
theorem CutsWell.length_le {f : List Char → Nat} (h : CutsWell f) {cs : List Char} (hne : cs ≠ [])
    (hwhole : f cs = cs.length) (more : List Char) : cs.length ≤ f (cs ++ more) := by
  obtain ⟨hpos, heq⟩ := h cs more hne
  have hlong : 0 < f (cs ++ more) := by
    refine hpos ?_
    rw [hwhole]
    exact List.length_pos_iff.mpr hne
  by_contra hlt
  have hsame := heq hlong (by omega)
  omega

/-! ## Marks -/

theorem mem_of_mark? {c : Char} {x : Terminal} (h : mark? c = some x) :
    c ∈ "()[]\x7b\x7d,.:-<>|;".toList := by
  unfold mark? at h
  split at h <;> first | decide | cases h

/-- A mark alone is no word, and no rule takes it. -/
theorem alone_of_mark? {c : Char} {x : Terminal} (h : mark? c = some x) :
    isNameStart c = false ∧ ∀ rule ∈ plainRules, rule.2 [c] = 0 := by
  have hall : ∀ c ∈ "()[]\x7b\x7d,.:-<>|;".toList,
      isNameStart c = false ∧ ∀ rule ∈ plainRules, rule.2 [c] = 0 :=
    List.all_iff_forall_prop.mp (by decide)
  exact hall c (mem_of_mark? h)

/-- Nothing but its own terminal fits a mark alone. -/
theorem Fits.eq_of_mark? {cls : LexemeClass} {c : Char} {x : Terminal} {rest : List Char}
    (h : Fits cls [c] rest) (hmark : mark? c = some x) : cls = some x := by
  obtain ⟨hname, hrules⟩ := alone_of_mark? hmark
  rcases h.cases with ⟨y, -, hrun, -⟩ | ⟨-, d, ds, hds, hd, -⟩ | ⟨y, d, rfl, hd, hy⟩ |
    ⟨rule, hrule, -, -, hlength⟩
  · obtain ⟨d, ds, hds, hd, -⟩ := hrun.word
    rw [(List.cons.inj hds).1, hd] at hname
    cases hname
  · rw [(List.cons.inj hds).1, hd] at hname
    cases hname
  · rw [← hy, ← (List.cons.inj hd).1, hmark]
  · rw [hrules rule hrule] at hlength
    cases hlength

/-! ## What is read -/

/-- What is read fits its terminal. -/
theorem fits_of_lexeme? {cs : List Char} {cls : LexemeClass} {n : Nat}
    (h : lexeme? cs = some (cls, n)) :
    ∃ taken left, cs = taken ++ left ∧ n = taken.length ∧ Fits cls taken left := by
  cases cs with
  | nil => simp [lexeme?_nil] at h
  | cons c cs =>
    cases hc : isNameStart c with
    | true =>
      obtain ⟨run, left, rfl, hrun, hleft, -, -⟩ := exists_run isWord cs
      rw [← List.cons_append, lexeme?_word hc hrun hleft] at h
      obtain ⟨rfl, rfl⟩ := Prod.mk.inj (Option.some.inj h)
      refine ⟨c :: run, left, rfl, rfl, ?_⟩
      rcases wordTerminal_cases (c :: run) with hreserved | ⟨hx, -⟩
      · exact .reserved hreserved hleft
      · rw [hx]
        exact .identifier hc hrun
    | false =>
      rw [lexeme?_of_not_isNameStart cs hc, Option.or_eq_some_iff] at h
      rcases h with h | ⟨-, h⟩
      · obtain ⟨rule, hfind, heq⟩ := Option.map_eq_some_iff.mp h
        obtain ⟨rfl, rfl⟩ := Prod.mk.inj heq
        have hpos : 0 < rule.2 (c :: cs) := by simpa using List.find?_some hfind
        exact fits_of_pos (List.mem_of_find?_eq_some hfind) hpos
      · simp only [markOf, List.head?_cons, Option.bind_some, Option.map_eq_some_iff,
          Prod.mk.injEq] at h
        obtain ⟨x, hx, rfl, rfl⟩ := h
        exact ⟨[c], cs, rfl, rfl, .mark hx⟩

/-- What a rule takes as a whole is read as its terminal, and no less of it when the text goes
    on. -/
theorem lexeme?_of_whole {rule : LexemeClass × (List Char → Nat)} (hrule : rule ∈ plainRules)
    {cs : List Char} (hne : cs ≠ []) (hwhole : rule.2 cs = cs.length) (more : List Char) :
    ∃ n, lexeme? (cs ++ more) = some (rule.1, n) ∧ cs.length ≤ n := by
  have hlength := (cutsWell_of_mem hrule).length_le hne hwhole more
  have hpos : 0 < cs.length := List.length_pos_iff.mpr hne
  obtain ⟨c, ds, rfl⟩ := List.exists_cons_of_ne_nil hne
  have hopened := opened?_of_pos hrule (hwhole ▸ hpos)
  have hname := isNameStart_of_opened? hopened
  refine ⟨rule.2 (c :: ds ++ more), ?_, hlength⟩
  rw [List.cons_append, lexeme?_of_not_isNameStart _ hname, ← List.cons_append,
    firstOf_plainRules hrule (by simp) (by omega), Option.some_or]

/-- A word that goes on is read up to its last character. -/
theorem lexeme?_of_word {c : Char} {cs : List Char} (hc : isNameStart c = true)
    (hcs : All isWord cs) (more : List Char) :
    ∃ run, lexeme? (c :: cs ++ more) =
      some (some (wordTerminal (c :: cs ++ run)), (c :: cs ++ run).length) := by
  obtain ⟨run, left, rfl, hrun, hleft, -, -⟩ := exists_run isWord more
  have hword := lexeme?_word hc (all_append.mpr ⟨hcs, hrun⟩) hleft
  refine ⟨run, ?_⟩
  rwa [List.cons_append, List.append_assoc, ← List.cons_append] at hword

/-- One of two classes comes before the other where both fit the same characters: they are the same,
    or the other one is that of identifiers and the one that of a reserved word. -/
def Precedes (cs : List Char) (cls other : LexemeClass) : Prop :=
  cls = other ∨ other = some .identifier ∧ ∃ x, cls = some x ∧ IsReserved cs x

/-- Where something fits, what is read is no shorter, and comes first if it is as long. -/
theorem exists_lexeme?_of_fits {cls : LexemeClass} {cs more : List Char} (h : Fits cls cs more) :
    ∃ cls' n, lexeme? (cs ++ more) = some (cls', n) ∧ cs.length ≤ n ∧
      (n = cs.length → Precedes cs cls' cls) := by
  rcases h.cases with ⟨x, rfl, hrun, hmore⟩ | ⟨rfl, c, ds, rfl, hc, hds⟩ | ⟨x, c, rfl, rfl, hmark⟩ |
    ⟨rule, hrule, rfl, hne, hwhole⟩
  · obtain ⟨c, ds, rfl, hc, hds⟩ := hrun.word
    refine ⟨_, _, lexeme?_word hc hds hmore, Nat.le_refl _, fun _ => .inl ?_⟩
    rw [wordTerminal_of_isReserved hrun]
  · obtain ⟨run, hlex⟩ := lexeme?_of_word hc hds more
    refine ⟨_, _, hlex, by simp, fun hlength => ?_⟩
    obtain rfl : run = [] := by
      rw [List.length_append] at hlength
      exact List.length_eq_zero_iff.mp (by omega)
    rw [List.append_nil]
    rcases wordTerminal_cases (c :: ds) with hreserved | ⟨hx, -⟩
    · exact .inr ⟨rfl, _, rfl, hreserved⟩
    · exact .inl (congrArg some hx)
  · cases hlex : lexeme? ([c] ++ more) with
    | none =>
      have htakes : Takes (some x) ([c] ++ more) 1 := ⟨Nat.one_pos, .inr ⟨x, hmark, rfl, rfl⟩⟩
      exact absurd htakes (lexeme?_eq_none_iff.mp hlex (some x) 1)
    | some found =>
      obtain ⟨cls', n⟩ := found
      refine ⟨cls', n, rfl, lexeme?_length_pos hlex, fun hlength => .inl ?_⟩
      obtain ⟨taken, left, hcs, hn, hfits⟩ := fits_of_lexeme? hlex
      obtain rfl : taken = [c] := by
        refine ((List.append_inj hcs ?_).1).symm
        rw [← hn, hlength]
      exact hfits.eq_of_mark? hmark
  · obtain ⟨n, hlex, hle⟩ := lexeme?_of_whole hrule hne hwhole more
    exact ⟨rule.1, n, hlex, hle, fun _ => .inl rfl⟩

/-- No operator and no numeral is read as something else. -/
theorem lexeme?_of_unsplit {x : Terminal} (hx : x = .operator ∨ x = .number) {cs more : List Char}
    (h : Fits (some x) cs more) : ∃ n, lexeme? (cs ++ more) = some (some x, n) ∧ cs.length ≤ n := by
  have hreserved : ∀ entry ∈ reservedWords, entry.2 ≠ .operator ∧ entry.2 ≠ .number := by decide
  have hmarks : ∀ c ∈ "()[]\x7b\x7d,.:-<>|;".toList,
      mark? c ≠ some .operator ∧ mark? c ≠ some .number := List.all_iff_forall_prop.mp (by decide)
  rcases h.cases with ⟨y, hy, ⟨word, hword, -⟩, -⟩ | ⟨hy, -⟩ | ⟨y, c, hy, rfl, hmark⟩ |
    ⟨rule, hrule, hclass, hne, hwhole⟩
  · obtain rfl := Option.some.inj hy
    obtain ⟨hoperator, hnumber⟩ := hreserved _ hword
    rcases hx with rfl | rfl
    · exact absurd rfl hoperator
    · exact absurd rfl hnumber
  · rcases hx with rfl | rfl <;> cases hy
  · obtain rfl := Option.some.inj hy
    obtain ⟨hoperator, hnumber⟩ := hmarks c (mem_of_mark? hmark)
    rcases hx with rfl | rfl
    · exact absurd hmark hoperator
    · exact absurd hmark hnumber
  · obtain ⟨n, hlex, hle⟩ := lexeme?_of_whole hrule hne hwhole more
    exact ⟨n, hclass ▸ hlex, hle⟩

/-! ## A whole text -/

/-- What is left of a text at the places that reading comes to. -/
inductive Reached (text : String) : List Char → Prop
  /-- Reading begins with the whole text. -/
  | start : Reached text text.toList
  /-- It goes on behind what is read. -/
  | behind {cs taken left : List Char} {cls : LexemeClass} (h : Reached text cs)
      (hcs : cs = taken ++ left) (hlex : lexeme? cs = some (cls, taken.length)) : Reached text left

/-- From each place that reading comes to, it goes on as if it began there. -/
theorem scan_of_reached {text : String} {rest : List Char} (h : Reached text rest) :
    ∃ front ts, text.toList = front ++ rest ∧
      (scan text).tokens = ts ++ (scanFrom (Cursor.start.advance front) rest).tokens := by
  induction h with
  | start => exact ⟨[], [], rfl, rfl⟩
  | @behind cs taken left cls _ hcs hlex ih =>
    obtain ⟨front, ts, htext, htokens⟩ := ih
    have hne : cs ≠ [] := by
      rintro rfl
      cases hlex
    rw [scanFrom_of_some hne hlex, hcs, List.take_left, List.drop_left,
      ← Cursor.advance_append] at htokens
    rw [hcs, ← List.append_assoc] at htext
    cases cls with
    | none => exact ⟨front ++ taken, ts, htext, htokens⟩
    | some x =>
      rw [Scan.prepend, List.append_cons] at htokens
      exact ⟨front ++ taken, _, htext, htokens⟩

/-- Reading a text comes to a place and takes some characters there. -/
structure ReadsAt (text : String) (cls : LexemeClass) (taken left : List Char) : Prop where
  /-- The first rule that takes anything there takes them. -/
  chosen : lexeme? (taken ++ left) = some (cls, taken.length)
  /-- They fit its terminal. -/
  fits : Fits cls taken left
  /-- They are a token of the text, which stands there. -/
  token : ∀ x, cls = some x → ∀ k, k = text.length - (taken ++ left).length →
    ⟨x, String.ofList taken, placeIn text k, k + taken.length⟩ ∈ (scan text).tokens
  /-- Reading goes on behind them. -/
  behind : Reached text left

/-- What is chosen at a place that reading comes to is read there. -/
theorem Reached.readsAt {text : String} {cls : LexemeClass} {taken left : List Char}
    (h : Reached text (taken ++ left)) (hlex : lexeme? (taken ++ left) = some (cls, taken.length)) :
    ReadsAt text cls taken left := by
  refine ⟨hlex, ?_, ?_, h.behind rfl hlex⟩
  · obtain ⟨taken', left', hcs, hlength, hfits⟩ := fits_of_lexeme? hlex
    obtain ⟨rfl, rfl⟩ := List.append_inj hcs hlength
    exact hfits
  · rintro x rfl k rfl
    obtain ⟨front, ts, htext, htokens⟩ := scan_of_reached h
    have hne : taken ++ left ≠ [] := by
      intro hnil
      rw [hnil] at hlex
      cases hlex
    have hfront : text.length - (taken ++ left).length = front.length := by
      rw [← String.length_toList, htext, List.length_append, Nat.add_sub_cancel]
    have hplace : Cursor.start.advance front = placeIn text front.length :=
      placeIn_of_append htext
    rw [htokens, scanFrom_of_some hne hlex, List.take_left, hfront, hplace]
    exact List.mem_append_right ts List.mem_cons_self

/-- Reading a text in front of a rest takes the longest text that fits there. -/
structure ReadsLongest (text : String) (rest : List Char) : Prop where
  /-- If anything fits, something is read that nothing else is longer than. Among what is as long,
      reserved words come before identifiers. -/
  longest : (∃ cls cs more, rest = cs ++ more ∧ Fits cls cs more) →
    ∃ cls taken left, rest = taken ++ left ∧ ReadsAt text cls taken left ∧
      ∀ cls' cs more, rest = cs ++ more → Fits cls' cs more →
        cs.length ≤ taken.length ∧ (taken.length = cs.length → Precedes cs cls cls')
  /-- A whole word that begins with no digit is one token, which is that of a reserved word only if
      the whole word is this one in any case. -/
  word : ∀ c cs more, rest = c :: cs ++ more → isWord c = true → isDigit c = false →
    All isWord cs → Stops isWord more →
      ∃ x, ReadsAt text (some x) (c :: cs) more ∧
        (IsReserved (c :: cs) x ∨ x = .identifier ∧ ∀ y, ¬IsReserved (c :: cs) y)
  /-- An operator or a number is never read as something else, nor as less of it. -/
  unsplit : ∀ x, x = .operator ∨ x = .number →
    ∀ cs more, rest = cs ++ more → Fits (some x) cs more →
      ∃ taken left, rest = taken ++ left ∧ ReadsAt text (some x) taken left ∧
        cs.length ≤ taken.length

/-- What is chosen in front of a rest, as the characters that it takes. -/
theorem exists_readsAt {text : String} {rest : List Char} (h : Reached text rest)
    {cls : LexemeClass} {n : Nat} (hlex : lexeme? rest = some (cls, n)) :
    ∃ taken left, rest = taken ++ left ∧ n = taken.length ∧ ReadsAt text cls taken left := by
  obtain ⟨taken, left, rfl, rfl, -⟩ := fits_of_lexeme? hlex
  exact ⟨taken, left, rfl, rfl, h.readsAt hlex⟩

/-- At each place that reading comes to, the first rule that takes anything takes the longest text
    that any terminal could have there. -/
theorem longest_match {text : String} {rest : List Char} (h : Reached text rest) :
    ReadsLongest text rest where
  longest := by
    rintro ⟨cls₀, cs₀, more₀, hrest, hfits₀⟩
    obtain ⟨cls, n, hlex, -⟩ := exists_lexeme?_of_fits hfits₀
    rw [← hrest] at hlex
    obtain ⟨taken, left, htaken, hn, hreads⟩ := exists_readsAt h hlex
    refine ⟨cls, taken, left, htaken, hreads, fun cls' cs more hcs hfits => ?_⟩
    obtain ⟨cls'', n', hlex', hle, hfirst⟩ := exists_lexeme?_of_fits hfits
    rw [← hcs, hlex] at hlex'
    obtain ⟨rfl, rfl⟩ := Prod.mk.inj (Option.some.inj hlex')
    exact ⟨hn ▸ hle, hn ▸ hfirst⟩
  word := by
    rintro c cs more rfl hc hdigit hcs hmore
    have hname : isNameStart c = true := by
      rw [isNameStart, hc, hdigit]
      rfl
    refine ⟨_, h.readsAt (lexeme?_word hname hcs hmore), wordTerminal_cases (c :: cs)⟩
  unsplit := by
    rintro x hx cs more hcs hfits
    obtain ⟨n, hlex, hle⟩ := lexeme?_of_unsplit hx hfits
    rw [← hcs] at hlex
    obtain ⟨taken, left, htaken, rfl, hreads⟩ := exists_readsAt h hlex
    exact ⟨taken, left, htaken, hreads, hle⟩

/-- A name that begins with a keyword, an operator that begins with a mark, and a number. -/
theorem longest_match_name :
    Reached "x matching<=1.5" "matching<=1.5".toList ∧
      ∃ x, ReadsAt "x matching<=1.5" (some x) "matching".toList "<=1.5".toList := by
  have hreached : Reached "x matching<=1.5" "matching<=1.5".toList := by
    have hname : lexeme? "x matching<=1.5".toList = some (some .identifier, "x".toList.length) := by
      decide +kernel
    have hblank : lexeme? " matching<=1.5".toList = some (none, " ".toList.length) := by
      decide +kernel
    have hsecond : Reached "x matching<=1.5" " matching<=1.5".toList := .behind .start rfl hname
    exact .behind hsecond rfl hblank
  refine ⟨hreached, ?_⟩
  obtain ⟨x, hreads, -⟩ := (longest_match hreached).word 'm' "atching".toList "<=1.5".toList
    rfl (by decide) (by decide) (by decide) (stops_cons.mpr (by decide))
  exact ⟨x, hreads⟩

end PatternSql
