import PatternSql.Literal.Coercion
import PatternSql.Proofs.Token.Pieces

/-!
# What tokens are made of

The text of a token is one lexeme from end to end, so its terminal says what it is made of: a name
is a row of word characters, a string stands between two quotes of one kind, a number is a numeral.
No token begins or ends with a blank.

Main results:

* `isGenuine_of_mem`: the tokens of a text are lexemes.
* `IsGenuine.word`, `IsGenuine.number`, `IsGenuine.string`: what lexemes of a terminal are made of.
-/

namespace PatternSql

open Text

/-- A token whose text is one lexeme of its terminal. -/
def Token.IsGenuine (t : Token) : Prop :=
  lexeme? t.text.toList = some (some t.terminal, t.text.toList.length)

theorem isGenuine_of_mem_tokensFrom {ps : List Piece} {rest : List Char} (h : Cut ps rest)
    {p : Cursor} {t : Token} (ht : t ∈ tokensFrom p ps) : t.IsGenuine := by
  induction ps generalizing p with
  | nil => simp [tokensFrom] at ht
  | cons piece ps ih =>
    obtain ⟨cls, cs⟩ := piece
    cases cls with
    | none => exact ih h.2 ht
    | some x =>
      rcases List.mem_cons.mp ht with rfl | ht
      · simpa [Token.IsGenuine] using lexeme?_of_append h.1 (Nat.le_refl _)
      · exact ih h.2 ht

/-- The tokens of a text are lexemes. -/
theorem isGenuine_of_mem {text : String} {t : Token} (h : t ∈ (scan text).tokens) :
    t.IsGenuine := by
  obtain ⟨ps, rest, -, hcut, htokens, -⟩ := scan_eq text
  rw [htokens] at h
  exact isGenuine_of_mem_tokensFrom hcut h

/-! ## Lexemes by their terminals -/

/-- The terminals of words. -/
def Terminal.isWord (x : Terminal) : Bool :=
  x.isName || x == .boolean || x == .null

theorem isWord_wordTerminal (run : List Char) : (wordTerminal run).isWord = true := by
  unfold wordTerminal
  repeat' split
  all_goals rfl

/-- A lexeme that does not begin with a name is a numeral, a string or another mark. -/
theorem lexeme?_plain {c : Char} {cs : List Char} {x : Terminal} {n : Nat}
    (hc : isNameStart c = false) (h : lexeme? (c :: cs) = some (some x, n)) :
    x = .number ∧ numberLength (c :: cs) = n ∨ x = .string ∧ stringLength (c :: cs) = n ∨
      x.isWord = false ∧ x ≠ .number ∧ x ≠ .string := by
  rw [lexeme?_of_not_isNameStart cs hc] at h
  simp only [plainRules, firstOf_cons] at h
  split_ifs at h
  · obtain ⟨rfl, rfl⟩ : Terminal.number = x ∧ numberLength (c :: cs) = n := by simpa using h
    exact .inl ⟨rfl, rfl⟩
  · obtain ⟨rfl, rfl⟩ : Terminal.string = x ∧ stringLength (c :: cs) = n := by simpa using h
    exact .inr (.inl ⟨rfl, rfl⟩)
  · obtain rfl : Terminal.parameter = x := by simpa using And.left (by simpa using h)
    exact .inr (.inr (by decide))
  · simp at h
  · obtain rfl : Terminal.operator = x := by simpa using And.left (by simpa using h)
    exact .inr (.inr (by decide))
  · have hmark : mark? c = some x := by
      simp only [firstOf, List.find?_nil, Option.map_none, Option.none_or, markOf, List.head?_cons,
        Option.bind_some, Option.map_eq_some_iff, Prod.mk.injEq, Option.some.injEq] at h
      obtain ⟨y, hy, rfl, -⟩ := h
      exact hy
    refine .inr (.inr ?_)
    unfold mark? at hmark
    split at hmark <;> first
      | (obtain rfl := Option.some.inj hmark; decide)
      | simp at hmark

theorem lexeme?_eq_whole {cs : List Char} {x : Terminal}
    (h : lexeme? cs = some (some x, cs.length)) :
    (∃ c ds, cs = c :: ds ∧ isNameStart c = true ∧ All isWord ds ∧ x = wordTerminal cs) ∨
      (x = .number ∧ numberLength cs = cs.length) ∨ (x = .string ∧ stringLength cs = cs.length) ∨
      x.isWord = false ∧ x ≠ .number ∧ x ≠ .string := by
  cases cs with
  | nil => simp [lexeme?_nil] at h
  | cons c cs =>
    cases hc : isNameStart c with
    | false => exact .inr (lexeme?_plain hc h)
    | true =>
      obtain ⟨run, rest, rfl, hrun, hrest, -, -⟩ := exists_run isWord cs
      rw [← List.cons_append, lexeme?_word hc hrun hrest, Option.some.injEq, Prod.mk.injEq,
        Option.some.injEq, List.length_append] at h
      obtain ⟨rfl, hlen⟩ := h
      obtain rfl : rest = [] := List.eq_nil_of_length_eq_zero (by omega)
      exact .inl ⟨c, run, by simp, hc, hrun, by simp⟩

namespace Token.IsGenuine

variable {t : Token}

/-- A name, a truth value or null is a word. -/
theorem word (h : t.IsGenuine) (ht : t.terminal.isWord = true) :
    ∃ c cs, t.text.toList = c :: cs ∧ isNameStart c = true ∧ All Text.isWord cs ∧
      t.terminal = wordTerminal (c :: cs) := by
  rcases lexeme?_eq_whole h with ⟨c, cs, htext, hc, hcs, hx⟩ | ⟨hx, -⟩ | ⟨hx, -⟩ | ⟨hx, -⟩
  · exact ⟨c, cs, htext, hc, hcs, by rw [hx, htext]⟩
  · rw [hx] at ht
    exact absurd ht (by decide)
  · rw [hx] at ht
    exact absurd ht (by decide)
  · rw [hx] at ht
    exact absurd ht (by decide)

/-- A number is a numeral. -/
theorem number (h : t.IsGenuine) (ht : t.terminal = .number) :
    ∃ n, Numeral.ofChars? t.text.toList = some n := by
  have hlen : numberLength t.text.toList = t.text.toList.length := by
    rcases lexeme?_eq_whole h with ⟨c, cs, -, -, -, hx⟩ | ⟨-, hlen⟩ | ⟨hx, -⟩ | ⟨-, hx, -⟩
    · have := isWord_wordTerminal t.text.toList
      rw [← hx, ht] at this
      exact absurd this (by decide)
    · exact hlen
    · rw [ht] at hx
      exact absurd hx (by decide)
    · exact absurd ht hx
  have hpos := lexeme?_length_pos h
  unfold numberLength at hlen
  cases hscan : Numeral.scan t.text.toList with
  | none =>
    rw [hscan] at hlen
    dsimp only at hlen
    omega
  | some found =>
    obtain ⟨n, rest⟩ := found
    rw [hscan] at hlen
    dsimp only at hlen
    obtain rfl : rest = [] := List.eq_nil_of_length_eq_zero (by omega)
    exact ⟨n, by rw [Numeral.ofChars?, hscan]⟩

/-- A string stands between two quotes of one kind that it does not hold. -/
theorem string (h : t.IsGenuine) (ht : t.terminal = .string) :
    ∃ q cs, isQuote q = true ∧ q ∉ cs ∧ t.text.toList = q :: (cs ++ [q]) := by
  have hlen : stringLength t.text.toList = t.text.toList.length := by
    rcases lexeme?_eq_whole h with ⟨c, cs, -, -, -, hx⟩ | ⟨hx, -⟩ | ⟨-, hlen⟩ | ⟨-, -, hx⟩
    · have := isWord_wordTerminal t.text.toList
      rw [← hx, ht] at this
      exact absurd this (by decide)
    · rw [ht] at hx
      exact absurd hx (by decide)
    · exact hlen
    · exact absurd ht hx
  have hpos := lexeme?_length_pos h
  revert hlen hpos
  cases t.text.toList with
  | nil => simp
  | cons q cs =>
    intro hlen hpos
    rw [stringLength] at hlen
    split_ifs at hlen with hq
    · obtain ⟨hquote, hmem⟩ := Bool.and_eq_true_iff.mp hq
      obtain ⟨run, rest, rfl, hrun, hrest, -, -⟩ := exists_run (· != q) cs
      rw [takeWhile_run hrun hrest] at hlen
      obtain ⟨d, rfl⟩ : ∃ d, rest = [d] := by
        refine List.length_eq_one_iff.mp ?_
        simp only [List.length_cons, List.length_append] at hlen
        omega
      have hd : d = q := by simpa using hrest
      refine ⟨q, run, hquote, fun hq => ?_, by rw [hd]⟩
      have := hrun q hq
      simp at this

end Token.IsGenuine

theorem lexeme?_ne_endOfInput {cs : List Char} {cls : LexemeClass} {n : Nat}
    (h : lexeme? cs = some (cls, n)) : cls ≠ some .endOfInput := by
  rw [lexeme?_eq_or, Option.or_eq_some_iff] at h
  rcases h with h | ⟨-, h⟩
  · obtain ⟨rule, hrule, heq⟩ := Option.map_eq_some_iff.mp h
    obtain ⟨rfl, -⟩ := Prod.mk.inj heq
    have hall : ∀ rule ∈ rules, rule.1 ≠ some .endOfInput := by
      simp [rules]
    exact hall rule (List.mem_of_find?_eq_some hrule)
  · simp only [markOf, Option.bind_eq_some_iff, Option.map_eq_some_iff, Prod.mk.injEq] at h
    obtain ⟨c, -, x, hx, rfl, -⟩ := h
    rintro ⟨rfl⟩
    unfold mark? at hx
    split at hx <;> simp at hx

/-- No token stands for the end of a text. -/
theorem Token.IsGenuine.ne_endOfInput {t : Token} (h : t.IsGenuine) :
    t.terminal ≠ .endOfInput :=
  fun ht => lexeme?_ne_endOfInput h (congrArg some ht)

/-! ## Ends of tokens -/

/-- A blank is no word character. -/
theorem isBlank_of_isWord {c : Char} (h : isWord c = true) : isBlank c = false := by
  by_contra hblank
  rw [Bool.not_eq_false, isBlank, Ranges.has_iff] at hblank
  obtain ⟨range, hrange, hlow, hhigh⟩ := hblank
  have hall : ∀ range ∈ blankRanges, ∀ code ∈ List.range' range.1 (range.2 + 1 - range.1),
      isWord (Char.ofNat code) = false := by decide +kernel
  have hcode := hall range hrange c.toNat (List.mem_range'_1.mpr ⟨hlow, by omega⟩)
  rw [Char.ofNat_toNat, h] at hcode
  exact absurd hcode (by decide)

theorem trim_word {c : Char} {cs : List Char} (hc : isNameStart c = true) (hcs : All isWord cs) :
    trim (c :: cs) = c :: cs := by
  have hall : All isWord (c :: cs) := all_cons.mpr ⟨isWord_of_isNameStart hc, hcs⟩
  have hlast := List.getLast?_eq_some_getLast (List.cons_ne_nil c cs)
  exact trim_eq_self (isBlank_of_isWord (isWord_of_isNameStart hc))
    (isBlank_of_isWord (hall _ (List.getLast_mem _))) hlast

theorem trim_string {q : Char} {cs : List Char} (hq : isQuote q = true) :
    trim (q :: (cs ++ [q])) = q :: (cs ++ [q]) := by
  have hblank : isBlank q = false := by
    simp only [isQuote, Bool.or_eq_true, beq_iff_eq] at hq
    rcases hq with rfl | rfl <;> decide
  exact trim_eq_self hblank hblank (by simp [List.getLast?_cons])

end PatternSql
