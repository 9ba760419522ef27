import Mathlib.Data.List.Induction
import PatternSql.Error
import PatternSql.Proofs.Token.Pieces
import PatternSql.Statement

/-!
# Reading accounts for every character

The tokens of a text stand in it one after the other, each at the place that it names, and what
stands between them is blanks. Reading ends behind the last character or in front of the first one
that begins nothing; up to there it is the same as if the text ended there.

Main results:

* `advance_start`: lines and columns are counted from the line feeds of a text.
* `lexeme?_eq_none_iff`: nothing is read where no terminal fits.
* `characters_accounted`: how the characters of a text are accounted for.
-/

namespace PatternSql

/-! ## Lines and columns -/

/-- The line behind some characters: the first one, and another for each line feed. -/
def lineBehind (cs : List Char) : Nat :=
  1 + cs.count '\n'

/-- The column behind some characters: one more than there are characters behind the last line
    feed. -/
def columnBehind (cs : List Char) : Nat :=
  (cs.reverse.takeWhile (· != '\n')).length + 1

/-- The place behind the characters of a text up to an offset. -/
def placeIn (text : String) (offset : Nat) : Cursor :=
  ⟨offset, lineBehind (text.toList.take offset), columnBehind (text.toList.take offset)⟩

/-- Lines and columns are counted from the line feeds. -/
theorem advance_start (cs : List Char) :
    Cursor.start.advance cs = ⟨cs.length, lineBehind cs, columnBehind cs⟩ := by
  induction cs using List.reverseRecOn with
  | nil => rfl
  | append_singleton cs c ih =>
    rw [Cursor.advance_append, ih, Cursor.advance_cons, Cursor.advance_nil, Cursor.next]
    by_cases hc : c = '\n'
    · subst hc
      simp [lineBehind, columnBehind, Nat.add_assoc]
    · simp [lineBehind, columnBehind, hc]

/-- The place behind a part of a text. -/
theorem placeIn_of_append {text : String} {before rest : List Char}
    (h : text.toList = before ++ rest) :
    Cursor.start.advance before = placeIn text before.length := by
  rw [placeIn, h, List.take_left, advance_start]

/-! ## What fits a text -/

/-- A terminal, or a row of blanks, fits the beginning of a text with so many characters. -/
def Takes (cls : LexemeClass) (cs : List Char) (n : Nat) : Prop :=
  0 < n ∧ ((∃ rule ∈ rules, rule.1 = cls ∧ rule.2 cs = n) ∨
    ∃ x, cs.head?.bind mark? = some x ∧ cls = some x ∧ n = 1)

/-- Nothing is read where no terminal fits. -/
theorem lexeme?_eq_none_iff {cs : List Char} :
    lexeme? cs = none ↔ ∀ cls n, ¬Takes cls cs n := by
  have hrules : firstOf rules cs = none ↔ ∀ rule ∈ rules, rule.2 cs = 0 := by
    simp [firstOf]
  have hmark : markOf cs = none ↔ cs.head?.bind mark? = none := by
    unfold markOf
    cases cs.head? <;> simp
  rw [lexeme?_eq_or, Option.or_eq_none_iff, hrules, hmark]
  constructor
  · rintro ⟨hnone, hmark⟩ cls n ⟨hpos, ⟨rule, hrule, -, rfl⟩ | ⟨x, hx, -⟩⟩
    · rw [hnone rule hrule] at hpos
      exact absurd hpos (Nat.lt_irrefl 0)
    · rw [hmark] at hx
      cases hx
  · intro h
    refine ⟨fun rule hrule => ?_, ?_⟩
    · by_contra hne
      exact h rule.1 _ ⟨Nat.pos_of_ne_zero hne, .inl ⟨rule, hrule, rfl, rfl⟩⟩
    · rw [Option.eq_none_iff_forall_ne_some]
      exact fun x hx => h (some x) 1 ⟨Nat.one_pos, .inr ⟨x, hx, rfl, rfl⟩⟩

/-- Where nothing is read there is no blank, and a quote there does not occur again. -/
theorem not_isGap_of_refused {c : Char} {cs : List Char} (h : lexeme? (c :: cs) = none) :
    isGap c = false ∧ (isQuote c = true → c ∉ cs) := by
  rw [lexeme?_eq_none_iff] at h
  constructor
  · by_contra hc
    refine h none _ ⟨?_, .inl ⟨(none, gapLength), by simp [rules], rfl, rfl⟩⟩
    simp [gapLength, (Bool.not_eq_false _).mp hc]
  · intro hquote hmem
    refine h (some .string) _ ⟨?_, .inl ⟨(some .string, stringLength), by simp [rules], rfl, rfl⟩⟩
    simp [stringLength, hquote, hmem]

/-- A lexeme that is no token is a row of blanks. -/
theorem gapLength_of_lexeme? {cs : List Char} {n : Nat} (h : lexeme? cs = some (none, n)) :
    gapLength cs = n := by
  rw [lexeme?_eq_or, Option.or_eq_some_iff] at h
  rcases h with h | ⟨-, h⟩
  · obtain ⟨rule, hrule, heq⟩ := Option.map_eq_some_iff.mp h
    obtain ⟨hnone, rfl⟩ := Prod.mk.inj heq
    have hall : ∀ rule ∈ rules, rule.1 = none → rule.2 = gapLength := by
      simp [rules]
    rw [hall rule (List.mem_of_find?_eq_some hrule) hnone]
  · simp [markOf, Option.bind_eq_some_iff] at h

/-! ## Tokens in their places -/

section

variable {p : Cursor} {ps : List Piece} {t : Token}

/-- A token stands behind the characters of the pieces before it. -/
theorem exists_of_mem_tokensFrom (h : t ∈ tokensFrom p ps) :
    ∃ before cs after, ps = before ++ (some t.terminal, cs) :: after ∧
      t.text = String.ofList cs ∧ t.start = p.advance (charsOf before) ∧
      t.stop = t.start.offset + cs.length := by
  obtain ⟨us, vs, htokens⟩ := List.append_of_mem h
  obtain ⟨front, rest, rfl, -, hrest, -⟩ := tokensFrom_eq_append htokens
  obtain ⟨gaps, cs, rest, rfl, -, hstart, hstop, htext, -⟩ := tokensFrom_eq_cons hrest
  refine ⟨front ++ gaps, cs, rest, by simp, htext, ?_, hstop⟩
  rw [hstart, charsOf_append, Cursor.advance_append]

theorem le_start_of_mem_tokensFrom (h : t ∈ tokensFrom p ps) : p.offset ≤ t.start.offset := by
  obtain ⟨before, cs, after, -, -, hstart, -⟩ := exists_of_mem_tokensFrom h
  rw [hstart, Cursor.advance_offset]
  exact Nat.le_add_right _ _

/-- A token ends within the characters of the pieces. -/
theorem stop_le_of_mem_tokensFrom (h : t ∈ tokensFrom p ps) :
    t.stop ≤ p.offset + (charsOf ps).length := by
  obtain ⟨before, cs, after, rfl, -, hstart, hstop⟩ := exists_of_mem_tokensFrom h
  rw [hstop, hstart]
  simp only [Cursor.advance_offset, charsOf_append, charsOf_cons, List.length_append]
  omega

/-- A token ends in front of those after it. -/
theorem tokensFrom_pairwise (p : Cursor) (ps : List Piece) :
    (tokensFrom p ps).Pairwise fun t u => t.stop ≤ u.start.offset := by
  induction ps generalizing p with
  | nil => exact .nil
  | cons piece ps ih =>
    obtain ⟨cls, cs⟩ := piece
    cases cls with
    | none => exact ih _
    | some x =>
      refine .cons (fun u hu => ?_) (ih _)
      have := le_start_of_mem_tokensFrom hu
      rwa [Cursor.advance_offset] at this

/-- Each character of the pieces is in a token or is a blank. -/
theorem covered_of_cut {rest : List Char} (hcut : Cut ps rest) {i : Nat} {c : Char}
    (hc : (charsOf ps)[i]? = some c) :
    (∃ t ∈ tokensFrom p ps, t.start.offset ≤ p.offset + i ∧ p.offset + i < t.stop) ∨
      isGap c = true := by
  induction ps generalizing p i with
  | nil => simp at hc
  | cons piece ps ih =>
    obtain ⟨cls, cs⟩ := piece
    rw [charsOf_cons] at hc
    by_cases hi : i < cs.length
    · rw [List.getElem?_append_left hi] at hc
      cases cls with
      | some x =>
        refine .inl ⟨_, List.mem_cons_self, ?_, ?_⟩
        · exact Nat.le_add_right _ _
        · exact Nat.add_lt_add_left hi _
      | none =>
        have hgap := gapLength_of_lexeme? hcut.1
        have hrun : (cs ++ (charsOf ps ++ rest)).takeWhile isGap = cs := by
          exact (List.prefix_of_prefix_length_le (List.takeWhile_prefix _)
            (List.prefix_append _ _) (Nat.le_of_eq hgap)).eq_of_length hgap
        have hall := all_takeWhile isGap (cs ++ (charsOf ps ++ rest))
        rw [hrun] at hall
        exact .inr (hall c (List.mem_of_getElem? hc))
    · have hi := Nat.not_lt.mp hi
      rw [List.getElem?_append_right hi] at hc
      have hplace : (p.advance cs).offset + (i - cs.length) = p.offset + i := by
        rw [Cursor.advance_offset]
        omega
      refine (ih hcut.2 (p := p.advance cs) hc).imp_left ?_
      rintro ⟨t, ht, hspan⟩
      rw [hplace] at hspan
      refine ⟨t, ?_, hspan⟩
      cases cls with
      | none => exact ht
      | some x => exact List.mem_cons_of_mem _ ht

end

/-! ## The whole text -/

/-- The place where reading ends. -/
def Stop.place : Stop → Cursor
  | finished p => p
  | refused p _ => p

/-- What comes behind the last token: a token for the end of the text, or an error. -/
def Scan.last (s : Scan) : Except InputError Token :=
  match s.stop with
  | .finished p => .ok (.ending p)
  | .refused p c => .error (.ofChar p c)

/-- A token stands in a text at the place that it names. -/
structure Token.StandsIn (text : String) (t : Token) : Prop where
  /-- It is not empty. -/
  nonempty : t.text ≠ ""
  /-- Its characters are those of the text from its start to its end. -/
  slice : slice text t.start.offset t.stop = t.text
  /-- Its end is as far from its start as its characters take. -/
  stop : t.stop = t.start.offset + t.text.length
  /-- Its line and column are those of the text before it. -/
  place : t.start = placeIn text t.start.offset

/-- A character of a text is in a token. -/
def InToken (tokens : List Token) (i : Nat) : Prop :=
  ∃ t ∈ tokens, t.start.offset ≤ i ∧ i < t.stop

/-- Reading is stopped at a character, which is no blank, is in no token and begins none. -/
structure StoppedAt (text : String) (i : Nat) (c : Char) (e : InputError) : Prop where
  /-- The character stands there. -/
  char : text.toList[i]? = some c
  /-- It is no blank. -/
  notGap : c ∉ [' ', '\t', '\x0c', '\r', '\n']
  /-- All tokens end before it. -/
  notInToken : ∀ t ∈ (scan text).tokens, t.stop ≤ i
  /-- No terminal fits the text from there on. -/
  noTerminal : ∀ cls n, ¬Takes cls (text.toList.drop i) n
  /-- The tokens are those of the text before the character. -/
  before : scan (String.ofList (text.toList.take i)) =
    ⟨(scan text).tokens, .finished (placeIn text i)⟩
  /-- The error names the place of the character, and its cause. -/
  error : e = .lexical i (.ofChar c) (placeIn text i).line (placeIn text i).column
  /-- The cause is an unterminated string exactly if the character is a quote. -/
  cause : ("unterminated string".toList <+: (LexicalCause.ofChar c).text.toList) ↔
    c = '\'' ∨ c = '"'
  /-- A quote does not occur again. -/
  unclosed : c = '\'' ∨ c = '"' → c ∉ text.toList.drop (i + 1)

/-- How the characters of a text are accounted for by its tokens and what comes behind them. -/
structure Accounted (text : String) : Prop where
  /-- Every token stands where it says. -/
  stands : ∀ t ∈ (scan text).tokens, t.StandsIn text
  /-- The tokens stand one after the other. -/
  ordered : (scan text).tokens.Pairwise fun t u => t.stop ≤ u.start.offset
  /-- What is in no token, up to where reading ends, is a blank. -/
  gaps : ∀ i c, text.toList[i]? = some c → i < (scan text).stop.place.offset →
    ¬InToken (scan text).tokens i → c ∈ [' ', '\t', '\x0c', '\r', '\n']
  /-- A token for the end stands behind the last character. -/
  ended : ∀ t, (scan text).last = .ok t →
    (scan text).stop = .finished (placeIn text text.length) ∧
      t = ⟨.endOfInput, "", placeIn text text.length, text.length⟩
  /-- An error is raised at the first character that is no blank and in no token. -/
  stopped : ∀ e, (scan text).last = .error e →
    ∃ i c, (scan text).stop = .refused (placeIn text i) c ∧ StoppedAt text i c e

theorem isGap_iff {c : Char} : isGap c = true ↔ c ∈ [' ', '\t', '\x0c', '\r', '\n'] := by
  simp [isGap, or_assoc]

theorem isQuote_iff {c : Char} : isQuote c = true ↔ c = '\'' ∨ c = '"' := by
  simp [isQuote]

/-- The wording of the two causes, apart from the character. -/
theorem unterminated_text (c : Char) : ∃ more, (LexicalCause.unterminated c).text.toList =
    "unterminated string".toList ++ more := by
  refine ⟨" literal starting with ".toList ++ c.toString.toList, ?_⟩
  have hhead : "unterminated string literal starting with ".toList =
      "unterminated string".toList ++ " literal starting with ".toList := by decide +kernel
  rw [← List.append_assoc, ← hhead]
  exact String.toList_append

theorem invalid_text (c : Char) : ∃ more, (LexicalCause.invalid c).text.toList =
    'i' :: more := by
  refine ⟨"nvalid character ".toList ++ (Text.quoted c.toString).toList, ?_⟩
  have hhead : "invalid character ".toList = 'i' :: "nvalid character ".toList := by decide +kernel
  rw [← List.cons_append, ← hhead]
  exact String.toList_append

/-- The wording of a cause tells whether the character is a quote. -/
theorem unterminated_iff {c : Char} :
    "unterminated string".toList <+: (LexicalCause.ofChar c).text.toList ↔
      c = '\'' ∨ c = '"' := by
  by_cases hc : c = '\'' ∨ c = '"'
  · obtain ⟨more, htext⟩ := unterminated_text c
    rw [LexicalCause.ofChar, if_pos (by simpa using hc), htext]
    exact iff_of_true (List.prefix_append _ _) hc
  · obtain ⟨more, htext⟩ := invalid_text c
    have hhead : "unterminated string".toList = 'u' :: "nterminated string".toList := by
      decide +kernel
    rw [LexicalCause.ofChar, if_neg (by simpa using hc), htext, hhead]
    refine iff_of_false (fun h => ?_) hc
    exact absurd (List.cons_prefix_cons.mp h).1 (by decide)

/-- The tokens of pieces stand in the text where they say. -/
theorem standsIn_of_pieces {text : String} {ps : List Piece} {rest : List Char}
    (htext : text.toList = charsOf ps ++ rest) (hcut : Cut ps rest) {t : Token}
    (ht : t ∈ tokensFrom .start ps) : t.StandsIn text := by
  obtain ⟨before, cs, after, rfl, hchars, hstart, hstop⟩ := exists_of_mem_tokensFrom ht
  have hne : cs ≠ [] := (cut_append_iff.mp hcut).2.ne_nil
  have hall : text.toList = charsOf before ++ (cs ++ (charsOf after ++ rest)) := by
    rw [htext, charsOf_append, charsOf_cons]
    simp only [List.append_assoc]
  have hplace := placeIn_of_append hall
  have hoffset : t.start.offset = (charsOf before).length := by
    rw [hstart, hplace]
    rfl
  refine ⟨?_, ?_, ?_, ?_⟩
  · rw [hchars]
    simpa using hne
  · rw [hstop, hoffset, slice, hall, List.drop_left, Nat.add_sub_cancel_left, List.take_left,
      hchars]
  · rw [hstop, hchars, String.length_ofList]
  · rw [hstart, hplace]
    rfl

/-- Where reading a text is stopped. -/
theorem stoppedAt_of_pieces {text : String} {ps : List Piece} {c : Char} {cs : List Char}
    (htext : text.toList = charsOf ps ++ c :: cs) (hcut : Cut ps (c :: cs))
    (htokens : (scan text).tokens = tokensFrom .start ps) (hnone : lexeme? (c :: cs) = none) :
    StoppedAt text (charsOf ps).length c
      (.ofChar (placeIn text (charsOf ps).length) c) := by
  obtain ⟨hgap, hquote⟩ := not_isGap_of_refused hnone
  have hplace := placeIn_of_append htext
  refine ⟨?_, ?_, ?_, ?_, ?_, rfl, unterminated_iff, ?_⟩
  · rw [htext]
    simp
  · rw [← isGap_iff, hgap]
    decide
  · intro t ht
    rw [htokens] at ht
    have := stop_le_of_mem_tokensFrom ht
    rwa [Cursor.start, Nat.zero_add] at this
  · rw [htext, List.drop_left]
    exact lexeme?_eq_none_iff.mp hnone
  · have hbefore : Cut ps [] := hcut.left
    rw [htext, List.take_left, scan_of_cut hbefore, htokens, hplace]
  · intro hc
    rw [htext, ← List.singleton_append, ← List.append_assoc]
    have hlen : (charsOf ps).length + 1 = (charsOf ps ++ [c]).length := by simp
    rw [hlen, List.drop_left]
    exact hquote (isQuote_iff.mpr hc)

/-- A text is read to its end, or up to a character that no terminal fits. -/
theorem scan_cases (text : String) :
    ∃ ps rest, text.toList = charsOf ps ++ rest ∧ Cut ps rest ∧
      ((rest = [] ∧ scan text = ⟨tokensFrom .start ps, .finished (placeIn text text.length)⟩) ∨
        ∃ c cs, rest = c :: cs ∧ lexeme? (c :: cs) = none ∧
          scan text = ⟨tokensFrom .start ps, .refused (placeIn text (charsOf ps).length) c⟩) := by
  obtain ⟨ps, rest, htext, hcut, hrest⟩ := exists_pieces text.toList
  have hplace := placeIn_of_append htext
  refine ⟨ps, rest, htext, hcut, ?_⟩
  rw [scan, htext, scanFrom_pieces hcut, hplace]
  cases rest with
  | nil =>
    have hlen : (charsOf ps).length = text.length := by
      rw [← String.length_toList, htext, List.append_nil]
    exact .inl ⟨rfl, by rw [hlen, scanFrom_nil, List.append_nil]⟩
  | cons c cs =>
    have hnone := hrest.resolve_left (List.cons_ne_nil c cs)
    exact .inr ⟨c, cs, rfl, hnone, by rw [scanFrom_of_none hnone, List.append_nil]⟩

/-- A token of a text stands in it where it says. -/
theorem standsIn_of_mem {text : String} {t : Token} (h : t ∈ (scan text).tokens) :
    t.StandsIn text := by
  obtain ⟨ps, rest, htext, hcut, hscan⟩ := scan_cases text
  have htokens : (scan text).tokens = tokensFrom .start ps := by
    obtain ⟨-, hscan⟩ | ⟨c, cs, -, -, hscan⟩ := hscan <;> rw [hscan]
  exact standsIn_of_pieces htext hcut (htokens ▸ h)

/-- Reading accounts for every character of a text: the tokens stand in it one after the other, what
    is between them is blanks, and reading ends behind the last character or is stopped at the first
    one that begins nothing, as if the text ended there. -/
theorem characters_accounted (text : String) : Accounted text := by
  obtain ⟨ps, rest, htext, hcut, hscan⟩ := scan_cases text
  have htokens : (scan text).tokens = tokensFrom .start ps := by
    obtain ⟨-, hscan⟩ | ⟨c, cs, -, -, hscan⟩ := hscan <;> rw [hscan]
  have hend : (scan text).stop.place.offset = (charsOf ps).length := by
    obtain ⟨rfl, hscan⟩ | ⟨c, cs, -, -, hscan⟩ := hscan
    · rw [hscan, ← List.append_nil (charsOf ps), ← htext, String.length_toList]
      rfl
    · rw [hscan]
      rfl
  refine ⟨fun t ht => standsIn_of_mem ht, ?_, ?_, ?_, ?_⟩
  · rw [htokens]
    exact tokensFrom_pairwise _ _
  · intro i c hc hi hout
    rw [hend] at hi
    rw [htext, List.getElem?_append_left hi] at hc
    rw [htokens] at hout
    refine isGap_iff.mp ((covered_of_cut hcut hc (p := .start)).resolve_left ?_)
    rwa [Cursor.start, Nat.zero_add]
  · intro t ht
    obtain ⟨-, hscan⟩ | ⟨c, cs, -, -, hscan⟩ := hscan
    · rw [Scan.last, hscan] at ht
      rw [hscan]
      exact ⟨rfl, (Except.ok.inj ht).symm⟩
    · rw [Scan.last, hscan] at ht
      cases ht
  · intro e he
    obtain ⟨-, hscan⟩ | ⟨c, cs, rfl, hnone, hscan⟩ := hscan
    · rw [Scan.last, hscan] at he
      cases he
    · rw [Scan.last, hscan] at he
      obtain rfl := Except.error.inj he
      exact ⟨_, c, by rw [hscan], stoppedAt_of_pieces htext hcut htokens hnone⟩

/-- A string with a line break, and a quote that is not closed behind it. -/
example : (scan "'a\nb' x\n ?").stop = .refused ⟨9, 3, 2⟩ '?' := by decide +kernel

end PatternSql
