import Mathlib.Data.List.Chain
import PatternSql.Proofs.Sql.PlainWriting
import PatternSql.Proofs.Sql.Stability
import PatternSql.Proofs.Text.Run
import PatternSql.Sql.Projection

/-!
# Legible pieces

Pieces are scanned back one by one if each lexeme ends where the next piece begins: a word before a
blank or a mark, a numeral before what is no part of one, a minus before anything but another minus.
No two words in a row may be a phrase, since these count as one lexeme. Both are matters of
neighbours, so they are chains; what is put between blanks, or between parentheses, keeps them.

Main results:

* `next?_lexeme`: a lexeme is found in front of what it ends before.
* `Legible.bodyLexemes?`: the lexemes of the text of legible pieces are those among the pieces.
* `Legible.spaced`, `Legible.around`, `Legible.list`: what is put together stays legible.
-/

namespace PatternSql.Sql

open Text

/-! ## Lexemes -/

/-- Whether a lexeme has a text that is scanned as this lexeme in the generic dialect. -/
def Lexeme.isSpelled : Lexeme → Bool
  | word text => isWordText text
  | name _ => true
  | string _ => true
  | number text => isNumeralText text
  | bytes _ _ => false
  | parameter _ => false
  | mark m => m ≠ .hash

/-- The characters before which any lexeme ends. -/
def closers : List Char := [' ', '(', ')', ',']

/-- Whether a lexeme ends before a character. -/
def Lexeme.endsBefore (c : Char) : Lexeme → Bool
  | mark .leftParen => true
  | mark .dot => true
  | mark .minus => c ≠ '-'
  | word _ => c = '.' || closers.contains c
  | name _ => c = '.' || closers.contains c
  | _ => closers.contains c

/-- A lexeme ends where a text begins. -/
def Lexeme.Ends (l : Lexeme) (rest : List Char) : Prop :=
  ∀ c ∈ rest.head?, l.endsBefore c = true

theorem Lexeme.endsBefore_of_mem {c : Char} (h : c ∈ closers) (l : Lexeme) :
    l.endsBefore c = true := by
  have hminus : c ≠ '-' := by
    rintro rfl
    exact absurd h (by decide)
  unfold endsBefore
  split <;> simp [h, hminus]

theorem endsWord_of_mem {c : Char} (h : c = '.' ∨ c ∈ closers) : endsWord c = true := by
  rcases h with rfl | h
  · decide
  · have hall : closers.all endsWord = true := by decide
    exact List.all_eq_true.mp hall c h

/-! ## Scanning -/

theorem base?_generic (c : Char) : Dialect.generic.base? c = none := by
  simp [Dialect.base?, Dialect.hexStrings, Dialect.bitStrings]

theorem wordRun_append {cs rest : List Char} (hcs : All (!endsWord ·) cs)
    (hrest : ∀ c ∈ rest.head?, endsWord c = true) : wordRun (cs ++ rest) = (cs, rest) := by
  have hstops : Stops (!endsWord ·) rest := by
    intro c hc
    simp only [hrest c hc, Bool.not_true]
  rw [wordRun, takeWhile_run hcs hstops, dropWhile_run hcs hstops]

theorem next?_word {text : String} (h : isWordText text = true) {rest : List Char}
    (hrest : ∀ c ∈ rest.head?, endsWord c = true) :
    next? .generic (text.toList ++ rest) = some (.word text, rest) := by
  unfold isWordText at h
  split at h
  · cases h
  · rename_i c cs htext
    rw [Bool.and_eq_true, Bool.not_eq_true', List.all_eq_true] at h
    obtain ⟨hdigit, hall⟩ := h
    obtain ⟨hc, hcs⟩ := all_cons.mp hall
    rw [Bool.not_eq_true'] at hc
    -- Quotes end words, so a word begins with none.
    have hname : c ≠ '"' := fun heq => absurd (heq ▸ hc) (by decide)
    have hstring : c ≠ '\'' := fun heq => absurd (heq ▸ hc) (by decide)
    have hlookup : Dialect.generic.nameQuotes.lookup c = none := by
      have hne : (c == '"') = false := by simpa using hname
      simp only [Dialect.nameQuotes, List.lookup_cons, hne, List.lookup_nil]
    have hquotes : Dialect.generic.stringQuotes.contains c = false := by
      simp [Dialect.stringQuotes, hstring]
    have hword : word? .generic c (cs ++ rest) = some (.word text, rest) := by
      have hbase := base?_generic c
      unfold word?
      split
      · simp_all
      · simp only [wordRun_append hcs hrest, ← htext, String.ofList_toList]
    rw [htext, List.cons_append, next?, if_neg (by rw [hdigit]; decide), hlookup]
    simp only [hquotes, Dialect.dollarParameters, hc, hword, Bool.false_eq_true, and_false, if_false]

theorem next?_name (text : String) {rest : List Char} (hrest : rest.head? ≠ some '"') :
    next? .generic ((quoteName .generic text).toList ++ rest) = some (.name text, rest) := by
  have hrun := quotedRun_double text.toList rest hrest
  have hquote : Dialect.generic.nameQuote = '"' := rfl
  have hlookup : Dialect.generic.nameQuotes.lookup '"' = some '"' := by decide
  rw [quoteName, String.toList_ofList, hquote, List.cons_append, List.append_assoc,
    List.singleton_append, next?, if_neg (by decide), hlookup]
  simp only [hrun, Option.map_some, String.ofList_toList]

theorem next?_string (text : String) {rest : List Char} (hrest : rest.head? ≠ some '\'') :
    next? .generic ((quoteString .generic text).toList ++ rest) = some (.string text, rest) := by
  have hrun := quotedRun_double text.toList rest hrest
  have hescape : text.toList.flatMap (escapeChar .generic) = double '\'' text.toList := rfl
  have hescapes : Dialect.generic.escapes = [] := rfl
  have hlookup : Dialect.generic.nameQuotes.lookup '\'' = none := by decide
  have hquotes : Dialect.generic.stringQuotes.contains '\'' = true := by decide
  rw [quoteString, String.toList_ofList, hescape, List.cons_append, List.append_assoc,
    List.singleton_append, next?, if_neg (by decide), hlookup]
  simp only [hquotes, hescapes, if_true, hrun, Option.map_some, String.ofList_toList]

/-- A numeral that takes a whole text takes no more of a longer one, unless this goes on with a
    character of numerals. -/
theorem numeralRun_append_of_closers {rest : List Char} (hrest : ∀ c ∈ rest.head?, c ∈ closers)
    {pointed marked signed : Bool} {cs : List Char}
    (h : (numeralRun pointed marked signed cs).2 = []) :
    numeralRun pointed marked signed (cs ++ rest) = (cs, rest) := by
  have hstop : ∀ pointed marked signed, numeralRun pointed marked signed rest = ([], rest) := by
    intro pointed marked signed
    cases rest with
    | nil => rfl
    | cons c rest =>
      have hc : c ∈ closers := hrest c rfl
      simp only [closers, List.mem_cons, List.not_mem_nil, or_false] at hc
      rcases hc with rfl | rfl | rfl | rfl <;> simp [numeralRun]
  fun_induction numeralRun pointed marked signed cs with
  | case1 => exact hstop _ _ _
  | case2 pointed marked signed c cs hdigit run rest' heq ih =>
    have hcs := ih (by rw [heq]; exact h)
    rw [List.cons_append, numeralRun, if_pos hdigit, hcs]
  | case3 pointed marked signed c cs hdigit hpoint run rest' heq ih =>
    have hcs := ih (by rw [heq]; exact h)
    rw [List.cons_append, numeralRun, if_neg hdigit, if_pos hpoint, hcs]
  | case4 pointed marked signed c cs hdigit hpoint hmark run rest' heq ih =>
    have hcs := ih (by rw [heq]; exact h)
    rw [List.cons_append, numeralRun, if_neg hdigit, if_neg hpoint, if_pos hmark, hcs]
  | case5 pointed marked signed c cs hdigit hpoint hmark hsign run rest' heq ih =>
    have hcs := ih (by rw [heq]; exact h)
    -- The sign is in front of a digit of the numeral itself.
    have hhead : (cs ++ rest).head?.any Char.isDigit = true := by
      cases cs with
      | nil => exact absurd hsign.2.2.2 (by decide)
      | cons d cs => exact hsign.2.2.2
    rw [List.cons_append, numeralRun, if_neg hdigit, if_neg hpoint, if_neg hmark,
      if_pos ⟨hsign.1, hsign.2.1, hsign.2.2.1, hhead⟩, hcs]
  | case6 => cases h

theorem next?_number {text : String} (h : isNumeralText text = true) {rest : List Char}
    (hrest : ∀ c ∈ rest.head?, c ∈ closers) :
    next? .generic (text.toList ++ rest) = some (.number text, rest) := by
  unfold isNumeralText at h
  split at h
  · cases h
  · rename_i c cs htext
    rw [Bool.and_eq_true, List.isEmpty_iff] at h
    have hrun := numeralRun_append_of_closers hrest h.2
    have hbase : (if c = '0' then (cs ++ rest).head?.bind Dialect.generic.base? else none) =
        none := by
      split
      · cases (cs ++ rest).head? with
        | none => rfl
        | some d => exact base?_generic d
      · rfl
    rw [htext, List.cons_append, next?, if_pos h.1, numeral, hbase, hrun]
    simp [Dialect.leadingDigits, ← htext]

theorem next?_minus {c : Char} (h : c ≠ '-') (rest : List Char) :
    next? .generic ('-' :: c :: rest) = some (.mark .minus, c :: rest) := by
  have hmark : mark? ('-' :: c :: rest) = some (.minus, c :: rest) := by
    unfold mark?
    split <;> simp_all
  have hlookup : Dialect.generic.nameQuotes.lookup '-' = none := by decide
  have hquotes : Dialect.generic.stringQuotes.contains '-' = false := by decide
  have hends : endsWord '-' = true := by decide
  rw [next?, if_neg (by decide), hlookup]
  simp only [hquotes, Bool.false_eq_true, if_false, Dialect.dollarParameters, and_false, hends,
    if_true, hmark, Option.map_some]

theorem next?_mark {m : Mark} (h : m ≠ .hash) {rest : List Char}
    (hrest : (Lexeme.mark m).Ends rest) :
    next? .generic (m.text.toList ++ rest) = some (.mark m, rest) := by
  cases rest with
  | nil => cases m <;> first | exact absurd rfl h | rfl
  | cons c rest =>
    have hc : (Lexeme.mark m).endsBefore c = true := hrest c rfl
    cases m with
    | hash => exact absurd rfl h
    | leftParen => rfl
    | dot => rfl
    | minus => exact next?_minus (by simpa [Lexeme.endsBefore] using hc) rest
    | _ =>
      simp only [Lexeme.endsBefore, closers, List.contains_cons, List.contains_nil, Bool.or_eq_true,
        beq_iff_eq, Bool.false_eq_true, or_false] at hc
      rcases hc with rfl | rfl | rfl | rfl <;> rfl

/-- A lexeme is found in front of what it ends before. -/
theorem next?_lexeme {l : Lexeme} (h : l.isSpelled = true) {rest : List Char}
    (hrest : l.Ends rest) : next? .generic ((l.text .generic).toList ++ rest) = some (l, rest) := by
  cases l with
  | word text =>
    refine next?_word h fun c hc => endsWord_of_mem ?_
    simpa [Lexeme.endsBefore] using hrest c hc
  | name text =>
    refine next?_name text fun hhead => ?_
    exact absurd (hrest '"' hhead) (by simp [Lexeme.endsBefore, closers])
  | string text =>
    refine next?_string text fun hhead => ?_
    exact absurd (hrest '\'' hhead) (by simp [Lexeme.endsBefore, closers])
  | number text =>
    refine next?_number h fun c hc => ?_
    simpa [Lexeme.endsBefore] using hrest c hc
  | mark m => exact next?_mark (by simpa [Lexeme.isSpelled] using h) hrest
  | bytes base digits => cases h
  | parameter label => cases h

/-! ## Phrases -/

/-- Two lexemes in a row are no phrase. -/
def Lexeme.Apart : Lexeme → Lexeme → Prop
  | word first, word second => isPhrase first second = false
  | _, _ => True

theorem joinPhrases_eq_self {ls : List Lexeme} (h : ls.IsChain Lexeme.Apart) :
    joinPhrases ls = ls := by
  fun_induction joinPhrases ls with
  | case1 first second ls hphrase ih =>
    have happart : isPhrase first second = false := (List.isChain_cons_cons.mp h).1
    rw [hphrase] at happart
    cases happart
  | case2 first second ls hphrase ih => rw [ih (List.isChain_cons_cons.mp h).2]
  | case3 l ls hne ih => rw [ih (List.isChain_cons.mp h).2]
  | case4 => rfl

/-- The words of the language: none of them is a part of a phrase. -/
def connectiveWords : List String :=
  ["AND", "AS", "BETWEEN", "DISTINCT", "FALSE", "IN", "IS", "LIKE", "NOT", "NULL", "OR", "TRUE"]

/-- Whether a lexeme is apart from whatever stands beside it. -/
def Lexeme.isInert : Lexeme → Bool
  | word text => connectiveWords.contains text
  | _ => true

theorem Lexeme.apart_left {l : Lexeme} (h : l.isInert = true) (l' : Lexeme) : l.Apart l' := by
  have hfirst : ∀ word ∈ connectiveWords, ∀ phrase ∈ phrases, phrase.1 ≠ upper word := by
    decide +kernel
  cases l with
  | word text =>
    cases l' with
    | word text' =>
      rw [Apart, isPhrase, ← Bool.not_eq_true, List.contains_iff_mem]
      exact fun hmem => hfirst text (by simpa [isInert] using h) _ hmem rfl
    | _ => trivial
  | _ => cases l' <;> trivial

theorem Lexeme.apart_right {l : Lexeme} (h : l.isInert = true) (l' : Lexeme) : l'.Apart l := by
  have hsecond : ∀ word ∈ connectiveWords, ∀ phrase ∈ phrases, phrase.2 ≠ upper word := by
    decide +kernel
  cases l with
  | word text =>
    cases l' with
    | word text' =>
      rw [Apart, isPhrase, ← Bool.not_eq_true, List.contains_iff_mem]
      exact fun hmem => hsecond text (by simpa [isInert] using h) _ hmem rfl
    | _ => trivial
  | _ => cases l' <;> trivial

/-! ## Pieces -/

/-- A piece ends where the next one begins. -/
def Piece.Adjoins (p q : Piece) : Prop :=
  ∀ l, p = .lexeme l → l.Ends (q.text .generic)

/-- Pieces that are scanned back one by one. -/
structure Legible (ps : List Piece) : Prop where
  unbroken : Unbroken ps
  spelled : ∀ l ∈ lexemesOf ps, l.isSpelled = true
  adjoining : ps.IsChain Piece.Adjoins
  apart : (lexemesOf ps).IsChain Lexeme.Apart

theorem Lexeme.text_ne_nil {l : Lexeme} (h : l.isSpelled = true) :
    (l.text .generic).toList ≠ [] := by
  intro hnil
  have hends : l.Ends [] := by rintro c ⟨⟩
  have hnext := next?_lexeme h hends
  rw [hnil] at hnext
  cases hnext

theorem Piece.text_ne_nil {p : Piece} {ps : List Piece} (h : Legible (p :: ps)) :
    p.text .generic ≠ [] := by
  cases p with
  | lexeme l => exact Lexeme.text_ne_nil (h.spelled l List.mem_cons_self)
  | blank => exact List.cons_ne_nil _ _
  | line depth => exact List.cons_ne_nil _ _

theorem Legible.tail {p : Piece} {ps : List Piece} (h : Legible (p :: ps)) : Legible ps where
  unbroken := (unbroken_cons.mp h.unbroken).2
  spelled l hl := by
    refine h.spelled l ?_
    cases p with
    | lexeme l' => exact List.mem_cons_of_mem _ hl
    | blank => exact hl
    | line depth => exact hl
  adjoining := (List.isChain_cons.mp h.adjoining).2
  apart := by
    have happart := h.apart
    cases p with
    | lexeme l => exact (List.isChain_cons.mp happart).2
    | blank => exact happart
    | line depth => exact happart

/-- A lexeme ends before whatever legible pieces follow it. -/
theorem Legible.ends {l : Lexeme} {ps : List Piece} (h : Legible (.lexeme l :: ps)) :
    l.Ends (write .generic ps) := by
  cases ps with
  | nil => rintro c ⟨⟩
  | cons q ps =>
    intro c hc
    rw [write_cons, List.head?_append_of_ne_nil _ (Piece.text_ne_nil h.tail)] at hc
    exact (List.isChain_cons_cons.mp h.adjoining).1 l rfl c hc

theorem isBlank_of_digit {c : Char} (h : c.isDigit = true) : isBlank c = false := by
  have hcode : 48 ≤ c.toNat ∧ c.toNat ≤ 57 := by
    simpa [Char.isDigit, UInt32.le_iff_toNat_le] using h
  have hranges : ∀ range ∈ blankRanges, range.2 < 48 ∨ 57 < range.1 := by decide
  rw [isBlank, ← Bool.not_eq_true, Ranges.has_iff]
  rintro ⟨range, hrange, hlow, hhigh⟩
  have := hranges range hrange
  omega

/-- No lexeme begins with a blank. -/
theorem isBlank_of_isSpelled {l : Lexeme} (h : l.isSpelled = true) {c : Char} {cs : List Char}
    (hl : (l.text .generic).toList = c :: cs) : isBlank c = false := by
  have hquoted (quote : Char) (hquote : isBlank quote = false) {ds : List Char}
      (hl : (String.ofList (quote :: ds)).toList = c :: cs) : isBlank c = false := by
    rw [String.toList_ofList] at hl
    exact (List.cons.inj hl).1 ▸ hquote
  cases l with
  | word text =>
    have hword : isWordText text = true := h
    have htext : text.toList = c :: cs := hl
    rw [isWordText, htext, Bool.and_eq_true, List.all_cons, Bool.and_eq_true] at hword
    have hc := hword.2.1
    rw [endsWord, Bool.not_eq_true', Bool.or_eq_false_iff] at hc
    exact hc.1
  | name text => exact hquoted '"' (by decide) hl
  | string text => exact hquoted '\'' (by decide) hl
  | number text =>
    have hnumber : isNumeralText text = true := h
    have htext : text.toList = c :: cs := hl
    rw [isNumeralText, htext, Bool.and_eq_true] at hnumber
    exact isBlank_of_digit hnumber.1
  | mark m =>
    have hmarks : m.text.toList.all (!isBlank ·) = true := by
      cases m <;> decide
    have hmem : c ∈ m.text.toList := hl ▸ List.mem_cons_self
    simpa using List.all_eq_true.mp hmarks c hmem
  | bytes base digits => cases h
  | parameter label => cases h

/-- The lexemes of the text of legible pieces are those among the pieces. -/
theorem Legible.lexemes? {ps : List Piece} (h : Legible ps) :
    Sql.lexemes? .generic (write .generic ps) = some (lexemesOf ps) := by
  induction ps with
  | nil => rw [write_nil, Sql.lexemes?, lexemes_nil]
  | cons p ps ih =>
    have hps := ih h.tail
    rw [write_cons]
    cases p with
    | lexeme l =>
      have hspelled := h.spelled l List.mem_cons_self
      have hnext := next?_lexeme hspelled h.ends
      obtain ⟨c, cs, hl⟩ := List.exists_cons_of_ne_nil (Lexeme.text_ne_nil hspelled)
      have hblank : ¬isBlank c = true := by rw [isBlank_of_isSpelled hspelled hl]; decide
      rw [Piece.text]
      rw [hl, List.cons_append] at hnext ⊢
      rw [Sql.lexemes?, if_neg hblank]
      split
      · rename_i l' rest heq
        obtain ⟨rfl, rfl⟩ := Prod.mk.inj (Option.some.inj (hnext.symm.trans heq))
        rw [hps, lexemes_lexeme]
        rfl
      · rename_i heq
        cases hnext.symm.trans heq
    | blank =>
      have hblank : isBlank ' ' = true := by decide
      rw [Piece.text, List.singleton_append, Sql.lexemes?, if_pos hblank, hps, lexemes_blank]
    | line depth => cases (unbroken_cons.mp h.unbroken).1

/-- So are those of a body with this text. -/
theorem Legible.bodyLexemes? {ps : List Piece} (h : Legible ps) :
    Sql.bodyLexemes? .generic (String.ofList (write .generic ps)) = some (lexemesOf ps) := by
  rw [Sql.bodyLexemes?, String.toList_ofList, h.lexemes?, Option.map_some,
    joinPhrases_eq_self h.apart]

/-! ## Putting pieces together -/

theorem Piece.adjoins_blank (p : Piece) : p.Adjoins .blank := by
  rintro l - c hc
  obtain rfl : ' ' = c := Option.some.inj hc
  exact Lexeme.endsBefore_of_mem (by decide) l

theorem Piece.blank_adjoins (q : Piece) : Piece.blank.Adjoins q := by
  rintro l ⟨⟩

theorem Piece.leftParen_adjoins (q : Piece) : (markPiece .leftParen).Adjoins q := by
  rintro l ⟨⟩ c -
  rfl

theorem Piece.adjoins_mark {m : Mark} (hm : m ∈ [Mark.leftParen, .rightParen, .comma])
    (p : Piece) : p.Adjoins (markPiece m) := by
  rintro l - c hc
  refine Lexeme.endsBefore_of_mem ?_ l
  simp only [List.mem_cons, List.not_mem_nil, or_false] at hm
  rcases hm with rfl | rfl | rfl
  all_goals
    obtain rfl := Option.some.inj hc
    decide

theorem legible_nil : Legible [] where
  unbroken := unbroken_nil
  spelled := List.forall_mem_nil _
  adjoining := .nil
  apart := .nil

theorem legible_lexeme {l : Lexeme} (h : l.isSpelled = true) : Legible [.lexeme l] where
  unbroken := unbroken_cons.mpr ⟨rfl, unbroken_nil⟩
  spelled := List.forall_mem_singleton.mpr h
  adjoining := .singleton _
  apart := .singleton _

theorem legible_blank : Legible [.blank] where
  unbroken := unbroken_cons.mpr ⟨rfl, unbroken_nil⟩
  spelled := List.forall_mem_nil _
  adjoining := .singleton _
  apart := .nil

theorem Legible.append {ps qs : List Piece} (hps : Legible ps) (hqs : Legible qs)
    (hadjoins : ∀ p ∈ ps.getLast?, ∀ q ∈ qs.head?, p.Adjoins q)
    (hapart : ∀ l ∈ (lexemesOf ps).getLast?, ∀ l' ∈ (lexemesOf qs).head?, l.Apart l') :
    Legible (ps ++ qs) where
  unbroken := unbroken_append hps.unbroken hqs.unbroken
  spelled l hl := by
    rw [lexemes_append] at hl
    exact (List.mem_append.mp hl).elim (hps.spelled l) (hqs.spelled l)
  adjoining := List.isChain_append.mpr ⟨hps.adjoining, hqs.adjoining, hadjoins⟩
  apart := by
    rw [lexemes_append]
    exact List.isChain_append.mpr ⟨hps.apart, hqs.apart, hapart⟩

/-- Pieces with a blank between them. -/
theorem Legible.spaced {ps qs : List Piece} (hps : Legible ps) (hqs : Legible qs)
    (hapart : ∀ l ∈ (lexemesOf ps).getLast?, ∀ l' ∈ (lexemesOf qs).head?, l.Apart l') :
    Legible (ps ++ .blank :: qs) := by
  have hblank : Legible (.blank :: qs) := by
    refine legible_blank.append hqs (fun p hp q _ => ?_) (by rintro l ⟨⟩)
    obtain rfl : Piece.blank = p := Option.some.inj hp
    exact Piece.blank_adjoins q
  refine hps.append hblank (fun p _ q hq => ?_) hapart
  obtain rfl : Piece.blank = q := Option.some.inj hq
  exact Piece.adjoins_blank p

/-- Pieces with words of the language or marks between them. -/
theorem Legible.joined {ps os qs : List Piece} (hps : Legible ps) (hos : Legible os)
    (hqs : Legible qs) (hne : lexemesOf os ≠ []) (hinert : ∀ l ∈ lexemesOf os, l.isInert = true) :
    Legible (ps ++ .blank :: os ++ .blank :: qs) := by
  refine (hps.spaced hos ?_).spaced hqs ?_
  · exact fun l _ l' hl' => Lexeme.apart_right (hinert l' (List.mem_of_mem_head? hl')) l
  · rw [lexemes_append, lexemes_blank, List.getLast?_append_of_ne_nil _ hne]
    exact fun l hl l' _ => Lexeme.apart_left (hinert l (List.mem_of_getLast? hl)) l'

/-- Pieces with a mark after them that ends any lexeme. -/
theorem Legible.marked {m : Mark} (hm : m ∈ [Mark.leftParen, .rightParen, .comma])
    {ps : List Piece} (hps : Legible ps) : Legible (ps ++ [markPiece m]) := by
  have hmark : (Lexeme.mark m).isSpelled = true := by
    have hmarks : ∀ m ∈ [Mark.leftParen, .rightParen, .comma],
        (Lexeme.mark m).isSpelled = true := by decide
    exact hmarks m hm
  refine hps.append (legible_lexeme hmark) (fun p _ q hq => ?_) (fun l _ l' hl' => ?_)
  · obtain rfl : markPiece m = q := Option.some.inj hq
    exact Piece.adjoins_mark hm p
  · obtain rfl : Lexeme.mark m = l' := Option.some.inj hl'
    exact Lexeme.apart_right rfl l

/-- Pieces with other pieces between parentheses after them. -/
theorem Legible.around {ps qs : List Piece} (hps : Legible ps) (hqs : Legible qs) :
    Legible (ps ++ markPiece .leftParen :: qs ++ [markPiece .rightParen]) := by
  have hopened : Legible (ps ++ [markPiece .leftParen] ++ qs) := by
    refine (hps.marked (by decide)).append hqs (fun p hp q _ => ?_) (fun l hl l' _ => ?_)
    · rw [List.getLast?_concat] at hp
      obtain rfl : markPiece .leftParen = p := Option.some.inj hp
      exact Piece.leftParen_adjoins q
    · rw [lexemes_append, lexemes_mark, lexemes_nil, List.getLast?_concat] at hl
      obtain rfl : Lexeme.mark .leftParen = l := Option.some.inj hl
      exact Lexeme.apart_left rfl l'
  rw [List.append_assoc, List.singleton_append] at hopened
  exact hopened.marked (by decide)

/-- Legible parts in a row. -/
theorem Legible.list {parts : List (List Piece)} (h : ∀ ps ∈ parts, Legible ps) :
    Legible (inRow parts) := by
  induction parts with
  | nil => exact legible_nil
  | cons ps parts ih =>
    obtain ⟨hps, hparts⟩ := List.forall_mem_cons.mp h
    by_cases hnil : parts = []
    · subst hnil
      exact hps
    · have hcomma := (hps.marked (m := .comma) (by decide)).spaced (ih hparts) ?_
      · rw [inRow_cons hnil]
        rwa [List.append_assoc, List.singleton_append] at hcomma
      · rw [lexemes_append, lexemes_mark, lexemes_nil, List.getLast?_concat]
        intro l hl l' _
        obtain rfl : Lexeme.mark .comma = l := Option.some.inj hl
        exact Lexeme.apart_left rfl l'

end PatternSql.Sql
