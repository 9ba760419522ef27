import PatternSql.Proofs.Literal.Coercion
import PatternSql.Sql.Lexeme.Scan
import PatternSql.Sql.Name

/-!
# A plain reader of insertions

A reader that knows nothing of how commands are written. Its tokens are bare words, names between
double quotes, strings between single quotes, numerals with an optional minus, parentheses and
commas; a doubled quote stands for one, and there are no escapes and no comments. An insertion is
the words `INSERT INTO`, a name, names in parentheses, the word `VALUES` and values in parentheses,
with nothing behind them. Keywords are read in any case of their seven-bit letters; no word is
reserved, so a word counts as a name or as a value by its place alone.

Main results:

* `Spells.tokens?_append`: a token is found in front of whatever it is separated from.
* `readInsertion?_tokens`: the tokens of an insertion are read as the insertion.
-/

namespace PatternSql.Sql.Plain

open Text

/-! ## Tokens -/

/-- The smallest part of an insertion. -/
inductive Token
  | word (text : String)
  /-- A name between double quotes, by what the quotes surround. -/
  | name (text : String)
  /-- A string, by what its quotes surround. -/
  | string (text : String)
  | number (n : Numeral)
  | leftParen
  | rightParen
  | comma
  deriving DecidableEq, Repr

/-- The characters that a bare word begins with. -/
def beginsBare (c : Char) : Bool :=
  c.isAlpha || c == '_'

/-- Whether characters are a bare word from end to end. -/
def isBare : List Char → Bool
  | [] => false
  | c :: cs => beginsBare c && cs.all isWord

/-- The token that a text begins with, and what follows it. -/
def next? : List Char → Option (Token × List Char)
  | [] => none
  | c :: cs =>
    if c = '(' then some (.leftParen, cs)
    else if c = ')' then some (.rightParen, cs)
    else if c = ',' then some (.comma, cs)
    else if c = '\'' then
      (quotedRun '\'' [] cs).map fun (run, rest) => (.string (String.ofList run), rest)
    else if c = '"' then
      (quotedRun '"' [] cs).map fun (run, rest) => (.name (String.ofList run), rest)
    else if beginsBare c then
      some (.word (String.ofList (c :: cs.takeWhile isWord)), cs.dropWhile isWord)
    else (Numeral.scan (c :: cs)).map fun (n, rest) => (.number n, rest)

/-- Reading a token takes at least one character. -/
theorem next?_length_lt {cs rest : List Char} {t : Token} (h : next? cs = some (t, rest)) :
    rest.length < cs.length := by
  have hquoted (quote : Char) (make : List Char → Token) {cs : List Char}
      (h : (quotedRun quote [] cs).map (fun (run, rest) => (make run, rest)) = some (t, rest)) :
      rest.length < cs.length + 1 := by
    obtain ⟨⟨run, rest'⟩, hrun, heq⟩ := Option.map_eq_some_iff.mp h
    obtain ⟨-, rfl⟩ := Prod.mk.inj heq
    have := quotedRun_length_lt hrun
    omega
  cases cs with
  | nil => cases h
  | cons c cs =>
    rw [List.length_cons]
    rw [next?] at h
    split_ifs at h
    · cases h
      exact Nat.lt_succ_self _
    · cases h
      exact Nat.lt_succ_self _
    · cases h
      exact Nat.lt_succ_self _
    · exact hquoted '\'' (fun run => .string (String.ofList run)) h
    · exact hquoted '"' (fun run => .name (String.ofList run)) h
    · cases h
      exact Nat.lt_succ_of_le (List.dropWhile_suffix isWord).length_le
    · obtain ⟨⟨n, rest'⟩, hscan, heq⟩ := Option.map_eq_some_iff.mp h
      obtain ⟨-, rfl⟩ := Prod.mk.inj heq
      exact Numeral.scan_length_lt hscan

/-- The characters that are a token, or open one, by themselves. -/
def marks : List Char := ['(', ')', ',', '\'', '"']

/-- What begins with none of these is a word or a numeral. -/
theorem next?_of_plain {c : Char} (h : c ∉ marks) (cs : List Char) :
    next? (c :: cs) =
      if beginsBare c then
        some (.word (String.ofList (c :: cs.takeWhile isWord)), cs.dropWhile isWord)
      else (Numeral.scan (c :: cs)).map fun (n, rest) => (.number n, rest) := by
  simp only [marks, List.mem_cons, List.not_mem_nil, or_false, not_or] at h
  obtain ⟨h₁, h₂, h₃, h₄, h₅⟩ := h
  rw [next?, if_neg h₁, if_neg h₂, if_neg h₃, if_neg h₄, if_neg h₅]

/-- The tokens of a text, unless something in it begins none. -/
def tokens? : List Char → Option (List Token)
  | [] => some []
  | c :: cs =>
    if isBlank c then tokens? cs
    else match _h : next? (c :: cs) with
      | some (t, rest) => (tokens? rest).map (t :: ·)
      | none => none
termination_by cs => cs.length
decreasing_by
  · simp
  · exact next?_length_lt _h

/-! ## Insertions -/

/-- A value of a row. -/
inductive Value
  | string (text : String)
  | number (n : Numeral)
  | boolean (value : Bool)
  | null
  | identifier (text : String)
  deriving DecidableEq, Repr

/-- An insertion as it is read. -/
structure Insertion where
  /-- The table. -/
  table : String
  /-- The columns in order. -/
  columns : List String
  /-- The only row. -/
  row : List Value
  deriving DecidableEq, Repr

/-- A text with its seven-bit letters made small. -/
def folded (text : String) : String :=
  String.ofList (text.toList.map Char.toLower)

namespace Token

/-- Whether a token is the given keyword, which is in small letters. -/
def isKeyword (keyword : String) : Token → Bool
  | word text => folded text == keyword
  | _ => false

/-- The name that a token is. -/
def name? : Token → Option String
  | word text => some text
  | name text => some text
  | _ => none

/-- The value that a token is. -/
def value? : Token → Option Value
  | word text =>
    if folded text = "true" then some (.boolean true)
    else if folded text = "false" then some (.boolean false)
    else if folded text = "null" then some .null
    else some (.identifier text)
  | name text => some (.identifier text)
  | string text => some (.string text)
  | number n => some (.number n)
  | _ => none

end Token

/-- What tokens with commas between them are, up to a closing parenthesis, and the tokens behind
    it. -/
def readList? {α : Type} (read? : Token → Option α) : List Token → Option (List α × List Token)
  | t :: .rightParen :: rest => (read? t).map fun a => ([a], rest)
  | t :: .comma :: rest => do
    let a ← read? t
    let (more, rest) ← readList? read? rest
    return (a :: more, rest)
  | _ => none

/-- The only row that tokens are, up to the last of them. -/
def readRow? : List Token → Option (List Value)
  | values :: .leftParen :: rest =>
    if values.isKeyword "values" then
      match readList? Token.value? rest with
      | some (row, []) => some row
      | _ => none
    else none
  | _ => none

/-- The insertion that tokens are, from the first to the last. -/
def readInsertion? : List Token → Option Insertion
  | insert :: into :: table :: .leftParen :: rest =>
    if insert.isKeyword "insert" && into.isKeyword "into" then do
      let table ← table.name?
      let (columns, rest) ← readList? Token.name? rest
      let row ← readRow? rest
      return ⟨table, columns, row⟩
    else none
  | _ => none

/-- The insertion that a text is. -/
def read? (text : String) : Option Insertion :=
  (tokens? text.toList).bind readInsertion?

/-! ## The tokens of an insertion -/

/-- A name as one token: bare if it is simple, else between quotes. -/
def Token.ofName (text : String) : Token :=
  if isSimple text then .word text else .name text

/-- A value as one token. -/
def Value.token : Value → Token
  | string text => .string text
  | number n => .number n
  | boolean value => .word (if value then "TRUE" else "FALSE")
  | null => .word "NULL"
  | identifier text => .ofName text

/-- Tokens with commas between them and a closing parenthesis behind them. -/
def enlisted (ts : List Token) (rest : List Token) : List Token :=
  ts.intersperse .comma ++ .rightParen :: rest

/-- The tokens of an insertion: one for each name and one for each value, whatever they hold. -/
def Insertion.tokens (i : Insertion) : List Token :=
  .word "INSERT" :: .word "INTO" :: .ofName i.table :: .leftParen ::
    enlisted (i.columns.map .ofName)
      (.word "VALUES" :: .leftParen :: enlisted (i.row.map Value.token) [])

/-- A name that no keyword is taken for. -/
def Value.IsRegular : Value → Prop
  | identifier text => folded text ∉ ["true", "false", "null"]
  | _ => True

@[simp] theorem name?_ofName (text : String) : (Token.ofName text).name? = some text := by
  unfold Token.ofName
  split <;> rfl

theorem value?_token {v : Value} (h : v.IsRegular) : v.token.value? = some v := by
  cases v with
  | identifier text =>
    rw [Value.IsRegular, List.mem_cons, List.mem_cons, List.mem_singleton, not_or, not_or] at h
    rw [Value.token, Token.ofName]
    split
    · rw [Token.value?, if_neg h.1, if_neg h.2.1, if_neg h.2.2]
    · rfl
  | boolean value => cases value <;> decide +kernel
  | null => decide +kernel
  | string text => rfl
  | number n => rfl

theorem enlisted_singleton (t : Token) (rest : List Token) :
    enlisted [t] rest = t :: .rightParen :: rest := rfl

theorem enlisted_cons {t : Token} {ts : List Token} (h : ts ≠ []) (rest : List Token) :
    enlisted (t :: ts) rest = t :: .comma :: enlisted ts rest := by
  obtain ⟨u, us, rfl⟩ := List.exists_cons_of_ne_nil h
  rfl

/-- A list of tokens that are read one by one is read as a whole. -/
theorem readList?_enlisted {α : Type} {read? : Token → Option α} {tokenOf : α → Token} {as : List α}
    (hne : as ≠ []) (h : ∀ a ∈ as, read? (tokenOf a) = some a) (rest : List Token) :
    readList? read? (enlisted (as.map tokenOf) rest) = some (as, rest) := by
  induction as with
  | nil => exact absurd rfl hne
  | cons a as ih =>
    obtain ⟨ha, has⟩ := List.forall_mem_cons.mp h
    cases as with
    | nil => rw [List.map_singleton, enlisted_singleton, readList?, ha, Option.map_some]
    | cons b bs =>
      have hmore := ih (List.cons_ne_nil b bs) has
      rw [List.map_cons, enlisted_cons (by simp), readList?, ha, hmore]
      rfl

/-- The tokens of an insertion are read as the insertion. -/
theorem readInsertion?_tokens {i : Insertion} (hcolumns : i.columns ≠ []) (hrow : i.row ≠ [])
    (h : ∀ v ∈ i.row, v.IsRegular) : readInsertion? i.tokens = some i := by
  have hkeywords : (Token.isKeyword "insert" (.word "INSERT") &&
      Token.isKeyword "into" (.word "INTO")) = true := by decide +kernel
  have hvalues : Token.isKeyword "values" (.word "VALUES") = true := by decide +kernel
  have hnames : ∀ rest, readList? Token.name? (enlisted (i.columns.map .ofName) rest) =
      some (i.columns, rest) :=
    readList?_enlisted hcolumns fun text _ => name?_ofName text
  have hentries : readList? Token.value? (enlisted (i.row.map Value.token) []) = some (i.row, []) :=
    readList?_enlisted hrow (fun v hv => value?_token (h v hv)) []
  have hread : readRow? (.word "VALUES" :: .leftParen :: enlisted (i.row.map Value.token) []) =
      some i.row := by
    rw [readRow?, if_pos hvalues, hentries]
  rw [Insertion.tokens, readInsertion?, if_pos hkeywords, name?_ofName, hnames]
  simp only [Option.bind_eq_bind, Option.bind_some, hread]
  rfl

/-! ## Characters -/

/-- A text does not go on with a character that a token could take. -/
def Ends (rest : List Char) : Prop :=
  ∀ c ∈ rest.head?, c ∈ [' ', '(', ')', ',']

theorem ends_cons {c : Char} {cs : List Char} : Ends (c :: cs) ↔ c ∈ [' ', '(', ')', ','] := by
  simp [Ends]

theorem Ends.separates {rest : List Char} (h : Ends rest) : Separates rest := by
  intro c hc
  have hends := h c hc
  simp only [List.mem_cons, List.not_mem_nil, or_false] at hends
  rcases hends with rfl | rfl | rfl | rfl <;> decide

theorem Ends.head?_ne {rest : List Char} (h : Ends rest) {quote : Char}
    (hquote : quote ∉ [' ', '(', ')', ',']) : rest.head? ≠ some quote :=
  fun hhead => hquote (h quote hhead)

/-- Characters are a token, whatever they are separated from. -/
structure Spells (cs : List Char) (t : Token) : Prop where
  begins : ∃ c ds, cs = c :: ds ∧ isBlank c = false
  next : ∀ rest, Ends rest → next? (cs ++ rest) = some (t, rest)

theorem tokens?_of_next? {c : Char} {cs rest : List Char} {t : Token} (hc : isBlank c = false)
    (h : next? (c :: cs) = some (t, rest)) :
    tokens? (c :: cs) = (tokens? rest).map (t :: ·) := by
  rw [tokens?, if_neg (by rw [hc]; decide)]
  split
  · rename_i t' rest' heq
    rw [h, Option.some.injEq, Prod.mk.injEq] at heq
    rw [heq.1, heq.2]
  · rename_i heq
    rw [h] at heq
    cases heq

theorem tokens?_blank (cs : List Char) : tokens? (' ' :: cs) = tokens? cs := by
  rw [tokens?, if_pos (by decide)]

/-- A token is found in front of whatever it is separated from. -/
theorem Spells.tokens?_append {cs rest : List Char} {t : Token} (h : Spells cs t)
    (hrest : Ends rest) : tokens? (cs ++ rest) = (tokens? rest).map (t :: ·) := by
  obtain ⟨c, ds, rfl, hc⟩ := h.begins
  exact tokens?_of_next? hc (h.next rest hrest)

theorem tokens?_leftParen (cs : List Char) :
    tokens? ('(' :: cs) = (tokens? cs).map (.leftParen :: ·) :=
  tokens?_of_next? (by decide) rfl

theorem tokens?_rightParen (cs : List Char) :
    tokens? (')' :: cs) = (tokens? cs).map (.rightParen :: ·) :=
  tokens?_of_next? (by decide) rfl

theorem tokens?_comma (cs : List Char) : tokens? (',' :: cs) = (tokens? cs).map (.comma :: ·) :=
  tokens?_of_next? (by decide) rfl

/-! ## Spelled tokens -/

theorem beginsBare_spec {c : Char} (h : beginsBare c = true) :
    isNameStart c = true ∧ c.toNat < 128 := by
  rw [beginsBare, Bool.or_eq_true, beq_iff_eq] at h
  rcases h with h | rfl
  · have hletter : (decide ('A'.val ≤ c.val ∧ c.val ≤ 'Z'.val) ||
        decide ('a'.val ≤ c.val) && decide (c.val ≤ 'z'.val)) = true := h
    simp only [UInt32.le_iff_toNat_le, Bool.or_eq_true, Bool.and_eq_true,
      decide_eq_true_eq] at hletter
    have hcode : 65 ≤ c.toNat ∧ c.toNat ≤ 90 ∨ 97 ≤ c.toNat ∧ c.toNat ≤ 122 := hletter
    exact ⟨isNameStart_of_letter hcode, by omega⟩
  · decide

/-- A word is found as far as word characters go. -/
theorem spells_word {text : String} (h : isBare text.toList = true) :
    Spells text.toList (.word text) := by
  obtain ⟨c, cs, htext⟩ : ∃ c cs, text.toList = c :: cs := by
    cases htext : text.toList with
    | nil => rw [htext] at h; cases h
    | cons c cs => exact ⟨c, cs, rfl⟩
  rw [htext, isBare, Bool.and_eq_true, List.all_eq_true] at h
  obtain ⟨hc, hcs⟩ := h
  have hmarks : All (fun d => !beginsBare d) marks := by decide
  have hplain : c ∉ marks := fun hmem => by simpa [hc] using hmarks c hmem
  have hword := isWord_of_isNameStart (beginsBare_spec hc).1
  refine ⟨⟨c, cs, htext, isBlank_of_isWord hword⟩, fun rest hrest => ?_⟩
  have hstops := hrest.separates.stops_isWord
  rw [htext, List.cons_append, next?_of_plain hplain, if_pos hc, takeWhile_run hcs hstops,
    dropWhile_run hcs hstops, ← htext, String.ofList_toList]

/-- A name between quotes is found whatever it holds. -/
theorem spells_name (cs : List Char) :
    Spells ('"' :: (double '"' cs ++ ['"'])) (.name (String.ofList cs)) where
  begins := ⟨_, _, rfl, by decide⟩
  next rest hrest := by
    have hquote : rest.head? ≠ some '"' := hrest.head?_ne (by decide)
    have hrun := quotedRun_double cs rest hquote
    rw [List.cons_append, List.append_assoc, List.singleton_append, next?, if_neg (by decide),
      if_neg (by decide), if_neg (by decide), if_neg (by decide), if_pos rfl, hrun, Option.map_some]

/-- A string between quotes is found whatever it holds. -/
theorem spells_string (cs : List Char) :
    Spells ('\'' :: (double '\'' cs ++ ['\''])) (.string (String.ofList cs)) where
  begins := ⟨_, _, rfl, by decide⟩
  next rest hrest := by
    have hquote : rest.head? ≠ some '\'' := hrest.head?_ne (by decide)
    have hrun := quotedRun_double cs rest hquote
    rw [List.cons_append, List.append_assoc, List.singleton_append, next?, if_neg (by decide),
      if_neg (by decide), if_neg (by decide), if_pos rfl, hrun, Option.map_some]

/-- A numeral is found from its sign to its end. -/
theorem spells_number {cs : List Char} {n : Numeral} (h : Numeral.ofChars? cs = some n) :
    Spells cs (.number n) := by
  have hscan := Numeral.ofChars?_eq_some_iff.mp h
  cases cs with
  | nil => simp [Numeral.scan, Numeral.scanMinus, Numeral.scanFraction] at hscan
  | cons c cs =>
    have hne : Numeral.scan (c :: cs) ≠ none := by
      rw [hscan]
      exact Option.some_ne_none _
    obtain ⟨hn, -, a, ha, heq⟩ := Numeral.scan_eq_some_iff.mp hscan
    rw [List.append_nil] at heq
    have hblank : isBlank c = false := by
      have hall := Numeral.all_of_spelled hn (heq ▸ ha)
      simpa using (all_cons.mp hall).1
    have hname := (Numeral.head_of_scan hne).1
    refine ⟨⟨c, cs, rfl, hblank⟩, fun rest hrest => ?_⟩
    have hfound := Numeral.scan_append_of_breaks hscan hrest.separates.breaks
    have hbare : ¬beginsBare c = true := fun hc => by
      rw [(beginsBare_spec hc).1] at hname
      cases hname
    have hplain : c ∉ marks := by
      have hmarks : All (fun d => !isDigit d && d != '.' && d != '-') marks := by decide
      intro hmem
      obtain ⟨⟨hdigit, hpoint⟩, hminus⟩ : (isDigit c = false ∧ c ≠ '.') ∧ c ≠ '-' := by
        simpa using hmarks c hmem
      refine hne (Numeral.scan_eq_none_iff.mpr ?_)
      rw [Numeral.scanMinus_of_ne hminus]
      simp [Numeral.beginsUnsigned, hdigit, hpoint]
    rw [List.cons_append] at hfound
    rw [List.cons_append, next?_of_plain hplain, if_neg hbare, hfound, Option.map_some,
      List.nil_append]

/-- Texts with a comma and a blank between them, and a closing parenthesis behind them. -/
def enclosed (texts : List (List Char)) (rest : List Char) : List Char :=
  [',', ' '].intercalate texts ++ ')' :: rest

theorem enclosed_cons {cs : List Char} {texts : List (List Char)} (h : texts ≠ [])
    (rest : List Char) :
    enclosed (cs :: texts) rest = cs ++ ',' :: ' ' :: enclosed texts rest := by
  obtain ⟨ds, more, rfl⟩ := List.exists_cons_of_ne_nil h
  rw [enclosed, enclosed, List.intercalate_cons_cons, List.append_assoc, List.append_assoc]
  rfl

/-- The texts of tokens, with commas between them, are the tokens with commas between them. -/
theorem tokens?_enclosed {texts : List (List Char)} {ts : List Token} (hne : texts ≠ [])
    (h : List.Forall₂ Spells texts ts) (rest : List Char) :
    tokens? (enclosed texts rest) = (tokens? rest).map (enlisted ts) := by
  induction h with
  | nil => exact absurd rfl hne
  | @cons cs t texts ts hspells h ih =>
    cases h with
    | nil =>
      have hends : Ends (')' :: rest) := ends_cons.mpr (by decide)
      rw [enclosed, List.intercalate_singleton, hspells.tokens?_append hends, tokens?_rightParen,
        Option.map_map]
      rfl
    | @cons ds u more us hmore htail =>
      have hends : ∀ cs, Ends (',' :: cs) := fun _ => ends_cons.mpr (by decide)
      have hlist : enlisted (t :: u :: us) = (t :: ·) ∘ (.comma :: ·) ∘ enlisted (u :: us) :=
        funext fun rest => enlisted_cons (by simp) rest
      rw [enclosed_cons (by simp), hspells.tokens?_append (hends _), tokens?_comma, tokens?_blank,
        ih (by simp), Option.map_map, Option.map_map, hlist]
      rfl

end PatternSql.Sql.Plain
