import PatternSql.Proofs.Literal.Spelling
import PatternSql.Proofs.Sql.PlainReader
import PatternSql.Sql.Command

/-!
# Insertions in the plain layout

In the plain layout a name, and a value that was read from a token, is written as one token of the
plain reader: quotes inside a name or a string are doubled, and a negative number is a minus and a
numeral in one. Lists have a comma and a blank between their entries and no line breaks. So the text
of an insertion has the tokens that its names and values stand for, each in its place.

Main results:

* `spells_plainName`, `writtenAs_ofLiteral`: a name and a value are one token.
* `tokens?_insert`: the tokens of the text of an insertion.
-/

namespace PatternSql.Sql

open Text Plain

/-- How a name is written in the plain layout. -/
def plainName (text : String) : List Char :=
  write .generic (Layout.plain.nameOf text)

/-- How an expression is written in the plain layout. -/
def Expr.plain (e : Expr) : List Char :=
  write .generic (e.adaptedPieces .plain)

/-- There are no line breaks among pieces. -/
def Unbroken (ps : List Piece) : Prop :=
  ∀ p ∈ ps, p.isLine = false

theorem unbroken_nil : Unbroken [] :=
  List.forall_mem_nil _

theorem unbroken_cons {p : Piece} {ps : List Piece} :
    Unbroken (p :: ps) ↔ p.isLine = false ∧ Unbroken ps :=
  List.forall_mem_cons

theorem unbroken_append {ps qs : List Piece} (hps : Unbroken ps) (hqs : Unbroken qs) :
    Unbroken (ps ++ qs) :=
  fun p hp => (List.mem_append.mp hp).elim (hps p) (hqs p)

/-- Pieces without a line break do not hang. -/
theorem Unbroken.hang_eq {ps : List Piece} (h : Unbroken ps) : hang ps = ps := by
  induction ps with
  | nil => rfl
  | cons p ps ih =>
    obtain ⟨-, hps⟩ := unbroken_cons.mp h
    have hany : ¬ps.any Piece.isLine = true := by simpa [Unbroken] using hps
    rw [hang, if_neg hany, ih hps]

/-! ## Names -/

/-- The characters that a bare word begins with carry no digit. -/
theorem isDigitLike_of_beginsBare {c : Char} (h : beginsBare c = true) :
    isDigitLike c = false := by
  obtain ⟨hstart, hsmall⟩ := beginsBare_spec h
  have hdigit : isDigit c = false := by
    simpa using (Bool.and_eq_true_iff.mp hstart).2
  have hranges : ∀ range ∈ markedDigitRanges, 128 ≤ range.1 := by decide
  rw [isDigitLike, hdigit, Bool.false_or, ← Bool.not_eq_true, Ranges.has_iff]
  rintro ⟨range, hrange, hlow, -⟩
  have := hranges range hrange
  omega

/-- A simple name is written bare in the generic dialect. -/
theorem admits_generic {text : String} {c : Char} {cs : List Char} (htext : text.toList = c :: cs)
    (hc : beginsBare c = true) : Dialect.generic.admits text = true := by
  rw [Dialect.admits, isReservedName_generic, htext, List.head?_cons, Option.any_some,
    isDigitLike_of_beginsBare hc]
  rfl

/-- A name of word characters is written bare if it is simple, else between quotes. -/
theorem nameOf_plain {text : String} (h : All isWord text.toList) :
    ∃ l : Lexeme, Layout.plain.nameOf text = [.lexeme l] ∧
      Spells (l.text .generic).toList (.ofName text) := by
  rw [Layout.nameOf, Layout.name, Token.ofName]
  by_cases hsimple : isSimple text = true
  · rw [if_pos hsimple, Name.ofText_eq_bare_iff.mpr hsimple]
    cases htext : text.toList with
    | nil => simp [isSimple, htext] at hsimple
    | cons c cs =>
      have hc : beginsBare c = true := by
        simp only [isSimple, htext, Bool.and_eq_true] at hsimple
        exact hsimple.1
      have hlexeme : (Name.bare text).lexeme .generic false = .word text :=
        Name.lexeme_bare (admits_generic htext hc)
      have hbare : isBare text.toList = true := by
        rw [htext] at h ⊢
        exact Bool.and_eq_true_iff.mpr ⟨hc, List.all_eq_true.mpr (all_cons.mp h).2⟩
      refine ⟨.word text, ?_, spells_word hbare⟩
      rw [Layout.plain, hlexeme]
      rfl
  · have hspells := spells_name text.toList
    rw [String.ofList_toList] at hspells
    rw [if_neg hsimple, Name.ofText, if_neg hsimple, Name.lexeme_quoted]
    refine ⟨.name text, rfl, ?_⟩
    rw [Lexeme.text, quoteName, String.toList_ofList]
    exact hspells

/-- A name is one token. -/
theorem spells_plainName {text : String} (h : All isWord text.toList) :
    Spells (plainName text) (.ofName text) := by
  obtain ⟨l, hl, hspells⟩ := nameOf_plain h
  rw [plainName, hl, write_cons, write_nil, List.append_nil]
  exact hspells

/-! ## Values -/

/-- An expression is written as one token, without line breaks. -/
structure WrittenAs (e : Expr) (t : Plain.Token) : Prop where
  unbroken : Unbroken (e.adaptedPieces .plain)
  spells : Spells e.plain t

theorem writtenAs_of_lexeme {e : Expr} {l : Lexeme} {t : Plain.Token}
    (hpieces : e.adaptedPieces .plain = [.lexeme l]) (h : Spells (l.text .generic).toList t) :
    WrittenAs e t := by
  constructor
  · rw [hpieces]
    exact unbroken_cons.mpr ⟨rfl, unbroken_nil⟩
  · rw [Expr.plain, hpieces, write_cons, write_nil, List.append_nil]
    exact h

theorem writtenAs_number {text : String} {n : Numeral} (h : Numeral.ofChars? text.toList = some n) :
    WrittenAs (.number text) (.number n) := by
  refine writtenAs_of_lexeme (l := .number text) ?_ (spells_number h)
  rw [Expr.adaptedPieces, Expr.adapt, Expr.pieces, Expr.parts]
  rfl

/-- A minus and the numeral after it are one token. -/
theorem writtenAs_negative {text : String} {n : Numeral}
    (h : Numeral.ofChars? ('-' :: text.toList) = some n) :
    WrittenAs (.negative (.number text)) (.number n) := by
  have hpieces : (Expr.negative (.number text)).adaptedPieces .plain =
      [markPiece .minus, .lexeme (.number text)] := by
    rw [Expr.adaptedPieces, Expr.adapt, Expr.adapt, Expr.pieces, Expr.parts, Expr.parts]
    rfl
  constructor
  · rw [hpieces]
    exact unbroken_cons.mpr ⟨rfl, unbroken_cons.mpr ⟨rfl, unbroken_nil⟩⟩
  · have hchars : write .generic [markPiece .minus, .lexeme (.number text)] =
        '-' :: text.toList := by
      simp [write, Piece.text, markPiece, Lexeme.text, Mark.text]
    rw [Expr.plain, hpieces, hchars]
    exact spells_number h

theorem writtenAs_string (text : String) : WrittenAs (.string text) (.string text) := by
  have hpieces : (Expr.string text).adaptedPieces .plain = [.lexeme (.string text)] := by
    rw [Expr.adaptedPieces, Expr.adapt, Expr.pieces, Expr.parts]
    rfl
  have hescape : text.toList.flatMap (escapeChar .generic) = double '\'' text.toList := rfl
  have hspells := spells_string text.toList
  rw [String.ofList_toList] at hspells
  refine writtenAs_of_lexeme hpieces ?_
  rw [Lexeme.text, quoteString, String.toList_ofList, hescape]
  exact hspells

/-- The words for truth values and for nothing. -/
theorem writtenAs_keyword {e : Expr} {text : String}
    (hpieces : e.adaptedPieces .plain = keyword text) (h : isBare text.toList = true) :
    WrittenAs e (.word text) :=
  writtenAs_of_lexeme hpieces (spells_word h)

theorem writtenAs_name {text : String} (h : All isWord text.toList) :
    WrittenAs (.ofName (.ofText text)) (.ofName text) := by
  obtain ⟨l, hl, hspells⟩ := nameOf_plain h
  refine writtenAs_of_lexeme ?_ hspells
  rw [← hl, Expr.ofName, Expr.adaptedPieces, Expr.adapt, Expr.pieces, Expr.parts]
  rfl

theorem writtenAs_ofInt (i : Int) : WrittenAs (.ofInt i) (.number (.ofInt i)) := by
  have hread := Numeral.ofChars?_toString i
  rw [Expr.ofInt]
  split
  · rename_i hi
    have hchars : (toString i).toList = '-' :: (toString i.natAbs).toList := by
      have habs : (-i).toNat = i.natAbs := by omega
      rw [Int.toString_eq_repr, Int.repr_eq_if, if_neg (by omega), String.toList_append, habs]
      rfl
    rw [hchars] at hread
    exact writtenAs_negative hread
  · exact writtenAs_number hread

/-- A finite double is written as a numeral that is rounded to it. -/
theorem writtenAs_ofDouble {x : Double} (h : x.isFinite = true) :
    ∃ n, WrittenAs (.ofDouble x) (.number n) ∧ n.toDouble = x := by
  obtain ⟨n, hn, -, hvalue⟩ := Double.ofChars?_text h
  unfold Expr.ofDouble
  split
  · rename_i m e hcanonical
    obtain ⟨n, hn, hvalue⟩ := Double.ofChars?_negative hcanonical
    exact ⟨n, writtenAs_negative hn, hvalue⟩
  · exact ⟨n, writtenAs_number hn, hvalue⟩

/-- A value of a row says the same as a literal: the same string, name or truth value, or a number
    that is the same integer or is rounded to the same double. -/
def Plain.Value.StandsFor : Plain.Value → Literal → Prop
  | string s, .string t => s = t
  | number n, .integer i => n.isInteger = true ∧ n.toInt = i
  | number n, .float x => n.toDouble = x
  | boolean a, .boolean b => a = b
  | null, .null => True
  | identifier s, .identifier t => s = t
  | _, _ => False

/-- A literal that reads back is written as a value that stands for it. -/
theorem writtenAs_ofLiteral {v : Literal} (hv : v.ReadsBack) {e : Expr}
    (h : Expr.ofLiteral v = .ok e) :
    ∃ value : Plain.Value, value.StandsFor v ∧ value.IsRegular ∧ WrittenAs e value.token := by
  cases v with
  | string text =>
    obtain rfl := Except.ok.inj h
    exact ⟨.string text, rfl, trivial, writtenAs_string text⟩
  | integer i =>
    rw [Expr.ofLiteral] at h
    split at h
    · cases h
    obtain rfl := Except.ok.inj h
    exact ⟨.number (.ofInt i), ⟨rfl, Numeral.toInt_ofInt i⟩, trivial, writtenAs_ofInt i⟩
  | float x =>
    rw [Expr.ofLiteral] at h
    split at h
    · rename_i hfinite
      obtain rfl := Except.ok.inj h
      obtain ⟨n, hn, hvalue⟩ := writtenAs_ofDouble hfinite
      exact ⟨.number n, hvalue, trivial, hn⟩
    · cases h
  | boolean value =>
    obtain rfl := Except.ok.inj h
    have hpieces : (Expr.boolean value).adaptedPieces .plain =
        keyword (if value then "TRUE" else "FALSE") := by
      rw [Expr.adaptedPieces, Expr.adapt, Expr.pieces, Expr.parts]
      rfl
    refine ⟨.boolean value, rfl, trivial, ?_⟩
    cases value
    · exact writtenAs_keyword hpieces (by decide)
    · exact writtenAs_keyword hpieces (by decide)
  | null =>
    obtain rfl := Except.ok.inj h
    have hpieces : Expr.null.adaptedPieces .plain = keyword "NULL" := by
      rw [Expr.adaptedPieces, Expr.adapt, Expr.pieces, Expr.parts]
      rfl
    exact ⟨.null, trivial, trivial, writtenAs_keyword hpieces (by decide)⟩
  | identifier name =>
    obtain rfl := Except.ok.inj h
    obtain ⟨hword, hother⟩ := hv.identifier
    refine ⟨.identifier name, rfl, ?_, writtenAs_name hword⟩
    have hfolded : Literal.ofWord? (folded name) = none := hother
    unfold Literal.ofWord? at hfolded
    split_ifs at hfolded with htrue hfalse hnull
    simp [Plain.Value.IsRegular, htrue, hfalse, hnull]
  | unspecified => cases h

/-! ## Lists -/

theorem inRow_singleton (ps : List Piece) : inRow [ps] = ps := rfl

theorem inRow_cons {ps : List Piece} {parts : List (List Piece)} (h : parts ≠ []) :
    inRow (ps :: parts) = ps ++ markPiece .comma :: .blank :: inRow parts := by
  obtain ⟨qs, more, rfl⟩ := List.exists_cons_of_ne_nil h
  cases more <;> simp [inRow, withCommas, separated]

theorem unbroken_inRow {parts : List (List Piece)} (h : ∀ ps ∈ parts, Unbroken ps) :
    Unbroken (inRow parts) := by
  induction parts with
  | nil => exact unbroken_nil
  | cons ps parts ih =>
    obtain ⟨hps, hparts⟩ := List.forall_mem_cons.mp h
    by_cases hnil : parts = []
    · subst hnil
      exact hps
    · rw [inRow_cons hnil]
      exact unbroken_append hps
        (unbroken_cons.mpr ⟨rfl, unbroken_cons.mpr ⟨rfl, ih hparts⟩⟩)

/-- A row of parts between parentheses has a comma and a blank between any two. -/
theorem write_inRow {parts : List (List Piece)} (h : parts ≠ []) (rest : List Char) :
    write .generic (inRow parts) ++ ')' :: rest = enclosed (parts.map (write .generic)) rest := by
  induction parts with
  | nil => exact absurd rfl h
  | cons ps parts ih =>
    by_cases hnil : parts = []
    · subst hnil
      rw [List.map_singleton, enclosed, List.intercalate_singleton, inRow_singleton]
    · have hcomma : Piece.text .generic (markPiece .comma) = [','] := by decide
      have hblank : Piece.text .generic .blank = [' '] := rfl
      rw [inRow_cons hnil, List.map_cons, enclosed_cons (by simpa using hnil), ← ih hnil,
        write_append, write_cons, write_cons, hcomma, hblank]
      simp

/-- So do texts in one line, if none of them is empty. -/
theorem inLine_eq {texts : List (List Char)} (hne : texts ≠ []) (h : ∀ cs ∈ texts, cs ≠ [])
    (rest : List Char) : inLine texts ++ ')' :: rest = enclosed texts rest := by
  induction texts with
  | nil => exact absurd rfl hne
  | cons cs texts ih =>
    obtain ⟨hcs, htexts⟩ := List.forall_mem_cons.mp h
    by_cases hnil : texts = []
    · subst hnil
      rw [inLine, enclosed, List.intercalate_singleton]
    · rw [inLine, if_neg (by simpa using hcs), enclosed_cons hnil, ← ih hnil htexts]
      · simp
      · exact hnil

/-- The pieces of adapted expressions. -/
theorem partsAll_adaptAll (layout : Layout) (es : List Expr) :
    Expr.partsAll layout (Expr.adaptAll layout.dialect es) =
      es.map (Expr.adaptedPieces layout) := by
  induction es with
  | nil => rw [Expr.adaptAll, Expr.partsAll, List.map_nil]
  | cons e es ih =>
    rw [Expr.adaptAll, Expr.partsAll, ih, List.map_cons]
    rfl

/-! ## Insertions -/

theorem list_plain (texts : List (List Char)) : Layout.plain.list [] texts = inLine texts := by
  have hspread : Layout.plain.spread = false := rfl
  rw [Layout.list, if_neg (by rw [hspread]; decide), List.nil_append]
  split
  · rename_i hempty
    exact (List.isEmpty_iff.mp hempty).symm
  · rfl

/-- The columns of an insertion and what follows them. -/
theorem columnList_plain {columns : List String} (hne : columns ≠ [])
    (h : ∀ c ∈ columns, plainName c ≠ []) (rest : List Char) :
    columnList .plain columns ++ rest =
      ' ' :: '(' :: enclosed (columns.map plainName) rest := by
  have hempty : ¬columns.isEmpty = true := by simpa using hne
  have hspread : ¬Layout.plain.spread = true := by decide
  have hline : inLine (columns.map plainName) ++ ')' :: rest =
      enclosed (columns.map plainName) rest :=
    inLine_eq (by simpa using hne) (by simpa using h) rest
  rw [columnList, if_neg hempty, list_plain, if_neg hspread, ← hline]
  simp only [List.cons_append, List.nil_append, List.append_assoc]
  rfl

/-- The values of an insertion. -/
theorem valueList_plain {row : List Expr} (hne : row ≠ [])
    (h : ∀ e ∈ row, Unbroken (e.adaptedPieces .plain)) :
    write .generic (valueList .plain row) = '(' :: enclosed (row.map Expr.plain) [] := by
  have hparts : (Expr.tuple row).adaptedPieces .plain =
      markPiece .leftParen ::
        Layout.plain.entries (row.map (Expr.adaptedPieces .plain)) ++ [markPiece .rightParen] := by
    rw [Expr.adaptedPieces, Expr.adapt, Expr.pieces, Expr.parts, partsAll_adaptAll]
    rfl
  have hunbroken : Unbroken (inRow (row.map (Expr.adaptedPieces .plain))) :=
    unbroken_inRow (List.forall_mem_map.mpr h)
  have hentries : Layout.plain.entries (row.map (Expr.adaptedPieces .plain)) =
      inRow (row.map (Expr.adaptedPieces .plain)) := by
    rw [Layout.entries, Layout.breaks_of_not_spread rfl, if_neg (by decide), hunbroken.hang_eq]
  have hopening : Piece.text .generic (markPiece .leftParen) = ['('] := by decide
  have hclosing : Piece.text .generic (markPiece .rightParen) = [')'] := by decide
  have hrow : write .generic (inRow (row.map (Expr.adaptedPieces .plain))) ++ [')'] =
      enclosed (row.map Expr.plain) [] := by
    rw [write_inRow (by simpa using hne), List.map_map]
    rfl
  rw [valueList, hparts, hentries, List.cons_append, write_cons, write_append, write_cons,
    write_nil, hopening, hclosing, List.append_nil, hrow]
  rfl

/-- The characters of an insertion. -/
theorem insert_chars {table : String} {columns : List String} {row : List Expr}
    (hcolumns : columns ≠ []) (hrow : row ≠ []) (hnames : ∀ c ∈ columns, plainName c ≠ [])
    (hvalues : ∀ e ∈ row, Unbroken (e.adaptedPieces .plain)) :
    (Command.insert table columns row).chars .plain =
      "INSERT".toList ++ ' ' :: ("INTO".toList ++ ' ' ::
        (plainName table ++ ' ' :: '(' :: enclosed (columns.map plainName)
          (' ' :: ("VALUES".toList ++ ' ' :: '(' :: enclosed (row.map Expr.plain) [])))) := by
  have hbelow : Layout.plain.below (valueList .plain row) =
      write .generic (valueList .plain row) := rfl
  have hname : write .generic (Layout.plain.nameOf table) = plainName table := rfl
  have hdialect : Layout.plain.dialect = .generic := rfl
  have hgap : Layout.plain.gap = .blank := rfl
  have hbreak : Layout.plain.breakBelow = .blank := rfl
  have hblank : Piece.text .generic .blank = [' '] := rfl
  have hword (text : String) : Piece.text .generic (.lexeme (.word text)) = text.toList := rfl
  rw [Command.chars, hbelow, valueList_plain hrow hvalues, List.append_assoc, List.append_assoc,
    columnList_plain hcolumns hnames]
  simp only [hdialect, hgap, hbreak, keyword, write_cons, write_nil, hblank, hword, hname,
    List.cons_append, List.nil_append, List.append_nil, List.append_assoc]

/-- The tokens of the text of an insertion. -/
theorem tokens?_insert {table : String} {columns : List String} {row : List Expr}
    {values : List Plain.Value} (hne : columns ≠ []) (hrow : row ≠ [])
    (htable : All isWord table.toList) (hcolumns : ∀ c ∈ columns, All isWord c.toList)
    (hvalues : List.Forall₂ (fun e (v : Plain.Value) => WrittenAs e v.token) row values) :
    tokens? ((Command.insert table columns row).text .plain).toList =
      some (Plain.Insertion.tokens ⟨table, columns, values⟩) := by
  have hwritten : ∀ e ∈ row, ∃ t, WrittenAs e t := by
    clear hrow
    induction hvalues with
    | nil => exact List.forall_mem_nil _
    | cons h _ ih => exact List.forall_mem_cons.mpr ⟨⟨_, h⟩, ih⟩
  have hnames : ∀ c ∈ columns, plainName c ≠ [] := fun c hc => by
    obtain ⟨d, ds, hd, -⟩ := (spells_plainName (hcolumns c hc)).begins
    rw [hd]
    exact List.cons_ne_nil d ds
  have hunbroken : ∀ e ∈ row, Unbroken (e.adaptedPieces .plain) := fun e he => by
    obtain ⟨t, ht⟩ := hwritten e he
    exact ht.unbroken
  have hcolumnTexts : List.Forall₂ Spells (columns.map plainName) (columns.map .ofName) := by
    rw [List.forall₂_map_left_iff, List.forall₂_map_right_iff, List.forall₂_same]
    exact fun c hc => spells_plainName (hcolumns c hc)
  have hvalueTexts : List.Forall₂ Spells (row.map Expr.plain) (values.map Plain.Value.token) := by
    rw [List.forall₂_map_left_iff, List.forall₂_map_right_iff]
    exact hvalues.imp fun e v h => h.spells
  have hinsert : Spells "INSERT".toList (.word "INSERT") := spells_word (by decide)
  have hinto : Spells "INTO".toList (.word "INTO") := spells_word (by decide)
  have hkeyword : Spells "VALUES".toList (.word "VALUES") := spells_word (by decide)
  have hends (cs : List Char) : Ends (' ' :: cs) := ends_cons.mpr (by decide)
  have hnil : tokens? [] = some [] := by rw [tokens?]
  rw [Command.text, String.toList_ofList, insert_chars hne hrow hnames hunbroken,
    hinsert.tokens?_append (hends _), tokens?_blank, hinto.tokens?_append (hends _), tokens?_blank,
    (spells_plainName htable).tokens?_append (hends _), tokens?_blank, tokens?_leftParen,
    tokens?_enclosed (by simpa using hne) hcolumnTexts, tokens?_blank,
    hkeyword.tokens?_append (hends _), tokens?_blank, tokens?_leftParen,
    tokens?_enclosed (by simpa using hrow) hvalueTexts, hnil]
  rfl

end PatternSql.Sql
