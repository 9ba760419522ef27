import PatternSql.Proofs.Sql.Legible

/-!
# The text of stable expressions

In the plain layout an expression is a row of pieces without line breaks: operators stand between
blanks, and lists have a comma and a blank between their entries. The pieces of a stable expression
are legible, and such an expression is already of the generic dialect. So the lexemes of its text
are those that it is written as.

Main results:

* `Expr.adapt_of_isStable`: a stable expression is its own form in the generic dialect.
* `Expr.legible_pieces`: the pieces of a stable expression are legible.
-/

namespace PatternSql.Sql

open Text

/-! ## Pieces in the plain layout -/

theorem inWords_plain (parts : List (List Piece)) :
    Layout.plain.inWords parts = separated [.blank] parts := rfl

theorem separated_cons {separator ps : List Piece} {parts : List (List Piece)} (h : parts ≠ []) :
    separated separator (ps :: parts) = ps ++ separator ++ separated separator parts := by
  obtain ⟨qs, more, rfl⟩ := List.exists_cons_of_ne_nil h
  rfl

theorem separated_append {separator : List Piece} {parts more : List (List Piece)}
    (hparts : parts ≠ []) (hmore : more ≠ []) :
    separated separator (parts ++ more) =
      separated separator parts ++ separator ++ separated separator more := by
  induction parts with
  | nil => exact absurd rfl hparts
  | cons ps parts ih =>
    by_cases hnil : parts = []
    · rw [hnil, List.singleton_append, separated_cons hmore]
      rfl
    · rw [List.cons_append, separated_cons (List.append_ne_nil_of_left_ne_nil hnil more),
        separated_cons hnil, ih hnil]
      simp only [List.append_assoc]

theorem separated_led {d : Dialect} {op : Operator} {parts : List (List Piece)} (h : parts ≠ []) :
    separated [.blank] (led d op parts) =
      op.pieces d ++ .blank :: separated [.blank] parts := by
  obtain ⟨ps, rest, rfl⟩ := List.exists_cons_of_ne_nil h
  cases rest with
  | nil => rfl
  | cons qs rest => simp [led, separated]

namespace Expr

/-- An operator stands between blanks, be it a connective or not. -/
theorem pieces_binary (op : Operator) (left right : Expr) :
    (binary op left right).pieces .plain =
      left.pieces .plain ++ .blank :: op.pieces .generic ++ .blank :: right.pieces .plain := by
  have hdialect : Layout.plain.dialect = .generic := rfl
  have hright := parts_ne_nil .plain right
  have hled : led .generic op (right.parts .plain) ≠ [] := by
    obtain ⟨ps, rest, hparts⟩ := List.exists_cons_of_ne_nil hright
    rw [hparts]
    exact List.cons_ne_nil _ _
  simp only [pieces, inWords_plain]
  rw [parts, hdialect]
  split
  · rw [separated_append (parts_ne_nil .plain left) hled, separated_led hright]
    simp only [List.append_assoc, List.nil_append, List.cons_append]
  · rfl

theorem pieces_not (e : Expr) :
    (not e).pieces .plain = .lexeme (.word "NOT") :: .blank :: e.pieces .plain := by
  rw [pieces, parts]
  rfl

theorem pieces_negative (e : Expr) :
    (negative e).pieces .plain =
      markPiece .minus ::
        ((if beginsWithSign (e.pieces .plain) then [.blank] else []) ++ e.pieces .plain) := by
  rw [pieces, parts]
  rfl

theorem pieces_paren (e : Expr) :
    (paren e).pieces .plain = markPiece .leftParen :: e.pieces .plain ++ [markPiece .rightParen] := by
  rw [pieces, parts]
  rfl

theorem pieces_between (operand low high : Expr) :
    (between operand low high).pieces .plain =
      operand.pieces .plain ++ .blank :: keyword "BETWEEN" ++ .blank :: low.pieces .plain ++
        .blank :: keyword "AND" ++ .blank :: high.pieces .plain := by
  rw [pieces, parts]
  rfl

theorem pieces_named (e : Expr) (name : Name) :
    (named e name).pieces .plain =
      e.pieces .plain ++ .blank :: keyword "AS" ++ .blank :: Layout.plain.name name := by
  rw [pieces, parts]
  rfl

theorem partsAll_eq_map (layout : Layout) (es : List Expr) :
    partsAll layout es = es.map (pieces layout) := by
  induction es with
  | nil => rw [partsAll, List.map_nil]
  | cons e es ih =>
    rw [partsAll, ih, List.map_cons]
    rfl

theorem entries_plain (es : List Expr) :
    Layout.plain.entries (partsAll .plain es) = hang (inRow (es.map (pieces .plain))) := by
  rw [partsAll_eq_map]
  rfl

theorem arguments_plain (es : List Expr) :
    Layout.plain.arguments (partsAll .plain es) = inRow (es.map (pieces .plain)) := by
  rw [partsAll_eq_map]
  rfl

theorem pieces_tuple (es : List Expr) :
    (tuple es).pieces .plain =
      markPiece .leftParen :: hang (inRow (es.map (pieces .plain))) ++ [markPiece .rightParen] := by
  rw [pieces, parts, entries_plain]
  rfl

theorem pieces_member (e : Expr) (es : List Expr) :
    (member e es).pieces .plain =
      e.pieces .plain ++ .blank :: keyword "IN" ++ .blank :: markPiece .leftParen ::
        hang (inRow (es.map (pieces .plain))) ++ [markPiece .rightParen] := by
  rw [pieces, parts, entries_plain]
  rfl

theorem pieces_call (function : Name) (es : List Expr) :
    (call function es).pieces .plain =
      .lexeme function.functionLexeme :: markPiece .leftParen ::
        inRow (es.map (pieces .plain)) ++ [markPiece .rightParen] := by
  rw [pieces, parts, arguments_plain]
  rfl

theorem pieces_distinct (es : List Expr) :
    (distinct es).pieces .plain =
      keyword "DISTINCT" ++
        if es.isEmpty then [] else .blank :: inRow (es.map (pieces .plain)) := by
  rw [pieces, parts, partsAll_eq_map]
  rfl

theorem pieces_column (qualifiers : List Name) (name : Name) :
    (column qualifiers name).pieces .plain =
      dotted (qualifiers.map Layout.plain.name ++ [Layout.plain.name name]) := by
  rw [pieces, parts]
  rfl

theorem pieces_star (qualifiers : List Name) :
    (star qualifiers).pieces .plain =
      dotted (qualifiers.map Layout.plain.name ++ [[markPiece .star]]) := by
  rw [pieces, parts]
  rfl

/-! ## Adaptation -/

/-- Nothing is replaced by an operator that is read in the generic dialect. -/
theorem applied_generic {op : Operator} (h : op.isStable = true) (left right : Expr) :
    applied .generic op left right left right = binary op left right := by
  cases op with
  | divide rule =>
    obtain rfl : rule = ⟨false, false⟩ := of_decide_eq_true h
    rfl
  | power => cases h
  | _ => rfl

theorem functionName_generic (function : Name) (count : Nat) :
    functionName .generic function count = function := by
  unfold functionName
  split
  · split <;> rfl
  · rfl

mutual

/-- A stable expression is its own form in the generic dialect. -/
theorem adapt_of_isStable : ∀ e : Expr, e.isStable = true → e.adapt .generic = e
  | .column qualifiers name, _ => by rw [adapt]
  | .star qualifiers, _ => by rw [adapt]
  | .number text, _ => by rw [adapt]
  | .string text, _ => by rw [adapt]
  | .boolean value, _ => by rw [adapt]
  | .null, _ => by rw [adapt]
  | .paren inner, h => by
    rw [isStable] at h
    rw [adapt, adapt_of_isStable inner h]
  | .tuple entries, h => by
    rw [isStable, Bool.and_eq_true] at h
    rw [adapt, adaptAll_of_areStable entries h.2]
  | .negative operand, h => by
    rw [isStable] at h
    rw [adapt, adapt_of_isStable operand h]
  | .not operand, h => by
    rw [isStable] at h
    rw [adapt, adapt_of_isStable operand h]
  | .binary op left right, h => by
    simp only [isStable, Bool.and_eq_true] at h
    rw [adapt, adapt_of_isStable left h.1.1.2, adapt_of_isStable right h.1.2,
      applied_generic h.1.1.1.1]
  | .between operand low high, h => by
    simp only [isStable, Bool.and_eq_true] at h
    rw [adapt, adapt_of_isStable operand h.1.1.2, adapt_of_isStable low h.1.2,
      adapt_of_isStable high h.2]
  | .member operand list, h => by
    simp only [isStable, Bool.and_eq_true] at h
    rw [adapt, adapt_of_isStable operand h.1.2, adaptAll_of_areStable list h.2]
  | .call function arguments, h => by
    simp only [isStable, Bool.and_eq_true] at h
    rw [adapt, functionName_generic, adaptAll_of_areStable arguments h.2]
  | .distinct entries, h => by
    rw [isStable] at h
    rw [adapt, adaptAll_of_areStable entries h]
    rfl
  | .named operand name, h => by
    simp only [isStable, Bool.and_eq_true] at h
    rw [adapt, adapt_of_isStable operand h.1]

/-- So are all of some stable expressions. -/
theorem adaptAll_of_areStable : ∀ es : List Expr, areStable es = true → adaptAll .generic es = es
  | [], _ => by rw [adaptAll]
  | e :: es, h => by
    rw [areStable, Bool.and_eq_true] at h
    rw [adaptAll, adapt_of_isStable e h.1, adaptAll_of_areStable es h.2]

end

end Expr

/-! ## Legibility -/

theorem isInert_word {text : String} (h : text ∈ connectiveWords) :
    (Lexeme.word text).isInert = true :=
  List.contains_iff_mem.mpr h

theorem legible_keyword (text : String) (h : text ∈ connectiveWords) : Legible (keyword text) := by
  have hall : ∀ text ∈ connectiveWords, (Lexeme.word text).isSpelled = true := by decide
  exact legible_lexeme (hall text h)

/-- Pieces with a word of the language between them. -/
theorem Legible.joinedBy {text : String} (h : text ∈ connectiveWords) {ps qs : List Piece}
    (hps : Legible ps) (hqs : Legible qs) :
    Legible (ps ++ .blank :: keyword text ++ .blank :: qs) :=
  hps.joined (legible_keyword text h) hqs (List.cons_ne_nil _ _)
    (List.forall_mem_singleton.mpr (isInert_word h))

/-- Pieces after a word of the language. -/
theorem Legible.after (text : String) (h : text ∈ connectiveWords) {ps : List Piece}
    (hps : Legible ps) : Legible (keyword text ++ .blank :: ps) := by
  refine (legible_keyword text h).spaced hps fun l hl l' _ => ?_
  obtain rfl : Lexeme.word text = l := Option.some.inj hl
  exact Lexeme.apart_left (isInert_word h) l'

theorem legible_separated {ls : List Lexeme}
    (h : ∀ l ∈ ls, l.isSpelled = true ∧ l.isInert = true) :
    Legible (separated [.blank] (ls.map fun l => [.lexeme l])) := by
  induction ls with
  | nil => exact legible_nil
  | cons l ls ih =>
    obtain ⟨hl, hls⟩ := List.forall_mem_cons.mp h
    by_cases hnil : ls = []
    · subst hnil
      exact legible_lexeme hl.1
    · rw [List.map_cons, separated_cons (by simpa using hnil), List.append_assoc]
      refine (legible_lexeme hl.1).spaced (ih hls) fun m hm m' _ => ?_
      obtain rfl : l = m := Option.some.inj hm
      exact Lexeme.apart_left hl.2 m'

theorem spelled_operator {op : Operator} (h : op.isStable = true) :
    ∀ l ∈ op.lexemes .generic, l.isSpelled = true ∧ l.isInert = true := by
  cases op with
  | like negated => cases negated <;> decide
  | sameAs => cases h
  | differsFrom => cases h
  | xor => cases h
  | divide rule => exact List.forall_mem_singleton.mpr ⟨rfl, rfl⟩
  | _ => decide

/-- Pieces with a stable operator between them. -/
theorem Legible.operated {op : Operator} (h : op.isStable = true) {ps qs : List Piece}
    (hps : Legible ps) (hqs : Legible qs) :
    Legible (ps ++ .blank :: op.pieces .generic ++ .blank :: qs) := by
  have hspelled := spelled_operator h
  have hne : lexemesOf (op.pieces .generic) ≠ [] := by
    rw [Expr.lexemes_operator]
    cases op with
    | like negated => cases negated <;> decide
    | _ => exact List.cons_ne_nil _ _
  refine hps.joined (legible_separated hspelled) hqs hne ?_
  rw [Expr.lexemes_operator]
  exact fun l hl => (hspelled l hl).2

/-- A minus ends before any lexeme but another one. -/
theorem minus_adjoins {p : Piece} (hp : p ≠ markPiece .minus) {ps : List Piece}
    (h : Legible (p :: ps)) : (markPiece .minus).Adjoins p := by
  rintro l ⟨⟩ c hc
  obtain ⟨cs, hcs⟩ : ∃ cs, p.text .generic = c :: cs := List.head?_eq_some_iff.mp hc
  suffices hne : c ≠ '-' by simpa [Lexeme.endsBefore] using hne
  have hquoted (quote : Char) (hquote : quote ≠ '-') {ds : List Char}
      (hl : (String.ofList (quote :: ds)).toList = c :: cs) : c ≠ '-' := by
    rw [String.toList_ofList] at hl
    exact (List.cons.inj hl).1 ▸ hquote
  cases p with
  | lexeme l =>
    have hl := h.spelled l List.mem_cons_self
    cases l with
    | word text =>
      have hword : isWordText text = true := hl
      have htext : text.toList = c :: cs := hcs
      rintro rfl
      simp [isWordText, htext, endsWord, isSpecial] at hword
    | name text => exact hquoted '"' (by decide) hcs
    | string text => exact hquoted '\'' (by decide) hcs
    | number text =>
      have hnumber : isNumeralText text = true := hl
      have htext : text.toList = c :: cs := hcs
      rintro rfl
      simp [isNumeralText, htext] at hnumber
    | mark m =>
      have hmark : m.text.toList = c :: cs := hcs
      rintro rfl
      cases m <;> first | exact hp rfl | cases hmark
    | bytes base digits => cases hl
    | parameter label => cases hl
  | blank => exact (List.cons.inj hcs).1 ▸ (by decide : ' ' ≠ '-')
  | line depth => exact (List.cons.inj hcs).1 ▸ (by decide : '\n' ≠ '-')

/-- Pieces after a sign. -/
theorem Legible.negated {ps : List Piece} (h : Legible ps) :
    Legible (markPiece .minus :: ((if beginsWithSign ps then [.blank] else []) ++ ps)) := by
  have hminus : Legible [markPiece .minus] := legible_lexeme rfl
  have hapart : ∀ l ∈ (lexemesOf [markPiece .minus]).getLast?, ∀ l' ∈ (lexemesOf ps).head?,
      l.Apart l' := by
    intro l hl l' _
    obtain rfl : Lexeme.mark .minus = l := Option.some.inj hl
    exact Lexeme.apart_left rfl l'
  split
  · exact hminus.spaced h hapart
  · rename_i hsign
    refine hminus.append h (fun p hp q hq => ?_) hapart
    obtain rfl : markPiece .minus = p := Option.some.inj hp
    obtain ⟨qs, rfl⟩ := List.head?_eq_some_iff.mp hq
    exact minus_adjoins (fun heq => hsign (heq ▸ rfl)) h

theorem isStable_of_areDotted {names : List Name} (h : areDotted names = true) {n : Name}
    (hn : n ∈ names) : n.isStable = true := by
  rw [areDotted, Bool.and_eq_true, List.all_eq_true] at h
  exact h.1 n hn

theorem lexeme_of_isStable {n : Name} (h : n.isStable = true) :
    ∃ l : Lexeme, Layout.plain.name n = [.lexeme l] ∧ l.isSpelled = true ∧
      l.endsBefore '.' = true := by
  cases n with
  | bare text =>
    rw [Name.isStable, Bool.and_eq_true, Bool.and_eq_true] at h
    have hlexeme : (Name.bare text).lexeme .generic false = .word text := Name.lexeme_bare h.2
    refine ⟨.word text, ?_, h.1.1, rfl⟩
    rw [Layout.name, Layout.plain, hlexeme]
    rfl
  | quoted text => exact ⟨.name text, rfl, rfl, rfl⟩
  | parameter text => cases h

/-- Names with points between them and before what follows. -/
theorem legible_dotted {names : List Name} (h : ∀ n ∈ names, n.isStable = true) {ps : List Piece}
    (hps : Legible ps) : Legible (dotted (names.map Layout.plain.name ++ [ps])) := by
  induction names with
  | nil => exact hps
  | cons n names ih =>
    obtain ⟨hn, hnames⟩ := List.forall_mem_cons.mp h
    obtain ⟨l, hl, hspelled, hdot⟩ := lexeme_of_isStable hn
    have hpoint : Legible ([.lexeme l] ++ [markPiece .dot]) := by
      refine (legible_lexeme hspelled).append (legible_lexeme rfl) (fun p hp q hq => ?_)
        (fun m _ m' hm' => ?_)
      · obtain rfl : Piece.lexeme l = p := Option.some.inj hp
        obtain rfl : markPiece .dot = q := Option.some.inj hq
        rintro m ⟨⟩ c hc
        obtain rfl : '.' = c := Option.some.inj hc
        exact hdot
      · obtain rfl : Lexeme.mark .dot = m' := Option.some.inj hm'
        exact Lexeme.apart_right rfl m
    rw [List.map_cons, List.cons_append, dotted, separated_cons (by simp), hl]
    refine hpoint.append (ih hnames) (fun p hp q _ => ?_) (fun m hm m' _ => ?_)
    · obtain rfl : markPiece .dot = p := Option.some.inj hp
      rintro m ⟨⟩ c _
      rfl
    · obtain rfl : Lexeme.mark .dot = m := Option.some.inj hm
      exact Lexeme.apart_left rfl m'

theorem legible_name {n : Name} (h : n.isStable = true) : Legible (Layout.plain.name n) := by
  obtain ⟨l, hl, hspelled, -⟩ := lexeme_of_isStable h
  rw [hl]
  exact legible_lexeme hspelled

theorem isSpelled_function {function : Name} (h : function.isAggregate = true) :
    function.functionLexeme.isSpelled = true := by
  cases function with
  | bare text =>
    have hall : ∀ name ∈ Expr.aggregates, isWordText name = true := by decide +kernel
    exact hall text (List.contains_iff_mem.mp h)
  | quoted text => cases h
  | parameter text => cases h

namespace Expr

mutual

/-- The pieces of a stable expression are legible. -/
theorem legible_pieces : ∀ e : Expr, e.isStable = true → Legible (e.pieces .plain)
  | .column qualifiers name, h => by
    rw [isStable] at h
    rw [pieces_column]
    exact legible_dotted (fun n hn => isStable_of_areDotted h (List.mem_append_left _ hn))
      (legible_name (isStable_of_areDotted h (List.mem_append_right _ List.mem_cons_self)))
  | .star qualifiers, h => by
    rw [isStable] at h
    rw [pieces_star]
    exact legible_dotted (fun n hn => isStable_of_areDotted h hn) (legible_lexeme rfl)
  | .number text, h => by
    rw [isStable] at h
    rw [pieces, parts]
    exact legible_lexeme h
  | .string text, _ => by
    rw [pieces, parts]
    exact legible_lexeme rfl
  | .boolean value, _ => by
    rw [pieces, parts]
    cases value
    · exact legible_keyword "FALSE" (by decide)
    · exact legible_keyword "TRUE" (by decide)
  | .null, _ => by
    rw [pieces, parts]
    exact legible_keyword "NULL" (by decide)
  | .paren inner, h => by
    rw [isStable] at h
    rw [pieces_paren]
    exact legible_nil.around (legible_pieces inner h)
  | .tuple entries, h => by
    rw [isStable, Bool.and_eq_true] at h
    have hrow := Legible.list (List.forall_mem_map.mpr (legible_all entries h.2))
    rw [pieces_tuple, hrow.unbroken.hang_eq]
    exact legible_nil.around hrow
  | .negative operand, h => by
    rw [isStable] at h
    rw [pieces_negative]
    exact (legible_pieces operand h).negated
  | .not operand, h => by
    rw [isStable] at h
    rw [pieces_not]
    exact (legible_pieces operand h).after "NOT" (by decide)
  | .binary op left right, h => by
    simp only [isStable, Bool.and_eq_true] at h
    rw [pieces_binary]
    exact (legible_pieces left h.1.1.2).operated h.1.1.1.1 (legible_pieces right h.1.2)
  | .between operand low high, h => by
    simp only [isStable, Bool.and_eq_true] at h
    rw [pieces_between]
    exact ((legible_pieces operand h.1.1.2).joinedBy (by decide)
      (legible_pieces low h.1.2)).joinedBy (by decide) (legible_pieces high h.2)
  | .member operand list, h => by
    simp only [isStable, Bool.and_eq_true] at h
    have hrow := Legible.list (List.forall_mem_map.mpr (legible_all list h.2))
    rw [pieces_member, hrow.unbroken.hang_eq, List.append_assoc]
    exact (legible_pieces operand h.1.2).joinedBy (by decide) (legible_nil.around hrow)
  | .call function arguments, h => by
    simp only [isStable, Bool.and_eq_true] at h
    have hrow := Legible.list (List.forall_mem_map.mpr (legible_all arguments h.2))
    rw [pieces_call]
    exact (legible_lexeme (isSpelled_function h.1)).around hrow
  | .distinct entries, h => by
    rw [isStable] at h
    have hrow := Legible.list (List.forall_mem_map.mpr (legible_all entries h))
    rw [pieces_distinct]
    split
    · exact legible_keyword "DISTINCT" (by decide)
    · exact hrow.after "DISTINCT" (by decide)
  | .named operand name, h => by
    rw [isStable, Bool.and_eq_true] at h
    rw [pieces_named]
    exact (legible_pieces operand h.1).joinedBy (by decide)
      (legible_name (isStable_of_areDotted h.2 List.mem_cons_self))

theorem legible_all : ∀ es : List Expr, areStable es = true → ∀ e ∈ es, Legible (e.pieces .plain)
  | [], _ => List.forall_mem_nil _
  | e :: es, h => by
    rw [areStable, Bool.and_eq_true] at h
    exact List.forall_mem_cons.mpr ⟨legible_pieces e h.1, legible_all es h.2⟩

end

end Expr

end PatternSql.Sql
