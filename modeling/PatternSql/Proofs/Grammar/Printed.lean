import Mathlib.Data.List.Forall2
import PatternSql.Pattern.Reading
import PatternSql.Proofs.Grammar.Rules
import PatternSql.Proofs.Literal.Spelling

/-!
# Printed texts of the grammar

A text is printed for an expression of the grammar if reading cuts it into tokens that the
expression derives, wherever the text stands and whatever follows it, as long as what follows does
not run into its end. Printed texts are put together along the grammar.

Main results:

* `Prints.seq`, `Prints.some`, `Prints.many`, `Prints.commas`: printed texts of composed
  expressions.
* `Prints.mark`, `prints_name`, `prints_value`: printed marks, names and values.
-/

namespace PatternSql

open Text Grammar

/-! ## Blanks and marks -/

theorem firstOf_eq_none {rules : List (LexemeClass × (List Char → Nat))} {cs : List Char}
    (h : ∀ rule ∈ rules, rule.2 cs = 0) : firstOf rules cs = none := by
  unfold firstOf
  rw [List.find?_eq_none.mpr (by simpa using h), Option.map_none]

/-- A mark is a lexeme, unless a numeral or an operator begins with it. -/
theorem lexeme?_mark {c : Char} {x : Terminal} {rest : List Char} (hmark : mark? c = some x)
    (hnumber : Numeral.scan (c :: rest) = none) (hoperator : operatorLength (c :: rest) = 0) :
    lexeme? (c :: rest) = some (some x, 1) := by
  have hplain : isNameStart c = false ∧ isQuote c = false ∧ c ≠ '$' ∧ isGap c = false := by
    unfold mark? at hmark
    split at hmark <;> first | decide | cases hmark
  obtain ⟨hname, hquote, hdollar, hgap⟩ := hplain
  rw [lexeme?_of_not_isNameStart rest hname, firstOf_eq_none, Option.none_or, markOf]
  · rw [List.head?_cons, Option.bind_some, hmark, Option.map_some]
  · intro rule hrule
    simp only [plainRules, List.mem_cons, List.not_mem_nil, or_false] at hrule
    rcases hrule with rfl | rfl | rfl | rfl | rfl
    · simp [numberLength, hnumber]
    · simp [stringLength, hquote]
    · exact parameterLength_of_ne hdollar
    · simp [gapLength, hgap]
    · exact hoperator

/-- The marks that are lexemes whatever follows them. -/
theorem lexeme?_closed {c : Char} {x : Terminal} (hmark : mark? c = some x)
    (hc : c ∉ ['-', '.', '<', '>']) (rest : List Char) :
    lexeme? (c :: rest) = some (some x, 1) := by
  have hcases : isDigit c = false ∧ c ≠ '-' ∧ c ≠ '.' ∧
      (∀ d, longOperators.contains (c, d) = false) ∧ "=+*/%^".toList.contains c = false := by
    unfold mark? at hmark
    split at hmark <;> first
      | (exfalso; revert hc; decide)
      | (cases hmark; done)
      | exact ⟨by decide, by decide, by decide, by simp [longOperators], by decide⟩
  obtain ⟨hdigit, hminus, hpoint, hlong, hshort⟩ := hcases
  refine lexeme?_mark hmark ?_ ?_
  · rw [Numeral.scan_eq_none_iff, Numeral.scanMinus_of_ne hminus]
    simp [Numeral.beginsUnsigned, hdigit, hpoint]
  · cases rest with
    | nil => rw [operatorLength, hshort, if_neg (by decide)]
    | cons d rest => rw [operatorLength, hlong, hshort, if_neg (by decide), if_neg (by decide)]

/-- Whether a mark in front of a character makes neither a numeral nor an operator with it. -/
def standsBefore (c d : Char) : Bool :=
  !isDigit c && c != '.' && !isDigit d && d != '.' && !longOperators.contains (c, d)

/-- A mark is a lexeme in front of a character with which it makes nothing else. -/
theorem lexeme?_before {c d : Char} {x : Terminal} (hmark : mark? c = some x)
    (h : standsBefore c d = true) (rest : List Char) :
    lexeme? (c :: d :: rest) = some (some x, 1) := by
  simp only [standsBefore, Bool.and_eq_true, Bool.not_eq_true', bne_iff_ne] at h
  obtain ⟨⟨⟨hc, hd⟩, hd'⟩, hpair⟩ := h
  have hshort : "=+*/%^".toList.contains c = false := by
    unfold mark? at hmark
    split at hmark <;> first | decide | cases hmark
  refine lexeme?_mark hmark ?_ ?_
  · rw [Numeral.scan_eq_none_iff]
    by_cases hminus : c = '-'
    · subst hminus
      simp [Numeral.scanMinus, Numeral.beginsUnsigned, hd, hd']
    · rw [Numeral.scanMinus_of_ne hminus]
      simp [Numeral.beginsUnsigned, hc]
  · rw [operatorLength, hpair, hshort, if_neg (by decide), if_neg (by decide)]

/-- A text begins with one of some characters. -/
def Begins (cs : List Char) (rest : List Char) : Prop :=
  ∃ c ∈ cs, ∃ ds, rest = c :: ds

/-- Blanks are skipped. -/
theorem lexeme?_of_isGap {c : Char} (rest : List Char) (h : isGap c = true) :
    lexeme? (c :: rest) = some (none, gapLength (c :: rest)) := by
  have hplain : isNameStart c = false ∧ isQuote c = false ∧ c ≠ '$' ∧ isDigit c = false ∧
      c ≠ '.' ∧ c ≠ '-' := by
    simp only [isGap, Bool.or_eq_true, beq_iff_eq] at h
    rcases h with (((rfl | rfl) | rfl) | rfl) | rfl <;> decide
  obtain ⟨hname, hquote, hdollar, hdigit, hpoint, hminus⟩ := hplain
  have hnumber : numberLength (c :: rest) = 0 := by
    rw [numberLength, Numeral.scan_eq_none_iff.mpr]
    rw [Numeral.scanMinus_of_ne hminus]
    simp [Numeral.beginsUnsigned, hdigit, hpoint]
  have hgap : 0 < gapLength (c :: rest) := by
    simp [gapLength, h]
  rw [lexeme?_of_not_isNameStart rest hname, plainRules]
  simp [firstOf_cons, hnumber, hgap, stringLength, hquote, parameterLength_of_ne hdollar]

/-- A blank is skipped by itself, unless another one follows. -/
theorem lexeme?_gap {rest : List Char} (h : Stops isGap rest) :
    lexeme? (' ' :: rest) = some (none, 1) := by
  rw [lexeme?_of_isGap rest (by decide)]
  simp [gapLength, isGap, takeWhile_of_stops h]

/-- No token begins with a blank. -/
theorem stops_isGap_of_lexeme? {cs : List Char} {x : Terminal} {n : Nat}
    (h : lexeme? cs = some (some x, n)) (rest : List Char) : Stops isGap (cs ++ rest) := by
  cases cs with
  | nil => simp [lexeme?_nil] at h
  | cons c cs =>
    refine stops_cons.mpr ?_
    by_contra hc
    rw [lexeme?_of_isGap cs (by simpa using hc)] at h
    simp at h

/-! ## Printed texts -/

/-- A text is read as the tokens of a derivation of an expression that says something given,
    wherever it stands, if what follows it is as required. -/
def Prints (e : Ebnf) (follow : List Char → Prop) (cs : List Char)
    (tells : e.Derivation → Prop) : Prop :=
  ∃ ps : List Piece, charsOf ps = cs ∧ (∀ rest, follow rest → Cut ps rest) ∧
    ∀ p, ∃ d, e.tokens d = tokensFrom p ps ∧ tells d

/-- Texts with a separator between them, from the second text on. -/
theorem toList_intercalate_cons (separator text : String) (texts : List String) :
    (separator.intercalate (text :: texts)).toList =
      text.toList ++ (texts.map fun text => separator.toList ++ text.toList).flatten := by
  induction texts generalizing text with
  | nil => simp
  | cons next texts ih =>
    rw [String.intercalate_cons_cons, String.toList_append, String.toList_append, ih]
    simp

namespace Prints

variable {e f : Ebnf} {follow follow' : List Char → Prop} {cs ds : List Char}
  {tells tells' : e.Derivation → Prop}

theorem mono (h : Prints e follow cs tells) (hfollow : ∀ rest, follow' rest → follow rest)
    (htells : ∀ d, tells d → tells' d) : Prints e follow' cs tells' := by
  obtain ⟨ps, hchars, hcut, hderive⟩ := h
  refine ⟨ps, hchars, fun rest hrest => hcut rest (hfollow rest hrest), fun p => ?_⟩
  obtain ⟨d, hd, hsaid⟩ := hderive p
  exact ⟨d, hd, htells d hsaid⟩

/-- One token. -/
theorem token {xs : List Terminal} {x : Terminal} {tells : (Ebnf.oneOf xs).Derivation → Prop}
    (hx : x ∈ xs) (hlex : ∀ rest, follow rest → lexeme? (cs ++ rest) = some (some x, cs.length))
    (htells : ∀ p, tells ⟨⟨x, String.ofList cs, p, p.offset + cs.length⟩, hx⟩) :
    Prints (.oneOf xs) follow cs tells :=
  ⟨[(some x, cs)], by simp, fun rest hrest => ⟨by simpa using hlex rest hrest, trivial⟩,
    fun p => ⟨_, rfl, htells p⟩⟩

/-- One text after another, if the second does not run into the end of the first. -/
theorem seq {tells' : f.Derivation → Prop} (h : Prints e follow cs tells)
    (h' : Prints f follow' ds tells') (hfollow : ∀ rest, follow' rest → follow (ds ++ rest)) :
    Prints (.seq e f) follow' (cs ++ ds) (fun d => tells d.1 ∧ tells' d.2) := by
  obtain ⟨ps, rfl, hcut, hderive⟩ := h
  obtain ⟨qs, rfl, hcut', hderive'⟩ := h'
  refine ⟨ps ++ qs, charsOf_append ps qs, fun rest hrest => ?_, fun p => ?_⟩
  · exact cut_append_iff.mpr ⟨hcut _ (hfollow rest hrest), hcut' rest hrest⟩
  · obtain ⟨d, hd, hsaid⟩ := hderive p
    obtain ⟨d', hd', hsaid'⟩ := hderive' (p.advance (charsOf ps))
    refine ⟨(d, d'), ?_, hsaid, hsaid'⟩
    rw [tokensFrom_append, ← hd, ← hd']
    rfl

/-- A blank in front of a text. -/
theorem gap (h : Prints e follow cs tells) (hcs : ∀ rest, follow rest → Stops isGap (cs ++ rest)) :
    Prints e follow (' ' :: cs) tells := by
  obtain ⟨ps, rfl, hcut, hderive⟩ := h
  refine ⟨(none, [' ']) :: ps, rfl, fun rest hrest => ⟨?_, hcut rest hrest⟩, fun p => ?_⟩
  · exact lexeme?_gap (hcs rest hrest)
  · exact hderive (p.advance [' '])

/-- Nothing, for an optional part. -/
theorem none : Prints (.opt e) follow [] (· = Option.none) :=
  ⟨[], rfl, fun _ _ => trivial, fun _ => ⟨Option.none, rfl, rfl⟩⟩

/-- An optional part. -/
theorem some (h : Prints e follow cs tells) :
    Prints (.opt e) follow cs (fun d => ∃ d', d = Option.some d' ∧ tells d') := by
  obtain ⟨ps, hchars, hcut, hderive⟩ := h
  refine ⟨ps, hchars, hcut, fun p => ?_⟩
  obtain ⟨d, hd, hsaid⟩ := hderive p
  exact ⟨Option.some d, hd, d, rfl, hsaid⟩

theorem follow_flatten {css : List (List Char)}
    (hfollow : ∀ cs ∈ css, ∀ rest, follow rest → follow (cs ++ rest)) :
    ∀ rest, follow rest → follow (css.flatten ++ rest) := by
  induction css with
  | nil => exact fun rest hrest => hrest
  | cons cs css ih =>
    intro rest hrest
    rw [List.flatten_cons, List.append_assoc]
    exact hfollow cs List.mem_cons_self _
      (ih (fun cs hcs => hfollow cs (List.mem_cons_of_mem _ hcs)) rest hrest)

/-- A row of texts, none of which runs into the end of the one before. -/
theorem many {γ : Type} {tells : γ → e.Derivation → Prop} {xs : List γ} {css : List (List Char)}
    (h : List.Forall₂ (fun x cs => Prints e follow cs (tells x)) xs css)
    (hfollow : ∀ cs ∈ css, ∀ rest, follow rest → follow (cs ++ rest)) :
    Prints (.many e) follow css.flatten (List.Forall₂ tells xs) := by
  induction h with
  | nil => exact ⟨[], rfl, fun _ _ => trivial, fun _ => ⟨[], rfl, .nil⟩⟩
  | @cons x cs xs css h _ ih =>
    obtain ⟨ps, rfl, hcut, hderive⟩ := h
    obtain ⟨qs, hchars, hcut', hderive'⟩ := ih fun cs hcs => hfollow cs (List.mem_cons_of_mem _ hcs)
    have hrow : ∀ rest, follow rest → follow (charsOf qs ++ rest) :=
      hchars ▸ follow_flatten fun cs hcs => hfollow cs (List.mem_cons_of_mem _ hcs)
    refine ⟨ps ++ qs, by rw [charsOf_append, hchars, List.flatten_cons], fun rest hrest => ?_,
      fun p => ?_⟩
    · exact cut_append_iff.mpr ⟨hcut _ (hrow rest hrest), hcut' rest hrest⟩
    · obtain ⟨d, hd, hsaid⟩ := hderive p
      obtain ⟨d', hd', hsaid'⟩ := hderive' (p.advance (charsOf ps))
      refine ⟨d :: d', ?_, .cons hsaid hsaid'⟩
      rw [tokensFrom_append, ← hd, ← hd']
      rfl

/-- A row of at least one text, none of which runs into the end of the one before. -/
theorem many1 {γ : Type} {tells : γ → e.Derivation → Prop} {x : γ} {xs : List γ}
    {css : List (List Char)}
    (h : List.Forall₂ (fun x cs => Prints e follow cs (tells x)) (x :: xs) css)
    (hfollow : ∀ cs ∈ css, ∀ rest, follow rest → follow (cs ++ rest)) :
    Prints (.many1 e) follow css.flatten
      (fun d => tells x d.1 ∧ List.Forall₂ tells xs d.2) := by
  obtain ⟨ps, hchars, hcut, hderive⟩ := many h hfollow
  refine ⟨ps, hchars, hcut, fun p => ?_⟩
  obtain ⟨ds, hds, htold⟩ := hderive p
  obtain ⟨d, ds, hd, htail, rfl⟩ := List.forall₂_cons_left_iff.mp htold
  exact ⟨(d, ds), hds, hd, htail⟩

/-- A mark that is a token whatever follows it. -/
theorem mark {c : Char} {x : Terminal} (hmark : mark? c = Option.some x)
    (hc : c ∉ ['-', '.', '<', '>']) :
    Prints (Grammar.token x) (fun _ => True) [c] (fun _ => True) :=
  token List.mem_cons_self (fun rest _ => lexeme?_closed hmark hc rest) fun _ => trivial

/-- A mark that is a token in front of some characters. -/
theorem markBefore {c : Char} {x : Terminal} {next : List Char} (hmark : mark? c = Option.some x)
    (hnext : next.all (standsBefore c) = true) :
    Prints (Grammar.token x) (Begins next) [c] (fun _ => True) := by
  refine token List.mem_cons_self ?_ fun _ => trivial
  rintro _ ⟨d, hd, rest, rfl⟩
  exact lexeme?_before hmark (List.all_eq_true.mp hnext d hd) rest

/-- Texts one after another, with a comma and a blank between them. -/
theorem commas {γ : Type} {tells : γ → e.Derivation → Prop} {x : γ} {xs : List γ} {text : String}
    {texts : List String} (hhead : Prints e follow text.toList (tells x))
    (htail : List.Forall₂ (fun x text => Prints e follow text.toList (tells x) ∧
      ∀ rest, Stops isGap (text.toList ++ rest)) xs texts)
    (hcomma : ∀ rest, follow (',' :: rest)) :
    Prints (.seq e (.many (.seq (Grammar.token .comma) e))) follow
      (", ".intercalate (text :: texts)).toList
      (fun d => tells x d.1 ∧ List.Forall₂ (fun x d => tells x d.2) xs d.2) := by
  have hfollow : ∀ cs ∈ texts.map (fun text => ',' :: ' ' :: text.toList), ∀ rest, follow rest →
      follow (cs ++ rest) := by
    intro cs hcs rest _
    obtain ⟨text, -, rfl⟩ := List.mem_map.mp hcs
    exact hcomma _
  have hrow : List.Forall₂ (fun x cs => Prints (.seq (Grammar.token .comma) e) follow cs
      (fun d => tells x d.2)) xs (texts.map fun text => ',' :: ' ' :: text.toList) := by
    refine List.forall₂_map_right_iff.mpr (htail.imp fun x text htext => ?_)
    have hcomma := mark (c := ',') (x := .comma) rfl (by decide)
    exact (hcomma.seq (htext.1.gap fun rest _ => htext.2 rest) fun _ _ => trivial).mono
      (fun _ h => h) fun d hd => hd.2
  rw [toList_intercalate_cons]
  exact hhead.seq (many hrow hfollow) (follow_flatten hfollow)

end Prints

/-! ## Names and values -/

/-- A name is printed as it is. -/
theorem prints_name {text : String} (h : IsName text) :
    Prints name Separates text.toList (fun d => d.1.text = text) := by
  obtain ⟨x, hx, hlex⟩ := isName_iff_lexeme?.mp h
  refine .token (x := x) (isName_iff.mp hx) (fun rest hrest => ?_) fun p => ?_
  · exact lexeme?_append hlex hrest (.inl (stops_isGap_of_lexeme? hlex []).left)
  · exact String.ofList_toList

/-- A literal is printed as it is spelled. -/
theorem prints_value {v : Literal} {x : Terminal} {text : String} (h : v.SpelledAs x text) :
    Prints value Separates text.toList (fun d => valueMeaning d.1 = .ok v) := by
  have hx : x ∈ [.string, .number, .boolean, .null, .identifier, .matchWord, .createWord,
      .whereWord, .returnWord] := by
    rcases h.value with hx | hx <;> revert hx <;> cases x <;> decide
  refine .token hx (fun rest hrest => ?_) fun p => ?_
  · exact lexeme?_append h.lexeme hrest (.inl (stops_isGap_of_lexeme? h.lexeme []).left)
  · rw [String.ofList_toList]
    exact h.meaning _ _

end PatternSql
