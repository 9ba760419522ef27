import PatternSql.Proofs.Pattern.Faults

/-!
# Tokens and the literals that they announce

The terminal of a token says what kind of literal its text is: a string, a number, a truth value,
null or a name. Reading the text says it once more, by other rules, and the two agree except where a
number is too great for a double, and except for one letter. As a token a truth value may be written
with a long s, which is an s in another case; its text is then a name.

In the maps of a pattern a number that is too great is refused. So a value stands for a column
exactly if its token is a name, or a truth value with a long s.

Main results:

* `Token.ofText?_announced`, `Token.ofText?_longS`: what the text of a value is read as.
* `kinds_agree`: where terminals and literals agree, in all tokens and in the maps of a pattern.
-/

namespace PatternSql

open Text Grammar

/-! ## Words in small letters -/

theorem toLower_of_isLetter {letter c : Char} (h : isLetter letter c = true)
    (hs : letter ≠ 's' ∨ c ≠ 'ſ') : c.toLower = letter := by
  simp only [isLetter, Bool.or_eq_true, Bool.and_eq_true, beq_iff_eq] at h
  rcases h with h | ⟨hletter, hc⟩
  · exact h
  · rcases hs with hs | hs
    · exact absurd hletter hs
    · exact absurd hc hs

/-- A text that spells a word is the word in small letters, unless it has a long s in the place of
    an s. -/
theorem toLower_of_spells {word run : List Char} (h : spells word run = true)
    (hs : 's' ∉ word ∨ 'ſ' ∉ run) : run.map Char.toLower = word := by
  obtain ⟨hbegins, hlength⟩ := Bool.and_eq_true_iff.mp h
  rw [beq_iff_eq] at hlength
  induction word generalizing run with
  | nil => rw [List.eq_nil_of_length_eq_zero hlength, List.map_nil]
  | cons letter word ih =>
    cases run with
    | nil => exact nomatch hlength
    | cons c run =>
      obtain ⟨hletter, hbegins⟩ := Bool.and_eq_true_iff.mp hbegins
      have hlength : run.length = word.length := Nat.succ.inj hlength
      have hhead : letter ≠ 's' ∨ c ≠ 'ſ' :=
        hs.imp (fun hs heq => hs (heq ▸ List.mem_cons_self))
          (fun hs heq => hs (heq ▸ List.mem_cons_self))
      have htail : 's' ∉ word ∨ 'ſ' ∉ run :=
        hs.imp (mt (List.mem_cons_of_mem _)) (mt (List.mem_cons_of_mem _))
      have hspells : spells word run = true := by simp [spells, hbegins, hlength]
      rw [List.map_cons, toLower_of_isLetter hletter hhead, ih hspells htail hbegins hlength]

theorem spells_of_boolean {run : List Char} (h : wordTerminal run = .boolean) :
    spells "true".toList run = true ∨ spells "false".toList run = true := by
  unfold wordTerminal at h
  split_ifs at h with h₁ h₂ h₃
  exact Bool.or_eq_true_iff.mp h₃

theorem spells_of_null {run : List Char} (h : wordTerminal run = .null) :
    spells "null".toList run = true := by
  unfold wordTerminal at h
  split_ifs at h with h₁ h₂ h₃ h₄ h₅ h₆
  exact h₆

/-! ## Announced literals -/

namespace Token

/-- A truth value that is written with a long s. -/
def HasLongS (t : Token) : Prop :=
  t.terminal = .boolean ∧ 'ſ' ∈ t.text.toList

/-- The literals of the kind that a token announces by its terminal. -/
inductive Announces (t : Token) : Literal → Prop
  /-- What stands between the quotes of a string. -/
  | string {quote : Char} {cs : List Char} (terminal : t.terminal = .string)
      (text : t.text.toList = quote :: (cs ++ [quote])) :
      Announces t (.string (String.ofList cs))
  | boolean {value : Bool} (terminal : t.terminal = .boolean)
      (text : t.text.toList.map Char.toLower = (if value then "true" else "false").toList) :
      Announces t (.boolean value)
  | null (terminal : t.terminal = .null) : Announces t .null
  | integer {value : Int} (terminal : t.terminal = .number) : Announces t (.integer value)
  | float {value : Double} (terminal : t.terminal = .number) : Announces t (.float value)
  /-- A name stands for itself. -/
  | identifier (terminal : t.terminal.isName = true) : Announces t (.identifier t.text)

variable {t : Token}

/-- A name is read as itself. -/
theorem ofText?_name (ht : t.IsGenuine) (hname : t.terminal.isName = true) :
    Literal.ofText? t.text = some (.identifier t.text) := by
  obtain ⟨c, cs, htext, hc, hcs, hterminal⟩ := ht.word (by simp [Terminal.isWord, hname])
  rw [hterminal] at hname
  rw [Literal.ofText?_word htext hc hcs, Literal.ofWord?_of_isName hname, Option.getD_none]

/-- A truth value without a long s is one. -/
theorem ofText?_boolean (ht : t.IsGenuine) (hboolean : t.terminal = .boolean)
    (hs : 'ſ' ∉ t.text.toList) : ∃ value, Literal.ofText? t.text = some (.boolean value) ∧
      t.text.toList.map Char.toLower = (if value then "true" else "false").toList := by
  obtain ⟨c, cs, htext, hc, hcs, hterminal⟩ := ht.word (by simp [Terminal.isWord, hboolean])
  rw [htext] at hs ⊢
  rw [Literal.ofText?_word htext hc hcs]
  rcases spells_of_boolean (hterminal.symm.trans hboolean) with hspells | hspells
  · rw [toLower_of_spells hspells (.inr hs), String.ofList_toList]
    exact ⟨true, rfl, rfl⟩
  · rw [toLower_of_spells hspells (.inr hs), String.ofList_toList]
    exact ⟨false, rfl, rfl⟩

/-- A truth value with a long s is read as a name. -/
theorem ofText?_longS (ht : t.IsGenuine) (hs : t.HasLongS) :
    Literal.ofText? t.text = some (.identifier t.text) := by
  obtain ⟨c, cs, htext, hc, hcs, -⟩ := ht.word (by simp [Terminal.isWord, hs.1])
  have hmem : 'ſ' ∈ (t.text.toList.map Char.toLower) :=
    List.mem_map.mpr ⟨'ſ', hs.2, by decide⟩
  have hword (word : String) (hword : 'ſ' ∉ word.toList) :
      String.ofList ((c :: cs).map Char.toLower) ≠ word := by
    rintro rfl
    rw [String.toList_ofList, ← htext] at hword
    exact hword hmem
  rw [Literal.ofText?_word htext hc hcs, Literal.ofWord?, if_neg (hword _ (by decide)),
    if_neg (hword _ (by decide)), if_neg (hword _ (by decide)), Option.getD_none]

theorem ofText?_null (ht : t.IsGenuine) (hnull : t.terminal = .null) :
    Literal.ofText? t.text = some .null := by
  obtain ⟨c, cs, htext, hc, hcs, hterminal⟩ := ht.word (by simp [Terminal.isWord, hnull])
  have hspells := spells_of_null (hterminal.symm.trans hnull)
  rw [Literal.ofText?_word htext hc hcs, toLower_of_spells hspells (.inl (by decide)),
    String.ofList_toList]
  rfl

/-- A number that is not too great is read as one. -/
theorem ofText?_numeral (ht : t.IsValue) (hnumber : t.terminal = .number) (h : ¬t.Overflows) :
    ∃ literal, Literal.ofText? t.text = some literal ∧ t.Announces literal := by
  obtain ⟨n, hn⟩ := ht.genuine.number hnumber
  obtain ⟨hwell, hspelled⟩ := Numeral.ofChars?_eq_some_iff_spelled.mp hn
  obtain ⟨literal, hliteral, hmeets⟩ := Literal.ofText?_meets hwell hspelled (ht.digits hn)
  refine ⟨literal, hliteral, ?_⟩
  cases hmeets with
  | integer => exact .integer hnumber
  | float => exact .float hnumber
  | identifier hbound => exact absurd ((t.overflows_iff hn).mpr hbound) h

/-- The text of a value is read as a literal of the kind that its terminal announces, unless it is a
    truth value with a long s or a number that is too great. -/
theorem ofText?_announced (ht : t.IsValue) (hs : ¬t.HasLongS) (hfits : ¬t.Overflows) :
    ∃ literal, Literal.ofText? t.text = some literal ∧ t.Announces literal := by
  rcases ht.terminal with hname | hliteral
  · exact ⟨_, ofText?_name ht.genuine hname, .identifier hname⟩
  · cases hterminal : t.terminal with
    | string =>
      obtain ⟨quote, cs, hquote, -, htext⟩ := ht.genuine.string hterminal
      exact ⟨_, Literal.ofText?_string htext hquote, .string hterminal htext⟩
    | boolean =>
      obtain ⟨value, hvalue, htext⟩ := ofText?_boolean ht.genuine hterminal
        fun hmem => hs ⟨hterminal, hmem⟩
      exact ⟨_, hvalue, .boolean hterminal htext⟩
    | null => exact ⟨_, ofText?_null ht.genuine hterminal, .null hterminal⟩
    | number => exact ofText?_numeral ht hterminal hfits
    | _ =>
      rw [hterminal] at hliteral
      exact nomatch hliteral

/-- A value that is understood stands for a column exactly if its token is a name, or a truth value
    with a long s. -/
theorem reference_iff (ht : t.IsValue) {literal : Literal} (h : valueMeaning t = .ok literal) :
    (∃ name, literal = .identifier name) ↔ t.terminal.isName = true ∨ t.HasLongS := by
  have hliteral := (valueMeaning_spec.mp h).1
  by_cases hs : t.HasLongS
  · rw [ofText?_longS ht.genuine hs, Option.some.injEq] at hliteral
    exact ⟨fun _ => .inr hs, fun _ => ⟨_, hliteral.symm⟩⟩
  · have hfits : ¬t.Overflows := by
      intro hoverflows
      exact nomatch (valueMeaning_eq_hugeNumber ht hoverflows).symm.trans h
    obtain ⟨announced, hannounced, hkind⟩ := ofText?_announced ht hs hfits
    obtain rfl : announced = literal := Option.some.inj (hannounced.symm.trans hliteral)
    constructor
    · rintro ⟨name, rfl⟩
      cases hkind with
      | identifier hname => exact .inl hname
    · rintro (hname | hlong)
      · rw [ofText?_name ht.genuine hname, Option.some.injEq] at hliteral
        exact ⟨_, hliteral.symm⟩
      · exact absurd hlong hs

end Token

/-! ## Agreement -/

/-- A property stands for a column exactly if the token of its value is a name, or a truth value
    with a long s. -/
def ColumnAgrees (e : Token × Token) (property : String × Literal) : Prop :=
  (∃ name, property.2 = .identifier name) ↔ e.2.terminal.isName = true ∨ e.2.HasLongS

/-- Terminals and literals agree in the tokens of every text, except for truth values with a long s
    and for numbers that are too great, which are read as names. In the maps of a pattern there are
    no such numbers, so there the names and the truth values with a long s stand for columns, and
    nothing else does. -/
theorem kinds_agree (text : String) :
    (∀ t ∈ (scan text).tokens, t.terminal.isName = true ∨ t.terminal.isLiteral = true →
      ¬Literal.IsOverlongWhole t.text.toList →
      ∃ literal, Literal.ofText? t.text = some literal ∧
        (t.HasLongS ∨ t.Overflows → literal = .identifier t.text) ∧
        (¬t.HasLongS → ¬t.Overflows → t.Announces literal)) ∧
      ∀ (P : Pattern) (d : pattern.Derivation), parsePattern text = .ok P →
        pattern.tokens d = (scan text).tokens →
        List.Forall₂ (List.Forall₂ ColumnAgrees) (patternMaps d) P.maps := by
  refine ⟨fun t ht hterminal hshort => ?_, fun P d hP hd => ?_⟩
  · have hvalue : t.IsValue := ⟨isGenuine_of_mem ht, hterminal, hshort⟩
    by_cases hs : t.HasLongS
    · exact ⟨_, Token.ofText?_longS hvalue.genuine hs, fun _ => rfl, fun hnot => absurd hs hnot⟩
    · by_cases hfits : t.Overflows
      · refine ⟨_, Token.ofText?_overflows hvalue hfits, fun _ => rfl, fun _ hnot => ?_⟩
        exact absurd hfits hnot
      · obtain ⟨literal, hliteral, hkind⟩ := Token.ofText?_announced hvalue hs hfits
        exact ⟨literal, hliteral, fun h => (h.elim hs hfits).elim, fun _ _ => hkind⟩
  · obtain ⟨-, d', hd', hlegible, rfl⟩ := parsePattern_eq_ok_iff.mp hP
    obtain rfl : d = d' := pattern_unique (hd.trans hd'.symm)
    rw [patternOf_maps]
    refine List.forall₂_map_right_iff.mpr (List.forall₂_same.mpr fun m hm => ?_)
    refine List.forall₂_map_right_iff.mpr (List.forall₂_same.mpr fun e he => ?_)
    have hshort := ((hlegible m hm).2 e he).short
    obtain ⟨literal, hliteral⟩ := (hlegible m hm).2 e he
    obtain ⟨-, heq⟩ := valueMeaning_eq_ok_iff.mp hliteral
    rw [ColumnAgrees, ← heq]
    exact Token.reference_iff (isValue_of_mem (isGenuine_of_tokens hd) hm he hshort) hliteral

/-- The derivation of `(n {x: falſe, y: nULL})`. -/
def longSDerivation : pattern.Derivation :=
  (((markAt .leftParen "(" 0, some (nameAt "n" 1), none,
    some (markAt .leftBrace "\x7b" 3,
      some ((nameAt "x" 4, markAt .colon ":" 5, valueAt .boolean "falſe" 7 (by decide)),
        [(markAt .comma "," 12, nameAt "y" 14, markAt .colon ":" 15,
          valueAt .null "nULL" 17 (by decide))]),
      markAt .rightBrace "\x7d" 21),
    markAt .rightParen ")" 22), []), [])

theorem scan_longSDerivation :
    pattern.tokens longSDerivation = (scan "(n \x7bx: falſe, y: nULL\x7d)").tokens ∧
      parsePattern "(n \x7bx: falſe, y: nULL\x7d)" = .ok
        ⟨⟨⟨"n", [], some [("x", .identifier "falſe"), ("y", .null)], some 0⟩, []⟩, []⟩ := by
  decide +kernel

theorem kinds_agree_longS :
    Literal.ofText? "falſe" = some (.identifier "falſe") ∧
      (∃ literal, Literal.ofText? "nULL" = some literal ∧
        Token.Announces ⟨.null, "nULL", ⟨17, 1, 18⟩, 21⟩ literal) ∧
      List.Forall₂ (List.Forall₂ ColumnAgrees) (patternMaps longSDerivation)
        [[("x", .identifier "falſe"), ("y", .null)]] := by
  obtain ⟨hd, hP⟩ := scan_longSDerivation
  obtain ⟨htokens, hmaps⟩ := kinds_agree "(n \x7bx: falſe, y: nULL\x7d)"
  have hmem (t : Token) (ht : t ∈ pattern.tokens longSDerivation) :
      t ∈ (scan "(n \x7bx: falſe, y: nULL\x7d)").tokens := hd ▸ ht
  have hshort {cs : List Char} (hcs : cs.length ≤ digitLimit) : ¬Literal.IsOverlongWhole cs :=
    fun hlong => absurd hlong.length_lt (Nat.not_lt.mpr hcs)
  refine ⟨?_, ?_, hmaps _ _ hP hd⟩
  · obtain ⟨literal, hliteral, hname, -⟩ := htokens ⟨.boolean, "falſe", ⟨7, 1, 8⟩, 12⟩
      (hmem _ (by decide)) (.inr rfl) (hshort (by decide))
    rw [hliteral, hname (.inl ⟨rfl, by decide⟩)]
  · obtain ⟨literal, hliteral, -, hkind⟩ := htokens ⟨.null, "nULL", ⟨17, 1, 18⟩, 21⟩
      (hmem _ (by decide)) (.inr rfl) (hshort (by decide))
    have hgenuine := isGenuine_of_mem (hmem ⟨.null, "nULL", ⟨17, 1, 18⟩, 21⟩ (by decide))
    exact ⟨literal, hliteral, hkind (fun hs => nomatch hs.1) fun hfits =>
      nomatch hfits.eq_number hgenuine⟩

/-- The terminal of `falſe` announces a truth value, and its text is read as a name: the property is
    the column of that name. -/
theorem boolean_read_as_name :
    ∃ t ∈ (scan "(n \x7bx: falſe, y: nULL\x7d)").tokens, t.terminal = .boolean ∧
      (∀ value, Literal.ofText? t.text ≠ some (.boolean value)) ∧
      parsePattern "(n \x7bx: falſe, y: nULL\x7d)" = .ok
        ⟨⟨⟨"n", [], some [("x", .identifier t.text), ("y", .null)], some 0⟩, []⟩, []⟩ := by
  obtain ⟨hd, hP⟩ := scan_longSDerivation
  refine ⟨⟨.boolean, "falſe", ⟨7, 1, 8⟩, 12⟩, hd ▸ by decide, rfl, fun value hvalue => ?_, hP⟩
  have hname : Literal.ofText? "falſe" = some (.identifier "falſe") := by decide +kernel
  exact nomatch hvalue.symm.trans hname

end PatternSql
