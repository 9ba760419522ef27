import PatternSql.Proofs.Literal.Coercion
import PatternSql.Proofs.Number.Writing

/-!
# Spelled literals read back

A literal reads back if its spelling is one token that can stand as a value and that means the
literal. The literals that have a spelling do, as long as integers fit 64 bits and names are words
of which no other literal is made; and so does every literal that was read from a token.

Main results:

* `isName_iff_lexeme?`: a text is a name if it is one lexeme that is one.
* `Literal.readsBack_of_isPlain`: plain literals read back.
* `Literal.readsBack_of_meaning`: what a value means reads back.
-/

namespace PatternSql

open Text

/-! ## Lexemes from end to end -/

/-- A numeral is a number. -/
theorem lexeme?_numeral {cs : List Char} {n : Numeral} (h : Numeral.ofChars? cs = some n) :
    lexeme? cs = some (some .number, cs.length) := by
  have hscan := Numeral.ofChars?_eq_some_iff.mp h
  cases cs with
  | nil => simp [Numeral.scan, Numeral.scanMinus, Numeral.scanFraction] at hscan
  | cons c cs =>
    have hname := (Numeral.head_of_scan (by rw [hscan]; simp)).1
    have hlen := numberLength_of_scan hscan
    rw [lexeme?_of_not_isNameStart cs hname, plainRules, firstOf_cons]
    dsimp only
    rw [if_pos (by rw [hlen]; exact Nat.succ_pos _), hlen, Option.some_or]

/-- What stands between two quotes of one kind is a string, unless it holds the quote itself. -/
theorem lexeme?_string {q : Char} {cs : List Char} (hq : isQuote q = true) (hcs : q ∉ cs) :
    lexeme? (q :: (cs ++ [q])) = some (some .string, (q :: (cs ++ [q])).length) := by
  have hkinds : q = '\'' ∨ q = '"' := by simpa [isQuote] using hq
  have hname : isNameStart q = false := by
    rcases hkinds with rfl | rfl <;> decide
  have hnumber : numberLength (q :: (cs ++ [q])) = 0 := by
    rw [numberLength, Numeral.scan_eq_none_iff.mpr (by rcases hkinds with rfl | rfl <;> rfl)]
  have hstring := stringLength_quoted hq hcs
  rw [lexeme?_of_not_isNameStart _ hname, plainRules, firstOf_cons, firstOf_cons]
  dsimp only
  rw [if_neg (by rw [hnumber]; exact Nat.lt_irrefl 0),
    if_pos (by rw [hstring]; exact Nat.succ_pos _), hstring, Option.some_or]

/-! ## Names -/

/-- A text that is read as one name, from end to end. -/
def IsName (text : String) : Prop :=
  ∃ t, (scan text).tokens = [t] ∧ t.text = text ∧ t.terminal.isName = true

/-- A text is a name exactly when it is one lexeme, of a name. -/
theorem isName_iff_lexeme? {text : String} :
    IsName text ↔ ∃ x : Terminal, x.isName = true ∧
      lexeme? text.toList = some (some x, text.toList.length) := by
  constructor
  · rintro ⟨t, htokens, rfl, hname⟩
    exact ⟨t.terminal, hname, isGenuine_of_mem (htokens ▸ List.mem_singleton_self t)⟩
  · rintro ⟨x, hname, hlex⟩
    have hcut : Cut [(some x, text.toList)] [] := ⟨by simpa using hlex, trivial⟩
    have hscan := scan_of_cut hcut
    rw [charsOf_cons, charsOf_nil, List.append_nil, String.ofList_toList] at hscan
    exact ⟨_, by rw [hscan, tokensFrom, tokensFrom], by simp, hname⟩

/-- The token of a name is a name. -/
theorem Token.IsGenuine.isName {t : Token} (h : t.IsGenuine) (ht : t.terminal.isName = true) :
    IsName t.text :=
  isName_iff_lexeme?.mpr ⟨t.terminal, ht, h⟩

/-- A name begins with a word character that is no digit, and goes on with word characters. -/
theorem IsName.exists_start {text : String} (h : IsName text) :
    ∃ c cs, text.toList = c :: cs ∧ isNameStart c = true ∧ All isWord cs := by
  obtain ⟨x, hx, hlex⟩ := isName_iff_lexeme?.mp h
  have hgenuine : Token.IsGenuine ⟨x, text, .start, 0⟩ := hlex
  obtain ⟨c, cs, htext, hc, hcs, -⟩ := hgenuine.word (by simp [Terminal.isWord, hx])
  exact ⟨c, cs, htext, hc, hcs⟩

/-- A name is made of word characters. -/
theorem IsName.all_isWord {text : String} (h : IsName text) : All isWord text.toList := by
  obtain ⟨c, cs, htext, hc, hcs⟩ := h.exists_start
  exact htext ▸ all_cons.mpr ⟨isWord_of_isNameStart hc, hcs⟩

theorem IsName.isEmpty_eq_false {text : String} (h : IsName text) : text.isEmpty = false := by
  obtain ⟨c, cs, htext, -, -⟩ := h.exists_start
  rw [Bool.eq_false_iff, ne_eq, String.isEmpty_iff]
  rintro rfl
  cases htext

theorem spells_length {word run : List Char} (h : spells word run = true) :
    run.length = word.length := by
  simpa using (Bool.and_eq_true_iff.mp h).2

/-- A word that is in small letters when all its letters are made small is spelled by it. -/
theorem spells_of_toLower {word run : List Char} (h : run.map Char.toLower = word) :
    spells word run = true := by
  have hbegins : beginsWith word run = true := by
    induction run generalizing word with
    | nil =>
      subst h
      rfl
    | cons c run ih =>
      subst h
      simp [beginsWith, isLetter, ih rfl]
  have hlength : run.length = word.length := by rw [← h, List.length_map]
  simp [spells, hbegins, hlength]

/-- No name is a truth value or null. -/
theorem Literal.ofWord?_of_isName {run : List Char} (h : (wordTerminal run).isName = true) :
    Literal.ofWord? (String.ofList (run.map Char.toLower)) = none := by
  have hword (word : String) (hspells : spells word.toList run = false) :
      String.ofList (run.map Char.toLower) ≠ word := by
    rintro rfl
    rw [String.toList_ofList, spells_of_toLower rfl] at hspells
    exact absurd hspells (by decide)
  have hlength {a b : String} (ha : spells a.toList run = true)
      (hab : a.toList.length ≠ b.toList.length) : spells b.toList run = false := by
    rw [← Bool.not_eq_true]
    exact fun hb => hab ((spells_length ha).symm.trans (spells_length hb))
  obtain ⟨htrue, hfalse, hnull⟩ : spells "true".toList run = false ∧
      spells "false".toList run = false ∧ spells "null".toList run = false := by
    unfold wordTerminal at h
    split_ifs at h with h₁ h₂ h₃ h₄ h₅ h₆
    · exact ⟨hlength h₁ (by decide), hlength h₁ (by decide), hlength h₁ (by decide)⟩
    · exact ⟨hlength h₂ (by decide), hlength h₂ (by decide), hlength h₂ (by decide)⟩
    · exact absurd h (by decide)
    · obtain ⟨h₃, h₃'⟩ : _ ∧ _ := by simpa using h₃
      exact ⟨h₃, h₃', hlength h₄ (by decide)⟩
    · obtain ⟨h₃, h₃'⟩ : _ ∧ _ := by simpa using h₃
      exact ⟨h₃, h₃', hlength h₅ (by decide)⟩
    · exact absurd h (by decide)
    · obtain ⟨h₃, h₃'⟩ : _ ∧ _ := by simpa using h₃
      exact ⟨h₃, h₃', by simpa using h₆⟩
  rw [ofWord?, if_neg (hword _ htrue), if_neg (hword _ hfalse), if_neg (hword _ hnull)]

/-! ## Literals -/

namespace Literal

/-- A literal is spelled as one token that can stand as a value and that means the literal. -/
structure SpelledAs (v : Literal) (x : Terminal) (text : String) : Prop where
  spelling : v.spelling = .ok text
  lexeme : lexeme? text.toList = some (some x, text.toList.length)
  value : x.isName = true ∨ x.isLiteral = true
  meaning : ∀ p stop, valueMeaning ⟨x, text, p, stop⟩ = .ok v

/-- A literal has a spelling, and the spelling means the literal. -/
def ReadsBack (v : Literal) : Prop :=
  ∃ x text, v.SpelledAs x text

theorem readsBack_string {value : String} (h : ¬('\'' ∈ value.toList ∧ '"' ∈ value.toList)) :
    ReadsBack (.string value) := by
  obtain ⟨q, hq, hmem, hspelling⟩ : ∃ q, isQuote q = true ∧ q ∉ value.toList ∧
      spelling (.string value) = .ok (String.ofList (q :: (value.toList ++ [q]))) := by
    by_cases hsingle : '\'' ∈ value.toList
    · have hdouble : '"' ∉ value.toList := fun hdouble => h ⟨hsingle, hdouble⟩
      exact ⟨'"', by decide, hdouble, by simp [spelling, spellString, hsingle, hdouble]⟩
    · exact ⟨'\'', by decide, hsingle, by simp [spelling, spellString, hsingle]⟩
  refine ⟨.string, _, hspelling, ?_, .inr rfl, fun p stop => ?_⟩
  · rw [String.toList_ofList]
    exact lexeme?_string hq hmem
  · rw [valueMeaning, ofText?_string (String.toList_ofList ..) hq, String.ofList_toList]

theorem readsBack_integer {value : Int} (h : fitsWord value = true) :
    ReadsBack (.integer value) := by
  have hn := Numeral.ofChars?_toString value
  have hshort := Numeral.length_ofInt_le h
  have hlong : ¬digitLimit < (Numeral.ofInt value).whole.length := Nat.not_lt.mpr hshort
  have hspelling : spelling (.integer value) = .ok (toString value) := by
    rw [spelling, Numeral.length_ofInt_le_iff.mp hshort, if_neg Bool.false_ne_true]
  refine ⟨.number, toString value, hspelling, lexeme?_numeral hn, .inr rfl, fun p stop => ?_⟩
  have hmeaning : ofNumeral? (Numeral.ofInt value) (toString value) = some (.integer value) := by
    have hinteger : (Numeral.ofInt value).isInteger = true := rfl
    rw [ofNumeral?, if_pos hinteger, if_neg hlong, Numeral.toInt_ofInt, if_pos h]
  rw [valueMeaning, ofText?_number hn, hmeaning]

theorem readsBack_float {value : Double} (h : value.isFinite = true) :
    ReadsBack (.float value) := by
  obtain ⟨n, hn, hpoint, hvalue⟩ := Double.ofChars?_text h
  refine ⟨.number, value.text, if_pos h, lexeme?_numeral hn, .inr rfl, fun p stop => ?_⟩
  have hmeaning : ofNumeral? n value.text = some (.float value) := by
    rw [ofNumeral?, if_neg (by simp [hpoint]), hvalue, ofDouble, if_pos h]
  rw [valueMeaning, ofText?_number hn, hmeaning]

theorem readsBack_boolean (value : Bool) : ReadsBack (.boolean value) := by
  refine ⟨.boolean, _, rfl, ?_, .inr rfl, fun p stop => ?_⟩
  · cases value <;> decide +kernel
  · have hmeaning : ofText? (if value then "true" else "false") = some (.boolean value) := by
      cases value <;> decide +kernel
    rw [valueMeaning, hmeaning]

theorem readsBack_null : ReadsBack .null := by
  have hmeaning : ofText? "null" = some .null := by decide +kernel
  exact ⟨.null, _, rfl, by decide +kernel, .inr rfl, fun p stop => by rw [valueMeaning, hmeaning]⟩

/-- A word of which no other literal is made reads back. -/
theorem readsBack_identifier {name : String} {c : Char} {cs : List Char}
    (htext : name.toList = c :: cs) (hc : isNameStart c = true) (hcs : All isWord cs)
    (hword : ofWord? (String.ofList ((c :: cs).map Char.toLower)) = none) :
    ReadsBack (.identifier name) := by
  have hx := isWord_wordTerminal (c :: cs)
  refine ⟨wordTerminal (c :: cs), name, rfl, ?_, ?_, fun p stop => ?_⟩
  · rw [htext]
    simpa using lexeme?_word hc hcs (stops_nil : Stops isWord [])
  · revert hx
    cases wordTerminal (c :: cs) <;> decide
  · refine valueMeaning_spec.mpr ⟨?_, fun _ _ => ne_number_of_isWord hx⟩
    rw [ofText?_word htext hc hcs, hword, Option.getD_none]

theorem readsBack_name {name : String} (h : IsName name) : ReadsBack (.identifier name) := by
  obtain ⟨x, hx, hlex⟩ := isName_iff_lexeme?.mp h
  have hgenuine : Token.IsGenuine ⟨x, name, .start, 0⟩ := hlex
  obtain ⟨c, cs, htext, hc, hcs, hterminal⟩ := hgenuine.word (by simp [Terminal.isWord, hx])
  exact readsBack_identifier htext hc hcs (ofWord?_of_isName (hterminal ▸ hx))

/-- A name that reads back is a word of which no other literal is made. -/
theorem ReadsBack.identifier {name : String} (h : ReadsBack (.identifier name)) :
    All isWord name.toList ∧ ofWord? (String.ofList (name.toList.map Char.toLower)) = none := by
  obtain ⟨x, text, hspelled⟩ := h
  obtain rfl : name = text := Except.ok.inj hspelled.spelling
  have hgenuine : Token.IsGenuine ⟨x, name, .start, 0⟩ := hspelled.lexeme
  obtain ⟨hmeaning, hnumber⟩ := valueMeaning_spec.mp (hspelled.meaning .start 0)
  rcases isValue_cases hspelled.value with hx | hx | hx
  · obtain ⟨c, cs, htext, hc, hcs, -⟩ := hgenuine.word hx
    rw [ofText?_word htext hc hcs, Option.some.injEq] at hmeaning
    refine ⟨htext ▸ all_cons.mpr ⟨isWord_of_isNameStart hc, hcs⟩, ?_⟩
    rw [htext]
    cases hword : ofWord? (String.ofList ((c :: cs).map Char.toLower)) with
    | none => rfl
    | some literal =>
      obtain rfl : literal = .identifier name := by
        rw [hword] at hmeaning
        exact hmeaning
      unfold ofWord? at hword
      split_ifs at hword <;> cases hword
  · obtain ⟨q, cs, hq, -, htext⟩ := hgenuine.string hx
    rw [ofText?_string htext hq] at hmeaning
    cases hmeaning
  · exact absurd hx (hnumber name rfl)

/-- A literal that patterns can hold as a value: strings without both quotes, integers of 64 bits,
    finite doubles, truth values, null, and names. -/
def IsPlain : Literal → Prop
  | string value => ¬('\'' ∈ value.toList ∧ '"' ∈ value.toList)
  | integer value => fitsWord value = true
  | float value => value.isFinite = true
  | boolean _ => True
  | null => True
  | identifier name => IsName name
  | unspecified => False

/-- Plain literals read back. -/
theorem readsBack_of_isPlain {v : Literal} (h : v.IsPlain) : v.ReadsBack := by
  cases v with
  | string value => exact readsBack_string h
  | integer value => exact readsBack_integer h
  | float value => exact readsBack_float h
  | boolean value => exact readsBack_boolean value
  | null => exact readsBack_null
  | identifier name => exact readsBack_name h
  | unspecified => exact h.elim

/-- The number that a numeral means reads back. -/
theorem readsBack_of_ofNumeral? {n : Numeral} {text : String} {v : Literal}
    (h : ofNumeral? n text = some v) (hv : ∀ name, v ≠ .identifier name) : v.ReadsBack := by
  have hdouble : ∀ v, some (ofDouble n.toDouble text) = some v → (∀ name, v ≠ .identifier name) →
      v.ReadsBack := by
    rintro v ⟨⟩ hv
    unfold ofDouble at hv ⊢
    split
    · rename_i hfinite
      exact readsBack_float hfinite
    · rename_i hfinite
      rw [if_neg hfinite] at hv
      exact absurd rfl (hv text)
  unfold ofNumeral? at h
  split_ifs at h with hint hlong hfits
  · obtain rfl := Option.some.inj h
    exact readsBack_integer hfits
  · exact hdouble v h hv
  · exact hdouble v h hv

theorem readsBack_of_ofWord? {word : String} {v : Literal} (h : ofWord? word = some v) :
    v.ReadsBack := by
  unfold ofWord? at h
  split_ifs at h
  · exact Option.some.inj h ▸ readsBack_boolean true
  · exact Option.some.inj h ▸ readsBack_boolean false
  · exact Option.some.inj h ▸ readsBack_null

/-- What a value means reads back. -/
theorem readsBack_of_meaning {t : Token} {v : Literal} (ht : t.IsGenuine)
    (hx : t.terminal.isName = true ∨ t.terminal.isLiteral = true)
    (h : valueMeaning t = .ok v) : v.ReadsBack := by
  obtain ⟨hv, hname⟩ := valueMeaning_spec.mp h
  rcases isValue_cases hx with hx | hx | hx
  · obtain ⟨c, cs, htext, hc, hcs, -⟩ := ht.word hx
    rw [ofText?_word htext hc hcs, Option.some.injEq] at hv
    subst hv
    cases hword : ofWord? (String.ofList ((c :: cs).map Char.toLower)) with
    | none => exact readsBack_identifier htext hc hcs hword
    | some literal => exact readsBack_of_ofWord? hword
  · obtain ⟨q, cs, hq, hmem, htext⟩ := ht.string hx
    rw [ofText?_string htext hq, Option.some.injEq] at hv
    subst hv
    refine readsBack_string ?_
    rw [String.toList_ofList]
    rintro ⟨hsingle, hdouble⟩
    have hkinds : q = '\'' ∨ q = '"' := by simpa [isQuote] using hq
    rcases hkinds with rfl | rfl
    · exact hmem hsingle
    · exact hmem hdouble
  · obtain ⟨n, hn⟩ := ht.number hx
    rw [ofText?_number hn] at hv
    exact readsBack_of_ofNumeral? hv fun name heq => hname name heq hx

end Literal

end PatternSql
