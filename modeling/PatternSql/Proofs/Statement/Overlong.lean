import PatternSql.Proofs.Pattern.Numbers
import PatternSql.Proofs.Statement.Pattern
import PatternSql.Proofs.Token.Spacing

/-!
# Numbers that are too long

A whole number of more digits than are read is a number to the grammar. In a body it may stand, but
as the value of a property it is not read. Values are looked at map by map in the order of the text,
and a statement fails for such a number exactly if nothing is wrong before it. The failure is no
error of any kind that is found in statements.

Main results:

* `splitStatement_eq_tooManyDigits_iff`: which texts fail in this way.
* `meetsOverlong_creationOf`: the creation of a node with such a number is one of them.
-/

namespace PatternSql

open Grammar

/-! ## Patterns -/

/-- Only a whole number of too many digits has no meaning at all. -/
theorem Token.IsGenuine.isOverlongWhole {t : Token} (ht : t.IsGenuine)
    (hx : t.terminal.isName = true ∨ t.terminal.isLiteral = true)
    (h : Literal.ofText? t.text = none) : Literal.IsOverlongWhole t.text.toList := by
  rcases isValue_cases hx with hx | hx | hx
  · obtain ⟨c, cs, htext, hc, hcs, -⟩ := ht.word hx
    rw [Literal.ofText?_word htext hc hcs] at h
    cases h
  · obtain ⟨q, cs, hq, -, htext⟩ := ht.string hx
    rw [Literal.ofText?_string htext hq] at h
    cases h
  · obtain ⟨n, hn⟩ := ht.number hx
    rw [Literal.ofText?_number hn, Literal.ofNumeral?] at h
    split_ifs at h with hinteger hlong
    exact Literal.isOverlongWhole_of_numeral hn hinteger hlong

theorem Literal.IsOverlongWhole.valueMeaning {t : Token} (h : IsOverlongWhole t.text.toList) :
    valueMeaning t = .error .tooManyDigits :=
  valueMeaning_eq_error_iff.mpr (.inl ⟨h.ofText?_eq_none, rfl⟩)

/-- Where a pattern fails for its digits, a whole number of too many digits is looked at. -/
theorem Grammar.exists_reached_of_meaning {d : pattern.Derivation}
    (hgenuine : ∀ t ∈ pattern.tokens d, t.IsGenuine)
    (h : (patternSyntax d).meaning = .error .tooManyDigits) :
    ∃ value, IsReached (patternMaps d) value ∧ Literal.IsOverlongWhole value.text.toList := by
  obtain ⟨earlier, es, later, hmaps, hearlier, herror⟩ := (foundAt_of_meaning h).1
  have hpairs : patternMaps d = earlier.map pairsOf ++ pairsOf es :: later.map pairsOf := by
    rw [← patternSyntax_maps, hmaps, List.map_append, List.map_cons]
  obtain ⟨before, e, after, hes, hbefore, hvalue⟩ | ⟨_, _, _, _, _, heq⟩ :=
    mapMeaning_eq_error herror
  · have hentries : pairsOf es = pairsOf before ++ (e.key, e.value) :: pairsOf after := by
      rw [hes]
      exact List.map_append
    have hmem : pairsOf es ∈ patternMaps d := hpairs ▸ List.mem_append_right _ List.mem_cons_self
    have hentry {entry : Token × Token} (h : entry ∈ pairsOf es) :=
      isEntryIn_pattern hmem h
    refine ⟨e.value, ⟨_, _, e.key, _, _, hentries ▸ hpairs, fun m hm => ?_, fun b hb => ?_⟩, ?_⟩
    · obtain ⟨es', hes', rfl⟩ := List.mem_map.mp hm
      obtain ⟨properties, hproperties⟩ := hearlier es' hes'
      exact isFaultless_of_legible hgenuine (hpairs ▸ List.mem_append_left _ hm)
        (mapMeaning_eq_ok_iff.mp hproperties).1
    · obtain ⟨e', he', rfl⟩ := List.mem_map.mp hb
      have hreadable : Readable e'.value := hbefore e' he'
      have hin := hentry (hentries ▸ List.mem_append_left _ hb)
      exact ⟨hreadable.not_overflows (hgenuine _ hin.value_mem) hin.value, hreadable.short⟩
    · have hin := hentry (hentries ▸ List.mem_append_right _ List.mem_cons_self)
      obtain ⟨hnone, -⟩ | ⟨-, -, heq⟩ := valueMeaning_eq_error_iff.mp hvalue
      · exact (hgenuine _ hin.value_mem).isOverlongWhole hin.value hnone
      · cases heq
  · cases heq

/-! ## Statements -/

/-- The first thing that is wrong with the maps of a statement is a whole number of too many
    digits. -/
def MeetsOverlong (text : String) : Prop :=
  ∃ (p : Cursor) (d : statement.Derivation) (value : Token),
    (scan text).stop = .finished p ∧ statement.tokens d = (scan text).tokens ∧
      IsReached (patternMaps (patternIn d)) value ∧ Literal.IsOverlongWhole value.text.toList

/-- A statement fails for its digits exactly if a whole number of too many digits is looked at. -/
theorem splitStatement_eq_tooManyDigits_iff {text : String} :
    splitStatement text = .error .tooManyDigits ↔ MeetsOverlong text := by
  have hgenuine {d : statement.Derivation} (hd : statement.tokens d = (scan text).tokens) :
      ∀ t ∈ pattern.tokens (patternIn d), t.IsGenuine :=
    fun t ht => isGenuine_of_mem (hd ▸ mem_of_mem_patternIn ht)
  constructor
  · intro h
    obtain h | ⟨syn, hsyn, h⟩ := bind_eq_error_iff.mp h
    · obtain ⟨e, -, heq⟩ := mapError_eq_error_iff.mp h
      cases heq
    · obtain ⟨⟨p, hstop⟩, d, hd, rfl⟩ := readStatement_eq_ok_iff.mp (mapError_eq_ok_iff.mp hsyn)
      have hmeaning := StatementSyntax.meaning_eq_error_iff.mp h
      rw [statementSyntax_pattern] at hmeaning
      obtain ⟨value, hreached, hlong⟩ := exists_reached_of_meaning (hgenuine hd) hmeaning
      exact ⟨p, d, value, hstop, hd, hreached, hlong⟩
  · rintro ⟨p, d, value, hstop, hd, hreached, hlong⟩
    rw [splitStatement_of_read (readStatement_eq_ok_iff.mpr ⟨⟨p, hstop⟩, d, hd, rfl⟩),
      StatementSyntax.meaning_eq_error_iff, statementSyntax_pattern]
    exact meaning_of_reached (hgenuine hd) hreached hlong.valueMeaning

/-- A statement whose pattern has no maps meets no number in them. -/
theorem not_meetsOverlong_of_maps {text : String}
    (h : (readStatement text).map (·.pattern.maps) = .ok []) : ¬MeetsOverlong text := by
  rintro ⟨p, d, value, hstop, hd, hreached, -⟩
  rw [readStatement_eq_ok_iff.mpr ⟨⟨p, hstop⟩, d, hd, rfl⟩] at h
  have hmaps : (statementSyntax d).pattern.maps = [] := Except.ok.inj h
  obtain ⟨m, hm, -⟩ := hreached.mem
  rw [← patternSyntax_maps, ← statementSyntax_pattern, hmaps] at hm
  exact List.not_mem_nil hm

/-! ## Creations -/

/-- The tokens in front of the number of a node, wherever they stand. -/
def creationFront : List Token :=
  [⟨.createWord, "CREATE", .start, 0⟩, ⟨.leftParen, "(", .start, 0⟩, ⟨.identifier, "n", .start, 0⟩,
    ⟨.colon, ":", .start, 0⟩, ⟨.identifier, "T", .start, 0⟩, ⟨.leftBrace, "\x7b", .start, 0⟩,
    ⟨.identifier, "k", .start, 0⟩, ⟨.colon, ":", .start, 0⟩]

/-- The tokens behind it. -/
def creationBack : List Token :=
  [⟨.rightBrace, "\x7d", .start, 0⟩, ⟨.rightParen, ")", .start, 0⟩]

/-- The tokens of a statement that creates a node with a number. -/
def creationTokens (number : String) : List Token :=
  creationFront ++ ⟨.number, number, .start, 0⟩ :: creationBack

/-- One blank between any two tokens. -/
def creationBlanks (i : Nat) : List Char :=
  if i = 0 ∨ i = 11 then [] else [' ']

/-- A statement that creates a node with a number. -/
def creationOf (number : String) : String :=
  "CREATE ( n : T \x7b k : " ++ (number ++ " \x7d )")

theorem creationOf_toList (number : String) :
    (creationOf number).toList = spaced creationBlanks (creationTokens number) := by
  have hfront : "CREATE ( n : T \x7b k : ".toList = spaced creationBlanks creationFront := by
    decide +kernel
  have hback : " \x7d )".toList = spaced (fun i => creationBlanks (i + 9)) creationBack := by
    decide +kernel
  have htokens : spaced creationBlanks (creationTokens number) =
      spaced creationBlanks creationFront ++
        (number.toList ++ spaced (fun i => creationBlanks (i + 9)) creationBack) :=
    spaced_append _ _ _ _
  have happend (a b c : String) : (a ++ (b ++ c)).toList = a.toList ++ (b.toList ++ c.toList) := by
    rw [String.toList_append, String.toList_append]
  have htext : (creationOf number).toList =
      "CREATE ( n : T \x7b k : ".toList ++ (number.toList ++ " \x7d )".toList) :=
    happend _ _ _
  exact htext.trans ((congrArg₂ (fun a b => a ++ (number.toList ++ b)) hfront hback).trans
    htokens.symm)

theorem isGenuine_of_creation {number : String} {n : Numeral}
    (hn : Numeral.ofChars? number.toList = some n) :
    ∀ t ∈ creationTokens number, t.IsGenuine := by
  have hfixed : ∀ t ∈ creationFront ++ creationBack,
      lexeme? t.text.toList = some (some t.terminal, t.text.toList.length) := by decide +kernel
  intro t ht
  rcases List.mem_append.mp ht with ht | ht
  · exact hfixed t (List.mem_append_left _ ht)
  · rcases List.mem_cons.mp ht with rfl | ht
    · exact lexeme?_numeral hn
    · exact hfixed t (List.mem_append_right _ ht)

theorem isSpacing_creationBlanks (number : String) :
    IsSpacing creationBlanks (creationTokens number).length := by
  constructor
  · intro i _
    rw [creationBlanks]
    split
    · exact all_nil
    · exact all_cons.mpr ⟨rfl, all_nil⟩
  · intro i hi hlt
    have hlength : (creationTokens number).length = 11 := rfl
    rw [creationBlanks, if_neg (by omega)]
    exact List.cons_ne_nil _ _

theorem scan_creationOf {number : String} {n : Numeral}
    (hn : Numeral.ofChars? number.toList = some n) :
    (∃ p, (scan (creationOf number)).stop = .finished p) ∧
      (scan (creationOf number)).tokens.map Token.content =
        (creationTokens number).map Token.content := by
  have hcut := cut_spaced (isGenuine_of_creation hn) (isSpacing_creationBlanks number)
  have hscan := scan_of_cut hcut
  rw [charsOf_spacedPieces, ← creationOf_toList, String.ofList_toList] at hscan
  rw [hscan]
  exact ⟨⟨_, rfl⟩, tokensFrom_spacedPieces _ _ _⟩

/-- Such tokens are read as the creation of a node with the number, wherever they stand. -/
theorem run_creation {number : String} {ts : List Token}
    (h : ts.map Token.content = (creationTokens number).map Token.content) :
    ∃ opening name label key value, value.terminal = .number ∧ value.text = number ∧
      statementReader.run .start ts =
        (.creating (.closed (.node ⟨opening, some name, [label], some [⟨key, value⟩]⟩)), []) := by
  simp only [creationTokens, creationFront, creationBack, List.cons_append, List.nil_append,
    List.map_cons, List.map_nil, List.map_eq_cons_iff, List.map_eq_nil_iff, Token.content,
    Prod.mk.injEq] at h
  obtain ⟨create, _, rfl, ⟨h₀, -⟩, opening, _, rfl, ⟨h₁, -⟩, name, _, rfl, ⟨h₂, -⟩, colon, _, rfl,
    ⟨h₃, -⟩, label, _, rfl, ⟨h₄, -⟩, brace, _, rfl, ⟨h₅, -⟩, key, _, rfl, ⟨h₆, -⟩, colon', _, rfl,
    ⟨h₇, -⟩, value, _, rfl, ⟨h₈, htext⟩, brace', _, rfl, ⟨h₉, -⟩, closing, _, rfl, ⟨h₁₀, -⟩,
    rfl⟩ := h
  refine ⟨opening, name, label, key, value, h₈, htext, ?_⟩
  simp [Reader.run, statementReader, StatementState.step, PatternState.step, PatternState.openNode,
    NodeState.step, NodeState.stepPart, MapState.step, Lead.close, Terminal.isName,
    Terminal.isLiteral, h₀, h₁, h₂, h₃, h₄, h₅, h₆, h₇, h₈, h₉, h₁₀]

/-- The creation of a node with a whole number of too many digits. -/
theorem meetsOverlong_creationOf {number : String} {n : Numeral}
    (hn : Numeral.ofChars? number.toList = some n) (hinteger : n.isInteger = true)
    (hlong : digitLimit < n.whole.length) : MeetsOverlong (creationOf number) := by
  obtain ⟨⟨p, hstop⟩, hcontent⟩ := scan_creationOf hn
  obtain ⟨opening, name, label, key, value, -, htext, hrun⟩ := run_creation hcontent
  have hread := Reader.read_eq_ok_iff.mpr ⟨_, p, hrun, hstop, rfl⟩
  obtain ⟨-, d, hd, hsyn⟩ := readStatement_eq_ok_iff.mp hread
  have hmaps : patternMaps (patternIn d) = [[(key, value)]] := by
    rw [← patternSyntax_maps, ← statementSyntax_pattern, ← hsyn]
    rfl
  have hreached : IsReached (patternMaps (patternIn d)) value :=
    ⟨[], [], key, [], [], hmaps, fun m hm => (List.not_mem_nil hm).elim,
      fun e he => (List.not_mem_nil he).elim⟩
  exact ⟨p, d, value, hstop, hd, hreached,
    htext ▸ Literal.isOverlongWhole_of_numeral hn hinteger hlong⟩

end PatternSql
