import PatternSql.Proofs.Grammar.Relocation
import PatternSql.Proofs.Token.Spacing

/-!
# A text behind another one

Where a lexeme ends, the rest of a text is read as by itself, in the place where it stands. Blanks
can be read one by one, so those that a rest begins with belong to the rest; and blanks behind the
last token are of no account.

Main results:

* `scanFrom_gap`: a blank is skipped.
* `scanFrom_append`: what a text goes on with is read from its end on.
* `scanFrom_behind`: a rest of a text is read as by itself, in another place.
* `exists_last`: what is left of a text without its last token.
-/

namespace PatternSql

@[simp] theorem Scan.prepend_stop (cls : LexemeClass) (p : Cursor) (text : List Char)
    (rest : Scan) : (rest.prepend cls p text).stop = rest.stop := by
  cases cls <;> rfl

/-! ## Blanks -/

/-- A blank is skipped, whatever follows it. -/
theorem scanFrom_gap {c : Char} (h : isGap c = true) (p : Cursor) (cs : List Char) :
    scanFrom p (c :: cs) = scanFrom (p.next c) cs := by
  have hlex := lexeme?_of_isGap cs h
  have hlength : gapLength (c :: cs) = gapLength cs + 1 := by
    simp [gapLength, h]
  rw [scanFrom_of_some (List.cons_ne_nil c cs) hlex, hlength, List.take_succ_cons,
    List.drop_succ_cons, Cursor.advance_cons, Scan.prepend]
  cases cs with
  | nil => rfl
  | cons d ds =>
    by_cases hd : isGap d = true
    · rw [scanFrom_of_some (List.cons_ne_nil d ds) (lexeme?_of_isGap ds hd)]
      rfl
    · have hzero : gapLength (d :: ds) = 0 := by
        simp [gapLength, hd]
      rw [hzero]
      rfl

/-- Blanks in front of a text are skipped. -/
theorem scanFrom_blanks_append {blanks : List Char} (h : All isGap blanks) (p : Cursor)
    (cs : List Char) : scanFrom p (blanks ++ cs) = scanFrom (p.advance blanks) cs := by
  induction blanks generalizing p with
  | nil => rfl
  | cons c blanks ih =>
    obtain ⟨hc, hblanks⟩ := all_cons.mp h
    rw [List.cons_append, scanFrom_gap hc, ih hblanks, Cursor.advance_cons]

theorem scanFrom_blanks {blanks : List Char} (h : All isGap blanks) (p : Cursor) :
    scanFrom p blanks = ⟨[], .finished (p.advance blanks)⟩ := by
  have hskip := scanFrom_blanks_append h p []
  rwa [List.append_nil, scanFrom_nil] at hskip

/-- A text that is read to its end is read in the same way in front of what stands in no word,
    numeral or operator, and that is read from its end on. -/
theorem scanFrom_append {cs more : List Char} (hmore : Separates more) {p q : Cursor}
    (hstop : (scanFrom p cs).stop = .finished q) :
    scanFrom p (cs ++ more) =
      ⟨(scanFrom p cs).tokens ++ (scanFrom q more).tokens, (scanFrom q more).stop⟩ := by
  induction hn : cs.length using Nat.strongRecOn generalizing cs p with
  | ind n ih =>
    subst hn
    cases cs with
    | nil =>
      rw [scanFrom_nil] at hstop
      obtain rfl := Stop.finished.inj hstop
      rw [List.nil_append, scanFrom_nil, List.nil_append]
    | cons c cs =>
      -- A row of blanks may go on in the text behind it, so blanks are skipped one by one.
      by_cases hc : isGap c = true
      · rw [scanFrom_gap hc] at hstop
        rw [List.cons_append, scanFrom_gap hc, scanFrom_gap hc]
        exact ih _ (Nat.lt_succ_self _) hstop rfl
      · cases hlex : lexeme? (c :: cs) with
        | none =>
          rw [scanFrom_of_none hlex] at hstop
          cases hstop
        | some found =>
          obtain ⟨cls, n⟩ := found
          have hlexmore : lexeme? (c :: cs ++ more) = some (cls, n) :=
            lexeme?_append hlex hmore (.inl (stops_cons.mpr (by simpa using hc)))
          have hle := lexeme?_length_le hlex
          have hshort : ((c :: cs).drop n).length < (c :: cs).length := by
            have := lexeme?_length_pos hlex
            rw [List.length_drop]
            omega
          rw [scanFrom_of_some (List.cons_ne_nil c cs) hlex] at hstop
          rw [Scan.prepend_stop] at hstop
          rw [scanFrom_of_some (by simp) hlexmore, scanFrom_of_some (List.cons_ne_nil c cs) hlex,
            List.take_append_of_le_length hle, List.drop_append_of_le_length hle,
            ih _ hshort hstop rfl]
          cases cls <;> rfl

/-- Blanks behind a text are no tokens. -/
theorem scanFrom_append_blanks {cs blanks : List Char} (h : All isGap blanks) {p q : Cursor}
    (hstop : (scanFrom p cs).stop = .finished q) :
    scanFrom p (cs ++ blanks) = ⟨(scanFrom p cs).tokens, .finished (q.advance blanks)⟩ := by
  have hseparates := separates_of_blanks h (.inr rfl)
  rw [List.append_nil] at hseparates
  rw [scanFrom_append hseparates hstop, scanFrom_blanks h, List.append_nil]

/-! ## The rest of a text -/

/-- Where the characters of a rest stand in a text, by their numbers in the rest. -/
def placeBehind (text : String) (front : List Char) (i : Nat) : Cursor :=
  placeIn text (i + front.length)

theorem placeBehind_advance {text : String} {front before rest : List Char}
    (h : text.toList = front ++ (before ++ rest)) :
    placeBehind text front (Cursor.start.advance before).offset =
      (Cursor.start.advance front).advance before := by
  rw [← List.append_assoc] at h
  rw [← Cursor.advance_append, placeIn_of_append h, placeBehind, Cursor.advance_offset,
    List.length_append, Nat.add_comm front.length]
  exact congrArg (fun i => placeIn text (i + front.length)) (Nat.zero_add before.length)

/-- The tokens of pieces behind something are those of the pieces by themselves, moved. -/
theorem tokensFrom_behind {text : String} {front before rest : List Char} {ps : List Piece}
    (h : text.toList = front ++ (before ++ (charsOf ps ++ rest))) :
    tokensFrom ((Cursor.start.advance front).advance before) ps =
      (tokensFrom (Cursor.start.advance before) ps).map (·.moveTo (placeBehind text front)) := by
  induction ps generalizing before with
  | nil => rfl
  | cons piece ps ih =>
    obtain ⟨cls, cs⟩ := piece
    have hrest : text.toList = front ++ ((before ++ cs) ++ (charsOf ps ++ rest)) := by
      rw [h, charsOf_cons]
      simp only [List.append_assoc]
    have htail := ih hrest
    rw [Cursor.advance_append, Cursor.advance_append] at htail
    cases cls with
    | none => exact htail
    | some x =>
      rw [tokensFrom, tokensFrom, List.map_cons, htail, Token.moveTo, placeBehind_advance h,
        Nat.add_sub_cancel_left]

/-- A rest of a text is read as by itself, in the place where it stands. -/
theorem scanFrom_behind {text : String} {front cs : List Char}
    (h : text.toList = front ++ cs) :
    scanFrom (Cursor.start.advance front) cs =
      (scan (String.ofList cs)).moveTo (placeBehind text front) := by
  obtain ⟨ps, rest, hcs, hcut, hrest⟩ := exists_pieces cs
  have htext : text.toList = front ++ ([] ++ (charsOf ps ++ rest)) := by
    rw [h, hcs, List.nil_append]
  have htokens := tokensFrom_behind htext
  rw [Cursor.advance_nil, Cursor.advance_nil] at htokens
  have hplace : placeBehind text front (Cursor.start.advance (charsOf ps)).offset =
      (Cursor.start.advance front).advance (charsOf ps) :=
    placeBehind_advance (h.trans (congrArg _ hcs))
  rw [scan, String.toList_ofList, hcs, scanFrom_pieces hcut, scanFrom_pieces hcut, htokens,
    Scan.moveTo, List.map_append]
  cases rest with
  | nil => simp only [scanFrom_nil, List.map_nil, Stop.moveTo, hplace]
  | cons c rest =>
    have hnone : lexeme? (c :: rest) = none := hrest.resolve_left (List.cons_ne_nil c rest)
    simp only [scanFrom_of_none hnone, List.map_nil, Stop.moveTo, hplace]

/-! ## A text without its last token -/

/-- Pieces without tokens are blanks. -/
theorem all_isGap_of_cut {ps : List Piece} {rest : List Char} (hcut : Cut ps rest) {p : Cursor}
    (h : tokensFrom p ps = []) : All isGap (charsOf ps) := by
  intro c hc
  obtain ⟨i, hi⟩ := List.mem_iff_getElem?.mp hc
  obtain ⟨t, ht, -⟩ | hgap := covered_of_cut (p := p) hcut hi
  · rw [h] at ht
    cases ht
  · exact hgap

/-- In front of the last token and behind it a text goes on with blanks only. -/
theorem exists_last {text : String} {p : Cursor} (h : (scan text).stop = .finished p)
    {before : List Token} {t : Token} (htokens : (scan text).tokens = before ++ [t]) :
    ∃ front blanks : String, text = front ++ t.text ++ blanks ∧ All isGap blanks.toList ∧
      front.length = t.start.offset ∧ (scan front).tokens = before ∧ ∃ q, (scan front).stop = .finished q := by
  obtain ⟨ps, htext, hcut, hps, -⟩ := scan_finished h
  rw [hps] at htokens
  obtain ⟨qs, rest, rfl, hqs, hlast, -, -⟩ := tokensFrom_eq_append htokens
  obtain ⟨gaps, cs, more, rfl, hgaps, hstart, -, hcs, hmore⟩ := tokensFrom_eq_cons hlast
  rw [← List.append_assoc] at hcut htext
  obtain ⟨hfront, hback⟩ := cut_append_iff.mp hcut
  have hfront : Cut (qs ++ gaps) [] := Cut.left hfront
  have hscan := scan_of_cut hfront
  refine ⟨String.ofList (charsOf (qs ++ gaps)), String.ofList (charsOf more), ?_, ?_, ?_, ?_, ?_⟩
  · rw [← String.toList_inj, htext, hcs]
    simp
  · rw [String.toList_ofList]
    exact all_isGap_of_cut hback.2 hmore
  · rw [hstart, String.length_ofList, charsOf_append, ← Cursor.advance_append,
      Cursor.advance_offset]
    exact (Nat.zero_add _).symm
  · rw [hscan, tokensFrom_append, hqs, hgaps, List.append_nil]
  · exact ⟨_, congrArg Scan.stop hscan⟩

end PatternSql
