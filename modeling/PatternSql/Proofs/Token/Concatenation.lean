import Mathlib.Data.Bool.AllAny
import PatternSql.Proofs.Token.Behind

/-!
# Reading texts with blanks between them

No token goes on over a blank, and reading remembers nothing but the place that it has come to. So
two texts with blanks between them are read as the tokens of the first and then as whatever the
second is read as by itself, in the place where it stands: behind the first text and the blanks.
That place is further on by their characters and their line feeds; columns are further on only on
the first line of the second text, by what stands behind the last line feed in front of it.

Main results:

* `advance_shift`: a text that stands behind another one is counted from the end of that.
* `scanFrom_shift`: reading commutes with moving a text behind another one.
* `yielded_concatenation`: what two texts with blanks between them are read as.
-/

namespace PatternSql

/-! ## Places behind a text -/

/-- The number of characters behind the last line feed of a text, or of all characters if it has
    none. -/
def lastLineLength (cs : List Char) : Nat :=
  (cs.reverse.takeWhile (· != '\n')).length

/-- A place of a text, when the text stands behind another one. -/
def Cursor.shift (front : List Char) (p : Cursor) : Cursor where
  offset := p.offset + front.length
  line := p.line + front.count '\n'
  column := if p.line = 1 then p.column + lastLineLength front else p.column

/-- A token, when its text stands behind another one. -/
def Token.shift (front : List Char) (t : Token) : Token :=
  ⟨t.terminal, t.text, t.start.shift front, t.stop + front.length⟩

/-- The error for a character that begins no token, when its text stands behind another one. The
    cause stays the same. -/
def InputError.shift (front : List Char) : InputError → InputError
  | .lexical position cause (some line) (some column) =>
    let p := Cursor.shift front ⟨position, line, column⟩
    .lexical p.offset cause p.line p.column
  | e => e

/-- The end of reading, when the text stands behind another one. -/
def Stop.shift (front : List Char) : Stop → Stop
  | finished p => finished (p.shift front)
  | refused p c => refused (p.shift front) c

variable {front : List Char} {p : Cursor}

/-- The place behind a text is the beginning of the next one. -/
theorem start_shift (front : List Char) :
    Cursor.start.shift front = Cursor.start.advance front := by
  rw [advance_start]
  show (⟨0 + front.length, 1 + front.count '\n', 1 + lastLineLength front⟩ : Cursor) = _
  rw [Nat.zero_add, Nat.add_comm 1 (lastLineLength front)]
  rfl

theorem line_next_pos (h : 0 < p.line) (c : Char) : 0 < (p.next c).line := by
  unfold Cursor.next
  split
  · exact Nat.succ_pos p.line
  · exact h

/-- A character moves a place and the place behind a text alike: a line feed begins a line that is
    not the first one in both. -/
theorem next_shift (h : 0 < p.line) (c : Char) :
    (p.shift front).next c = (p.next c).shift front := by
  unfold Cursor.next
  by_cases hc : (c == '\n') = true
  · have hline : p.line + 1 ≠ 1 := by omega
    rw [if_pos hc, if_pos hc]
    simp only [Cursor.shift, if_neg hline, Cursor.mk.injEq, and_true]
    omega
  · rw [if_neg hc, if_neg hc]
    simp only [Cursor.shift, Cursor.mk.injEq, true_and]
    split <;> omega

/-- A text that stands behind another one is counted from the end of that. -/
theorem advance_shift (h : 0 < p.line) (cs : List Char) :
    (p.shift front).advance cs = (p.advance cs).shift front := by
  induction cs generalizing p with
  | nil => rfl
  | cons c cs ih =>
    rw [Cursor.advance_cons, Cursor.advance_cons, next_shift h, ih (line_next_pos h c)]

theorem line_advance_pos (h : 0 < p.line) (cs : List Char) : 0 < (p.advance cs).line := by
  induction cs generalizing p with
  | nil => exact h
  | cons c cs ih => exact ih (line_next_pos h c)

/-! ## Reading behind a text -/

/-- The tokens of pieces behind a text are those of the pieces, moved. -/
theorem tokensFrom_shift (h : 0 < p.line) (ps : List Piece) :
    tokensFrom (p.shift front) ps = (tokensFrom p ps).map (·.shift front) := by
  induction ps generalizing p with
  | nil => rfl
  | cons piece ps ih =>
    obtain ⟨cls, cs⟩ := piece
    have htail := ih (line_advance_pos h cs)
    rw [← advance_shift h] at htail
    cases cls with
    | none => exact htail
    | some x =>
      have hstop : (p.shift front).offset + cs.length = p.offset + cs.length + front.length := by
        show p.offset + front.length + cs.length = _
        omega
      rw [tokensFrom, tokensFrom, List.map_cons, htail, hstop]
      rfl

/-- Reading commutes with moving a text behind another one. -/
theorem scanFrom_shift (h : 0 < p.line) (cs : List Char) :
    scanFrom (p.shift front) cs =
      ⟨(scanFrom p cs).tokens.map (·.shift front), (scanFrom p cs).stop.shift front⟩ := by
  obtain ⟨ps, rest, rfl, hcut, hrest⟩ := exists_pieces cs
  rw [scanFrom_pieces hcut, scanFrom_pieces hcut, tokensFrom_shift h, advance_shift h]
  cases rest with
  | nil =>
    rw [scanFrom_nil, scanFrom_nil, List.append_nil, List.append_nil]
    rfl
  | cons c rest =>
    have hnone : lexeme? (c :: rest) = none := hrest.resolve_left (List.cons_ne_nil c rest)
    rw [scanFrom_of_none hnone, scanFrom_of_none hnone, List.append_nil, List.append_nil]
    rfl

/-! ## Two texts -/

/-- All that reading a text yields: its tokens in order, and then the token for the end or the
    error. -/
def yielded (text : String) : List (Except InputError Token) :=
  (scan text).tokens.map .ok ++ [(scan text).last]

theorem dropLast_yielded (text : String) :
    (yielded text).dropLast = (scan text).tokens.map .ok :=
  List.dropLast_concat

/-- What comes behind the last token is moved with the end of reading. -/
theorem last_shift (ts : List Token) (s : Stop) :
    Scan.last ⟨ts, s.shift front⟩ =
      changed (Token.shift front) (InputError.shift front) (Scan.last ⟨ts, s⟩) := by
  cases s <;> rfl

/-- The second of two texts is read from the end of the first one and the blanks behind it. -/
theorem scan_concatenation {t w u : String} {q : Cursor} (ht : (scan t).stop = .finished q)
    (hne : w.toList ≠ []) (hw : All isGap w.toList) :
    scan (t ++ w ++ u) =
      ⟨(scan t).tokens ++ (scan u).tokens.map (·.shift (t ++ w).toList),
        (scan u).stop.shift (t ++ w).toList⟩ := by
  have hq : q = Cursor.start.advance t.toList := by
    obtain ⟨ps, -, -, -, hq⟩ := scan_finished ht
    exact hq
  have hmore : Separates (w.toList ++ u.toList) := separates_of_blanks hw (.inl hne)
  have hsecond : scanFrom q (w.toList ++ u.toList) =
      scanFrom (Cursor.start.shift (t ++ w).toList) u.toList := by
    rw [scanFrom_blanks_append hw, hq, ← Cursor.advance_append, start_shift, String.toList_append]
  have hall : (t ++ w ++ u).toList = t.toList ++ (w.toList ++ u.toList) := by
    rw [String.toList_append, String.toList_append, List.append_assoc]
  rw [scan, hall, scanFrom_append hmore ht, hsecond, scanFrom_shift Nat.one_pos]
  rfl

/-- A text that is read to its end, blanks, and another text are read as the tokens of the first
    text, and then as all that the other one yields, be it tokens and the end or an error, in the
    place behind the first text and the blanks. -/
theorem yielded_concatenation {t w u : String} (ht : ∃ e, (scan t).last = .ok e) (hne : w ≠ "")
    (hw : ∀ c ∈ w.toList, c ∈ [' ', '\t', '\x0c', '\r', '\n']) :
    yielded (t ++ w ++ u) =
      (yielded t).dropLast ++
        (yielded u).map
          (changed (Token.shift (t ++ w).toList) (InputError.shift (t ++ w).toList)) := by
  obtain ⟨q, hq⟩ : ∃ q, (scan t).stop = .finished q := by
    obtain ⟨e, he⟩ := ht
    unfold Scan.last at he
    cases hstop : (scan t).stop with
    | finished q => exact ⟨q, rfl⟩
    | refused q c =>
      rw [hstop] at he
      cases he
  have hblank : All isGap w.toList := fun c hc => isGap_iff.mpr (hw c hc)
  have hnil : w.toList ≠ [] := by
    intro hnil
    exact hne (String.toList_eq_nil_iff.mp hnil)
  have hscan := scan_concatenation (u := u) hq hnil hblank
  rw [dropLast_yielded, yielded, hscan, last_shift, yielded]
  simp only [List.map_append, List.map_map, List.map_singleton, List.append_assoc]
  rfl

/-- A string with a line feed in it and blanks stand in front of a text with an error on its second
    line: columns are moved on the first line only. -/
theorem yielded_concatenation_lines :
    (∃ e, (scan "x 'a\n'").last = .ok e) ∧
      yielded ("x 'a\n'" ++ "\t " ++ "n\n ?") =
        [.ok ⟨.identifier, "x", ⟨0, 1, 1⟩, 1⟩, .ok ⟨.string, "'a\n'", ⟨2, 1, 3⟩, 6⟩,
          .ok ⟨.identifier, "n", ⟨8, 2, 4⟩, 9⟩,
          .error (.lexical 11 (.invalid '?') (some 3) (some 2))] := by
  have hfirst : ∃ e, (scan "x 'a\n'").last = .ok e := ⟨.ending ⟨6, 2, 2⟩, by decide +kernel⟩
  refine ⟨hfirst, ?_⟩
  rw [yielded_concatenation hfirst (by decide) (List.all_iff_forall_prop.mp (by decide))]
  decide +kernel

end PatternSql
