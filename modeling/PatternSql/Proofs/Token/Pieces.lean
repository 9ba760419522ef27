import PatternSql.Proofs.Token.Lexeme

/-!
# A text as its pieces

Reading cuts a text into pieces, each a token or a row of blanks, and may leave a rest that no token
begins with. The pieces are determined by the text, and conversely a text whose pieces are known is
read as their tokens.

Main results:

* `scanFrom_pieces`: a text that is cut into pieces is read as their tokens and then its rest.
* `exists_pieces`: every text is cut into pieces up to the end or to a character that is refused.
* `Cut.left`, `Cut.extend`: what a text is cut into when a part of it is left out or something is
  added.
-/

namespace PatternSql

open Text

/-- A stretch of a text with what it is. -/
abbrev Piece := LexemeClass × List Char

/-- The characters of pieces. -/
def charsOf (ps : List Piece) : List Char :=
  ps.flatMap (·.2)

/-- The tokens of pieces that begin at a given place. -/
def tokensFrom (p : Cursor) : List Piece → List Token
  | [] => []
  | (none, cs) :: ps => tokensFrom (p.advance cs) ps
  | (some x, cs) :: ps =>
    ⟨x, String.ofList cs, p, p.offset + cs.length⟩ :: tokensFrom (p.advance cs) ps

/-- The pieces and the rest that reading cuts a text into: each piece is a lexeme at its place. -/
def Cut : List Piece → List Char → Prop
  | [], _ => True
  | (cls, cs) :: ps, rest =>
    lexeme? (cs ++ (charsOf ps ++ rest)) = some (cls, cs.length) ∧ Cut ps rest

@[simp] theorem charsOf_nil : charsOf [] = [] := rfl

@[simp] theorem charsOf_cons (cls : LexemeClass) (cs : List Char) (ps : List Piece) :
    charsOf ((cls, cs) :: ps) = cs ++ charsOf ps := rfl

@[simp] theorem charsOf_append (ps qs : List Piece) :
    charsOf (ps ++ qs) = charsOf ps ++ charsOf qs :=
  List.flatMap_append

theorem tokensFrom_append (p : Cursor) (ps qs : List Piece) :
    tokensFrom p (ps ++ qs) = tokensFrom p ps ++ tokensFrom (p.advance (charsOf ps)) qs := by
  induction ps generalizing p with
  | nil => rfl
  | cons piece ps ih =>
    obtain ⟨cls, cs⟩ := piece
    cases cls with
    | none => simp only [List.cons_append, tokensFrom, ih, charsOf_cons, Cursor.advance_append]
    | some x => simp only [List.cons_append, tokensFrom, ih, charsOf_cons, Cursor.advance_append]

/-- A piece is not empty. -/
theorem Cut.ne_nil {cls : LexemeClass} {cs rest : List Char} {ps : List Piece}
    (h : Cut ((cls, cs) :: ps) rest) : cs ≠ [] :=
  List.ne_nil_of_length_pos (lexeme?_length_pos h.1)

/-! ## Reading -/

/-- A text that is cut into pieces is read as their tokens and then its rest. -/
theorem scanFrom_pieces {ps : List Piece} {rest : List Char} (h : Cut ps rest) (p : Cursor) :
    scanFrom p (charsOf ps ++ rest) =
      ⟨tokensFrom p ps ++ (scanFrom (p.advance (charsOf ps)) rest).tokens,
        (scanFrom (p.advance (charsOf ps)) rest).stop⟩ := by
  induction ps generalizing p with
  | nil => rfl
  | cons piece ps ih =>
    obtain ⟨cls, cs⟩ := piece
    have hne := h.ne_nil
    rw [charsOf_cons, List.append_assoc, scanFrom_of_some (by simp [hne]) h.1, List.take_left,
      List.drop_left, ih h.2, Cursor.advance_append]
    cases cls <;> rfl

/-- Every text is cut into pieces, up to its end or to a character that begins no lexeme. -/
theorem exists_pieces (cs : List Char) :
    ∃ ps rest, cs = charsOf ps ++ rest ∧ Cut ps rest ∧ (rest = [] ∨ lexeme? rest = none) := by
  induction hn : cs.length using Nat.strongRecOn generalizing cs with
  | ind n ih =>
    subst hn
    cases hlex : lexeme? cs with
    | none => exact ⟨[], cs, rfl, trivial, .inr hlex⟩
    | some found =>
      obtain ⟨cls, k⟩ := found
      have hk := lexeme?_length_pos hlex
      cases cs with
      | nil => simp [lexeme?_nil] at hlex
      | cons c cs =>
        have hshort : ((c :: cs).drop k).length < (c :: cs).length := by
          simp only [List.length_drop, List.length_cons]
          omega
        obtain ⟨ps, rest, hcs, hcut, hrest⟩ := ih _ hshort _ rfl
        have hle := lexeme?_length_le hlex
        refine ⟨(cls, (c :: cs).take k) :: ps, rest, ?_, ⟨?_, hcut⟩, hrest⟩
        · rw [charsOf_cons, List.append_assoc, ← hcs, List.take_append_drop]
        · rw [← hcs, List.take_append_drop, hlex, List.length_take, Nat.min_eq_left hle]

/-- The tokens of a text and where reading it ends, by its pieces. -/
theorem scan_eq (text : String) :
    ∃ ps rest, text.toList = charsOf ps ++ rest ∧ Cut ps rest ∧
      (scan text).tokens = tokensFrom .start ps ∧
      (scan text).stop = match rest with
        | [] => .finished (Cursor.start.advance (charsOf ps))
        | c :: _ => .refused (Cursor.start.advance (charsOf ps)) c := by
  obtain ⟨ps, rest, htext, hcut, hrest⟩ := exists_pieces text.toList
  refine ⟨ps, rest, htext, hcut, ?_⟩
  rw [scan, htext, scanFrom_pieces hcut]
  cases rest with
  | nil => simp
  | cons c rest =>
    have hnone : lexeme? (c :: rest) = none := hrest.resolve_left (List.cons_ne_nil c rest)
    simp [scanFrom_of_none hnone]

/-- A text that is read to its end is its pieces. -/
theorem scan_finished {text : String} {p : Cursor} (h : (scan text).stop = .finished p) :
    ∃ ps, text.toList = charsOf ps ∧ Cut ps [] ∧ (scan text).tokens = tokensFrom .start ps ∧
      p = Cursor.start.advance text.toList := by
  obtain ⟨ps, rest, htext, hcut, htokens, hstop⟩ := scan_eq text
  cases rest with
  | cons c rest => simp [hstop] at h
  | nil =>
    rw [List.append_nil] at htext
    simp only [hstop, Stop.finished.injEq] at h
    exact ⟨ps, htext, hcut, htokens, by rw [htext, h]⟩

/-- Reading to the end counts all characters. -/
theorem scan_finished_offset {text : String} {p : Cursor} (h : (scan text).stop = .finished p) :
    p.offset = text.length := by
  obtain ⟨ps, htext, -, -, hp⟩ := scan_finished h
  rw [hp, Cursor.advance_offset, String.length_toList]
  exact Nat.zero_add _

/-- A text whose pieces are known is read as their tokens. -/
theorem scan_of_cut {ps : List Piece} (h : Cut ps []) :
    scan (String.ofList (charsOf ps)) =
      ⟨tokensFrom .start ps, .finished (Cursor.start.advance (charsOf ps))⟩ := by
  have := scanFrom_pieces h .start
  simpa [scan] using this

/-! ## Parts of a text -/

theorem cut_append_iff {ps qs : List Piece} {rest : List Char} :
    Cut (ps ++ qs) rest ↔ Cut ps (charsOf qs ++ rest) ∧ Cut qs rest := by
  induction ps with
  | nil => simp [Cut]
  | cons piece ps ih =>
    obtain ⟨cls, cs⟩ := piece
    simp only [List.cons_append, Cut, ih, charsOf_append, List.append_assoc, and_assoc]

/-- Pieces are cut in the same way when the text ends behind them. -/
theorem Cut.left {ps : List Piece} {rest more : List Char} (h : Cut ps (rest ++ more)) :
    Cut ps rest := by
  induction ps with
  | nil => trivial
  | cons piece ps ih =>
    obtain ⟨cls, cs⟩ := piece
    have hcs : lexeme? (cs ++ (charsOf ps ++ rest) ++ more) = some (cls, cs.length) := by
      simpa only [List.append_assoc] using h.1
    exact ⟨lexeme?_of_append hcs (by simp), ih h.2⟩

/-- Pieces are cut in the same way when the text goes on with what stands in no word, numeral,
    operator or row of blanks. -/
theorem Cut.extend {ps : List Piece} {rest more : List Char} (h : Cut ps rest)
    (hmore : Separates more) (hgap : Stops isGap more) : Cut ps (rest ++ more) := by
  induction ps with
  | nil => trivial
  | cons piece ps ih =>
    obtain ⟨cls, cs⟩ := piece
    refine ⟨?_, ih h.2⟩
    have := lexeme?_append h.1 hmore (.inr hgap)
    simpa only [List.append_assoc] using this

/-! ## Tokens and their pieces -/

/-- What a token is, wherever it stands. -/
def Token.content (t : Token) : Terminal × String :=
  (t.terminal, t.text)

/-- Where pieces stand does not matter for what their tokens are. -/
theorem tokensFrom_content (p q : Cursor) (ps : List Piece) :
    (tokensFrom p ps).map Token.content = (tokensFrom q ps).map Token.content := by
  induction ps generalizing p q with
  | nil => rfl
  | cons piece ps ih =>
    obtain ⟨cls, cs⟩ := piece
    cases cls with
    | none => exact ih _ _
    | some x =>
      simp only [tokensFrom, List.map_cons, ih (p.advance cs) (q.advance cs)]
      rfl

/-- In front of the first token there are only blanks. -/
theorem tokensFrom_eq_cons {p : Cursor} {ps : List Piece} {t : Token} {ts : List Token}
    (h : tokensFrom p ps = t :: ts) :
    ∃ gaps cs rest, ps = gaps ++ (some t.terminal, cs) :: rest ∧ tokensFrom p gaps = [] ∧
      t.start = p.advance (charsOf gaps) ∧ t.stop = t.start.offset + cs.length ∧
      t.text = String.ofList cs ∧ tokensFrom (t.start.advance cs) rest = ts := by
  induction ps generalizing p with
  | nil => simp [tokensFrom] at h
  | cons piece ps ih =>
    obtain ⟨cls, cs⟩ := piece
    cases cls with
    | none =>
      obtain ⟨gaps, ds, rest, rfl, hgaps, hstart, hstop⟩ := ih h
      refine ⟨(none, cs) :: gaps, ds, rest, rfl, hgaps, ?_, hstop⟩
      rw [hstart, charsOf_cons, Cursor.advance_append]
    | some x =>
      obtain ⟨rfl, rfl⟩ := List.cons.inj h
      exact ⟨[], cs, ps, rfl, rfl, rfl, rfl, rfl, rfl⟩

/-- A row of tokens ends where the last of its pieces does. -/
theorem tokensFrom_eq_append {p : Cursor} {ps : List Piece} {ts us : List Token}
    (h : tokensFrom p ps = ts ++ us) :
    ∃ qs rest, ps = qs ++ rest ∧ tokensFrom p qs = ts ∧
      tokensFrom (p.advance (charsOf qs)) rest = us ∧ (ts = [] → qs = []) ∧
      ∀ t ∈ ts.getLast?, t.stop = p.offset + (charsOf qs).length := by
  induction ts generalizing p ps with
  | nil => exact ⟨[], ps, rfl, rfl, h, fun _ => rfl, by simp⟩
  | cons t ts ih =>
    obtain ⟨gaps, cs, rest, rfl, hgaps, hstart, hstop, htext, hrest⟩ := tokensFrom_eq_cons h
    obtain ⟨qs, rest, rfl, hqs, hus, hnil, hlast⟩ := ih hrest
    have hadvance : t.start.advance cs = p.advance (charsOf (gaps ++ [(some t.terminal, cs)])) := by
      rw [hstart, charsOf_append, Cursor.advance_append, charsOf_cons, charsOf_nil,
        List.append_nil]
    refine ⟨gaps ++ (some t.terminal, cs) :: qs, rest, by simp, ?_, ?_, by simp, ?_⟩
    · rw [tokensFrom_append, hgaps, List.nil_append, ← hstart, tokensFrom, hqs, ← hstop, ← htext]
    · rw [← hus, charsOf_append, Cursor.advance_append, charsOf_cons, Cursor.advance_append,
        hstart]
    · intro u hu
      cases ts with
      | nil =>
        obtain rfl : t = u := by simpa using hu
        rw [hnil rfl, hstop, hstart]
        simp only [Cursor.advance_offset, charsOf_append, charsOf_cons, charsOf_nil,
          List.append_nil, List.length_append]
        omega
      | cons v ts =>
        rw [hlast u (by simpa using hu), hadvance]
        simp only [Cursor.advance_offset, charsOf_append, charsOf_cons, charsOf_nil,
          List.append_nil, List.length_append]
        omega

/-- Tokens that follow each other stand in a stretch of the text from the start of the first to the
    end of the last. -/
theorem tokensFrom_eq_middle {p : Cursor} {ps : List Piece} {as ts bs : List Token}
    (h : tokensFrom p ps = as ++ (ts ++ bs)) (hts : ts ≠ []) :
    ∃ before qs after, ps = before ++ (qs ++ after) ∧
      tokensFrom (p.advance (charsOf before)) qs = ts ∧
      (∀ t ∈ ts.head?, t.start = p.advance (charsOf before)) ∧
      ∀ t ∈ ts.getLast?, t.stop = (p.advance (charsOf before)).offset + (charsOf qs).length := by
  obtain ⟨front, rest, rfl, -, hrest, -, -⟩ := tokensFrom_eq_append h
  obtain ⟨t, ts, rfl⟩ := List.exists_cons_of_ne_nil hts
  obtain ⟨gaps, cs, rest, rfl, hgaps, hstart, hstop, htext, htail⟩ := tokensFrom_eq_cons hrest
  have hplace : t.start = p.advance (charsOf (front ++ gaps)) := by
    rw [hstart, charsOf_append, Cursor.advance_append]
  have hall : tokensFrom t.start ((some t.terminal, cs) :: rest) = (t :: ts) ++ bs := by
    rw [tokensFrom, htail, ← hstop, ← htext]
    rfl
  obtain ⟨qs, after, hqs, htokens, -, -, hlast⟩ := tokensFrom_eq_append hall
  refine ⟨front ++ gaps, qs, after, ?_, ?_, ?_, ?_⟩
  · rw [← hqs, List.append_assoc]
  · rw [← hplace, htokens]
  · simpa using hplace
  · rw [← hplace]
    exact hlast

end PatternSql
