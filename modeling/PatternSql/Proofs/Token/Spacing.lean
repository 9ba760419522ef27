import PatternSql.Proofs.Grammar.Printed
import PatternSql.Proofs.Token.Shape

/-!
# Other blanks between the tokens

The tokens of a text, written one after the other with blanks between any two of them, are read as
the same tokens again: a lexeme that is read in front of something else is read in front of blanks
and at the end, too.

Main results:

* `cut_spaced`: a text of spaced tokens is cut into the blanks and the tokens.
* `scan_respaced`: other blanks between the tokens of a text leave the tokens what they are.
-/

namespace PatternSql

open Text

/-! ## Spaced tokens -/

/-- The texts of tokens with given blanks in front of each and behind the last. -/
def spaced (blanks : Nat → List Char) : List Token → List Char
  | [] => blanks 0
  | t :: ts => blanks 0 ++ (t.text.toList ++ spaced (fun i => blanks (i + 1)) ts)

theorem spaced_append (blanks : Nat → List Char) (ts : List Token) (t : Token) (us : List Token) :
    spaced blanks (ts ++ t :: us) =
      spaced blanks ts ++ (t.text.toList ++ spaced (fun i => blanks (i + (ts.length + 1))) us) := by
  induction ts generalizing blanks with
  | nil => rfl
  | cons u ts ih =>
    rw [List.cons_append, spaced, spaced, ih]
    simp only [List.append_assoc, List.length_cons, Nat.add_assoc]

/-- The given characters are blanks that may be put around so many tokens, and two tokens are always
    kept apart. -/
structure IsSpacing (blanks : Nat → List Char) (n : Nat) : Prop where
  blank : ∀ i ≤ n, All isGap (blanks i)
  apart : ∀ i, 0 < i → i < n → blanks i ≠ []

variable {blanks : Nat → List Char} {n : Nat}

theorem IsSpacing.tail (h : IsSpacing blanks (n + 1)) :
    IsSpacing (fun i => blanks (i + 1)) n where
  blank i hi := h.blank (i + 1) (Nat.succ_le_succ hi)
  apart i _ hi := h.apart (i + 1) (Nat.succ_pos i) (Nat.succ_lt_succ hi)

/-- A row of blanks as a piece, unless it is empty. -/
def gapPieces (cs : List Char) : List Piece :=
  if cs = [] then [] else [(none, cs)]

/-- The pieces of spaced tokens. -/
def spacedPieces (blanks : Nat → List Char) : List Token → List Piece
  | [] => gapPieces (blanks 0)
  | t :: ts =>
    gapPieces (blanks 0) ++
      (some t.terminal, t.text.toList) :: spacedPieces (fun i => blanks (i + 1)) ts

@[simp] theorem charsOf_gapPieces (cs : List Char) : charsOf (gapPieces cs) = cs := by
  rw [gapPieces]
  split
  · rename_i h
    rw [h, charsOf_nil]
  · exact List.append_nil cs

theorem tokensFrom_gapPieces (p : Cursor) (cs : List Char) : tokensFrom p (gapPieces cs) = [] := by
  rw [gapPieces]
  split <;> rfl

theorem charsOf_spacedPieces (blanks : Nat → List Char) (ts : List Token) :
    charsOf (spacedPieces blanks ts) = spaced blanks ts := by
  induction ts generalizing blanks with
  | nil => exact charsOf_gapPieces _
  | cons t ts ih =>
    rw [spacedPieces, spaced, charsOf_append, charsOf_gapPieces, charsOf_cons, ih]

theorem tokensFrom_spacedPieces (p : Cursor) (blanks : Nat → List Char) (ts : List Token) :
    (tokensFrom p (spacedPieces blanks ts)).map Token.content = ts.map Token.content := by
  induction ts generalizing p blanks with
  | nil => rw [spacedPieces, tokensFrom_gapPieces]
  | cons t ts ih =>
    rw [spacedPieces, tokensFrom_append, tokensFrom_gapPieces, List.nil_append, tokensFrom,
      List.map_cons, List.map_cons, ih, Token.content, Token.content, String.ofList_toList]

/-! ## Reading them -/

/-- A row of blanks is cut off up to its end. -/
theorem cut_gapPieces {cs rest : List Char} (hcs : All isGap cs) (hrest : Stops isGap rest) :
    Cut (gapPieces cs) rest := by
  cases cs with
  | nil => exact trivial
  | cons c cs =>
    have hrun := takeWhile_run hcs hrest
    have hgap : gapLength (c :: (cs ++ rest)) = (c :: cs).length := congrArg List.length hrun
    refine ⟨?_, trivial⟩
    show lexeme? (c :: (cs ++ rest)) = _
    rw [lexeme?_of_isGap _ (all_cons.mp hcs).1, hgap]

/-- Blanks stand in no word, numeral or operator. -/
theorem separates_of_blanks {cs rest : List Char} (hcs : All isGap cs) (h : cs ≠ [] ∨ rest = []) :
    Separates (cs ++ rest) := by
  cases cs with
  | nil =>
    obtain rfl := h.resolve_left fun h => h rfl
    exact fun c hc => absurd hc (by simp)
  | cons c cs =>
    have hc := (all_cons.mp hcs).1
    simp only [isGap, Bool.or_eq_true, beq_iff_eq] at hc
    rw [List.cons_append, separates_cons]
    rcases hc with (((rfl | rfl) | rfl) | rfl) | rfl <;> decide

theorem separates_spaced {ts : List Token} (h : IsSpacing blanks (ts.length + 1)) :
    Separates (spaced (fun i => blanks (i + 1)) ts) := by
  cases ts with
  | nil =>
    have := separates_of_blanks (h.blank 1 (Nat.le_refl 1)) (.inr rfl)
    rwa [List.append_nil] at this
  | cons t ts =>
    have happart := h.apart 1 Nat.one_pos (Nat.succ_lt_succ (Nat.succ_pos _))
    exact separates_of_blanks (h.blank 1 (Nat.le_add_left 1 _)) (.inl happart)

/-- A text of spaced tokens is cut into the blanks and the tokens. -/
theorem cut_spaced {ts : List Token} (hts : ∀ t ∈ ts, t.IsGenuine)
    (h : IsSpacing blanks ts.length) : Cut (spacedPieces blanks ts) [] := by
  induction ts generalizing blanks with
  | nil => exact cut_gapPieces (h.blank 0 (Nat.le_refl 0)) stops_nil
  | cons t ts ih =>
    obtain ⟨ht, hts⟩ := List.forall_mem_cons.mp hts
    have hstops (rest : List Char) : Stops isGap (t.text.toList ++ rest) :=
      stops_isGap_of_lexeme? ht rest
    rw [spacedPieces, cut_append_iff, charsOf_cons, charsOf_spacedPieces, List.append_nil]
    refine ⟨cut_gapPieces (h.blank 0 (Nat.zero_le _)) (hstops _), ?_, ih hts h.tail⟩
    rw [charsOf_spacedPieces, List.append_nil]
    have hnil := hstops []
    rw [List.append_nil] at hnil
    exact lexeme?_append ht (separates_spaced h) (.inl hnil)

/-! ## Texts -/

/-- The tokens of a text with other blanks between them. -/
def respaced (blanks : Nat → String) (text : String) : String :=
  String.ofList (spaced (fun i => (blanks i).toList) (scan text).tokens)

/-- Other blanks between the tokens of a text leave the tokens what they are. -/
theorem scan_respaced {text : String} {blanks : Nat → String}
    (h : IsSpacing (fun i => (blanks i).toList) (scan text).tokens.length) :
    (scan (respaced blanks text)).stop =
        .finished (Cursor.start.advance (respaced blanks text).toList) ∧
      (scan (respaced blanks text)).tokens.map Token.content =
        (scan text).tokens.map Token.content := by
  have hcut := cut_spaced (fun t ht => isGenuine_of_mem ht) h
  have hscan := scan_of_cut hcut
  rw [charsOf_spacedPieces] at hscan
  rw [respaced, hscan]
  refine ⟨?_, tokensFrom_spacedPieces _ _ _⟩
  rw [String.toList_ofList]

end PatternSql
