import PatternSql.Failure
import PatternSql.Proofs.Token.Coverage
import PatternSql.Reader

/-!
# Reading the same tokens in other places

A reader looks at the terminals and the texts of tokens only, so the same tokens in other places are
read in the same way, and what is read or refused stands in those other places.

Places are given by offsets: a token that begins at an offset is moved to the place for this offset.
The tokens of a text are those of its contents, numbered from zero on and moved to where the text
has them.

Main results:

* `Reader.IsNatural.read_moveTo`: moved tokens are read as what is read from the tokens, moved.
* `scan_eq_moveTo`: the tokens of a text are its numbered contents, moved.
-/

namespace PatternSql

/-! ## Outcomes -/

/-- An outcome with its result and its error changed. -/
def changed {α β ε δ : Type} (f : α → β) (g : ε → δ) : Except ε α → Except δ β
  | .ok a => .ok (f a)
  | .error e => .error (g e)

section

variable {α β γ ζ ε δ : Type} {f : α → β} {g : ε → δ}

/-- A chain is changed by changing its first part, and the others for what that gives. -/
theorem changed_bind {f' : γ → ζ} {x : Except ε α} {y : α → Except ε γ} {y' : β → Except δ ζ}
    (h : ∀ a, y' (f a) = changed f' g (y a)) :
    (changed f g x >>= y') = changed f' g (x >>= y) := by
  cases x with
  | ok a => exact h a
  | error e => rfl

end

/-! ## Tokens and errors in other places -/

/-- A token in another place. -/
def Token.moveTo (place : Nat → Cursor) (t : Token) : Token :=
  ⟨t.terminal, t.text, place t.start.offset,
    (place t.start.offset).offset + (t.stop - t.start.offset)⟩

/-- The end of reading in another place. -/
def Stop.moveTo (place : Nat → Cursor) : Stop → Stop
  | finished p => finished (place p.offset)
  | refused p c => refused (place p.offset) c

/-- Tokens in other places. -/
def Scan.moveTo (place : Nat → Cursor) (s : Scan) : Scan :=
  ⟨s.tokens.map (·.moveTo place), s.stop.moveTo place⟩

/-- An offset for another one. -/
def offsetTo (place : Nat → Cursor) (position : Option Nat) : Option Nat :=
  position.map fun i => (place i).offset

/-- An error in another place. -/
def InputError.moveTo (place : Nat → Cursor) : InputError → InputError
  | lexical position cause line column =>
    lexical (place position).offset cause (line.map fun _ => (place position).line)
      (column.map fun _ => (place position).column)
  | syntactic position expected finding => syntactic (offsetTo place position) expected finding
  | unsupported construct position => unsupported construct (offsetTo place position)
  | e => e

/-- A failure in another place. -/
def Failure.moveTo (place : Nat → Cursor) : Failure → Failure
  | input e => input (e.moveTo place)
  | f => f

variable {place : Nat → Cursor}

@[simp] theorem Token.moveTo_terminal (t : Token) : (t.moveTo place).terminal = t.terminal := rfl

@[simp] theorem Token.moveTo_text (t : Token) : (t.moveTo place).text = t.text := rfl

/-- An error of grammar is one in another place, too. -/
theorem Failure.moveTo_eq_syntactic {f : Failure} {position : Nat} {expected : List String}
    {finding : Finding}
    (h : f.moveTo place = .input (.syntactic (some position) expected finding)) :
    ∃ i, f = .input (.syntactic (some i) expected finding) ∧ (place i).offset = position := by
  cases f with
  | input e =>
    cases e with
    | syntactic position' expected' finding' =>
      simp only [Failure.moveTo, InputError.moveTo, Failure.input.injEq,
        InputError.syntactic.injEq] at h
      obtain ⟨hposition, rfl, rfl⟩ := h
      obtain ⟨i, rfl, hi⟩ := Option.map_eq_some_iff.mp hposition
      exact ⟨i, rfl, hi⟩
    | _ => simp [Failure.moveTo, InputError.moveTo] at h
  | _ => simp [Failure.moveTo] at h

theorem Failure.moveTo_eq_tooManyDigits {f : Failure} (h : f.moveTo place = .tooManyDigits) :
    f = .tooManyDigits := by
  cases f with
  | tooManyDigits => rfl
  | _ => simp [Failure.moveTo] at h

/-- Something is wrong with a text in the same way in another place. -/
theorem changed_input {α β : Type} {f : α → β} (x : Except InputError α) :
    (changed f (InputError.moveTo place) x).mapError .input =
      changed f (Failure.moveTo place) (x.mapError .input) := by
  cases x <;> rfl

/-! ## Readers -/

/-- A reader does with moved tokens what it does with the tokens, where its states and results are
    moved as given. -/
structure Reader.IsNatural {σ α : Type} (reader : Reader σ α) (place : Nat → Cursor) (f : σ → σ)
    (g : α → α) : Prop where
  step : ∀ s t, reader.step (f s) (t.moveTo place) = (reader.step s t).map f
  result : ∀ s, reader.result (f s) = (reader.result s).map g
  roles : ∀ s, reader.roles (f s) = reader.roles s

namespace Reader.IsNatural

variable {σ α : Type} {reader : Reader σ α} {f : σ → σ} {g : α → α}

theorem run_moveTo (h : reader.IsNatural place f g) (s : σ) (ts : List Token) :
    reader.run (f s) (ts.map (·.moveTo place)) =
      (f (reader.run s ts).1, (reader.run s ts).2.map (·.moveTo place)) := by
  induction ts generalizing s with
  | nil => rfl
  | cons t ts ih =>
    have hstep := h.step s t
    rw [List.map_cons]
    cases hs : reader.step s t with
    | none =>
      rw [hs] at hstep
      rw [run_cons_of_none hs, run_cons_of_none hstep]
      rfl
    | some s' =>
      rw [hs] at hstep
      rw [run_cons_of_some hs, run_cons_of_some hstep, ih]

theorem conclude_moveTo (h : reader.IsNatural place f g) (s : σ) (rest : List Token)
    (stop : Stop) :
    reader.conclude (f s) (rest.map (·.moveTo place)) (stop.moveTo place) =
      changed g (InputError.moveTo place) (reader.conclude s rest stop) := by
  cases rest with
  | cons t rest =>
    rw [List.map_cons, conclude, conclude, mismatch, mismatch, h.roles]
    rfl
  | nil =>
    cases stop with
    | refused p c => rfl
    | finished p =>
      rw [List.map_nil, Stop.moveTo, conclude, conclude, h.result, mismatch, mismatch, h.roles]
      cases reader.result s <;> rfl

/-- Moved tokens are read as what is read from the tokens, moved. -/
theorem read_moveTo (h : reader.IsNatural place f g) (s : σ) (scan : Scan) :
    reader.read (f s) (scan.moveTo place) =
      changed g (InputError.moveTo place) (reader.read s scan) := by
  rw [read, read, Scan.moveTo, h.run_moveTo]
  exact h.conclude_moveTo _ _ _

end Reader.IsNatural

/-! ## Tokens by their numbers -/

/-- Tokens of given contents, each standing at its number. -/
def numbered (i : Nat) : List (Terminal × String) → List Token
  | [] => []
  | (terminal, text) :: contents =>
    ⟨terminal, text, ⟨i, 1, 1⟩, i + text.length⟩ :: numbered (i + 1) contents

/-- Reading that has found given contents and the end. -/
def Scan.ofContents (contents : List (Terminal × String)) : Scan :=
  ⟨numbered 0 contents, .finished ⟨contents.length, 1, 1⟩⟩

/-- The place of the token of a given number, and behind the tokens the place where reading ends. -/
def Scan.placeOf (s : Scan) (i : Nat) : Cursor :=
  (s.tokens[i]?.map (·.start)).getD s.stop.place

/-- The numbered contents of tokens are the tokens, once they are moved there. -/
theorem numbered_moveTo {ts : List Token}
    (hstop : ∀ t ∈ ts, t.stop = t.start.offset + t.text.length) {i : Nat}
    (hplace : ∀ j t, ts[j]? = some t → place (i + j) = t.start) :
    (numbered i (ts.map Token.content)).map (·.moveTo place) = ts := by
  induction ts generalizing i with
  | nil => rfl
  | cons t ts ih =>
    obtain ⟨hstop, htail⟩ := List.forall_mem_cons.mp hstop
    have hhead : place i = t.start := hplace 0 t rfl
    rw [List.map_cons, Token.content, numbered, List.map_cons]
    congr 1
    · rw [Token.moveTo, hhead, Nat.add_sub_cancel_left, ← hstop]
    · refine ih htail fun j u hu => ?_
      rw [Nat.add_assoc, Nat.add_comm 1]
      exact hplace (j + 1) u hu

/-- The tokens of a text are its numbered contents, moved to where the text has them. -/
theorem scan_eq_moveTo {text : String} {p : Cursor} (h : (scan text).stop = .finished p) :
    scan text =
      (Scan.ofContents ((scan text).tokens.map Token.content)).moveTo (scan text).placeOf := by
  have htokens : (numbered 0 ((scan text).tokens.map Token.content)).map
      (·.moveTo (scan text).placeOf) = (scan text).tokens := by
    refine numbered_moveTo (fun t ht => (standsIn_of_mem ht).stop) fun j t ht => ?_
    rw [Nat.zero_add, Scan.placeOf, ht]
    rfl
  have hend : (scan text).placeOf (scan text).tokens.length = p := by
    rw [Scan.placeOf, List.getElem?_eq_none (Nat.le_refl _), h]
    rfl
  rw [Scan.ofContents, Scan.moveTo, htokens, Stop.moveTo, List.length_map, hend, ← h]

end PatternSql
