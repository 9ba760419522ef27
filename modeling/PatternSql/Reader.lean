import PatternSql.Error
import PatternSql.Token.Scan

/-!
# Reading tokens from left to right

A reader takes the tokens of a text one by one, each changing its state, until one does not fit. The
text is accepted if all its tokens fit and the state they lead to has a result. A token that does
not fit is reported with what could stand in its place: a state knows the roles in which what came
last may be understood, from the widest to the one that counts, each with the terminals that may
follow in that role, and the report goes by the first role that the token contradicts.

Reading is lazy: a token that does not fit is reported even if a later character begins no token.

Main results:

* `Reader.run_append`: a text is read as its beginning and then the rest.
* `Reader.read_eq_ok_iff`: what is accepted was read to the end of the text.
-/

namespace PatternSql

/-- A way to read tokens into a result, by states. -/
structure Reader (σ α : Type) where
  /-- The state after a token that fits. -/
  step : σ → Token → Option σ
  /-- The result, where the text may end. -/
  result : σ → Option α
  /-- The terminals that may follow, by the roles of what came last, the widest first. -/
  roles : σ → List (List Terminal)

namespace Reader

variable {σ α : Type}

/-- The state in which reading stops, and the tokens left over, the first of which does not fit. -/
def run (reader : Reader σ α) (s : σ) : List Token → σ × List Token
  | [] => (s, [])
  | t :: ts =>
    match reader.step s t with
    | some s => reader.run s ts
    | none => (s, t :: ts)

/-- What is reported as expected in place of a terminal that does not fit. -/
def expected (roles : List (List Terminal)) (terminal : Terminal) : List Terminal :=
  (roles.find? fun role => !role.contains terminal).getD []

/-- The error for a terminal that does not fit. Model of `parse_error`. -/
def mismatch (reader : Reader σ α) (s : σ) (position : Nat) (terminal : Terminal)
    (finding : Finding) : InputError :=
  .syntactic position ((expected (reader.roles s) terminal).map Terminal.display) finding

/-- The outcome for a state and the tokens left over. -/
def conclude (reader : Reader σ α) (s : σ) (rest : List Token) (stop : Stop) :
    Except InputError α :=
  match rest, stop with
  | t :: _, _ => .error (reader.mismatch s t.start.offset t.terminal (.token t.terminal t.text))
  | [], .refused p c => .error (.ofChar p c)
  | [], .finished p =>
    match reader.result s with
    | some a => .ok a
    | none => .error (reader.mismatch s p.offset .endOfInput .ending)

/-- Reads the tokens of a text. Model of `CypherParser.parse_tree`, with `translate_lark_error`
    where that fails. -/
def read (reader : Reader σ α) (s : σ) (scan : Scan) : Except InputError α :=
  let (s, rest) := reader.run s scan.tokens
  reader.conclude s rest scan.stop

/-! ## Lemmas -/

@[simp] theorem run_nil (reader : Reader σ α) (s : σ) : reader.run s [] = (s, []) := rfl

theorem run_cons_of_some {reader : Reader σ α} {s s' : σ} {t : Token}
    (h : reader.step s t = some s') (ts : List Token) :
    reader.run s (t :: ts) = reader.run s' ts := by
  simp [run, h]

theorem run_cons_of_none {reader : Reader σ α} {s : σ} {t : Token}
    (h : reader.step s t = none) (ts : List Token) : reader.run s (t :: ts) = (s, t :: ts) := by
  simp [run, h]

/-- A text is read as its beginning and then, if all of that fits, the rest. -/
theorem run_append {reader : Reader σ α} {s s' : σ} {ts : List Token}
    (h : reader.run s ts = (s', [])) (us : List Token) :
    reader.run s (ts ++ us) = reader.run s' us := by
  induction ts generalizing s with
  | nil =>
    simp only [run_nil, Prod.mk.injEq, and_true] at h
    simp [h]
  | cons t ts ih =>
    cases hs : reader.step s t with
    | none => simp [run_cons_of_none hs] at h
    | some s₁ =>
      rw [run_cons_of_some hs] at h
      rw [List.cons_append, run_cons_of_some hs, ih h]

/-- What is accepted was read to the end of the text. -/
theorem read_eq_ok_iff {reader : Reader σ α} {s : σ} {scan : Scan} {a : α} :
    reader.read s scan = .ok a ↔
      ∃ s' p, reader.run s scan.tokens = (s', []) ∧ scan.stop = .finished p ∧
        reader.result s' = some a := by
  unfold read
  generalize hr : reader.run s scan.tokens = r
  obtain ⟨s', rest⟩ := r
  cases rest with
  | cons t rest => simp [conclude]
  | nil =>
    cases hstop : scan.stop with
    | refused p c => simp [conclude]
    | finished p =>
      simp only [conclude]
      cases hres : reader.result s' with
      | none => simp [hres]
      | some b => simp [hres]

end Reader

end PatternSql
