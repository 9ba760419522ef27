import PatternSql.Error
import PatternSql.Literal

/-!
# Failures

All the ways in which an operation of this library can fail: the errors of patterns and statements,
and what no change to them could mend, such as a dialect that does not exist.
-/

namespace PatternSql

/-- Why a literal cannot stand in a command: what `literal_to_sql` and the writing of numbers
    refuse. -/
inductive NoSqlForm
  /-- The whole number has too many digits to be written. -/
  | tooManyDigits
  /-- The double is no finite number. -/
  | notFinite (value : Double)
  /-- The literal is of no kind. -/
  | unspecified
  deriving DecidableEq, Repr

/-- The wording of the causes. -/
def NoSqlForm.message : NoSqlForm → String
  | tooManyDigits => overlongMessage
  | notFinite value => "Float has no SQL literal: " ++ value.text
  | unspecified => "Unsupported literal value: Literal"

/-- Why an operation has no result. Only `Failure.input` is a `CypherTranslationError`. -/
inductive Failure
  /-- Something is wrong with a pattern or a statement. -/
  | input (error : InputError)
  /-- A whole number in a pattern has too many digits to be read. -/
  | tooManyDigits
  /-- There is no dialect of this name. -/
  | unknownDialect (name : String)
  /-- An insertion has not as many values as columns. -/
  | countMismatch (columns values : Nat)
  /-- A value to insert cannot stand in a command. -/
  | noSqlForm (cause : NoSqlForm)
  /-- What is asked for is neither a match nor a creation but of the named kind. -/
  | unknownRequest (kind : String)
  deriving DecidableEq, Repr

/-- The message of a failure. -/
def Failure.message : Failure → String
  | input error => error.message
  | tooManyDigits => "Exceeds the limit for integer string conversion"
  | unknownDialect name => "Unknown dialect '" ++ name ++ "'."
  | countMismatch columns values =>
    "Column/value count mismatch: " ++ toString columns ++ " columns, " ++ toString values ++
      " values"
  | noSqlForm cause => cause.message
  | unknownRequest kind => "Unknown translation request: " ++ kind

/-! ## Lemmas -/

section

variable {α β ε δ : Type}

theorem bind_eq_ok_iff {x : Except ε α} {f : α → Except ε β} {b : β} :
    (x >>= f) = .ok b ↔ ∃ a, x = .ok a ∧ f a = .ok b := by
  cases x <;> simp [bind, Except.bind]

theorem bind_eq_error_iff {x : Except ε α} {f : α → Except ε β} {e : ε} :
    (x >>= f) = .error e ↔ x = .error e ∨ ∃ a, x = .ok a ∧ f a = .error e := by
  cases x <;> simp [bind, Except.bind]

theorem pure_eq_ok_iff {a b : α} : (pure a : Except ε α) = .ok b ↔ b = a := by
  simp [pure, Except.pure, eq_comm]

theorem mapError_eq_ok_iff {x : Except ε α} {f : ε → δ} {a : α} :
    x.mapError f = .ok a ↔ x = .ok a := by
  cases x with
  | ok b =>
    change (Except.ok b : Except δ α) = .ok a ↔ _
    rw [Except.ok.injEq, Except.ok.injEq]
  | error e =>
    change (Except.error (f e) : Except δ α) = .ok a ↔ _
    simp

theorem mapError_eq_error_iff {x : Except ε α} {f : ε → δ} {d : δ} :
    x.mapError f = .error d ↔ ∃ e, x = .error e ∧ f e = d := by
  cases x with
  | ok a =>
    change (Except.ok a : Except δ α) = .error d ↔ _
    simp
  | error e =>
    change (Except.error (f e) : Except δ α) = .error d ↔ _
    simp

end

end PatternSql
