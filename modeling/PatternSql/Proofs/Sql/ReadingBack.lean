import PatternSql.Proofs.Sql.StableText

/-!
# Reading back

An expression is read back from its own lexemes, whatever follows them, if what follows neither goes
on with its last operand nor is an operator that is taken for a part of it. The reader comes to the
expression with a level in mind, and after it goes on with the operators that fit. So what is said
of an expression with operators is not where the reader stops but where it resumes: in front of what
follows, with the whole expression as its left operand. In this form each operator gives the claim
for the whole from those for its operands.

The readers are given eight steps for every lexeme and a few more, which differ from reader to
reader; any greater number does as well.

Main results:

* `Stands`, `Resumes`: an operand, and an expression with operators, is read back.
* `Resumes.binary`, `Resumes.is`, `Resumes.like`, `Resumes.between`, `Resumes.member`: expressions
  with an operator or a test.
-/

namespace PatternSql.Sql

open Text

/-! ## Words -/

theorem upper_connective {text : String} (h : text ∈ connectiveWords) : upper text = text := by
  have hall : ∀ text ∈ connectiveWords, upper text = text := by decide +kernel
  exact hall text h

theorem afterWord?_word (word text : String) (ls : List Lexeme) :
    afterWord? word (.word text :: ls) = if upper text == word then some ls else none := rfl

theorem afterWord?_connective (text : String) (h : text ∈ connectiveWords) (word : String)
    (ls : List Lexeme) :
    afterWord? word (.word text :: ls) = if text == word then some ls else none := by
  rw [afterWord?_word, upper_connective h]

/-- Whether a lexeme may be the first of an expression. -/
def Lexeme.opens : Lexeme → Bool
  | word text => !isReserved text || upper text == "NOT"
  | name _ => true
  | string _ => true
  | number _ => true
  | mark m => m = .leftParen || m = .minus || m = .star
  | _ => false

/-- No expression begins with a reserved word other than that of a negation. -/
theorem afterWord?_of_opens {word : String} (hword : word ∈ reservedWords) (hnot : word ≠ "NOT")
    {l : Lexeme} (hl : l.opens = true) (ls : List Lexeme) : afterWord? word (l :: ls) = none := by
  cases l with
  | word text =>
    rw [afterWord?_word, if_neg]
    rintro heq
    obtain rfl := eq_of_beq heq
    have hreserved : isReserved text = true := List.contains_iff_mem.mpr hword
    rw [Lexeme.opens, hreserved, Bool.not_true, Bool.false_or, beq_iff_eq] at hl
    exact hnot hl
  | _ => rfl

namespace Expr

/-! ## Rows -/

/-- The lexemes that a list of expressions is written as. -/
def rows (es : List Expr) : List Lexeme :=
  lexemesOf (inRow (es.map (pieces .plain)))

@[simp] theorem row_binary (op : Operator) (left right : Expr) :
    (binary op left right).row = left.row ++ (op.lexemes .generic ++ right.row) :=
  lexemes_binary .plain op left right

theorem row_is (left right : Expr) :
    (binary .is left right).row = left.row ++ .word "IS" :: right.row :=
  row_binary .is left right

@[simp] theorem row_not (e : Expr) : (not e).row = .word "NOT" :: e.row :=
  lexemes_not .plain e

@[simp] theorem row_paren (e : Expr) :
    (paren e).row = .mark .leftParen :: (e.row ++ [.mark .rightParen]) :=
  lexemes_paren .plain e

@[simp] theorem row_negative (e : Expr) : (negative e).row = .mark .minus :: e.row := by
  rw [row, pieces_negative]
  split <;> rfl

@[simp] theorem row_between (operand low high : Expr) :
    (between operand low high).row =
      operand.row ++ .word "BETWEEN" :: (low.row ++ .word "AND" :: high.row) := by
  simp [row, pieces_between, keyword]

@[simp] theorem row_named (e : Expr) (name : Name) :
    (named e name).row = e.row ++ .word "AS" :: lexemesOf (Layout.plain.name name) := by
  simp [row, pieces_named, keyword]

@[simp] theorem row_tuple (es : List Expr) :
    (tuple es).row = .mark .leftParen :: (rows es ++ [.mark .rightParen]) := by
  simp [row, rows, pieces_tuple]

@[simp] theorem row_member (e : Expr) (es : List Expr) :
    (member e es).row =
      e.row ++ .word "IN" :: .mark .leftParen :: (rows es ++ [.mark .rightParen]) := by
  simp [row, rows, pieces_member, keyword]

@[simp] theorem row_call (function : Name) (es : List Expr) :
    (call function es).row =
      function.functionLexeme :: .mark .leftParen :: (rows es ++ [.mark .rightParen]) := by
  simp [row, rows, pieces_call]

@[simp] theorem row_distinct (es : List Expr) :
    (distinct es).row = .word "DISTINCT" :: rows es := by
  rw [row, pieces_distinct, rows]
  cases es <;> rfl

@[simp] theorem rows_singleton (e : Expr) : rows [e] = e.row := rfl

theorem rows_cons {es : List Expr} (h : es ≠ []) (e : Expr) :
    rows (e :: es) = e.row ++ .mark .comma :: rows es := by
  rw [rows, List.map_cons, inRow_cons (by simpa using h)]
  simp [row, rows]

/-! ## What follows an expression -/

/-- Whether lexemes may go on with an operand that they follow. -/
def goesOn : List Lexeme → Bool
  | .mark .leftParen :: _ => true
  | .mark .leftBracket :: _ => true
  | .mark .dot :: _ => true
  | .string _ :: _ => true
  | ls => (afterWord? "ESCAPE" ls).isSome || (afterWord? "OVER" ls).isSome

/-- The level of the operator or the test that lexemes begin with. -/
def nextLevel? (ls : List Lexeme) : Option Nat :=
  match operator? .generic ls, afterWord? "IS" ls, test? ls with
  | some (op, _), _, _ => some (op.level .generic)
  | none, some _, _ => some rangeLevel
  | none, none, some _ => some rangeLevel
  | none, none, none => none

/-- Lexemes neither go on with the last operand of an expression nor begin with an operator that is
    taken for a part of it. -/
structure Follows (ls : List Lexeme) (e : Expr) : Prop where
  calm : goesOn ls = false
  free : ∀ k ∈ nextLevel? ls, e.takes k = false

/-- The reader that has an expression goes on with what follows, and comes to a result. -/
def Extends (least most : Nat) (e : Expr) (ls : List Lexeme) (r : Expr × List Lexeme) : Prop :=
  ∀ n, 8 * ls.length + 1 ≤ n → extend? .generic n least most e ls = some r

theorem goesOn_word {text : String} (h : text ∈ connectiveWords) (ls : List Lexeme) :
    goesOn (.word text :: ls) = false := by
  have hne : ∀ text ∈ connectiveWords, (text == "ESCAPE") = false ∧ (text == "OVER") = false := by
    decide
  obtain ⟨hescape, hover⟩ := hne text h
  rw [goesOn, afterWord?_connective text h, afterWord?_connective text h, hescape, hover]
  · rfl
  all_goals simp

/-- No operator goes on with its left operand. -/
theorem goesOn_operator {op : Operator} (h : op.isStable = true) (ls : List Lexeme) :
    goesOn (op.lexemes .generic ++ ls) = false := by
  cases op with
  | or => exact goesOn_word (by decide) ls
  | and => exact goesOn_word (by decide) ls
  | is => exact goesOn_word (by decide) ls
  | like negated => cases negated <;> exact goesOn_word (by decide) _
  | xor => cases h
  | isNot => cases h
  | sameAs => cases h
  | differsFrom => cases h
  | _ => rfl

/-- An operand is read back. -/
def Stands (e : Expr) : Prop :=
  ∀ ls, Follows ls e → ∀ n, 8 * (e.row ++ ls).length + 2 ≤ n →
    operand? .generic n (e.row ++ ls) = some (some e, ls)

/-- In front of what follows an expression, the reader resumes with the expression. -/
def Resumes (e : Expr) : Prop :=
  ∀ ls, Follows ls e → ∀ least ≤ e.level, ∀ r, Extends least e.level e ls r →
    ∀ n, 8 * (e.row ++ ls).length + 3 ≤ n →
      level? .generic n least (e.row ++ ls) = some (some r.1, r.2)

/-- The reader stops where no operator fits. -/
theorem extends_of_stops {least most : Nat} {e : Expr} {ls : List Lexeme}
    (h : ∀ k ∈ nextLevel? ls, k < least ∨ most < k) : Extends least most e ls (e, ls) := by
  intro n hn
  obtain ⟨m, rfl⟩ : ∃ m, n = m + 1 := ⟨n - 1, by omega⟩
  have hfits : ∀ k ∈ nextLevel? ls, (decide (least ≤ k) && decide (k ≤ most)) = false := by
    intro k hk
    have := h k hk
    simp only [Bool.and_eq_false_iff, decide_eq_false_iff_not]
    omega
  rw [extend?]
  unfold nextLevel? at hfits
  dsimp only
  split
  · rename_i op rest hop
    simp only [hop] at hfits
    rw [if_neg (by rw [hfits _ rfl]; decide)]
  · rename_i rest hop his
    simp only [hop, his] at hfits
    rw [if_neg (by rw [show Dialect.generic.identityLevel = rangeLevel from rfl, hfits _ rfl]; decide)]
  · rename_i negated test rest hop his htest
    simp only [hop, his, htest] at hfits
    rw [if_neg (by rw [hfits _ rfl]; decide)]
  · rfl

theorem Stands.resumes {e : Expr} (h : Stands e) (hlevel : e.level = operandLevel) :
    Resumes e := by
  intro ls hls least _ r hr n hn
  obtain ⟨m, rfl⟩ : ∃ m, n = m + 1 := ⟨n - 1, by omega⟩
  have hoperand := h ls hls m (by omega)
  have hextend := hr m (by rw [List.length_append] at hn; omega)
  rw [hlevel] at hextend
  rw [level?, hoperand]
  simp only [Option.bind_eq_bind, Option.bind_some, hextend]
  rfl

/-- An expression is read back as a whole, if no operator after it fits. -/
theorem Resumes.level? {e : Expr} (h : Resumes e) {ls : List Lexeme} (hls : Follows ls e)
    {least : Nat} (hleast : least ≤ e.level)
    (hstops : ∀ k ∈ nextLevel? ls, k < least ∨ e.level < k) {n : Nat}
    (hn : 8 * (e.row ++ ls).length + 3 ≤ n) :
    Expr.level? .generic n least (e.row ++ ls) = some (some e, ls) :=
  h ls hls least hleast (e, ls) (extends_of_stops hstops) n hn

/-- An expression begins as an operand does. -/
def Opens (e : Expr) : Prop :=
  ∃ l ls, e.row = l :: ls ∧ l.opens = true

theorem afterWord?_row {word : String} {e : Expr} (hopens : Opens e)
    (h : e.beginsWith word = false) (ls : List Lexeme) :
    afterWord? word (e.row ++ ls) = none := by
  obtain ⟨l, more, hrow, -⟩ := hopens
  rw [beginsWith, hrow] at h
  have hl : isWordOf word l = false := h
  rw [hrow, List.cons_append, afterWord?, hl, if_neg (by decide)]

theorem afterReserved?_row {word : String} (hword : word ∈ reservedWords) (hnot : word ≠ "NOT")
    {e : Expr} (hopens : Opens e) (ls : List Lexeme) : afterWord? word (e.row ++ ls) = none := by
  obtain ⟨l, more, hrow, hl⟩ := hopens
  rw [hrow, List.cons_append]
  exact afterWord?_of_opens hword hnot hl _

/-! ## Lists -/

/-- Lexemes with which a list ends. -/
def Closes (ls : List Lexeme) : Prop :=
  ∀ l ∈ ls.head?, l = .mark .rightParen

/-- An entry of a list is read back in front of lexemes. -/
def Enters (kind : Entry) (e : Expr) (ls : List Lexeme) : Prop :=
  ∀ n, 8 * (e.row ++ ls).length + 4 ≤ n → listed? .generic n kind (e.row ++ ls) = some (some e, ls)

/-- Whether a lexeme may be the first of an entry: an argument may begin with the word for distinct
    values, others only as an expression does. -/
def Entry.mayBegin (kind : Entry) (l : Lexeme) : Bool :=
  l.opens || ((kind = .argument || kind = .labelled) && l = .word "DISTINCT")

/-- The entries of a list are read back: the last at the end of the list, the others in front of a
    comma. -/
structure Lists (kind : Entry) (es : List Expr) : Prop where
  opens : ∀ e ∈ es, ∃ l ls, e.row = l :: ls ∧ kind.mayBegin l = true
  last : ∀ e ∈ es, ∀ ls, Closes ls → Enters kind e ls
  inner : ∀ e ∈ es.dropLast, ∀ ls, Enters kind e (.mark .comma :: ls)

/-- What is read for a list: one empty entry if there are none. -/
def answers (es : List Expr) : List (Option Expr) :=
  if es.isEmpty then [none] else es.map some

@[simp] theorem reduceOption_answers (es : List Expr) : (answers es).reduceOption = es := by
  unfold answers
  split
  · rename_i h
    rw [List.isEmpty_iff.mp h]
    rfl
  · have hfilter : (es.map some).reduceOption = es.filterMap some := List.filterMap_map
    rw [hfilter]
    exact List.filterMap_some

/-- At the end of a list there is no entry. -/
theorem listed?_of_closes {ls : List Lexeme} (h : Closes ls) (kind : Entry) (n : Nat) :
    listed? .generic (n + 4) kind ls = some (none, ls) := by
  cases ls with
  | nil =>
    cases kind <;>
      simp [listed?, level?, operand?, primary?, afterNothing?, Entry.mayBeLabelled, afterWord?]
  | cons l ls =>
    obtain rfl := h l rfl
    cases kind <;>
      simp [listed?, level?, operand?, primary?, afterNothing?, Entry.mayBeLabelled, afterWord?,
        isWordOf]

theorem entries?_of_closes {kind : Entry} {ls rest : List Lexeme} {e : Option Expr} {n : Nat}
    (h : listed? .generic n kind ls = some (e, rest)) (hrest : Closes rest) :
    entries? .generic (n + 1) kind ls = some ([e], rest) := by
  rw [entries?, h]
  simp only [Option.bind_eq_bind, Option.bind_some]
  split
  · cases hrest _ rfl
  · rfl

theorem entries?_of_comma {kind : Entry} {ls rest rest' : List Lexeme} {e : Option Expr}
    {es : List (Option Expr)} {n : Nat}
    (h : listed? .generic n kind ls = some (e, .mark .comma :: rest))
    (hes : entries? .generic n kind rest = some (es, rest')) :
    entries? .generic (n + 1) kind ls = some (e :: es, rest') := by
  rw [entries?, h]
  simp only [Option.bind_eq_bind, Option.bind_some, hes]
  rfl

theorem Lists.tail {kind : Entry} {e : Expr} {es : List Expr} (h : Lists kind (e :: es)) :
    Lists kind es where
  opens e he := h.opens e (List.mem_cons_of_mem _ he)
  last e he := h.last e (List.mem_cons_of_mem _ he)
  inner e' he := by
    refine h.inner e' ?_
    have hne : es ≠ [] := by
      rintro rfl
      cases he
    rw [List.dropLast_cons_of_ne_nil hne]
    exact List.mem_cons_of_mem _ he

/-- A list is read back. -/
theorem Lists.entries? {kind : Entry} {es : List Expr} (h : Lists kind es) {ls : List Lexeme}
    (hls : Closes ls) {n : Nat} (hn : 8 * (rows es ++ ls).length + 5 ≤ n) :
    Expr.entries? .generic n kind (rows es ++ ls) = some (answers es, ls) := by
  induction es generalizing n with
  | nil =>
    obtain ⟨m, rfl⟩ : ∃ m, n = m + 5 := ⟨n - 5, by omega⟩
    exact entries?_of_closes (listed?_of_closes hls kind m) hls
  | cons e es ih =>
    obtain ⟨m, rfl⟩ : ∃ m, n = m + 1 := ⟨n - 1, by omega⟩
    by_cases hnil : es = []
    · subst hnil
      exact entries?_of_closes (h.last e List.mem_cons_self ls hls m (by
        rw [rows_singleton] at hn
        omega)) hls
    · have hmem : e ∈ (e :: es).dropLast := by
        rw [List.dropLast_cons_of_ne_nil hnil]
        exact List.mem_cons_self
      have hentry := h.inner e hmem (rows es ++ ls)
      rw [rows_cons hnil, List.append_assoc, List.cons_append] at hn ⊢
      have hrest := ih h.tail (n := m) (by
        rw [List.length_append, List.length_cons] at hn
        omega)
      rw [entries?_of_comma (hentry m (by omega)) hrest, answers, answers]
      simp [hnil]

theorem rows_head {e : Expr} {l : Lexeme} {more : List Lexeme} (h : e.row = l :: more)
    (es : List Expr) : ∃ more', rows (e :: es) = l :: more' := by
  by_cases hnil : es = []
  · exact ⟨more, by rw [hnil, rows_singleton, h]⟩
  · exact ⟨_, by rw [rows_cons hnil, h, List.cons_append]⟩

/-- No list begins with a query. -/
theorem Lists.afterSelect {kind : Entry} {es : List Expr} (h : Lists kind es) {ls : List Lexeme}
    (hls : Closes ls) : afterWord? "SELECT" (rows es ++ ls) = none := by
  cases es with
  | nil =>
    cases ls with
    | nil => rfl
    | cons l ls =>
      obtain rfl := hls l rfl
      rfl
  | cons e es =>
    obtain ⟨l, more, hl, hbegins⟩ := h.opens e List.mem_cons_self
    obtain ⟨more', hmore⟩ := rows_head hl es
    rw [hmore, List.cons_append]
    rw [Entry.mayBegin, Bool.or_eq_true, Bool.and_eq_true, decide_eq_true_eq] at hbegins
    rcases hbegins with hopens | ⟨-, rfl⟩
    · exact afterWord?_of_opens (by decide) (by decide) hopens _
    · rw [afterWord?_connective "DISTINCT" (by decide)]
      rfl

/-! ## Operators -/

theorem Extends.operator {least most : Nat} {e right : Expr} {ls rest rest' : List Lexeme}
    {op : Operator} {r : Expr × List Lexeme} (hop : operator? .generic ls = some (op, rest))
    (hleast : least ≤ op.level .generic) (hmost : op.level .generic ≤ most)
    (hright : ∀ n, 8 * rest.length + 3 ≤ n →
      level? .generic n (op.level .generic + 1) rest = some (some right, rest'))
    (hlength : rest'.length ≤ rest.length ∧ rest.length < ls.length)
    (hr : Extends least (op.level .generic) (combine .generic op e right) rest' r) :
    Extends least most e ls r := by
  intro n hn
  obtain ⟨m, rfl⟩ : ∃ m, n = m + 1 := ⟨n - 1, by omega⟩
  have hlevel := hright m (by omega)
  have hextend := hr m (by omega)
  rw [extend?]
  simp only [hop, hleast, hmost, decide_true, Bool.and_self, if_true, hlevel, required,
    Option.bind_eq_bind, Option.bind_some, hextend]

/-- An operator that is neither an identity nor a likeness is read back from its lexemes. -/
theorem operator?_row {op : Operator} (h : op.isStable = true) (his : op ≠ .is)
    (hlike : ∀ negated, op ≠ .like negated) {l : Lexeme} (hl : l.opens = true) (ls : List Lexeme) :
    operator? .generic (op.lexemes .generic ++ l :: ls) = some (op, l :: ls) := by
  have hor : wordOperator? .generic "OR" = some .or := by decide +kernel
  have hand : wordOperator? .generic "AND" = some .and := by decide +kernel
  have hless : l ≠ .mark .less := by
    rintro rfl
    cases hl
  have hgreater : l ≠ .mark .greater := by
    rintro rfl
    cases hl
  by_cases hcomparison : op.isComparison = true
  · exact operator?_lexemes hcomparison (by simpa using hless) (by simpa using hgreater)
  · cases op with
    | or => simp [Operator.lexemes, operator?, hor]
    | and => simp [Operator.lexemes, operator?, hand]
    | is => exact absurd rfl his
    | like negated => exact absurd rfl (hlike negated)
    | divide rule =>
      obtain rfl : rule = ⟨false, false⟩ := of_decide_eq_true h
      rfl
    | xor => cases h
    | isNot => cases h
    | sameAs => cases h
    | differsFrom => cases h
    | power => cases h
    | equal => exact absurd rfl hcomparison
    | notEqual => exact absurd rfl hcomparison
    | less => exact absurd rfl hcomparison
    | lessEqual => exact absurd rfl hcomparison
    | greater => exact absurd rfl hcomparison
    | greaterEqual => exact absurd rfl hcomparison
    | _ => rfl

theorem takes_binary {op : Operator} {right : Expr} (h : op = .is → right ≠ .null) (left : Expr)
    (k : Nat) :
    (binary op left right).takes k =
      (decide (op.level .generic < k) && decide (k ≤ right.level) || right.takes k) := by
  rw [takes]
  intro hop hright
  exact h hop hright

/-- What follows an expression with an operator follows the right operand, and goes on with it no
    further than the whole. -/
theorem Follows.right {ls : List Lexeme} {op : Operator} {left right : Expr}
    (h : Follows ls (binary op left right)) (hne : op = .is → right ≠ .null) :
    Follows ls right ∧
      ∀ k ∈ nextLevel? ls, k < op.level .generic + 1 ∨ right.level < k := by
  have hfree : ∀ k ∈ nextLevel? ls,
      (op.level .generic < k → right.level < k) ∧ right.takes k = false := by
    intro k hk
    have := h.free k hk
    rw [takes_binary hne, Bool.or_eq_false_iff, Bool.and_eq_false_iff] at this
    simp only [decide_eq_false_iff_not] at this
    exact ⟨by omega, this.2⟩
  refine ⟨⟨h.calm, fun k hk => (hfree k hk).2⟩, fun k hk => ?_⟩
  have := (hfree k hk).1
  omega

/-- An operator between operands that are read back. -/
theorem Resumes.binary {op : Operator} {left right : Expr} (hleft : Resumes left)
    (hright : Resumes right) (hop : op.isStable = true) (his : op ≠ .is)
    (hlike : ∀ negated, op ≠ .like negated) (hopens : Opens right)
    (hlow : op.level .generic ≤ left.level) (hhigh : op.level .generic < right.level)
    (htakes : left.takes (op.level .generic) = false)
    (hcombine : combine .generic op left right = .binary op left right) :
    Resumes (.binary op left right) := by
  intro ls hls least hleast r hr n hn
  obtain ⟨hfollows, hstops⟩ := hls.right (fun h => absurd h his)
  obtain ⟨l, more, hrow, hl⟩ := hopens
  have hreads : operator? .generic (op.lexemes .generic ++ (right.row ++ ls)) =
      some (op, right.row ++ ls) := by
    rw [hrow, List.cons_append]
    exact operator?_row hop his hlike hl _
  have hlength : 0 < (op.lexemes .generic).length := by
    cases op <;> first | exact Nat.succ_pos _ | exact absurd rfl (hlike _)
  rw [row_binary, List.append_assoc, List.append_assoc] at hn ⊢
  refine hleft _ ⟨goesOn_operator hop _, fun k hk => ?_⟩ least (Nat.le_trans hleast hlow) r ?_ n hn
  · rw [nextLevel?, hreads] at hk
    obtain rfl := Option.some.inj hk
    exact htakes
  · have hresult : Extends least (op.level .generic) (combine .generic op left right) ls r := by
      rw [hcombine]
      exact hr
    refine Extends.operator hreads hleast hlow (fun n hn => ?_) ?_ hresult
    · exact hright.level? hfollows hhigh hstops hn
    · simp only [List.length_append]
      omega

/-! ## Identities -/

theorem operator?_connective (text : String) (h : text ∈ ["BETWEEN", "IN", "IS", "LIKE", "NOT"])
    (ls : List Lexeme) : operator? .generic (.word text :: ls) = none := by
  have hnone : ∀ text ∈ ["BETWEEN", "IN", "IS", "LIKE", "NOT"],
      wordOperator? .generic text = none := by decide +kernel
  rw [operator?, hnone text h]
  rfl

theorem afterIs (ls : List Lexeme) : afterWord? "IS" (.word "IS" :: ls) = some ls := by
  rw [afterWord?_connective "IS" (by decide)]
  rfl

theorem Extends.identity {least most : Nat} {e e' : Expr} {ls rest : List Lexeme}
    {r : Expr × List Lexeme} (hleast : least ≤ rangeLevel) (hmost : rangeLevel ≤ most)
    (hidentity : ∀ n, 8 * ls.length + 4 ≤ n → identity? .generic n e ls = some (some (e', rest)))
    (hlength : rest.length ≤ ls.length) (hr : Extends least rangeLevel e' rest r) :
    Extends least most e (.word "IS" :: ls) r := by
  intro n hn
  rw [List.length_cons] at hn
  obtain ⟨m, rfl⟩ : ∃ m, n = m + 1 := ⟨n - 1, by omega⟩
  have hlevel : Dialect.generic.identityLevel = rangeLevel := rfl
  have hreach : Dialect.generic.identityReach = rangeLevel := rfl
  rw [extend?]
  simp only [operator?_connective "IS" (by decide), afterIs, hlevel, hreach, hleast,
    hmost, decide_true, Bool.and_self, if_true, hidentity m (by omega), Option.bind_eq_bind,
    Option.bind_some, hr m (by omega)]

/-- In the generic dialect the negation of an identity stands in front of it. -/
theorem identity_generic (negated : Bool) (left right : Expr) :
    Expr.identity .generic negated left right =
      (Expr.binary .is left.asIdentified right.asIdentity).negatedIf negated := by
  rw [Expr.identity]
  simp [keepsIsNot]

/-- An identity needs no parentheses around operands that have them where they are needed. -/
theorem identity_eq {left right : Expr} (hleft : left.isNegation = false ∧ left.isComparison = false)
    (hright : right.isNegation = false ∧ right.isComparison = false ∧ right.isRange = false) :
    Expr.identity .generic false left right = .binary .is left right := by
  have hl : left.asIdentified = left := by
    rw [asIdentified, hleft.1, hleft.2]
    rfl
  have hr : right.asIdentity = right := by
    rw [asIdentity, hright.1, hright.2.1, hright.2.2]
    rfl
  rw [identity_generic, hl, hr]
  rfl

theorem nextLevel?_is (ls : List Lexeme) : nextLevel? (.word "IS" :: ls) = some rangeLevel := by
  rw [nextLevel?, operator?_connective "IS" (by decide), afterIs]

/-- An identity with nothing. -/
theorem Resumes.isNull {left : Expr} (hleft : Resumes left) (hlow : rangeLevel ≤ left.level)
    (htakes : left.takes rangeLevel = false)
    (hkind : left.isNegation = false ∧ left.isComparison = false) :
    Resumes (.binary .is left .null) := by
  intro ls hls least hleast r hr n hn
  have hnull : Expr.null.row = [.word "NULL"] := rfl
  rw [row_is, hnull, List.append_assoc, List.cons_append, List.singleton_append] at hn ⊢
  refine hleft _ ⟨goesOn_word (by decide) _, fun k hk => ?_⟩ least (Nat.le_trans hleast hlow) r ?_
    n hn
  · obtain rfl := Option.some.inj ((nextLevel?_is _).symm.trans hk)
    exact htakes
  · have hread : ∀ n, 8 * (.word "NULL" :: ls : List Lexeme).length + 4 ≤ n →
        identity? .generic n left (.word "NULL" :: ls) =
          some (some (.binary .is left .null, ls)) := by
      intro n hn
      obtain ⟨m, rfl⟩ : ∃ m, n = m + 1 := ⟨n - 1, by omega⟩
      have hword := afterWord?_connective "NULL" (by decide)
      have hidentity : Expr.identity .generic false left .null = .binary .is left .null :=
        identity_eq hkind ⟨rfl, rfl, rfl⟩
      rw [identity?]
      simp [passWord, hword, hidentity]
    exact Extends.identity hleast hlow hread (Nat.le_succ _) hr

/-- An identity with something that begins neither with a negation nor with nothing. -/
theorem Resumes.is {left right : Expr} (hleft : Resumes left) (hright : Resumes right)
    (hopens : Opens right) (hlow : rangeLevel ≤ left.level) (hhigh : rangeLevel < right.level)
    (htakes : left.takes rangeLevel = false)
    (hkind : left.isNegation = false ∧ left.isComparison = false)
    (hrightKind : right.isNegation = false ∧ right.isComparison = false ∧ right.isRange = false)
    (hnull : right ≠ .null)
    (hbegins : right.beginsWith "NOT" = false ∧ right.beginsWith "NULL" = false) :
    Resumes (.binary .is left right) := by
  intro ls hls least hleast r hr n hn
  obtain ⟨hfollows, hstops⟩ := hls.right (fun _ => hnull)
  rw [row_is, List.append_assoc, List.cons_append] at hn ⊢
  refine hleft _ ⟨goesOn_word (by decide) _, fun k hk => ?_⟩ least (Nat.le_trans hleast hlow) r ?_
    n hn
  · obtain rfl := Option.some.inj ((nextLevel?_is _).symm.trans hk)
    exact htakes
  · have hread : ∀ n, 8 * (right.row ++ ls).length + 4 ≤ n →
        identity? .generic n left (right.row ++ ls) = some (some (.binary .is left right, ls)) := by
      intro n hn
      obtain ⟨m, rfl⟩ : ∃ m, n = m + 1 := ⟨n - 1, by omega⟩
      have hnot := afterWord?_row hopens hbegins.1 ls
      have hnothing := afterWord?_row hopens hbegins.2 ls
      have hdistinct : afterWord? "DISTINCT" (right.row ++ ls) = none :=
        afterReserved?_row (by decide) (by decide) hopens ls
      have hreadRight : Expr.level? .generic m bitLevel (right.row ++ ls) = some (some right, ls) :=
        hright.level? hfollows hhigh hstops (by omega)
      have hscope : Dialect.generic.identityScope = bitLevel := rfl
      rw [identity?]
      simp [passWord, hnot, hdistinct, hnothing, hscope, hreadRight, identity_eq hkind hrightKind]
    refine Extends.identity hleast hlow hread ?_ hr
    rw [List.length_append]
    omega

/-! ## Tests -/

theorem Extends.test {least most : Nat} {e e' : Expr} {negated : Bool} {test : Test}
    {ls rest rest' : List Lexeme} {r : Expr × List Lexeme}
    (hop : operator? .generic ls = none) (his : afterWord? "IS" ls = none)
    (htest : test? ls = some (negated, test, rest)) (hleast : least ≤ rangeLevel)
    (hmost : rangeLevel ≤ most)
    (htested : ∀ n, 8 * rest.length + 4 ≤ n →
      tested? .generic n e.asTested negated test rest = some (e', rest'))
    (hlength : rest'.length ≤ rest.length ∧ rest.length < ls.length)
    (hr : Extends least rangeLevel e' rest' r) : Extends least most e ls r := by
  intro n hn
  obtain ⟨m, rfl⟩ : ∃ m, n = m + 1 := ⟨n - 1, by omega⟩
  rw [extend?]
  simp only [hop, his, htest, hleast, hmost, decide_true, Bool.and_self, if_true,
    htested m (by omega), Option.bind_eq_bind, Option.bind_some, hr m (by omega)]

/-- The words of tests, each with its test. -/
def testWords : List (String × Test) :=
  [("BETWEEN", .between), ("IN", .member), ("LIKE", .like)]

/-- Words with which a test begins. -/
structure BeginsTest (words : List Lexeme) (negated : Bool) (test : Test) : Prop where
  ne_nil : words ≠ []
  operator : ∀ ls, operator? .generic (words ++ ls) = none
  identity : ∀ ls, afterWord? "IS" (words ++ ls) = none
  calm : ∀ ls, goesOn (words ++ ls) = false
  test : ∀ ls, test? (words ++ ls) = some (negated, test, ls)

theorem testWords_spec : ∀ pair ∈ testWords,
    pair.1 ∈ ["BETWEEN", "IN", "IS", "LIKE", "NOT"] ∧ pair.1 ∈ connectiveWords ∧
      wordTest? pair.1 = some pair.2 ∧ pair.1 ∉ ["IS", "NOT", "NOTNULL", "NULL"] := by
  decide +kernel

theorem beginsTest_word {text : String} {test : Test} (h : (text, test) ∈ testWords) :
    BeginsTest [.word text] false test := by
  obtain ⟨hnone, hconnective, htest, hother⟩ := testWords_spec _ h
  simp only [List.mem_cons, List.not_mem_nil, or_false, not_or] at hother
  obtain ⟨his, hnot, hnotNull, -⟩ := hother
  refine ⟨List.cons_ne_nil _ _, operator?_connective text hnone, fun ls => ?_,
    goesOn_word hconnective, fun ls => ?_⟩
  · rw [List.singleton_append, afterWord?_connective text hconnective,
      if_neg (by simpa using his)]
  · have hne : ¬(text == "NOT") = true ∧ ¬(text == "NOTNULL") = true := by
      simpa using And.intro hnot hnotNull
    rw [List.singleton_append]
    unfold test?
    simp only [upper_connective hconnective, if_neg hne.1, if_neg hne.2, htest, Option.map_some]

theorem beginsTest_not {text : String} {test : Test} (h : (text, test) ∈ testWords) :
    BeginsTest [.word "NOT", .word text] true test := by
  obtain ⟨hnone, hconnective, htest, hother⟩ := testWords_spec _ h
  simp only [List.mem_cons, List.not_mem_nil, or_false, not_or] at hother
  have hnull := hother.2.2.2
  have hnot : upper "NOT" = "NOT" := upper_connective (by decide)
  refine ⟨List.cons_ne_nil _ _, fun ls => operator?_connective "NOT" (by decide) _, fun ls => ?_,
    fun ls => goesOn_word (by decide) _, fun ls => ?_⟩
  · rw [List.cons_append, afterWord?_connective "NOT" (by decide)]
    rfl
  · have hne : ¬(text == "NULL") = true := by simpa using hnull
    rw [List.cons_append, List.singleton_append, test?, hnot, if_pos (by decide)]
    simp only [upper_connective hconnective, if_neg hne, htest, Option.map_some]

theorem nextLevel?_test {ls rest : List Lexeme} {negated : Bool} {test : Test}
    (hop : operator? .generic ls = none) (his : afterWord? "IS" ls = none)
    (htest : test? ls = some (negated, test, rest)) : nextLevel? ls = some rangeLevel := by
  rw [nextLevel?, hop, his, htest]

theorem asTested_eq {e : Expr} (h : e.isNegation = false) : e.asTested = e := by
  rw [asTested, h]
  rfl

/-- A test of an operand that is read back, if the test is. -/
theorem Resumes.tested {operand e : Expr} {words after : List Lexeme} {negated : Bool} {test : Test}
    (hoperand : Resumes operand) (hrow : e.row = operand.row ++ (words ++ after))
    (hlevel : e.level = rangeLevel) (hlow : rangeLevel ≤ operand.level)
    (htakes : operand.takes rangeLevel = false) (hkind : operand.isNegation = false)
    (hwords : BeginsTest words negated test)
    (htested : ∀ ls, Follows ls e → ∀ n, 8 * (after ++ ls).length + 4 ≤ n →
      tested? .generic n operand negated test (after ++ ls) = some (e, ls)) :
    Resumes e := by
  intro ls hls least hleast r hr n hn
  rw [hrow, List.append_assoc, List.append_assoc] at hn ⊢
  rw [hlevel] at hleast hr
  have hop := hwords.operator (after ++ ls)
  have his := hwords.identity (after ++ ls)
  have htest := hwords.test (after ++ ls)
  refine hoperand _ ⟨hwords.calm _, fun k hk => ?_⟩ least (Nat.le_trans hleast hlow) r ?_ n hn
  · obtain rfl := Option.some.inj ((nextLevel?_test hop his htest).symm.trans hk)
    exact htakes
  · have hlength := List.length_pos_iff.mpr hwords.ne_nil
    refine Extends.test hop his htest hleast hlow (fun n hn => ?_) ?_ hr
    · rw [asTested_eq hkind]
      exact htested ls hls n hn
    · simp only [List.length_append]
      omega

/-- Neither a mark of likenesses nor a window follows. -/
theorem afterWord?_of_calm {ls : List Lexeme} (h : goesOn ls = false) :
    afterWord? "ESCAPE" ls = none ∧ afterWord? "OVER" ls = none := by
  unfold goesOn at h
  split at h
  · cases h
  · cases h
  · cases h
  · cases h
  · simpa using h

/-- A likeness. -/
theorem Resumes.like {left right : Expr} (negated : Bool) (hleft : Resumes left)
    (hright : Resumes right) (hlow : rangeLevel ≤ left.level) (hhigh : rangeLevel < right.level)
    (htakes : left.takes rangeLevel = false) (hkind : left.isNegation = false) :
    Resumes (.binary (.like negated) left right) := by
  have hread : ∀ ls, Follows ls (.binary (.like negated) left right) →
      ∀ n, 8 * (right.row ++ ls).length + 4 ≤ n →
        tested? .generic n left negated .like (right.row ++ ls) =
          some (.binary (.like negated) left right, ls) := by
    intro ls hls n hn
    obtain ⟨m, rfl⟩ : ∃ m, n = m + 1 := ⟨n - 1, by omega⟩
    obtain ⟨hfollows, hstops⟩ := hls.right (fun h => by cases h)
    have hright : Expr.level? .generic m bitLevel (right.row ++ ls) = some (some right, ls) :=
      hright.level? hfollows hhigh hstops (by omega)
    rw [tested?]
    simp only [hright, required, Option.bind_eq_bind, Option.bind_some,
      (afterWord?_of_calm hls.calm).1]
    rfl
  cases negated with
  | false =>
    exact hleft.tested (row_binary _ _ _) rfl hlow htakes hkind
      (@beginsTest_word "LIKE" .like (by decide)) hread
  | true =>
    exact hleft.tested (row_binary _ _ _) rfl hlow htakes hkind
      (@beginsTest_not "LIKE" .like (by decide)) hread

/-- A membership. -/
theorem Resumes.member {operand : Expr} {list : List Expr} (hoperand : Resumes operand)
    (hlist : Lists .plain list) (hlow : rangeLevel ≤ operand.level)
    (htakes : operand.takes rangeLevel = false) (hkind : operand.isNegation = false) :
    Resumes (.member operand list) := by
  refine hoperand.tested (row_member _ _) rfl hlow htakes hkind
    (@beginsTest_word "IN" .member (by decide)) (fun ls _ n hn => ?_)
  obtain ⟨m, rfl⟩ : ∃ m, n = m + 1 := ⟨n - 1, by omega⟩
  have hcloses : Closes (.mark .rightParen :: ls) := by
    rintro l ⟨⟩
    rfl
  rw [List.cons_append, List.append_assoc, List.singleton_append] at hn ⊢
  rw [List.length_cons] at hn
  have hentries := hlist.entries? hcloses (n := m) (by omega)
  rw [tested?, hlist.afterSelect hcloses]
  simp only [hentries, Option.bind_eq_bind, Option.bind_some, afterMark?, if_true,
    reduceOption_answers]
  rfl

theorem Follows.high {ls : List Lexeme} {operand low high : Expr}
    (h : Follows ls (between operand low high)) :
    Follows ls high ∧ ∀ k ∈ nextLevel? ls, k < bitLevel ∨ high.level < k := by
  have hfree : ∀ k ∈ nextLevel? ls, (k < rangeLevel + 1 ∨ high.level < k) ∧
      high.takes k = false := by
    intro k hk
    have := h.free k hk
    rw [takes, Bool.or_eq_false_iff, Bool.and_eq_false_iff] at this
    simp only [decide_eq_false_iff_not] at this
    exact ⟨by omega, this.2⟩
  exact ⟨⟨h.calm, fun k hk => (hfree k hk).2⟩, fun k hk => (hfree k hk).1⟩

/-- A range. -/
theorem Resumes.between {operand low high : Expr} (hoperand : Resumes operand) (hlow : Resumes low)
    (hhigh : Resumes high) (hlevel : rangeLevel ≤ operand.level)
    (hlowLevel : rangeLevel < low.level) (hhighLevel : rangeLevel < high.level)
    (htakes : operand.takes rangeLevel = false)
    (hkind : operand.isNegation = false ∧ operand.isIdentity = false)
    (hand : low.takes (Operator.and.level .generic) = false) :
    Resumes (.between operand low high) := by
  have hbounded : operand.asBounded = operand := by
    rw [asBounded, asTested_eq hkind.1, asCompared, hkind.2]
    rfl
  have hreads : wordOperator? .generic "AND" = some .and := by decide +kernel
  have hwhole : (Expr.between operand low high).row =
      operand.row ++ ([.word "BETWEEN"] ++ (low.row ++ .word "AND" :: high.row)) :=
    row_between operand low high
  refine hoperand.tested hwhole rfl hlevel htakes hkind.1
    (@beginsTest_word "BETWEEN" .between (by decide)) (fun ls hls n hn => ?_)
  obtain ⟨m, rfl⟩ : ∃ m, n = m + 1 := ⟨n - 1, by omega⟩
  have hrow : (low.row ++ .word "AND" :: high.row) ++ ls =
      low.row ++ .word "AND" :: (high.row ++ ls) :=
    List.append_assoc _ _ _
  have hlength : (low.row ++ .word "AND" :: high.row ++ ls).length =
      low.row.length + (high.row ++ ls).length + 1 := by
    rw [hrow, List.length_append, List.length_cons]
    omega
  -- The word between the bounds is also an operator, but a loose one.
  have hnext : ∀ k ∈ nextLevel? (.word "AND" :: (high.row ++ ls)), k = 1 := by
    intro k hk
    rw [nextLevel?, operator?, hreads] at hk
    exact (Option.some.inj hk).symm
  have hfollows : Follows (.word "AND" :: (high.row ++ ls)) low := by
    refine ⟨goesOn_word (by decide) _, fun k hk => ?_⟩
    rw [hnext k hk]
    exact hand
  have hreadLow : Expr.level? .generic m bitLevel (low.row ++ .word "AND" :: (high.row ++ ls)) =
      some (some low, .word "AND" :: (high.row ++ ls)) := by
    refine hlow.level? hfollows hlowLevel (fun k hk => ?_) ?_
    · rw [hnext k hk]
      exact Or.inl (by decide)
    · rw [← hrow]
      omega
  have hreadHigh : Expr.level? .generic m bitLevel (high.row ++ ls) = some (some high, ls) :=
    hhigh.level? hls.high.1 hhighLevel hls.high.2 (by omega)
  rw [hrow, tested?]
  simp only [hreadLow, required, Option.bind_eq_bind, Option.bind_some, passWord,
    afterWord?_connective "AND" (by decide), beq_self_eq_true, if_true, hreadHigh, hbounded]
  rfl

end Expr

end PatternSql.Sql
