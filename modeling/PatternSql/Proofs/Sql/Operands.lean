import PatternSql.Proofs.Sql.ReadingBack

/-!
# Operands that are read back

Numerals, strings, names and the words for truth values are read back wherever no lexeme goes on
with them, and so are calls and what stands between parentheses, if their entries are. A negation
and a sign are read back in front of an operand that is. Names with points between them are read one
after the other.

An entry of a list is an expression or one with an alias, and it is read back in front of a comma
and at the end of the list.

Main results:

* `Stands.not`, `Stands.negative`: operands with a negation or a sign.
* `Alone.stands`: what is read back without signs and parts is an operand.
* `stands_column`, `stands_star`: names with points between them.
* `Resumes.enters`, `Resumes.enters_named`, `enters_distinct`: entries of lists.
-/

namespace PatternSql.Sql

open Text

/-- Whether a lexeme may be the first of an operand without signs and negations. -/
def Lexeme.leads (l : Lexeme) : Bool :=
  l.opens && l ≠ .mark .minus && !isWordOf "NOT" l

/-- The word of a negation is reserved. -/
theorem Lexeme.leads_word {text : String} (h : isReserved text = false) :
    (word text).leads = true := by
  have hnot : (upper text == "NOT") = false := by
    rw [beq_eq_false_iff_ne]
    intro heq
    rw [isReserved, heq] at h
    exact absurd h (by decide)
  rw [Lexeme.leads, Lexeme.opens, h, isWordOf, hnot]
  rfl

namespace Expr

/-! ## Signs and negations -/

theorem Follows.negated {ls : List Lexeme} {e : Expr} (h : Follows ls (not e)) :
    Follows ls e ∧ ∀ k ∈ nextLevel? ls, k < equalityLevel ∨ e.level < k := by
  have hfree : ∀ k ∈ nextLevel? ls, (k < equalityLevel ∨ e.level < k) ∧ e.takes k = false := by
    intro k hk
    have := h.free k hk
    rw [takes, Bool.or_eq_false_iff, Bool.and_eq_false_iff] at this
    simp only [decide_eq_false_iff_not] at this
    exact ⟨by omega, this.2⟩
  exact ⟨⟨h.calm, fun k hk => (hfree k hk).2⟩, fun k hk => (hfree k hk).1⟩

/-- A negation in front of an expression that reaches as far as an equality. -/
theorem Stands.not {e : Expr} (h : Resumes e) (hlevel : equalityLevel ≤ e.level) :
    Stands (.not e) := by
  intro ls hls n hn
  rw [row_not, List.cons_append] at hn ⊢
  rw [List.length_cons] at hn
  obtain ⟨m, rfl⟩ : ∃ m, n = m + 1 := ⟨n - 1, by omega⟩
  have hread := h.level? hls.negated.1 hlevel hls.negated.2 (n := m) (by omega)
  rw [operand?]
  · simp only [afterWord?_connective "NOT" (by decide), beq_self_eq_true, if_true, hread, required,
      Option.bind_eq_bind, Option.bind_some]
    rfl
  all_goals simp

/-- A sign in front of an operand. -/
theorem Stands.negative {e : Expr} (h : Stands e) : Stands (.negative e) := by
  intro ls hls n hn
  rw [row_negative, List.cons_append] at hn ⊢
  rw [List.length_cons] at hn
  obtain ⟨m, rfl⟩ : ∃ m, n = m + 1 := ⟨n - 1, by omega⟩
  have hread := h ls ⟨hls.calm, hls.free⟩ m (by omega)
  rw [operand?]
  simp only [hread, required, Option.bind_eq_bind, Option.bind_some]
  rfl

/-! ## Operands without signs and parts -/

/-- An expression is read back as an operand without signs and parts. -/
def Alone (e : Expr) : Prop :=
  ∀ ls, goesOn ls = false → ∀ n, 8 * (e.row ++ ls).length + 1 ≤ n →
    primary? .generic n (e.row ++ ls) = some (some e, ls)

/-- An operand that begins with neither a sign nor a negation. -/
theorem operand?_of_leads {l : Lexeme} (h : l.leads = true) {ls rest : List Lexeme} {e : Expr}
    {n : Nat} (hprimary : primary? .generic n (l :: ls) = some (some e, rest)) :
    operand? .generic (n + 1) (l :: ls) =
      (parts? .generic n e rest).map fun (e, rest) => (some e, rest) := by
  rw [Lexeme.leads, Bool.and_eq_true, Bool.and_eq_true] at h
  obtain ⟨⟨hopens, hminus⟩, hnot⟩ := h
  have hafter : afterWord? "NOT" (l :: ls) = none := by
    rw [afterWord?, if_neg]
    simpa using hnot
  rw [operand?]
  · simp only [hafter, hprimary, Option.bind_eq_bind, Option.bind_some]
    cases parts? .generic n e rest <;> rfl
  · rintro _ heq
    obtain ⟨rfl, -⟩ := List.cons.inj heq
    cases hopens
  · rintro _ heq
    obtain ⟨rfl, -⟩ := List.cons.inj heq
    simp at hminus
  · rintro _ heq
    obtain ⟨rfl, -⟩ := List.cons.inj heq
    cases hopens

theorem parts?_of_calm {ls : List Lexeme} (h : goesOn ls = false) (e : Expr) (n : Nat) :
    parts? .generic (n + 1) e ls = some (e, ls) := by
  rw [parts?]
  · rintro rest rfl
    cases h
  · rintro rest rfl
    cases h

/-- What is read back by itself is an operand. -/
theorem Alone.stands {e : Expr} (h : Alone e) (hleads : ∃ l ls, e.row = l :: ls ∧ l.leads = true) :
    Stands e := by
  intro ls hls n hn
  obtain ⟨m, rfl⟩ : ∃ m, n = m + 2 := ⟨n - 2, by omega⟩
  obtain ⟨l, more, hrow, hl⟩ := hleads
  have hprimary := h ls hls.calm (m + 1) (by omega)
  rw [hrow, List.cons_append] at hprimary ⊢
  rw [operand?_of_leads hl hprimary, parts?_of_calm hls.calm]
  rfl

theorem stringRun_of_calm {ls : List Lexeme} (h : goesOn ls = false) : stringRun ls = ([], ls) := by
  unfold stringRun
  split
  · cases h
  · rfl

theorem alone_number (text : String) : Alone (.number text) := by
  intro ls _ n hn
  obtain ⟨m, rfl⟩ : ∃ m, n = m + 1 := ⟨n - 1, by omega⟩
  have hrow : (Expr.number text).row = [.number text] := rfl
  rw [hrow, List.singleton_append, primary?]

theorem alone_string (text : String) : Alone (.string text) := by
  intro ls hls n hn
  obtain ⟨m, rfl⟩ : ∃ m, n = m + 1 := ⟨n - 1, by omega⟩
  have hrow : (Expr.string text).row = [.string text] := rfl
  rw [hrow, List.singleton_append, primary?, stringRun_of_calm hls]
  rfl

theorem alone_star : Alone (.star []) := by
  intro ls _ n hn
  obtain ⟨m, rfl⟩ : ∃ m, n = m + 1 := ⟨n - 1, by omega⟩
  have hrow : (Expr.star []).row = [.mark .star] := rfl
  rw [hrow, List.singleton_append, primary?]

theorem alone_null : Alone .null := by
  intro ls _ n hn
  obtain ⟨m, rfl⟩ : ∃ m, n = m + 1 := ⟨n - 1, by omega⟩
  have hrow : Expr.null.row = [.word "NULL"] := rfl
  rw [hrow, List.singleton_append, primary?, upper_connective (by decide)]
  rfl

theorem alone_boolean (value : Bool) : Alone (.boolean value) := by
  intro ls _ n hn
  obtain ⟨m, rfl⟩ : ∃ m, n = m + 1 := ⟨n - 1, by omega⟩
  cases value with
  | true =>
    have hrow : (Expr.boolean true).row = [.word "TRUE"] := rfl
    rw [hrow, List.singleton_append, primary?, upper_connective (by decide)]
    rfl
  | false =>
    have hrow : (Expr.boolean false).row = [.word "FALSE"] := rfl
    rw [hrow, List.singleton_append, primary?, upper_connective (by decide)]
    rfl

theorem closes_rightParen (ls : List Lexeme) : Closes (.mark .rightParen :: ls) := by
  rintro l ⟨⟩
  rfl

/-- What stands between parentheses is read back if its entries are. -/
theorem Lists.primary? {es : List Expr} (h : Lists .item es) {ls : List Lexeme} {n : Nat}
    (hn : 8 * (.mark .leftParen :: (rows es ++ .mark .rightParen :: ls) : List Lexeme).length + 1 ≤
      n) :
    Expr.primary? .generic n (.mark .leftParen :: (rows es ++ .mark .rightParen :: ls)) =
      some (some (ofGroup (answers es)), ls) := by
  obtain ⟨m, rfl⟩ : ∃ m, n = m + 1 := ⟨n - 1, by omega⟩
  rw [List.length_cons] at hn
  have hentries := h.entries? (closes_rightParen ls) (n := m) (by omega)
  rw [Expr.primary?]
  simp only [h.afterSelect (closes_rightParen ls), hentries, Option.bind_eq_bind, Option.bind_some,
    afterMark?, if_true]
  rfl

theorem alone_paren {e : Expr} (h : Lists .item [e]) : Alone (.paren e) := by
  intro ls _ n hn
  rw [row_paren, List.cons_append, List.append_assoc, List.singleton_append] at hn ⊢
  exact h.primary? hn

theorem alone_tuple {es : List Expr} (h : Lists .item es) (hlength : es.length ≠ 1) :
    Alone (.tuple es) := by
  intro ls _ n hn
  rw [row_tuple, List.cons_append, List.append_assoc, List.singleton_append] at hn ⊢
  have hgroup : ofGroup (answers es) = .tuple es := by
    cases es with
    | nil => rfl
    | cons e es =>
      cases es with
      | nil => exact absurd rfl hlength
      | cons e' es =>
        have hreduce := reduceOption_answers (e :: e' :: es)
        rw [answers] at hreduce ⊢
        exact congrArg Expr.tuple hreduce
  rw [h.primary? hn, hgroup]

/-! ## Calls -/

/-- The words that are operands of their own. -/
def constantWords : List String := ["FALSE", "NULL", "TRUE"]

/-- The name of a function of known meaning is in capitals, and nothing but a name. -/
theorem aggregate_spec {function : String} (h : function ∈ aggregates) :
    upper function = function ∧ function ∉ constantWords ∧ function ≠ "CASE" ∧
      isCallable function = true := by
  have hall : ∀ name ∈ aggregates, upper name = name ∧ name ∉ constantWords ∧ name ≠ "CASE" ∧
      isCallable name = true := by decide +kernel
  exact hall function h

/-- A call of a function of known meaning, with as many arguments as it takes. -/
theorem alone_call {function : String} {arguments : List Expr} (hfunction : function ∈ aggregates)
    (htakes : takesArguments function arguments.length = true)
    (harguments : Lists .argument arguments) : Alone (.call (.bare function) arguments) := by
  obtain ⟨hupper, hconstant, hcase, hcallable⟩ := aggregate_spec hfunction
  intro ls hcalm n hn
  obtain ⟨m, rfl⟩ : ∃ m, n = m + 1 := ⟨n - 1, by omega⟩
  rw [row_call, List.cons_append, List.cons_append, List.append_assoc, List.singleton_append] at hn ⊢
  rw [List.length_cons, List.length_cons] at hn
  have hentries := harguments.entries? (closes_rightParen ls) (n := m) (by omega)
  have hknown : aggregates.contains function = true := List.contains_iff_mem.mpr hfunction
  simp only [constantWords, List.mem_cons, List.not_mem_nil, or_false, not_or] at hconstant
  rw [Name.functionLexeme, primary?, hupper]
  split
  · exact absurd rfl hconstant.2.1
  · exact absurd rfl hconstant.2.2
  · exact absurd rfl hconstant.1
  · have hne : (function == "CASE") = false := by simpa using hcase
    simp only [hne, Bool.false_and, Bool.false_eq_true, if_false, hcallable, if_true, afterMark?,
      afterCall?, (afterWord?_of_calm hcalm).2, hknown, hentries, Option.bind_eq_bind,
      Option.bind_some, reduceOption_answers, htakes]
    rfl

/-! ## Names -/

/-- The lexeme that a name is written as. -/
def nameLexeme (n : Name) : Lexeme :=
  n.lexeme .generic false

theorem lexemes_name (n : Name) : lexemesOf (Layout.plain.name n) = [nameLexeme n] := by
  unfold Layout.name nameLexeme
  have hlexeme : n.lexeme Layout.plain.dialect Layout.plain.identify = n.lexeme .generic false := rfl
  rw [hlexeme]
  split
  · rename_i text htext
    rw [htext]
    rfl
  · rfl

theorem nameLexeme_bare {text : String} (h : (Name.bare text).isStable = true) :
    nameLexeme (.bare text) = .word text ∧ isForbidden text = false := by
  rw [Name.isStable, Bool.and_eq_true, Bool.and_eq_true, Bool.not_eq_true'] at h
  exact ⟨Name.lexeme_bare h.2, h.1.2⟩

/-- Whether a name may be the first of a column. -/
def leads : Name → Bool
  | .bare text => !isReserved text && !constantWords.contains (upper text)
  | _ => true

/-- Names with a point before each of them. -/
def pointed (names : List Name) : List Lexeme :=
  names.flatMap fun n => [.mark .dot, nameLexeme n]

theorem row_column_nil (n : Name) : (column [] n).row = [nameLexeme n] := by
  rw [row, pieces_column]
  exact lexemes_name n

theorem lexemes_dotted_cons (n : Name) {parts : List (List Piece)} (h : parts ≠ []) :
    lexemesOf (dotted (Layout.plain.name n :: parts)) =
      nameLexeme n :: .mark .dot :: lexemesOf (dotted parts) := by
  rw [dotted, separated_cons h, lexemes_append, lexemes_append, lexemes_name]
  rfl

theorem row_column_cons (q : Name) (qualifiers : List Name) (n : Name) :
    (column (q :: qualifiers) n).row = nameLexeme q :: .mark .dot :: (column qualifiers n).row := by
  rw [row, row, pieces_column, pieces_column, List.map_cons, List.cons_append,
    lexemes_dotted_cons q (by simp)]

theorem row_star_cons (q : Name) (qualifiers : List Name) :
    (star (q :: qualifiers)).row = nameLexeme q :: .mark .dot :: (star qualifiers).row := by
  rw [row, row, pieces_star, pieces_star, List.map_cons, List.cons_append,
    lexemes_dotted_cons q (by simp)]

theorem row_column_concat (qualifiers : List Name) (n m : Name) :
    (column (qualifiers ++ [n]) m).row = (column qualifiers n).row ++ [.mark .dot, nameLexeme m] := by
  induction qualifiers with
  | nil => rw [List.nil_append, row_column_cons, row_column_nil, row_column_nil]; rfl
  | cons q qualifiers ih =>
    rw [List.cons_append, row_column_cons, row_column_cons, ih]
    rfl

theorem row_star_concat (qualifiers : List Name) (n : Name) :
    (star (qualifiers ++ [n])).row = (column qualifiers n).row ++ [.mark .dot, .mark .star] := by
  induction qualifiers with
  | nil => rw [List.nil_append, row_star_cons, row_column_nil]; rfl
  | cons q qualifiers ih =>
    rw [List.cons_append, row_star_cons, row_column_cons, ih]
    rfl

/-- The column that a name and further ones with points before them are. -/
def columnOf (q : Name) (names : List Name) : Expr :=
  names.foldl withPart (ofName q)

/-- Points and names make a column of a column. -/
theorem foldl_withPart (names : List Name) (qualifiers : List Name) (n : Name) :
    ∃ qualifiers' n', names.foldl withPart (column qualifiers n) = column qualifiers' n' ∧
      (column qualifiers' n').row = (column qualifiers n).row ++ pointed names := by
  induction names generalizing qualifiers n with
  | nil => exact ⟨qualifiers, n, rfl, (List.append_nil _).symm⟩
  | cons m names ih =>
    obtain ⟨qualifiers', n', heq, hrow⟩ := ih (qualifiers ++ [n]) m
    refine ⟨qualifiers', n', heq, ?_⟩
    rw [hrow, row_column_concat, List.append_assoc]
    rfl

theorem row_columnOf (q : Name) (names : List Name) :
    (columnOf q names).row = nameLexeme q :: pointed names := by
  obtain ⟨qualifiers, n, heq, hrow⟩ := foldl_withPart names [] q
  rw [columnOf, ofName, heq, hrow, row_column_nil, List.singleton_append]

theorem row_withAllParts (q : Name) (names : List Name) :
    (columnOf q names).withAllParts.row =
      nameLexeme q :: (pointed names ++ [.mark .dot, .mark .star]) := by
  obtain ⟨qualifiers, n, heq, hrow⟩ := foldl_withPart names [] q
  rw [columnOf, ofName, heq, withAllParts, row_star_concat, hrow, row_column_nil,
    List.singleton_append, List.cons_append]

/-- Names after points are taken for parts one by one. -/
theorem parts?_pointed {names : List Name} {ls rest : List Lexeme} {e e' : Expr}
    (hstable : ∀ n ∈ names, n.isStable = true)
    (hls : ∀ more, ls ≠ .mark .leftParen :: more)
    (hrest : ∀ n, 8 * ls.length + 1 ≤ n →
      parts? .generic n (names.foldl withPart e) ls = some (e', rest))
    {n : Nat} (hn : 8 * (pointed names ++ ls).length + 1 ≤ n) :
    parts? .generic n e (pointed names ++ ls) = some (e', rest) := by
  induction names generalizing e n with
  | nil => exact hrest n hn
  | cons m names ih =>
    obtain ⟨hm, hnames⟩ := List.forall_mem_cons.mp hstable
    obtain ⟨k, rfl⟩ : ∃ k, n = k + 1 := ⟨n - 1, by omega⟩
    have hrow : pointed (m :: names) ++ ls =
        .mark .dot :: nameLexeme m :: (pointed names ++ ls) := rfl
    rw [hrow, List.length_cons, List.length_cons] at hn
    have hnext := ih hnames hrest (n := k) (by omega)
    have hparen : ∀ more, pointed names ++ ls ≠ .mark .leftParen :: more := by
      cases names with
      | nil => exact hls
      | cons m' names =>
        intro more heq
        cases heq
    rw [hrow]
    cases m with
    | bare text =>
      obtain ⟨hlexeme, hforbidden⟩ := nameLexeme_bare hm
      rw [hlexeme, parts?, hforbidden, if_neg (by decide)]
      · exact hnext
      · exact hparen
    | quoted text =>
      have hname : nameLexeme (.quoted text) = .name text := rfl
      rw [hname, parts?]
      · exact hnext
      · exact hparen
    | parameter text => cases hm

/-- Whether a name may stand in front of lexemes: the word for a choice may in front of a point. -/
def leadsTo (rest : List Lexeme) (q : Name) : Prop :=
  leads q = true ∧ ∀ text, q = .bare text → upper text = "CASE" → ∃ more, rest = .mark .dot :: more

theorem nameLexeme_leads {q : Name} (hstable : q.isStable = true) (hleads : leads q = true) :
    (nameLexeme q).leads = true := by
  cases q with
  | bare text =>
    rw [leads, Bool.and_eq_true, Bool.not_eq_true'] at hleads
    rw [(nameLexeme_bare hstable).1]
    exact Lexeme.leads_word hleads.1
  | quoted text => rfl
  | parameter text => cases hstable

/-- A name is read back as a column in front of what makes it no call. -/
theorem primary?_name {q : Name} (hstable : q.isStable = true) {ls : List Lexeme}
    (hleads : leadsTo ls q) (hls : ∀ more, ls ≠ .mark .leftParen :: more) (n : Nat) :
    primary? .generic (n + 1) (nameLexeme q :: ls) = some (some (ofName q), ls) := by
  cases q with
  | bare text =>
    obtain ⟨hleads, hcase⟩ := hleads
    simp only [leads, Bool.and_eq_true, Bool.not_eq_true'] at hleads
    obtain ⟨hreserved, hconstant⟩ := hleads
    simp only [constantWords, List.contains_cons, List.contains_nil, Bool.or_eq_false_iff,
      beq_eq_false_iff_ne] at hconstant
    have hparen : afterMark? .leftParen ls = none := by
      cases hafter : afterMark? .leftParen ls with
      | none => rfl
      | some more => exact absurd (afterMark?_eq_some_iff.mp hafter) (hls more)
    have hchoice : (upper text == "CASE" && (afterMark? .dot ls).isNone) = false := by
      cases heq : upper text == "CASE" with
      | false => rfl
      | true =>
        obtain ⟨more, rfl⟩ := hcase text rfl (eq_of_beq heq)
        rfl
    rw [(nameLexeme_bare hstable).1, primary?]
    split
    · exact absurd ‹upper text = "NULL"› hconstant.2.1
    · exact absurd ‹upper text = "TRUE"› hconstant.2.2.1
    · exact absurd ‹upper text = "FALSE"› hconstant.1
    · simp only [hchoice, Bool.false_eq_true, if_false, hparen, ite_self, hreserved]
  | quoted text =>
    have hname : nameLexeme (.quoted text) = .name text := rfl
    rw [hname, primary?]
    exact hls
  | parameter text => cases hstable

/-- Names with points between them, up to a last one or to the mark for all columns. -/
theorem stands_names {q : Name} {names : List Name} {e : Expr} {after : List Lexeme}
    (hrow : e.row = nameLexeme q :: (pointed names ++ after)) (hstable : q.isStable = true)
    (hnames : ∀ n ∈ names, n.isStable = true) (hleads : leadsTo (pointed names ++ after) q)
    (hafter : after = [] ∨ ∃ more, after = .mark .dot :: more)
    (hlast : ∀ ls, goesOn ls = false → ∀ n, 8 * (after ++ ls).length + 1 ≤ n →
      parts? .generic n (columnOf q names) (after ++ ls) = some (e, ls)) : Stands e := by
  intro ls hls n hn
  have hparen : ∀ more, after ++ ls ≠ .mark .leftParen :: more := by
    rcases hafter with rfl | ⟨more, rfl⟩
    · rintro more rfl
      cases hls.calm
    · rintro more ⟨⟩
  have hparens : ∀ more, pointed names ++ (after ++ ls) ≠ .mark .leftParen :: more := by
    cases names with
    | nil => exact hparen
    | cons m names => rintro more ⟨⟩
  obtain ⟨m, rfl⟩ : ∃ m, n = m + 2 := ⟨n - 2, by omega⟩
  rw [hrow, List.cons_append, List.append_assoc] at hn ⊢
  rw [List.length_cons] at hn
  have hleads' : leadsTo (pointed names ++ (after ++ ls)) q := by
    refine ⟨hleads.1, fun text htext hcase => ?_⟩
    obtain ⟨more, hmore⟩ := hleads.2 text htext hcase
    exact ⟨more ++ ls, by rw [← List.append_assoc, hmore, List.cons_append]⟩
  have hprimary := primary?_name hstable hleads' hparens m
  have hparts : parts? .generic (m + 1) (ofName q) (pointed names ++ (after ++ ls)) =
      some (e, ls) :=
    parts?_pointed hnames hparen (hlast ls hls.calm) (by omega)
  rw [operand?_of_leads (nameLexeme_leads hstable hleads.1) hprimary, hparts]
  rfl

/-- Names with points between them are read back as a column. -/
theorem stands_column {q : Name} {names : List Name} (hstable : q.isStable = true)
    (hnames : ∀ n ∈ names, n.isStable = true) (hleads : leadsTo (pointed names) q) :
    Stands (columnOf q names) := by
  have hrow : (columnOf q names).row = nameLexeme q :: (pointed names ++ []) := by
    rw [row_columnOf, List.append_nil]
  refine stands_names hrow hstable hnames ?_ (Or.inl rfl) (fun ls hls n hn => ?_)
  · rwa [List.append_nil]
  · obtain ⟨m, rfl⟩ : ∃ m, n = m + 1 := ⟨n - 1, by omega⟩
    exact parts?_of_calm hls _ m

/-- So are names before the mark for all columns, as all columns of a table. -/
theorem stands_star {q : Name} {names : List Name} (hstable : q.isStable = true)
    (hnames : ∀ n ∈ names, n.isStable = true) (hleads : leads q = true) :
    Stands (columnOf q names).withAllParts := by
  refine stands_names (row_withAllParts q names) hstable hnames ⟨hleads, fun _ _ _ => ?_⟩
    (Or.inr ⟨_, rfl⟩) (fun ls hls n hn => ?_)
  · cases names with
    | nil => exact ⟨_, rfl⟩
    | cons n names => exact ⟨_, rfl⟩
  · rw [List.cons_append, List.singleton_append, List.length_cons] at hn
    obtain ⟨m, rfl⟩ : ∃ m, n = m + 2 := ⟨n - 2, by omega⟩
    rw [List.cons_append, List.singleton_append, parts?]
    exact parts?_of_calm hls _ m

/-! ## Entries of lists -/

/-- Lexemes behind an entry of a list. -/
def Ends (ls : List Lexeme) : Prop :=
  Closes ls ∨ ∃ more, ls = .mark .comma :: more

/-- Nothing that ends an entry goes on with it. -/
theorem Ends.spec {ls : List Lexeme} (h : Ends ls) (e : Expr) :
    Follows ls e ∧ nextLevel? ls = none ∧ (∀ word, afterWord? word ls = none) ∧
      ∀ name? : Lexeme → Option Name, (∀ m, name? (.mark m) = none) →
        withAlias name? e ls = some (e, ls) := by
  have hmark : ∀ m ∈ [Mark.rightParen, .comma], ∀ more,
      Follows (.mark m :: more) e ∧ nextLevel? (.mark m :: more) = none ∧
        (∀ word, afterWord? word (.mark m :: more) = none) ∧
        ∀ name? : Lexeme → Option Name, (∀ m, name? (.mark m) = none) →
          withAlias name? e (.mark m :: more) = some (e, .mark m :: more) := by
    intro m hm more
    have hnext : nextLevel? (.mark m :: more) = none := by
      simp only [List.mem_cons, List.not_mem_nil, or_false] at hm
      rcases hm with rfl | rfl <;> rfl
    refine ⟨⟨?_, fun k hk => ?_⟩, hnext, fun word => rfl, fun name? hname => ?_⟩
    · simp only [List.mem_cons, List.not_mem_nil, or_false] at hm
      rcases hm with rfl | rfl <;> rfl
    · rw [hnext] at hk
      cases hk
    · simp only [List.mem_cons, List.not_mem_nil, or_false] at hm
      rcases hm with rfl | rfl <;> simp [withAlias, hname]
  rcases h with h | ⟨more, rfl⟩
  · cases ls with
    | nil => exact ⟨⟨rfl, by rintro k ⟨⟩⟩, rfl, fun word => rfl, fun name? _ => rfl⟩
    | cons l more =>
      obtain rfl := h l rfl
      exact hmark .rightParen (by decide) more
  · exact hmark .comma (by decide) more

theorem boundFollows_of_none {ls : List Lexeme} (hlimit : afterWord? "LIMIT" ls = none)
    (hoffset : afterWord? "OFFSET" ls = none) (n : Nat) : boundFollows .generic n ls = false := by
  cases n with
  | zero => rw [boundFollows]
  | succ n => rw [boundFollows, hlimit, hoffset]

theorem alias?_of_ends {ls : List Lexeme} (h : Ends ls) (kind : Entry) (e : Expr) (n : Nat) :
    alias? .generic (n + 1) kind e ls = some (e, ls) := by
  obtain ⟨-, -, hword, halias⟩ := h.spec e
  cases kind with
  | plain => rw [alias?]
  | argument => rw [alias?]
  | labelled => simp only [alias?, hword]
  | item =>
    have hbound := boundFollows_of_none (hword "LIMIT") (hword "OFFSET") n
    simp only [alias?, hbound, hword, Bool.false_eq_true, if_false]
    exact halias _ fun m => rfl

/-- What an entry is, given the expression that it begins with. -/
theorem listed?_of_level {kind : Entry} {ls rest : List Lexeme} {e : Expr} {n : Nat}
    (hdistinct : afterWord? "DISTINCT" ls = none)
    (h : level? .generic n disjunctionLevel ls = some (some e, rest)) :
    listed? .generic (n + 1) kind ls =
      (alias? .generic n kind e rest).map fun (e, rest) => (some e, rest) := by
  rw [listed?, hdistinct, ite_self]
  simp only [h, Option.bind_eq_bind, Option.bind_some]
  cases alias? .generic n kind e rest <;> rfl

/-- An expression is an entry of any list. -/
theorem Resumes.enters {e : Expr} (h : Resumes e) (hopens : Opens e) (kind : Entry)
    {ls : List Lexeme} (hls : Ends ls) : Enters kind e ls := by
  intro n hn
  obtain ⟨m, rfl⟩ : ∃ m, n = m + 2 := ⟨n - 2, by omega⟩
  obtain ⟨hfollows, hnext, -, -⟩ := hls.spec e
  have hdistinct : afterWord? "DISTINCT" (e.row ++ ls) = none :=
    afterReserved?_row (by decide) (by decide) hopens ls
  have hlevel : Expr.level? .generic (m + 1) disjunctionLevel (e.row ++ ls) = some (some e, ls) := by
    refine h.level? hfollows (Nat.zero_le _) (fun k hk => ?_) (by omega)
    rw [hnext] at hk
    cases hk
  rw [listed?_of_level hdistinct hlevel, alias?_of_ends hls]
  rfl

/-- The name that a lexeme is after the word for an alias. -/
theorem anyName?_nameLexeme {n : Name} (hstable : n.isStable = true) :
    anyName? (nameLexeme n) = some n := by
  cases n with
  | bare text =>
    obtain ⟨hlexeme, hforbidden⟩ := nameLexeme_bare hstable
    rw [hlexeme, anyName?, hforbidden]
    rfl
  | quoted text => rfl
  | parameter text => cases hstable

/-- An expression with an alias is an entry of a list with aliases. -/
theorem Resumes.enters_named {e : Expr} {name : Name} (h : Resumes e) (hopens : Opens e)
    (hstable : name.isStable = true) {kind : Entry}
    (hkind : kind.mayBeLabelled = true) (ls : List Lexeme) : Enters kind (.named e name) ls := by
  intro n hn
  obtain ⟨m, rfl⟩ : ∃ m, n = m + 2 := ⟨n - 2, by omega⟩
  rw [row_named, lexemes_name, List.append_assoc, List.cons_append, List.singleton_append] at hn ⊢
  have has := afterWord?_connective "AS" (by decide)
  have hupper : upper "AS" = "AS" := upper_connective (by decide)
  have hoperator : wordOperator? .generic "AS" = none := by decide +kernel
  have hword : wordTest? "AS" = none := by decide +kernel
  have htest : test? (.word "AS" :: nameLexeme name :: ls) = none := by
    unfold test?
    simp [hupper, hword]
  have hnext : nextLevel? (.word "AS" :: nameLexeme name :: ls) = none := by
    rw [nextLevel?, operator?, hoperator, has, htest]
    rfl
  have hdistinct : afterWord? "DISTINCT" (e.row ++ .word "AS" :: nameLexeme name :: ls) = none :=
    afterReserved?_row (by decide) (by decide) hopens _
  have hlevel : Expr.level? .generic (m + 1) disjunctionLevel
      (e.row ++ .word "AS" :: nameLexeme name :: ls) =
        some (some e, .word "AS" :: nameLexeme name :: ls) := by
    refine h.level? ⟨goesOn_word (by decide) _, fun k hk => ?_⟩ (Nat.zero_le _) (fun k hk => ?_)
      (by omega)
    all_goals
      rw [hnext] at hk
      cases hk
  have halias : withAlias anyName? e (nameLexeme name :: ls) = some (.named e name, ls) := by
    have hname := anyName?_nameLexeme hstable
    unfold withAlias
    split
    · rename_i heq
      rw [(List.cons.inj heq).1] at hname
      cases hname
    · rename_i heq
      obtain ⟨rfl, rfl⟩ := List.cons.inj heq
      simp only [hname]
    · rename_i heq
      cases heq
  have hbound := boundFollows_of_none (has "LIMIT" (nameLexeme name :: ls))
    (has "OFFSET" (nameLexeme name :: ls)) m
  rw [listed?_of_level hdistinct hlevel]
  cases kind with
  | plain => cases hkind
  | argument => cases hkind
  | labelled => simp [alias?, has, halias]
  | item => simp [alias?, hbound, has, halias]

/-- The distinct values of expressions are the last argument of a function. -/
theorem enters_distinct {es : List Expr} (h : Lists .plain es) {kind : Entry}
    (hkind : kind = .argument ∨ kind = .labelled) {ls : List Lexeme} (hls : Closes ls) :
    Enters kind (.distinct es) ls := by
  intro n hn
  rw [row_distinct, List.cons_append] at hn ⊢
  rw [List.length_cons] at hn
  obtain ⟨m, rfl⟩ : ∃ m, n = m + 1 := ⟨n - 1, by omega⟩
  have hentries := h.entries? hls (n := m) (by omega)
  rw [listed?, if_pos hkind]
  simp [afterWord?_connective "DISTINCT" (by decide), hentries]

end Expr

end PatternSql.Sql
