import Mathlib.Algebra.Order.BigOperators.Group.List
import PatternSql.Proofs.Sql.StableText
import PatternSql.Proofs.Text.Occurrence
import PatternSql.Sql.Command

/-!
# The qualifiers of columns

A column may be qualified by names, each of which stands before it with a point right after. This is
so wherever the column stands in an expression, and for each column anew: none is lost when the
expression is adapted to a dialect in which two bars join texts, and a line is never broken between
a name and its point.

Main results:

* `Expr.timesQualified_le_adapt`: adapting an expression keeps the qualifiers of its columns.
* `Expr.occurs_adaptedPieces`: each of them is written with a point right after it.
* `Layout.occurs_list`: so they are in a list of expressions, all of them together.
-/

namespace PatternSql.Sql

open Text

/-! ## Columns in expressions -/

namespace Expr

/-- The expressions that an expression is made of. -/
def children : Expr → List Expr
  | .paren inner => [inner]
  | .tuple entries => entries
  | .array entries => entries
  | .query _ items sources => items ++ sources
  | .negative operand => [operand]
  | .complement operand => [operand]
  | .not operand => [operand]
  | .binary _ left right => [left, right]
  | .between operand low high => [operand, low, high]
  | .member operand list => operand :: list
  | .memberOf operand collection => [operand, collection]
  | .escaping likeness mark => [likeness, mark]
  | .call _ arguments => arguments
  | .distinct entries => entries
  | .access whole part => [whole, part]
  | .element whole indices => whole :: indices
  | .choice cases => cases
  | .choiceOf subject cases => subject :: cases
  | .when condition value => [condition, value]
  | .otherwise value => [value]
  | .cast operand _ => [operand]
  | .named operand _ => [operand]
  | .unpacked operand _ => [operand]
  | _ => []

/-- The names that stand before a column, or before the mark for all columns. -/
def ownQualifiers : Expr → List Name
  | .column qualifiers _ => qualifiers
  | .star qualifiers => qualifiers
  | _ => []

theorem sizeOf_lt_of_mem_children {e child : Expr} (h : child ∈ e.children) :
    sizeOf child < sizeOf e := by
  have hentry {es : List Expr} (h : child ∈ es) : sizeOf child < sizeOf es :=
    List.sizeOf_lt_of_mem h
  cases e with
  | query unique items sources =>
    have h := (List.mem_append.mp h).imp hentry hentry
    simp only [query.sizeOf_spec]
    omega
  | member operand list | element operand list | choiceOf operand list =>
    have h := (List.mem_cons.mp h).imp (congrArg sizeOf) hentry
    simp only [member.sizeOf_spec, element.sizeOf_spec, choiceOf.sizeOf_spec]
    omega
  | tuple entries | array entries | call function entries | distinct entries | choice entries =>
    have h : sizeOf child < sizeOf entries := hentry h
    simp only [tuple.sizeOf_spec, array.sizeOf_spec, call.sizeOf_spec, distinct.sizeOf_spec,
      choice.sizeOf_spec]
    omega
  | column | star | number | string | strings | bytes | boolean | null => cases h
  | _ =>
    simp only [children, List.mem_cons, List.not_mem_nil, or_false] at h
    rcases h with rfl | rfl | rfl <;> simp +arith

/-- How often columns in an expression, or the marks for all columns, are qualified by a name. -/
def timesQualified (q : Name) (e : Expr) : Nat :=
  e.ownQualifiers.count q + (e.children.attach.map fun child => child.1.timesQualified q).sum
termination_by sizeOf e
decreasing_by exact sizeOf_lt_of_mem_children child.2

/-- What holds of an expression if it holds of the expressions that it is made of holds of all. -/
theorem induction_on_children {motive : Expr → Prop}
    (h : ∀ e, (∀ child ∈ e.children, motive child) → motive e) (e : Expr) : motive e :=
  h e fun child _ => induction_on_children h child
termination_by sizeOf e
decreasing_by exact sizeOf_lt_of_mem_children ‹_›

variable (q : Name)

theorem timesQualified_eq (e : Expr) :
    e.timesQualified q = e.ownQualifiers.count q + (e.children.map (timesQualified q)).sum := by
  rw [timesQualified]
  simp

/-- Most expressions are qualified by nothing but what stands in them is. -/
theorem timesQualified_of_own {e : Expr} (h : e.ownQualifiers = []) :
    e.timesQualified q = (e.children.map (timesQualified q)).sum := by
  rw [timesQualified_eq, h, List.count_nil, Nat.zero_add]

theorem timesQualified_call (function : Name) (arguments : List Expr) :
    (call function arguments).timesQualified q = (arguments.map (timesQualified q)).sum :=
  timesQualified_of_own q rfl

theorem timesQualified_binary (op : Operator) (left right : Expr) :
    (binary op left right).timesQualified q =
      left.timesQualified q + right.timesQualified q := by
  rw [timesQualified_of_own q rfl]
  simp [children]

@[simp] theorem timesQualified_number (text : String) : (number text).timesQualified q = 0 :=
  timesQualified_of_own q rfl

/-! ## Adaptation -/

theorem timesQualified_unguarded (e : Expr) :
    e.unguarded.timesQualified q = e.timesQualified q := by
  unfold Expr.unguarded
  split
  · simp [timesQualified_binary, timesQualified_call]
  · rfl

/-- A division keeps what its operands are qualified by. -/
theorem timesQualified_divided (d : Dialect) (rule : Division) (left right : Expr) :
    (divided d rule left right).timesQualified q =
      left.timesQualified q + right.timesQualified q := by
  have hcast (e : Expr) (type : String) :
      (cast e type).timesQualified q = e.timesQualified q := by
    rw [timesQualified_of_own q rfl]
    simp [children]
  rw [divided, timesQualified_binary]
  congr 1
  · split <;> split <;> simp only [hcast, timesQualified_unguarded]
  · split
    · simp [nonzero, timesQualified_call]
    · rfl

/-- So does any operator, in a dialect in which two bars join texts. -/
theorem timesQualified_applied {d : Dialect} (hd : d.barsJoin = true) (op : Operator)
    (left right left' right' : Expr) :
    (applied d op left right left' right').timesQualified q =
      left'.timesQualified q + right'.timesQualified q := by
  have hnot (e : Expr) : (not e).timesQualified q = e.timesQualified q := by
    rw [timesQualified_of_own q rfl]
    simp [children]
  cases op with
  | divide rule => exact timesQualified_divided q d rule left' right'
  | concat => rw [applied, if_pos hd, timesQualified_binary]
  | differsFrom =>
    rw [applied]
    split
    · rw [hnot, timesQualified_binary]
    · rw [timesQualified_binary]
  | power =>
    rw [applied]
    split
    · rw [timesQualified_binary]
    · simp [timesQualified_call]
  | _ => exact timesQualified_binary q _ left' right'

/-- Distinct values may be asked for by cases, after which all of them are listed. -/
theorem sum_le_timesQualified_distinctOf (d : Dialect) (entries : List Expr) :
    (entries.map (timesQualified q)).sum ≤ (distinctOf d entries).timesQualified q := by
  rw [distinctOf]
  split
  · exact Nat.le_of_eq (timesQualified_of_own (e := distinct entries) q rfl).symm
  · have hlast : (otherwise (tuple entries)).timesQualified q =
        (entries.map (timesQualified q)).sum := by
      rw [timesQualified_of_own q rfl, children, List.map_singleton, List.sum_singleton]
      exact timesQualified_of_own q rfl
    have hchoice (cases : List Expr) :
        (distinct [choice (cases ++ [otherwise (tuple entries)])]).timesQualified q =
          (cases.map (timesQualified q)).sum + (entries.map (timesQualified q)).sum := by
      rw [timesQualified_of_own q rfl, children, List.map_singleton, List.sum_singleton,
        timesQualified_of_own q rfl, children, List.map_append, List.sum_append,
        List.map_singleton, List.sum_singleton, hlast]
    rw [hchoice]
    exact Nat.le_add_left _ _

/-- The number of an element is no column. -/
theorem timesQualified_le_countedUp (first : Nat) (e : Expr) :
    e.timesQualified q ≤ (countedUp first e).timesQualified q := by
  have hnegative (text : String) : (negative (number text)).timesQualified q = 0 := by
    rw [timesQualified_of_own q rfl]
    simp [children]
  unfold Expr.countedUp
  split
  · rw [timesQualified_number]
    exact Nat.zero_le _
  · rw [hnegative]
    exact Nat.zero_le _
  · exact Nat.le_refl _

/-- A function after a point keeps its name. -/
theorem exists_adapt_access (d : Dialect) (whole part : Expr) :
    ∃ part', (access whole part).adapt d = access (whole.adapt d) part' ∧
      part'.timesQualified q = (part.adapt d).timesQualified q := by
  cases part with
  | call function arguments =>
    refine ⟨call function (adaptAll d arguments), by rw [adapt], ?_⟩
    rw [adapt, timesQualified_call, timesQualified_call]
  | _ => exact ⟨Expr.adapt d _, by simp only [adapt], rfl⟩

/-- An expression whose parts are adapted, each in its place, keeps what they are qualified by. -/
theorem timesQualified_le_of_children {d : Dialect} {e e' : Expr}
    (hown : e.ownQualifiers = e'.ownQualifiers)
    (hchildren : e'.children = e.children.map (Expr.adapt d))
    (h : ∀ child ∈ e.children, child.timesQualified q ≤ (child.adapt d).timesQualified q) :
    e.timesQualified q ≤ e'.timesQualified q := by
  rw [timesQualified_eq, timesQualified_eq, hown, hchildren, List.map_map]
  exact Nat.add_le_add_left (List.sum_le_sum h) _

/-- What stands in the parts of an expression stands in the whole after adapting. -/
theorem timesQualified_le_adapt_of_children {d : Dialect} (hd : d.barsJoin = true) {e : Expr}
    (h : ∀ child ∈ e.children, child.timesQualified q ≤ (child.adapt d).timesQualified q) :
    e.timesQualified q ≤ (e.adapt d).timesQualified q := by
  -- only the kinds that may become another one need a look; the rest keep their parts
  cases e with
  | strings passing texts =>
    rw [timesQualified_of_own q rfl]
    exact Nat.zero_le _
  | bytes base digits =>
    rw [timesQualified_of_own q rfl]
    exact Nat.zero_le _
  | column | star | number | string | boolean | null => rw [adapt]
  | array entries =>
    rw [adapt]
    split
    · exact timesQualified_le_of_children q rfl (by simp [children, adaptAll_eq_map]) h
    · exact timesQualified_le_of_children q rfl (by simp [children, adaptAll_eq_map]) h
  | binary op left right =>
    rw [adapt, timesQualified_applied q hd, timesQualified_binary]
    exact Nat.add_le_add (h left List.mem_cons_self)
      (h right (List.mem_cons_of_mem _ List.mem_cons_self))
  | distinct entries =>
    have hentries : (distinct entries).timesQualified q ≤
        ((adaptAll d entries).map (timesQualified q)).sum := by
      rw [timesQualified_of_own q rfl, adaptAll_eq_map, List.map_map]
      exact List.sum_le_sum h
    rw [adapt]
    exact hentries.trans (sum_le_timesQualified_distinctOf q d _)
  | access whole part =>
    obtain ⟨part', hadapt, hpart⟩ := exists_adapt_access q d whole part
    have haccess (whole part : Expr) : (access whole part).timesQualified q =
        whole.timesQualified q + part.timesQualified q := by
      rw [timesQualified_of_own q rfl]
      simp [children]
    rw [hadapt, haccess, haccess, hpart]
    exact Nat.add_le_add (h whole List.mem_cons_self)
      (h part (List.mem_cons_of_mem _ List.mem_cons_self))
  | element whole indices =>
    have helement (whole : Expr) (indices : List Expr) : (element whole indices).timesQualified q =
        whole.timesQualified q + (indices.map (timesQualified q)).sum := by
      rw [timesQualified_of_own q rfl]
      simp [children]
    rw [adapt, helement, helement, adaptAll_eq_map, List.map_map, List.map_map]
    refine Nat.add_le_add (h whole List.mem_cons_self) (List.sum_le_sum fun index hindex => ?_)
    exact (h index (List.mem_cons_of_mem _ hindex)).trans (timesQualified_le_countedUp q _ _)
  | _ =>
    rw [adapt]
    exact timesQualified_le_of_children q rfl (by simp [children, adaptAll_eq_map]) h

/-- Adapting an expression keeps the qualifiers of its columns. -/
theorem timesQualified_le_adapt {d : Dialect} (hd : d.barsJoin = true) (e : Expr) :
    e.timesQualified q ≤ (e.adapt d).timesQualified q := by
  induction e using induction_on_children with
  | h e ih => exact timesQualified_le_adapt_of_children q hd ih

end Expr

/-! ## Rows of pieces -/

/-- A lexeme with a point right after it. -/
def pointed (l : Lexeme) : List Piece :=
  [.lexeme l, markPiece .dot]

section

variable {l : Lexeme} {n : Nat} {ps : List Piece} {parts : List (List Piece)}

/-- A deeper line breaks nothing. -/
theorem occurs_nest (h : Occurs (pointed l) n ps) : Occurs (pointed l) n (nest ps) := by
  have hmap := h.flatMap fun p => [p.deeper]
  rwa [← List.map_eq_flatMap, ← List.map_eq_flatMap] at hmap

theorem exists_hang_append (before ps : List Piece) :
    ∃ qs, hang (before ++ ps) = qs ++ hang ps := by
  induction before with
  | nil => exact ⟨[], rfl⟩
  | cons p before ih =>
    obtain ⟨qs, hqs⟩ := ih
    exact ⟨_ :: qs, congrArg (List.cons _) hqs⟩

theorem occurs_hang (h : Occurs (pointed l) n ps) : Occurs (pointed l) n (hang ps) := by
  induction h with
  | none ps => exact .none _
  | @next n after before h ih =>
    obtain ⟨qs, hqs⟩ := exists_hang_append before (pointed l ++ after)
    have hblock : hang (pointed l ++ after) = pointed l ++ hang after := by
      simp [pointed, Sql.hang, Piece.deeper, markPiece]
    rw [hqs, hblock]
    exact .next qs ih

/-- Nor does a separator. -/
theorem occurs_separated (h : OccursIn (pointed l) n parts) (separator : List Piece) :
    Occurs (pointed l) n (separated separator parts) := by
  induction h with
  | nil => exact .none _
  | @cons m n ps parts hps hparts ih =>
    by_cases hnil : parts = []
    · subst hnil
      cases hparts
      exact hps
    · rw [separated_cons hnil]
      exact (hps.before separator).append ih

theorem occursIn_withCommas (h : OccursIn (pointed l) n parts) :
    OccursIn (pointed l) n (withCommas parts) := by
  induction h with
  | nil => exact .nil
  | @cons m n ps parts hps hparts ih =>
    cases parts with
    | nil => exact .cons hps hparts
    | cons qs parts => exact .cons (hps.before _) ih

theorem occurs_inRow (h : OccursIn (pointed l) n parts) : Occurs (pointed l) n (inRow parts) :=
  occurs_separated (occursIn_withCommas h) _

theorem occurs_inLines (h : OccursIn (pointed l) n parts) :
    Occurs (pointed l) n (inLines parts) :=
  ((occurs_separated (occursIn_withCommas h) _).cons _).before _

theorem occursIn_led (h : OccursIn (pointed l) n parts) (d : Dialect) (op : Operator) :
    OccursIn (pointed l) n (led d op parts) := by
  cases h with
  | nil => exact .nil
  | cons hps hparts => exact .cons ((hps.cons _).after _) hparts

variable (layout : Layout)

theorem occurs_arguments (h : OccursIn (pointed l) n parts) :
    Occurs (pointed l) n (layout.arguments parts) := by
  rw [Layout.arguments]
  split
  · exact occurs_hang (occurs_inLines h)
  · exact occurs_inRow h

theorem occurs_entries (h : OccursIn (pointed l) n parts) :
    Occurs (pointed l) n (layout.entries parts) := by
  rw [Layout.entries]
  split
  · exact occurs_hang (occurs_inLines h)
  · exact occurs_hang (occurs_inRow h)

theorem occurs_inWords (h : OccursIn (pointed l) n parts) :
    Occurs (pointed l) n (layout.inWords parts) :=
  occurs_separated h _

theorem occurs_hanging (h : OccursIn (pointed l) n parts) :
    Occurs (pointed l) n (layout.hanging parts) := by
  rw [Layout.hanging]
  split
  · exact occurs_hang (occurs_inWords layout h)
  · exact occurs_inWords layout h

theorem occurs_enclosed (h : Occurs (pointed l) n ps) :
    Occurs (pointed l) n (layout.enclosed ps) := by
  rw [Layout.enclosed]
  split
  · exact (((occurs_nest h).cons _).cons _).before _
  · exact (h.cons _).before _

theorem occurs_below (h : Occurs (pointed l) n ps) :
    Occurs (pointed l) n (if layout.spread then nest ps else ps) := by
  split
  · exact occurs_nest h
  · exact h

end

/-! ## Names -/

/-- A name without a line break in it is one lexeme. -/
theorem Layout.name_eq {n : Name} (h : '\n' ∉ n.text.toList) (layout : Layout) :
    layout.name n = [.lexeme (n.lexeme layout.dialect layout.identify)] := by
  unfold Layout.name
  split
  · rename_i text hword
    have htext : text = n.text := by
      cases n with
      | bare t =>
        rw [Name.lexeme] at hword
        split at hword
        · cases hword
        · exact (Lexeme.word.inj hword).symm
      | quoted t => cases hword
      | parameter t => cases hword
    subst htext
    rw [Layout.word, hword, if_neg]
    simp [h]
  · rfl

/-- Each of the names before a point is written with it. -/
theorem occurs_dotted {layout : Layout} {q : Name} (hq : '\n' ∉ q.text.toList)
    (qualifiers : List Name) (last : List Piece) :
    Occurs (pointed (q.lexeme layout.dialect layout.identify)) (qualifiers.count q)
      (dotted (qualifiers.map layout.name ++ [last])) := by
  induction qualifiers with
  | nil => exact .none _
  | cons n qualifiers ih =>
    rw [List.map_cons, List.cons_append, dotted, separated_cons (by simp)]
    by_cases hn : n = q
    · subst hn
      rw [List.count_cons_self, Layout.name_eq hq]
      exact .next [] ih
    · rw [List.count_cons_of_ne hn]
      exact ih.after _

namespace Expr

/-! ## Expressions -/

section

variable {l : Lexeme} {layout : Layout} {count : Expr → Nat}

theorem occursIn_partsAll {es : List Expr}
    (h : ∀ e ∈ es, OccursIn (pointed l) (count e) (e.parts layout)) :
    OccursIn (pointed l) (es.map count).sum (partsAll layout es) := by
  rw [partsAll_eq_map]
  exact occursIn_map fun e he => occurs_inWords layout (h e he)

theorem occursIn_rowsAll {es : List Expr}
    (h : ∀ e ∈ es, OccursIn (pointed l) (count e) (e.parts layout)) :
    OccursIn (pointed l) (es.map count).sum (rowsAll layout es) := by
  induction es with
  | nil => exact .nil
  | cons e es ih =>
    obtain ⟨he, hes⟩ := List.forall_mem_cons.mp h
    rw [rowsAll]
    exact he.append (ih hes)

/-- What is written for the parts of an expression is written for the whole. -/
theorem occursIn_parts_of_children {e : Expr}
    (h : ∀ child ∈ e.children, OccursIn (pointed l) (count child) (child.parts layout)) :
    OccursIn (pointed l) (e.children.map count).sum (e.parts layout) := by
  -- each part has its pieces in one row of the whole, between what is written before and after them
  cases e with
  | paren inner =>
    have hinner := occurs_inWords layout (h inner List.mem_cons_self)
    rw [parts]
    exact (occurs_enclosed layout hinner).only
  | tuple entries =>
    rw [parts]
    exact (((occurs_entries layout (occursIn_partsAll h)).cons _).before _).only
  | array entries =>
    rw [parts]
    exact ((((occurs_entries layout (occursIn_partsAll h)).cons _).cons _).before _).only
  | query unique items sources =>
    have hitems := occursIn_partsAll fun e he => h e (List.mem_append_left _ he)
    have hsources := occursIn_partsAll fun e he => h e (List.mem_append_right _ he)
    rw [parts, children, List.map_append, List.sum_append]
    refine (Occurs.append (Occurs.after ?_ _) ?_).only
    · split
      · exact occurs_nest ((occurs_separated (occursIn_withCommas hitems) _).cons _)
      · exact (occurs_inRow hitems).cons _
    · split
      · rename_i hnil
        rw [List.isEmpty_iff.mp hnil]
        exact .none _
      · exact ((occurs_inRow hsources).cons _).after _
  | negative operand =>
    have hoperand := occurs_inWords layout (h operand List.mem_cons_self)
    rw [parts]
    exact (hoperand.after _).only
  | complement operand =>
    have hoperand := occurs_inWords layout (h operand List.mem_cons_self)
    rw [parts]
    exact (hoperand.cons _).only
  | not operand =>
    have hoperand := occurs_inWords layout (h operand List.mem_cons_self)
    rw [parts]
    exact ((hoperand.cons _).after _).only
  | binary op left right =>
    have hleft := h left List.mem_cons_self
    have hright := h right (List.mem_cons_of_mem _ List.mem_cons_self)
    rw [parts]
    split
    · exact hleft.append (occursIn_led hright _ op)
    · exact (((occurs_inWords layout hleft).before _).append
        ((occurs_inWords layout hright).cons _)).only
  | between operand low high =>
    have hoperand := occurs_inWords layout (h operand List.mem_cons_self)
    have hlow := occurs_inWords layout (h low (List.mem_cons_of_mem _ List.mem_cons_self))
    have hhigh := occurs_inWords layout
      (h high (List.mem_cons_of_mem _ (List.mem_cons_of_mem _ List.mem_cons_self)))
    rw [parts]
    refine Occurs.only (Occurs.of_le ((((hoperand.before _).append (hlow.cons _)).before _).append
      (hhigh.cons _)) ?_)
    simp [children, Nat.add_assoc]
  | member operand list =>
    have hoperand := occurs_inWords layout (h operand List.mem_cons_self)
    have hlist := occurs_entries layout
      (occursIn_partsAll fun e he => h e (List.mem_cons_of_mem _ he))
    rw [parts]
    exact (((hoperand.before _).append ((hlist.cons _).cons _)).before _).only
  | memberOf operand collection =>
    have hoperand := occurs_inWords layout (h operand List.mem_cons_self)
    have hcollection := occurs_inWords layout
      (h collection (List.mem_cons_of_mem _ List.mem_cons_self))
    rw [parts]
    exact ((hoperand.before _).append (hcollection.cons _)).only
  | escaping likeness mark =>
    have hlikeness := occurs_inWords layout (h likeness List.mem_cons_self)
    have hmark := occurs_inWords layout (h mark (List.mem_cons_of_mem _ List.mem_cons_self))
    rw [parts]
    exact ((hlikeness.before _).append (hmark.cons _)).only
  | call function arguments =>
    rw [parts]
    exact ((((occurs_arguments layout (occursIn_partsAll h)).cons _).cons _).before _).only
  | distinct entries =>
    rw [parts]
    split
    · rename_i hnil
      rw [List.isEmpty_iff.mp hnil]
      exact (Occurs.none _).only
    · exact (((occurs_inRow (occursIn_partsAll h)).cons _).after _).only
  | access whole part =>
    have hwhole := occurs_inWords layout (h whole List.mem_cons_self)
    have hpart := occurs_inWords layout (h part (List.mem_cons_of_mem _ List.mem_cons_self))
    rw [parts]
    exact (hwhole.append (hpart.cons _)).only
  | element whole indices =>
    have hwhole := occurs_inWords layout (h whole List.mem_cons_self)
    have hindices := occurs_inRow
      (occursIn_partsAll fun e he => h e (List.mem_cons_of_mem _ he))
    rw [parts]
    exact ((hwhole.append (hindices.cons _)).before _).only
  | choice cases =>
    rw [parts]
    exact (occurs_hanging layout (((occursIn_rowsAll h).after [_]).before _)).only
  | choiceOf subject cases =>
    have hsubject := occurs_inWords layout (h subject List.mem_cons_self)
    have hcases := occursIn_rowsAll fun e he => h e (List.mem_cons_of_mem _ he)
    rw [parts]
    exact (occurs_hanging layout
      ((OccursIn.cons ((hsubject.cons _).after _) hcases).before _)).only
  | when condition value =>
    have hcondition := occurs_inWords layout (h condition List.mem_cons_self)
    have hvalue := occurs_inWords layout (h value (List.mem_cons_of_mem _ List.mem_cons_self))
    rw [parts]
    exact .cons ((hcondition.cons _).after _) ((hvalue.cons _).after _).only
  | otherwise value =>
    have hvalue := occurs_inWords layout (h value List.mem_cons_self)
    rw [parts]
    exact ((hvalue.cons _).after _).only
  | cast operand type =>
    have hoperand := occurs_inWords layout (h operand List.mem_cons_self)
    rw [parts]
    exact ((((hoperand.cons _).cons _).before _).before _).only
  | named operand name =>
    have hoperand := occurs_inWords layout (h operand List.mem_cons_self)
    rw [parts]
    exact ((hoperand.before _).before _).only
  | unpacked operand names =>
    have hoperand := occurs_inWords layout (h operand List.mem_cons_self)
    rw [parts]
    exact (((hoperand.before _).before _).before _).only
  | _ => exact occursIn_zero _

end

variable {q : Name} (hq : '\n' ∉ q.text.toList)

include hq

/-- Qualifiers are written with points right after them, each of them once. -/
theorem occursIn_parts (layout : Layout) (e : Expr) :
    OccursIn (pointed (q.lexeme layout.dialect layout.identify)) (e.timesQualified q)
      (e.parts layout) := by
  induction e using induction_on_children with
  | h e ih =>
    cases e with
    | column qualifiers name =>
      rw [timesQualified_eq, parts]
      exact (occurs_dotted hq qualifiers _).only
    | star qualifiers =>
      rw [timesQualified_eq, parts]
      exact (occurs_dotted hq qualifiers _).only
    | _ =>
      rw [timesQualified_of_own q rfl]
      exact occursIn_parts_of_children ih

/-- So they are in a dialect in which two bars join texts. -/
theorem occurs_adaptedPieces {layout : Layout} (hd : layout.dialect.barsJoin = true) (e : Expr) :
    Occurs (pointed (q.lexeme layout.dialect layout.identify)) (e.timesQualified q)
      (e.adaptedPieces layout) :=
  (occurs_inWords layout (occursIn_parts hq layout _)).of_le (timesQualified_le_adapt q hd e)

end Expr

/-! ## Texts -/

/-- The characters of a lexeme with a point right after it. -/
def qualifierChars (d : Dialect) (l : Lexeme) : List Char :=
  (l.text d).toList ++ ['.']

section

variable {l : Lexeme} {n : Nat} {ps : List Piece}

theorem occurs_write (h : Occurs (pointed l) n ps) (d : Dialect) :
    Occurs (qualifierChars d l) n (write d ps) := by
  have hblock : (pointed l).flatMap (Piece.text d) = qualifierChars d l := by
    simp [pointed, qualifierChars, markPiece, Piece.text, Lexeme.text, Mark.text]
  exact hblock ▸ h.flatMap (Piece.text d)

theorem occurs_write_below (h : Occurs (pointed l) n ps) (layout : Layout) :
    Occurs (qualifierChars layout.dialect l) n (layout.below ps) :=
  occurs_write (occurs_below layout h) layout.dialect

end

/-- Only blanks are trimmed. -/
theorem trimEnd_append {front back : List Char} {c : Char} (hc : isBlank c = false) :
    trimEnd (front ++ [c] ++ back) = front ++ [c] ++ trimEnd back := by
  have hkeep : (c :: front.reverse).dropWhile isBlank = c :: front.reverse :=
    List.dropWhile_cons_of_neg (by simp [hc])
  rw [trimEnd, List.reverse_append, List.reverse_append, List.reverse_singleton,
    List.singleton_append, List.dropWhile_append, hkeep]
  split
  · rename_i hback
    simp [trimEnd, List.isEmpty_iff.mp hback]
  · simp [trimEnd]

section

variable {cs : List Char} {c : Char}

theorem occurs_trimEnd (hc : isBlank c = false) {n : Nat} {t : List Char}
    (h : Occurs (cs ++ [c]) n t) : Occurs (cs ++ [c]) n (trimEnd t) := by
  induction h with
  | none => exact .none _
  | @next n after before h ih =>
    rw [← List.append_assoc before, ← List.append_assoc before, trimEnd_append hc,
      List.append_assoc, List.append_assoc, ← List.append_assoc cs]
    exact .next before ih

theorem eq_zero_of_isEmpty {n : Nat} {t : List Char} (ht : t.isEmpty = true)
    (h : Occurs (cs ++ [c]) n t) : n = 0 :=
  Occurs.eq_zero_of_nil (List.append_ne_nil_of_right_ne_nil _ (List.cons_ne_nil _ _))
    (List.isEmpty_iff.mp ht ▸ h)

variable {n : Nat} {ts : List (List Char)}

theorem occurs_inLine (h : OccursIn (cs ++ [c]) n ts) : Occurs (cs ++ [c]) n (inLine ts) := by
  induction h with
  | nil => exact .none _
  | @cons m n t ts ht hts ih =>
    cases ts with
    | nil =>
      cases hts
      exact ht
    | cons t' ts =>
      rw [inLine]
      · split
        · rename_i hempty
          rw [eq_zero_of_isEmpty hempty ht, Nat.zero_add]
          exact ih
        · exact (ht.before _).append ih
      · exact List.cons_ne_nil _ _

theorem occurs_asLines (hc : isBlank c = false) (h : OccursIn (cs ++ [c]) n ts)
    (front : List Char) : Occurs (cs ++ [c]) n ((asLines ts).flatMap (front ++ ·)) := by
  induction h with
  | nil => exact .none _
  | @cons m n t ts ht hts ih =>
    cases ts with
    | nil =>
      cases hts
      rw [asLines]
      split
      · rename_i hempty
        rw [eq_zero_of_isEmpty hempty ht]
        exact .none _
      · rw [List.flatMap_singleton]
        exact (occurs_trimEnd hc ht).after front
    | cons t' ts =>
      rw [asLines]
      · split
        · rename_i hempty
          rw [eq_zero_of_isEmpty hempty ht, Nat.zero_add]
          exact ih
        · rw [List.flatMap_append, List.flatMap_singleton]
          exact ((occurs_trimEnd hc (ht.before _)).after front).append ih
      · exact List.cons_ne_nil _ _

/-- A list has what occurs in its entries, up to the last character that is no blank. -/
theorem Layout.occurs_list (hc : isBlank c = false) (h : OccursIn (cs ++ [c]) n ts)
    (layout : Layout) (separator : List Char) :
    Occurs (cs ++ [c]) n (layout.list separator ts) := by
  rw [Layout.list]
  split
  · have hlines := occurs_asLines hc h
    split
    · rename_i hnil
      rw [hnil] at hlines
      exact hlines []
    · rename_i hnil
      rw [hnil] at hlines
      exact hlines []
    · exact hlines _
  · have hline := occurs_inLine h
    split
    · rename_i hempty
      exact List.isEmpty_iff.mp hempty ▸ hline
    · exact hline.after separator

end

end PatternSql.Sql
