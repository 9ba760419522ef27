import PatternSql.Number.Numeral
import PatternSql.Proofs.Text.Run

/-!
# How numerals are spelled

A numeral of given parts has a few spellings: its exponent may be marked by a small or a capital
letter, and a plus may stand in front of its digits. `Numeral.scan` finds exactly the spelled
numerals, and stops where nothing continues them.

Main results:

* `Numeral.scan_eq_some_iff`: what is scanned is a spelling of a numeral that the rest does not
  continue.
* `Numeral.scan_append_of_le`, `Numeral.scan_append_of_breaks`: a numeral is found alike in a text
  and in what a text begins with.
-/

namespace PatternSql.Numeral

open Text

/-! ## Spellings -/

/-- The minus of a numeral, if it has one. -/
def signText (negative : Bool) : List Char :=
  if negative then ['-'] else []

/-- The point of a numeral and the digits after it, if it has a point. -/
def fractionText : Option (List Char) → List Char
  | none => []
  | some digits => '.' :: digits

/-- The spellings of the exponent of a numeral. -/
inductive ExponentSpelled : Option (Bool × List Char) → List Char → Prop
  /-- No exponent. -/
  | none : ExponentSpelled none []
  /-- No sign in front of the digits. -/
  | bare {mark : Char} {digits : List Char} (h : mark = 'e' ∨ mark = 'E') :
      ExponentSpelled (some (false, digits)) (mark :: digits)
  /-- A plus in front of the digits. -/
  | plus {mark : Char} {digits : List Char} (h : mark = 'e' ∨ mark = 'E') :
      ExponentSpelled (some (false, digits)) (mark :: '+' :: digits)
  /-- A minus in front of the digits. -/
  | minus {mark : Char} {digits : List Char} (h : mark = 'e' ∨ mark = 'E') :
      ExponentSpelled (some (true, digits)) (mark :: '-' :: digits)

/-- A text is a spelling of a numeral. -/
def Spelled (n : Numeral) (cs : List Char) : Prop :=
  ∃ x, ExponentSpelled n.exponent x ∧
    cs = signText n.negative ++ (n.whole ++ (fractionText n.fraction ++ x))

/-- The parts of a numeral are digits, with at least one before the point or after it, and at least
    one in an exponent. -/
structure WellFormed (n : Numeral) : Prop where
  whole : All isDigit n.whole
  fraction : ∀ digits ∈ n.fraction, All isDigit digits
  exponent : ∀ e ∈ n.exponent, All isDigit e.2 ∧ e.2 ≠ []
  digits : (n.whole.isEmpty && (n.fraction.getD []).isEmpty) = false

/-- A text goes on with an exponent. -/
def beginsExponent (cs : List Char) : Bool :=
  (scanExponent cs).1.isSome

/-- A text does not continue a numeral. -/
structure EndsBefore (n : Numeral) (rest : List Char) : Prop where
  digits : Stops isDigit rest
  point : n.fraction = none → n.exponent = none → Stops (· == '.') rest
  exponent : n.exponent = none → beginsExponent rest = false

/-- Nothing follows a numeral at the end of a text. -/
theorem endsBefore_nil (n : Numeral) : n.EndsBefore [] :=
  ⟨stops_nil, fun _ _ => stops_nil, fun _ => rfl⟩

/-! ## The parts -/

theorem isDigit_ne {c d : Char} (hc : isDigit c = true) (hd : isDigit d = false) : c ≠ d := by
  rintro rfl
  rw [hc] at hd
  exact absurd hd (by decide)

theorem scanMinus_of_ne {c : Char} {cs : List Char} (h : c ≠ '-') :
    scanMinus (c :: cs) = (false, c :: cs) := by
  unfold scanMinus
  split
  · rename_i heq
    exact absurd (List.cons.inj heq).1 h
  · rfl

theorem scanSign_of_ne {c : Char} {cs : List Char} (h : c ≠ '-') (h' : c ≠ '+') :
    scanSign (c :: cs) = (false, c :: cs) := by
  unfold scanSign
  split
  · rename_i heq
    exact absurd (List.cons.inj heq).1 h
  · rename_i heq
    exact absurd (List.cons.inj heq).1 h'
  · rfl

theorem scanFraction_of_stops {cs : List Char} (h : Stops (· == '.') cs) :
    scanFraction cs = (none, cs) := by
  unfold scanFraction
  split
  · simp at h
  · rfl

theorem scanFraction_spelled {fraction : Option (List Char)} {rest : List Char}
    (hdigits : ∀ digits ∈ fraction, All isDigit digits) (hrest : Stops isDigit rest)
    (hpoint : fraction = none → Stops (· == '.') rest) :
    scanFraction (fractionText fraction ++ rest) = (fraction, rest) := by
  cases fraction with
  | none => exact scanFraction_of_stops (hpoint rfl)
  | some digits =>
    have hall := hdigits digits rfl
    simp only [fractionText, List.cons_append, scanFraction, takeWhile_run hall hrest,
      dropWhile_run hall hrest]

theorem scanFraction_eq {cs rest : List Char} {fraction : Option (List Char)}
    (h : scanFraction cs = (fraction, rest)) :
    cs = fractionText fraction ++ rest ∧ (∀ digits ∈ fraction, All isDigit digits) ∧
      (fraction ≠ none → Stops isDigit rest) ∧ (fraction = none → Stops (· == '.') rest) := by
  unfold scanFraction at h
  split at h
  · rename_i cs
    simp only [Prod.mk.injEq] at h
    obtain ⟨rfl, rfl⟩ := h
    refine ⟨by simp [fractionText], ?_, fun _ => stops_dropWhile _ _, by simp⟩
    intro digits hd
    cases hd
    exact all_takeWhile _ _
  · rename_i hne
    simp only [Prod.mk.injEq] at h
    obtain ⟨rfl, rfl⟩ := h
    refine ⟨rfl, by simp, by simp, fun _ => ?_⟩
    intro c hc
    cases cs with
    | nil => simp at hc
    | cons d cs =>
      cases hc
      simp only [beq_eq_false_iff_ne, ne_eq]
      rintro rfl
      exact hne cs rfl

theorem isMark_iff {c : Char} : (c == 'e' || c == 'E') = true ↔ c = 'e' ∨ c = 'E' := by
  simp

theorem scanExponent_spelled {e : Option (Bool × List Char)} {x rest : List Char}
    (hx : ExponentSpelled e x) (hdigits : ∀ d ∈ e, All isDigit d.2 ∧ d.2 ≠ [])
    (hrest : Stops isDigit rest) (hnone : e = none → beginsExponent rest = false) :
    scanExponent (x ++ rest) = (e, rest) := by
  cases hx with
  | none =>
    have h := hnone rfl
    rw [List.nil_append]
    cases rest with
    | nil => rfl
    | cons c cs =>
      simp only [beginsExponent, scanExponent] at h ⊢
      split
      · rename_i hmark
        simp only [hmark, if_true] at h
        split
        · rfl
        · rename_i hne
          simp [hne] at h
      · rfl
  | @bare mark digits hmark =>
    obtain ⟨hall, hne⟩ := hdigits _ rfl
    obtain ⟨d, ds, rfl⟩ := List.exists_cons_of_ne_nil hne
    have hd : isDigit d = true := (all_cons.mp hall).1
    have hsign : scanSign (d :: ds ++ rest) = (false, d :: ds ++ rest) :=
      scanSign_of_ne (isDigit_ne hd (by decide)) (isDigit_ne hd (by decide))
    have htake : (d :: ds ++ rest).takeWhile isDigit = d :: ds := takeWhile_run hall hrest
    have hdrop : (d :: ds ++ rest).dropWhile isDigit = rest := dropWhile_run hall hrest
    simp only [List.cons_append] at hsign htake hdrop ⊢
    simp [scanExponent, hmark, hsign, htake, hdrop]
  | @plus mark digits hmark =>
    obtain ⟨hall, hne⟩ := hdigits _ rfl
    simp [scanExponent, hmark, scanSign, takeWhile_run hall hrest, dropWhile_run hall hrest, hne]
  | @minus mark digits hmark =>
    obtain ⟨hall, hne⟩ := hdigits _ rfl
    simp [scanExponent, hmark, scanSign, takeWhile_run hall hrest, dropWhile_run hall hrest, hne]

theorem scanSign_eq (cs : List Char) :
    cs = (scanSign cs).2 ∧ (scanSign cs).1 = false ∨
      cs = '+' :: (scanSign cs).2 ∧ (scanSign cs).1 = false ∨
      cs = '-' :: (scanSign cs).2 ∧ (scanSign cs).1 = true := by
  unfold scanSign
  split
  · exact .inr (.inr ⟨rfl, rfl⟩)
  · exact .inr (.inl ⟨rfl, rfl⟩)
  · exact .inl ⟨rfl, rfl⟩

theorem scanExponent_eq {cs rest : List Char} {e : Option (Bool × List Char)}
    (h : scanExponent cs = (e, rest)) :
    (∃ x, ExponentSpelled e x ∧ cs = x ++ rest) ∧ (∀ d ∈ e, All isDigit d.2 ∧ d.2 ≠ []) ∧
      (e ≠ none → Stops isDigit rest) ∧ (e = none → beginsExponent rest = false) := by
  have hnone : e = none → beginsExponent cs = false := by
    rintro rfl
    simp [beginsExponent, h]
  cases cs with
  | nil =>
    simp only [scanExponent, Prod.mk.injEq] at h
    obtain ⟨rfl, rfl⟩ := h
    exact ⟨⟨[], .none, rfl⟩, by simp, by simp, fun _ => rfl⟩
  | cons c cs =>
    simp only [scanExponent] at h
    split at h
    · rename_i hmark
      split at h
      · simp only [Prod.mk.injEq] at h
        obtain ⟨rfl, rfl⟩ := h
        exact ⟨⟨[], .none, rfl⟩, by simp, by simp, hnone⟩
      · rename_i hne
        simp only [Prod.mk.injEq] at h
        obtain ⟨rfl, rfl⟩ := h
        refine ⟨?_, ?_, fun _ => stops_dropWhile _ _, by simp⟩
        · have hmark := isMark_iff.mp hmark
          have hsplit := List.takeWhile_append_dropWhile (p := isDigit) (l := (scanSign cs).2)
          generalize hds : (scanSign cs).2.takeWhile isDigit = ds at *
          generalize hrest : (scanSign cs).2.dropWhile isDigit = rest at *
          rcases scanSign_eq cs with ⟨hcs, hb⟩ | ⟨hcs, hb⟩ | ⟨hcs, hb⟩
          · exact ⟨c :: ds, hb ▸ .bare hmark, by rw [hcs, ← hsplit]; simp⟩
          · exact ⟨c :: '+' :: ds, hb ▸ .plus hmark, by rw [hcs, ← hsplit]; simp⟩
          · exact ⟨c :: '-' :: ds, hb ▸ .minus hmark, by rw [hcs, ← hsplit]; simp⟩
        · intro d hd
          cases hd
          exact ⟨all_takeWhile _ _, by simpa using hne⟩
    · simp only [Prod.mk.injEq] at h
      obtain ⟨rfl, rfl⟩ := h
      exact ⟨⟨[], .none, rfl⟩, by simp, by simp, hnone⟩

/-! ## The whole numeral -/

theorem stops_exponent {q : Char → Bool} {e : Option (Bool × List Char)} {x rest : List Char}
    (hx : ExponentSpelled e x) (he : q 'e' = false) (hE : q 'E' = false)
    (hrest : e = none → Stops q rest) : Stops q (x ++ rest) := by
  cases hx with
  | none => exact hrest rfl
  | bare h => rcases h with rfl | rfl <;> simpa
  | plus h => rcases h with rfl | rfl <;> simpa
  | minus h => rcases h with rfl | rfl <;> simpa

theorem stops_fraction (fraction : Option (List Char)) {rest : List Char}
    (hrest : Stops isDigit rest) : Stops isDigit (fractionText fraction ++ rest) := by
  cases fraction with
  | none => exact hrest
  | some digits => exact stops_cons.mpr (by decide)

theorem scanMinus_spelled {n : Numeral} (hn : n.WellFormed) (rest : List Char) :
    scanMinus (signText n.negative ++ (n.whole ++ (fractionText n.fraction ++ rest))) =
      (n.negative, n.whole ++ (fractionText n.fraction ++ rest)) := by
  cases hneg : n.negative with
  | true => rfl
  | false =>
    cases hwhole : n.whole with
    | cons d ds =>
      have hd : isDigit d = true := (all_cons.mp (hwhole ▸ hn.whole)).1
      exact scanMinus_of_ne (isDigit_ne hd (by decide))
    | nil =>
      have := hn.digits
      cases hfraction : n.fraction with
      | none => simp [hwhole, hfraction] at this
      | some digits => exact scanMinus_of_ne (by decide)

theorem scan_spelled {n : Numeral} {cs rest : List Char} (hn : n.WellFormed) (hcs : n.Spelled cs)
    (hrest : n.EndsBefore rest) : scan (cs ++ rest) = some (n, rest) := by
  obtain ⟨x, hx, rfl⟩ := hcs
  have hexp : scanExponent (x ++ rest) = (n.exponent, rest) :=
    scanExponent_spelled hx hn.exponent hrest.digits hrest.exponent
  have hstop : Stops isDigit (x ++ rest) :=
    stops_exponent hx (by decide) (by decide) fun _ => hrest.digits
  have hfrac : scanFraction (fractionText n.fraction ++ (x ++ rest)) = (n.fraction, x ++ rest) :=
    scanFraction_spelled hn.fraction hstop fun hf =>
      stops_exponent hx (by decide) (by decide) (hrest.point hf)
  have hwhole := takeWhile_run hn.whole (stops_fraction n.fraction hstop)
  have hrest' := dropWhile_run hn.whole (stops_fraction n.fraction hstop)
  simp only [List.append_assoc, scan, scanMinus_spelled hn, hwhole, hrest', hfrac, hexp, hn.digits]
  rfl

theorem scanMinus_eq (cs : List Char) :
    cs = signText (scanMinus cs).1 ++ (scanMinus cs).2 := by
  unfold scanMinus
  split <;> rfl

/-- What is scanned is a spelling of a numeral that the rest does not continue. -/
theorem scan_eq_some_iff {cs rest : List Char} {n : Numeral} :
    scan cs = some (n, rest) ↔
      n.WellFormed ∧ n.EndsBefore rest ∧ ∃ a, n.Spelled a ∧ cs = a ++ rest := by
  constructor
  · intro h
    rcases hm : scanMinus cs with ⟨negative, unsigned⟩
    rcases hf : scanFraction (unsigned.dropWhile isDigit) with ⟨fraction, rest₁⟩
    rcases he : scanExponent rest₁ with ⟨e, rest₂⟩
    simp only [scan, hm, hf, he] at h
    split at h
    · simp at h
    · rename_i hdigits
      simp only [Option.some.injEq, Prod.mk.injEq] at h
      obtain ⟨rfl, rfl⟩ := h
      have hminus := scanMinus_eq cs
      rw [hm] at hminus
      have hwhole := List.takeWhile_append_dropWhile (p := isDigit) (l := unsigned)
      have hstop := stops_dropWhile isDigit unsigned
      obtain ⟨hfraction, hfall, hfstop, hfpoint⟩ := scanFraction_eq hf
      obtain ⟨⟨x, hx, hrest⟩, heall, hestop, henone⟩ := scanExponent_eq he
      have hbare : e = none → rest₁ = rest₂ := by
        rintro rfl
        cases hx
        exact hrest
      refine ⟨⟨all_takeWhile _ _, hfall, heall, by simpa using hdigits⟩, ⟨?_, ?_, henone⟩,
        _, ⟨x, hx, rfl⟩, ?_⟩
      · by_cases hen : e = none
        · rw [← hbare hen]
          by_cases hfn : fraction = none
          · rw [hfn, fractionText, List.nil_append] at hfraction
            exact hfraction ▸ hstop
          · exact hfstop hfn
        · exact hestop hen
      · intro hfn hen
        rw [← hbare hen]
        exact hfpoint hfn
      · rw [hminus]
        simp only [List.append_assoc]
        rw [← hrest, ← hfraction, hwhole]
  · rintro ⟨hn, hrest, a, ha, rfl⟩
    exact scan_spelled hn ha hrest

/-! ## Beginnings of texts -/

/-- Whether a text begins with a digit, or with a point and a digit. -/
def beginsUnsigned : List Char → Bool
  | c :: cs => isDigit c || c == '.' && (cs.head?.any isDigit)
  | [] => false

theorem takeWhile_isEmpty (cs : List Char) :
    (cs.takeWhile isDigit).isEmpty = !cs.head?.any isDigit := by
  cases cs with
  | nil => rfl
  | cons c cs => cases h : isDigit c <;> simp [h]

theorem scan_eq_none_iff {cs : List Char} :
    scan cs = none ↔ beginsUnsigned (scanMinus cs).2 = false := by
  rcases hm : scanMinus cs with ⟨negative, unsigned⟩
  simp only [scan, hm]
  cases unsigned with
  | nil => simp [scanFraction, beginsUnsigned]
  | cons c cs =>
    cases hc : isDigit c with
    | true => simp [hc, beginsUnsigned]
    | false =>
      by_cases hpoint : c = '.'
      · subst hpoint
        simp [hc, beginsUnsigned, scanFraction, takeWhile_isEmpty]
      · have hf : scanFraction (c :: cs) = (none, c :: cs) :=
          scanFraction_of_stops (by simpa using hpoint)
        simp [hc, beginsUnsigned, hf, hpoint]

/-- A longer text begins with a numeral if a shorter one does. -/
theorem scan_append_ne_none {cs : List Char} (h : scan cs ≠ none) (ds : List Char) :
    scan (cs ++ ds) ≠ none := by
  have hu : ∀ us : List Char, beginsUnsigned us = true → beginsUnsigned (us ++ ds) = true := by
    intro us
    cases us with
    | nil => simp [beginsUnsigned]
    | cons c us =>
      cases us with
      | nil =>
        intro hc
        simp_all [beginsUnsigned]
      | cons d us => simp [beginsUnsigned]
  rw [ne_eq, scan_eq_none_iff, Bool.not_eq_false] at h ⊢
  cases cs with
  | nil => simp [scanMinus, beginsUnsigned] at h
  | cons c cs =>
    by_cases hc : c = '-'
    · subst hc
      exact hu cs h
    · rw [List.cons_append, scanMinus_of_ne hc]
      rw [scanMinus_of_ne hc] at h
      exact hu (c :: cs) h

/-- A text does not go on with a character that may stand in a numeral. -/
def Breaks (rest : List Char) : Prop :=
  ∀ c ∈ rest.head?, isDigit c = false ∧ c ≠ '.' ∧ c ≠ '+' ∧ c ≠ '-' ∧ c ≠ 'e' ∧ c ≠ 'E'

theorem Breaks.stops_digit {rest : List Char} (h : Breaks rest) : Stops isDigit rest :=
  fun c hc => (h c hc).1

theorem Breaks.stops_point {rest : List Char} (h : Breaks rest) : Stops (· == '.') rest :=
  fun c hc => by simpa using (h c hc).2.1

theorem Breaks.head?_any_isDigit {rest : List Char} (h : Breaks rest) :
    rest.head?.any isDigit = false := by
  cases hc : rest.head? with
  | none => rfl
  | some c => exact (h c hc).1

theorem beginsExponent_cons (c : Char) (cs : List Char) :
    beginsExponent (c :: cs) =
      ((c == 'e' || c == 'E') && (scanSign cs).2.head?.any isDigit) := by
  cases hmark : (c == 'e' || c == 'E') with
  | false => simp [beginsExponent, scanExponent, hmark]
  | true =>
    simp only [beginsExponent, scanExponent, hmark, if_true, takeWhile_isEmpty, Bool.true_and]
    cases (scanSign cs).2.head?.any isDigit <;> rfl

theorem scanSign_append {cs : List Char} (h : cs ≠ []) (ds : List Char) :
    (scanSign (cs ++ ds)).2 = (scanSign cs).2 ++ ds := by
  obtain ⟨c, cs, rfl⟩ := List.exists_cons_of_ne_nil h
  by_cases hminus : c = '-'
  · subst hminus
    rfl
  · by_cases hplus : c = '+'
    · subst hplus
      rfl
    · rw [List.cons_append, scanSign_of_ne hminus hplus, scanSign_of_ne hminus hplus]
      rfl

theorem beginsExponent_of_append {cs ds : List Char} (h : beginsExponent (cs ++ ds) = false) :
    beginsExponent cs = false := by
  cases cs with
  | nil => rfl
  | cons c cs =>
    rw [List.cons_append, beginsExponent_cons] at h
    rw [beginsExponent_cons]
    cases cs with
    | nil => simp [scanSign]
    | cons d cs =>
      rw [scanSign_append (by simp)] at h
      cases hs : (scanSign (d :: cs)).2 with
      | nil => simp
      | cons a as => simpa [hs] using h

theorem beginsExponent_append {cs ds : List Char} (h : beginsExponent cs = false)
    (hds : Breaks ds) : beginsExponent (cs ++ ds) = false := by
  cases cs with
  | nil =>
    cases ds with
    | nil => rfl
    | cons d ds =>
      obtain ⟨-, -, -, -, he, hE⟩ := hds d rfl
      simp [beginsExponent_cons, he, hE]
  | cons c cs =>
    rw [beginsExponent_cons] at h
    rw [List.cons_append, beginsExponent_cons]
    cases cs with
    | nil =>
      cases ds with
      | nil => simp [scanSign]
      | cons d ds =>
        obtain ⟨hd, -, hplus, hminus, -, -⟩ := hds d rfl
        simp [scanSign_of_ne hminus hplus, hd]
    | cons d cs =>
      rw [scanSign_append (by simp)]
      cases hs : (scanSign (d :: cs)).2 with
      | nil => simp [hds.head?_any_isDigit]
      | cons a as => simpa [hs] using h

theorem EndsBefore.left {n : Numeral} {cs ds : List Char} (h : n.EndsBefore (cs ++ ds)) :
    n.EndsBefore cs :=
  ⟨h.digits.left, fun hf he => (h.point hf he).left,
    fun he => beginsExponent_of_append (h.exponent he)⟩

theorem EndsBefore.append {n : Numeral} {cs ds : List Char} (h : n.EndsBefore cs)
    (hds : Breaks ds) : n.EndsBefore (cs ++ ds) :=
  ⟨h.digits.append hds.stops_digit, fun hf he => (h.point hf he).append hds.stops_point,
    fun he => beginsExponent_append (h.exponent he) hds⟩

/-- A numeral that ends within the first part of a text is found in that part alone. -/
theorem scan_append_of_le {cs ds rest : List Char} {n : Numeral}
    (h : scan (cs ++ ds) = some (n, rest)) (hle : ds.length ≤ rest.length) :
    ∃ r, rest = r ++ ds ∧ scan cs = some (n, r) := by
  obtain ⟨hn, hrest, a, ha, heq⟩ := scan_eq_some_iff.mp h
  obtain ⟨r, rfl, rfl⟩ : ∃ r, cs = a ++ r ∧ rest = r ++ ds := by
    rcases List.append_eq_append_iff.mp heq with ⟨b, hb, hds⟩ | ⟨b, hb, hrest⟩
    · have hlen := congrArg List.length hds
      rw [List.length_append] at hlen
      obtain rfl : b = [] := List.length_eq_zero_iff.mp (by omega)
      exact ⟨[], by simpa using hb.symm, by simpa using hds.symm⟩
    · exact ⟨b, hb, hrest⟩
  exact ⟨r, rfl, scan_eq_some_iff.mpr ⟨hn, hrest.left, a, ha, rfl⟩⟩

/-- A numeral is found alike if a text goes on with a character that stands in no numeral. -/
theorem scan_append_of_breaks {cs ds rest : List Char} {n : Numeral}
    (h : scan cs = some (n, rest)) (hds : Breaks ds) :
    scan (cs ++ ds) = some (n, rest ++ ds) := by
  obtain ⟨hn, hrest, a, ha, rfl⟩ := scan_eq_some_iff.mp h
  exact scan_eq_some_iff.mpr ⟨hn, hrest.append hds, a, ha, by simp⟩

theorem beginsUnsigned_append {us ds : List Char} (h : beginsUnsigned us = false)
    (hds : Breaks ds) : beginsUnsigned (us ++ ds) = false := by
  cases us with
  | nil =>
    cases ds with
    | nil => rfl
    | cons d ds =>
      obtain ⟨hd, hpoint, -⟩ := hds d rfl
      simp [beginsUnsigned, hd, hpoint]
  | cons c us =>
    cases us with
    | nil =>
      simp only [beginsUnsigned, List.head?_nil, Option.any_none, Bool.and_false,
        Bool.or_false] at h
      simp [beginsUnsigned, h, hds.head?_any_isDigit]
    | cons d us => simpa [beginsUnsigned] using h

/-- A text that begins with no numeral does not become one that does. -/
theorem scan_append_eq_none {cs ds : List Char} (hcs : cs ≠ []) (h : scan cs = none)
    (hds : Breaks ds) : scan (cs ++ ds) = none := by
  rw [scan_eq_none_iff] at h ⊢
  obtain ⟨c, cs, rfl⟩ := List.exists_cons_of_ne_nil hcs
  by_cases hc : c = '-'
  · subst hc
    exact beginsUnsigned_append h hds
  · rw [scanMinus_of_ne hc] at h
    rw [List.cons_append, scanMinus_of_ne hc]
    exact beginsUnsigned_append h hds

end PatternSql.Numeral
