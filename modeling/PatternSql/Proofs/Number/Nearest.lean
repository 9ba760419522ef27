import PatternSql.Proofs.Number.Shortest

/-!
# The nearest double

A number is rounded to a double that is as near to it as any other, and of two that are equally near
to the one whose coefficient is even. The comparison is with more than the doubles: with all numbers
that would be doubles if no exponent were too great. The one that is preferred among these is a
double exactly below `2^1024 - 2^970`, half a unit beyond the greatest double; from there on a
number is rounded to infinity.

Main results:

* `Double.preferred_of_isPoint`: what a quotient is rounded to is preferred to every other point.
* `Double.rounded_lt_iff`: it is below `2^1024` exactly if the quotient is below the bound.
* `Double.ofDecimal_isNearest`, `Double.ofDecimal_eq_infinite`: how decimals are rounded on either
  side of the bound.
-/

namespace PatternSql

namespace Double

/-! ## Doubles as numbers -/

/-- A magnitude with its sign. -/
def signed (negative : Bool) (q : ℚ) : ℚ :=
  if negative then -q else q

/-- The number that a finite double stands for. -/
def value : Double → ℚ
  | finite negative m e _ => signed negative (m * (2 : ℚ) ^ e)
  | infinite _ => 0
  | nan => 0

/-- Whether a double has a minus; there is a zero that has one. -/
def isNegative : Double → Bool
  | finite negative _ _ _ => negative
  | infinite negative => negative
  | nan => false

/-- Whether a double is finite and has an even coefficient. -/
def isEven : Double → Bool
  | finite _ m _ _ => m % 2 == 0
  | infinite _ => false
  | nan => false

/-- A double that is as near to a number as any other finite one, and even if another one is as
    near. -/
structure IsNearest (x : Double) (q : ℚ) : Prop where
  finite : x.isFinite = true
  nearest : ∀ y : Double, y.isFinite = true → |x.value - q| ≤ |y.value - q|
  even : ∀ y : Double, y.isFinite = true → y.value ≠ x.value → |x.value - q| = |y.value - q| →
    x.isEven = true

/-- From here on a number is beyond the finite doubles: it is half a unit greater than all. -/
def bound : ℚ := 2 ^ 1024 - 2 ^ 970

/-- A number that would be a double if no exponent were too great. -/
def IsPoint (v : ℚ) : Prop :=
  ∃ k e : Int, |k| < 2 ^ 53 ∧ -1074 ≤ e ∧ v = k * (2 : ℚ) ^ e

theorem IsPoint.neg {v : ℚ} (h : IsPoint v) : IsPoint (-v) := by
  obtain ⟨k, e, hk, he, rfl⟩ := h
  exact ⟨-k, e, by rwa [abs_neg], he, by push_cast; ring⟩

theorem isPoint_of_canonical {m : Nat} {e : Int} (h : Canonical m e) :
    IsPoint (m * (2 : ℚ) ^ e) := by
  refine ⟨m, e, ?_, h.2.1, by push_cast; rfl⟩
  rw [abs_of_nonneg (Int.natCast_nonneg m)]
  exact_mod_cast h.1

theorem IsPoint.signed {v : ℚ} (h : IsPoint v) (negative : Bool) : IsPoint (signed negative v) := by
  cases negative
  · exact h
  · exact h.neg

theorem isPoint_value {x : Double} (h : x.isFinite = true) : IsPoint x.value := by
  match x, h with
  | finite negative m e hcanonical, _ => exact (isPoint_of_canonical hcanonical).signed negative

@[simp] theorem signed_signed (negative : Bool) (q : ℚ) :
    signed negative (signed negative q) = q := by
  cases negative <;> simp [signed]

theorem signed_eq_iff {negative : Bool} {q r : ℚ} :
    signed negative q = r ↔ q = signed negative r := by
  constructor
  · rintro rfl
    rw [signed_signed]
  · rintro rfl
    rw [signed_signed]

@[simp] theorem abs_signed (negative : Bool) (q : ℚ) : |signed negative q| = |q| := by
  cases negative <;> simp [signed]

/-- Distances stay as they are when both numbers change their signs. -/
theorem abs_sub_signed (negative : Bool) (q r : ℚ) :
    |r - signed negative q| = |signed negative r - q| := by
  cases negative
  · rfl
  · rw [signed, if_pos rfl, signed, if_pos rfl, ← abs_neg]
    congr 1
    ring

/-! ## Preference -/

/-- Of two numbers the first is preferred as the rounding of a third: it is nearer, or it is as near
    and counts as even. -/
def Preferred (even : Prop) (q a v : ℚ) : Prop :=
  |a - q| < |v - q| ∨ |a - q| = |v - q| ∧ even

theorem Preferred.le {even : Prop} {q a v : ℚ} (h : Preferred even q a v) :
    |a - q| ≤ |v - q| := by
  rcases h with h | ⟨h, -⟩
  · exact h.le
  · exact h.le

theorem Preferred.even {even : Prop} {q a v : ℚ} (h : Preferred even q a v)
    (heq : |a - q| = |v - q|) : even := by
  rcases h with h | ⟨-, h⟩
  · exact absurd heq h.ne
  · exact h

/-- Preference does not depend on the unit of measurement. -/
theorem Preferred.scale {even : Prop} {q a v u : ℚ} (h : Preferred even q a v) (hu : 0 < u) :
    Preferred even (q * u) (a * u) (v * u) := by
  have hdistance (b : ℚ) : |b * u - q * u| = |b - q| * u := by
    rw [← sub_mul, abs_mul, abs_of_pos hu]
  rw [Preferred, hdistance, hdistance, mul_lt_mul_iff_left₀ hu, mul_left_inj' hu.ne']
  exact h

/-- A quotient is rounded to a whole number at most half away, and to an even one if it is half. -/
theorem roundHalfEven_error (n : Nat) {d : Nat} (hd : 0 < d) :
    |(roundHalfEven n d : ℚ) - (n : ℚ) / d| ≤ 1 / 2 ∧
      (|(roundHalfEven n d : ℚ) - (n : ℚ) / d| = 1 / 2 → roundHalfEven n d % 2 = 0) := by
  have hd' : (0 : ℚ) < d := by exact_mod_cast hd
  have hquot : (n : ℚ) / d = (n / d : Nat) + ((n % d : Nat) : ℚ) / d := by
    rw [div_eq_iff hd'.ne', add_mul, div_mul_cancel₀ _ hd'.ne', mul_comm]
    exact_mod_cast (Nat.div_add_mod n d).symm
  have hpart : (0 : ℚ) ≤ ((n % d : Nat) : ℚ) / d := div_nonneg (Nat.cast_nonneg _) hd'.le
  have hpart' : ((n % d : Nat) : ℚ) / d < 1 := by
    rw [div_lt_one₀ hd']
    exact_mod_cast Nat.mod_lt n hd
  have hlow : 2 * (n % d) < d ↔ ((n % d : Nat) : ℚ) / d < 1 / 2 := by
    rw [div_lt_iff₀ hd', ← Nat.cast_lt (α := ℚ)]
    push_cast
    constructor <;> intro h <;> linarith
  have hhigh : d < 2 * (n % d) ↔ 1 / 2 < ((n % d : Nat) : ℚ) / d := by
    rw [lt_div_iff₀ hd', ← Nat.cast_lt (α := ℚ)]
    push_cast
    constructor <;> intro h <;> linarith
  rw [hquot]
  simp only [roundHalfEven, hlow, hhigh]
  generalize ((n % d : Nat) : ℚ) / d = r at hpart hpart' ⊢
  generalize n / d = k
  split_ifs with h₁ h₂ h₃
  · rw [sub_add_cancel_left, abs_neg, abs_of_nonneg hpart]
    exact ⟨h₁.le, fun h => absurd h h₁.ne⟩
  · have habs : |((k + 1 : Nat) : ℚ) - (k + r)| = 1 - r := by
      rw [Nat.cast_succ, add_sub_add_left_eq_sub, abs_of_pos (by linarith)]
    rw [habs]
    exact ⟨by linarith, fun h => absurd h (by linarith)⟩
  · rw [sub_add_cancel_left, abs_neg, abs_of_nonneg hpart]
    exact ⟨not_lt.mp h₂, fun _ => h₃⟩
  · have habs : |((k + 1 : Nat) : ℚ) - (k + r)| = 1 - r := by
      rw [Nat.cast_succ, add_sub_add_left_eq_sub, abs_of_pos (by linarith)]
    rw [habs]
    exact ⟨by linarith, fun _ => by omega⟩

/-- A quotient is rounded to the whole number that is preferred to all others. -/
theorem preferred_roundHalfEven (n : Nat) {d : Nat} (hd : 0 < d) {k : Int}
    (hk : k ≠ roundHalfEven n d) :
    Preferred (roundHalfEven n d % 2 = 0) ((n : ℚ) / d) (roundHalfEven n d) k := by
  obtain ⟨herror, heven⟩ := roundHalfEven_error n hd
  generalize roundHalfEven n d = m at hk herror heven ⊢
  have hapart : (1 : ℚ) ≤ |(k : ℚ) - m| := by
    have : (1 : Int) ≤ |k - m| := Int.one_le_abs (sub_ne_zero.mpr hk)
    exact_mod_cast this
  have htriangle : |(k : ℚ) - m| ≤ |(k : ℚ) - (n : ℚ) / d| + |(m : ℚ) - (n : ℚ) / d| := by
    rw [abs_sub_comm (m : ℚ)]
    exact abs_sub_le _ _ _
  rcases lt_or_eq_of_le (by linarith : |(m : ℚ) - (n : ℚ) / d| ≤ |(k : ℚ) - (n : ℚ) / d|)
    with hlt | heq
  · exact .inl hlt
  · exact .inr ⟨heq, heven (by linarith)⟩

/-! ## The point that is preferred -/

/-- The exponent of the unit in which a quotient is rounded. -/
def unitExponent (num den : Nat) : Int :=
  max (-1074) (floorLog2 num den - 52)

/-- The number of units that a quotient is rounded to. -/
def unitCount (num den : Nat) : Nat :=
  let (n, d) := divideByPower num den (unitExponent num den)
  roundHalfEven n d

/-- What a quotient is rounded to if no exponent is too great. -/
def rounded (num den : Nat) : ℚ :=
  unitCount num den * (2 : ℚ) ^ unitExponent num den

section

variable {num den : Nat}

theorem ofRatio_eq_pack (negative : Bool) (hnum : 0 < num) :
    ofRatio negative num den = pack negative (unitCount num den) (unitExponent num den) := by
  rw [ofRatio, if_neg hnum.ne']
  rfl

/-- A quotient in its units lies less than 53 bits up, and at least 52 unless the unit is least. -/
theorem scaled_bounds (hnum : 0 < num) (hden : 0 < den) :
    (num : ℚ) / den / (2 : ℚ) ^ unitExponent num den < 2 ^ 53 ∧
      (unitExponent num den = -1074 ∨
        2 ^ 52 ≤ (num : ℚ) / den / (2 : ℚ) ^ unitExponent num den) := by
  obtain ⟨hlow, hhigh⟩ := floorLog2_spec hnum hden
  have hpower : (0 : ℚ) < (2 : ℚ) ^ unitExponent num den := by positivity
  constructor
  · rw [div_lt_iff₀ hpower, ← two_zpow_add]
    refine hhigh.trans_le (zpow_le_zpow_right₀ one_le_two ?_)
    have := le_max_right (-1074) (floorLog2 num den - 52)
    simp only [unitExponent]
    omega
  · rcases max_choice (-1074) (floorLog2 num den - 52) with h | h
    · exact .inl h
    · refine .inr ?_
      rw [le_div_iff₀ hpower, ← two_zpow_add, unitExponent, h]
      have hsum : ((52 : Nat) : Int) + (floorLog2 num den - 52) = floorLog2 num den := by
        push_cast
        ring
      rwa [hsum]

/-- A whole number of units is never preferred to the number of them that a quotient is rounded
    to. -/
theorem preferred_units (hden : 0 < den) {k : Int} (hk : k ≠ unitCount num den) :
    Preferred (unitCount num den % 2 = 0) ((num : ℚ) / den) (rounded num den)
      (k * (2 : ℚ) ^ unitExponent num den) := by
  obtain ⟨hpos, hvalue⟩ := divideByPower_value num hden (unitExponent num den)
  have hpower : (0 : ℚ) < (2 : ℚ) ^ unitExponent num den := by positivity
  have hq : (num : ℚ) / den = (num : ℚ) / den / (2 : ℚ) ^ unitExponent num den *
      (2 : ℚ) ^ unitExponent num den := (div_mul_cancel₀ _ hpower.ne').symm
  rw [hq, ← hvalue]
  exact (preferred_roundHalfEven _ hpos hk).scale hpower

theorem unitCount_bounds (hnum : 0 < num) (hden : 0 < den) :
    unitCount num den ≤ 2 ^ 53 ∧ (unitExponent num den = -1074 ∨ 2 ^ 52 ≤ unitCount num den) := by
  obtain ⟨hpos, hvalue⟩ := divideByPower_value num hden (unitExponent num den)
  obtain ⟨hhigh, hlow⟩ := scaled_bounds hnum hden
  rw [← hvalue] at hhigh hlow
  obtain ⟨hbelow, habove⟩ := abs_le.mp (roundHalfEven_error
    (divideByPower num den (unitExponent num den)).1 hpos).1
  have hcount : roundHalfEven (divideByPower num den (unitExponent num den)).1
      (divideByPower num den (unitExponent num den)).2 = unitCount num den := rfl
  rw [hcount] at hbelow habove
  constructor
  · have : (unitCount num den : ℚ) < 2 ^ 53 + 1 := by linarith
    exact Nat.lt_succ_iff.mp (by exact_mod_cast this)
  · refine hlow.imp_right fun hlow => ?_
    have : (2 : ℚ) ^ 52 < unitCount num den + 1 := by linarith
    exact Nat.lt_succ_iff.mp (by exact_mod_cast this)

/-- What a quotient is rounded to is preferred to every other point: the points on coarser grids are
    whole numbers of units, and those on finer ones lie below all quotients of the same unit. -/
theorem preferred_of_isPoint (hnum : 0 < num) (hden : 0 < den) {v : ℚ} (hv : IsPoint v)
    (hne : v ≠ rounded num den) :
    Preferred (unitCount num den % 2 = 0) ((num : ℚ) / den) (rounded num den) v := by
  obtain ⟨k, e, hk, he, rfl⟩ := hv
  have hpower : (0 : ℚ) < (2 : ℚ) ^ unitExponent num den := by positivity
  rcases le_or_gt (unitExponent num den) e with hle | hlt
  · obtain ⟨j, hj⟩ : ∃ j : Nat, e = j + unitExponent num den :=
      ⟨(e - unitExponent num den).toNat, by omega⟩
    have hunits : (k : ℚ) * (2 : ℚ) ^ e =
        ((k * 2 ^ j : Int) : ℚ) * (2 : ℚ) ^ unitExponent num den := by
      rw [hj, two_zpow_add]
      push_cast
      ring
    rw [hunits] at hne ⊢
    refine preferred_units hden fun heq => hne ?_
    rw [heq, rounded]
    norm_cast
  · have hlow := (scaled_bounds hnum hden).2.resolve_left (by omega)
    rw [le_div_iff₀ hpower] at hlow
    have hfine : (2 : ℚ) ^ e ≤ (2 : ℚ) ^ unitExponent num den / 2 := by
      rw [div_eq_mul_inv, ← zpow_sub_one₀ (two_ne_zero' ℚ)]
      exact zpow_le_zpow_right₀ one_le_two (by omega)
    have hbelow : (k : ℚ) * (2 : ℚ) ^ e < 2 ^ 52 * (2 : ℚ) ^ unitExponent num den := by
      have hk' : (k : ℚ) < 2 ^ 53 := by exact_mod_cast (abs_lt.mp hk).2
      calc (k : ℚ) * (2 : ℚ) ^ e
          < 2 ^ 53 * (2 : ℚ) ^ e := mul_lt_mul_of_pos_right hk' (by positivity)
        _ ≤ 2 ^ 53 * ((2 : ℚ) ^ unitExponent num den / 2) := by gcongr
        _ = 2 ^ 52 * (2 : ℚ) ^ unitExponent num den := by ring
    -- The least of 53 bits is a whole number of units, and nearer than what is below it.
    have hleast : |rounded num den - (num : ℚ) / den| ≤
        |2 ^ 52 * (2 : ℚ) ^ unitExponent num den - (num : ℚ) / den| := by
      by_cases hcount : ((2 ^ 52 : Int)) = unitCount num den
      · rw [rounded, ← Int.cast_natCast (R := ℚ), ← hcount]
        norm_num
      · have := (preferred_units hden hcount).le
        push_cast at this
        exact this
    refine .inl (hleast.trans_lt ?_)
    rw [abs_of_nonpos (by linarith), abs_of_nonpos (by linarith)]
    linarith

end

/-! ## Where a number is too great -/

/-- The first power of two that is no double. -/
def top : ℚ := 2 ^ 1024

/-- A coefficient of at most 53 bits, or of 54 bits after rounding up, makes a finite double exactly
    if the number is below `2^1024`. -/
theorem pack_cases (negative : Bool) {m : Nat} {e : Int} (hm : m ≤ 2 ^ 53) (he : -1074 ≤ e)
    (hfull : e = -1074 ∨ 2 ^ 52 ≤ m) :
    (m * (2 : ℚ) ^ e < top → ∃ m' e' h, pack negative m e = .finite negative m' e' h ∧
      m' * (2 : ℚ) ^ e' = m * (2 : ℚ) ^ e ∧ (m % 2 = 0 → m' % 2 = 0)) ∧
    (top ≤ m * (2 : ℚ) ^ e → pack negative m e = .infinite negative) := by
  have htop (k : Nat) : (2 : ℚ) ^ k * (2 : ℚ) ^ e < top ↔ k + e < 1024 := by
    rw [top, ← two_zpow_add, ← zpow_natCast, zpow_lt_zpow_iff_right₀ one_lt_two]
    norm_num
  rcases Nat.lt_or_ge m (2 ^ 53) with hlt | hge
  · have hsmall : m * (2 : ℚ) ^ e < top ↔ e ≤ 971 := by
      constructor
      · intro h
        rcases hfull with rfl | hfull
        · decide
        · have hfull' : (2 : ℚ) ^ 52 ≤ m := by exact_mod_cast hfull
          have := (htop 52).mp ((mul_le_mul_of_nonneg_right hfull' (by positivity)).trans_lt h)
          omega
      · intro h
        have hlt' : (m : ℚ) < 2 ^ 53 := by exact_mod_cast hlt
        have hle : (2 : ℚ) ^ 53 * (2 : ℚ) ^ e ≤ top := by
          rw [top, ← two_zpow_add, ← zpow_natCast]
          exact zpow_le_zpow_right₀ one_le_two (by push_cast; omega)
        exact (mul_lt_mul_of_pos_right hlt' (by positivity)).trans_le hle
    constructor
    · intro h
      have hcanonical : Canonical m e := ⟨hlt, he, hsmall.mp h, hfull.symm⟩
      exact ⟨m, e, hcanonical, pack_of_canonical negative hcanonical, rfl, id⟩
    · intro h
      have hcanonical : ¬Canonical m e := fun hcanonical =>
        absurd (hsmall.mpr hcanonical.2.2.1) (not_lt.mpr h)
      unfold pack
      rw [if_neg hlt.ne]
      exact dif_neg hcanonical
  · obtain rfl : m = 2 ^ 53 := le_antisymm hm hge
    have hcast : ((2 ^ 53 : Nat) : ℚ) = 2 ^ 53 := by norm_num
    rw [hcast]
    constructor
    · intro h
      have hcanonical : Canonical (2 ^ 52) (e + 1) := by
        have := (htop 53).mp h
        exact ⟨by decide, by omega, by push_cast at this; omega, .inl (le_refl _)⟩
      have hpack := pack_of_full negative hcanonical
      rw [add_sub_cancel_right] at hpack
      refine ⟨2 ^ 52, e + 1, hcanonical, hpack, ?_, fun _ => by decide⟩
      rw [zpow_add_one₀ two_ne_zero]
      push_cast
      ring
    · intro h
      have hcanonical : ¬Canonical (2 ^ 52) (e + 1) := by
        rintro ⟨-, -, hle, -⟩
        exact absurd ((htop 53).mpr (by push_cast; omega)) (not_lt.mpr h)
      unfold pack
      rw [if_pos rfl]
      exact dif_neg hcanonical

/-- The greatest finite double. -/
def greatest : ℚ := top - 2 ^ 971

theorem greatest_eq : greatest = (2 ^ 53 - 1) * (2 : ℚ) ^ (971 : Int) := by
  have htop : top = 2 ^ 53 * (2 : ℚ) ^ (971 : Int) := by
    rw [top, ← two_zpow_add, ← zpow_natCast]
    rfl
  have hunit : (2 : ℚ) ^ 971 = (2 : ℚ) ^ (971 : Int) := by
    rw [← zpow_natCast]
    rfl
  rw [greatest, htop, hunit, sub_mul, one_mul]

theorem isPoint_greatest : IsPoint greatest := by
  refine ⟨2 ^ 53 - 1, 971, by decide, by decide, ?_⟩
  rw [greatest_eq]
  norm_num only

theorem isPoint_top : IsPoint top := by
  refine ⟨1, 1024, by decide, by decide, ?_⟩
  rw [top, Int.cast_one, one_mul, ← zpow_natCast]
  rfl

theorem le_greatest {m : Nat} {e : Int} (h : Canonical m e) : m * (2 : ℚ) ^ e ≤ greatest := by
  rw [greatest_eq]
  have hm : (m : ℚ) ≤ 2 ^ 53 - 1 := by
    have : (m : ℚ) + 1 ≤ 2 ^ 53 := by exact_mod_cast h.1
    linarith
  have he : (2 : ℚ) ^ e ≤ (2 : ℚ) ^ (971 : Int) := zpow_le_zpow_right₀ one_le_two h.2.2.1
  exact mul_le_mul hm he (by positivity) (by norm_num)

/-- The coefficient of the greatest double is odd. -/
theorem odd_of_greatest {m : Nat} {e : Int} (h : Canonical m e)
    (heq : m * (2 : ℚ) ^ e = greatest) : m % 2 ≠ 0 := by
  have hle : m * (2 : ℚ) ^ e ≤ m * (2 : ℚ) ^ (971 : Int) :=
    mul_le_mul_of_nonneg_left (zpow_le_zpow_right₀ one_le_two h.2.2.1) (by positivity)
  rw [heq, greatest_eq, mul_le_mul_iff_left₀ (by positivity)] at hle
  have hge : 2 ^ 53 ≤ m + 1 := by
    have : (2 : ℚ) ^ 53 ≤ m + 1 := by linarith
    exact_mod_cast this
  have hlt := h.1
  omega

/-- The bound lies halfway between the greatest double and `2^1024`. -/
theorem bound_spec : ∃ half : ℚ, 0 < half ∧ bound = greatest + half ∧ top = bound + half := by
  refine ⟨2 ^ 970, by positivity, ?_, (sub_add_cancel _ _).symm⟩
  have hdouble : (2 : ℚ) ^ 971 = 2 ^ 970 * 2 := pow_succ 2 970
  change top - 2 ^ 970 = top - 2 ^ 971 + 2 ^ 970
  rw [hdouble]
  generalize (2 : ℚ) ^ 970 = half
  ring

/-- The bound is far beyond 64 bits. -/
theorem le_bound : 2 ^ 64 ≤ bound := by
  obtain ⟨half, hpos, heq, -⟩ := bound_spec
  have hpower : (2 : ℚ) ^ (12 : Int) ≤ (2 : ℚ) ^ (971 : Int) :=
    zpow_le_zpow_right₀ one_le_two (by decide)
  have hgreatest : (2 ^ 53 - 1) * (2 : ℚ) ^ (12 : Int) ≤ greatest := by
    rw [greatest_eq]
    exact mul_le_mul_of_nonneg_left hpower (by norm_num)
  norm_num at hgreatest
  linarith

theorem one_le_bound : 1 ≤ bound :=
  le_trans (by norm_num) le_bound

section

variable {num den : Nat}

/-- A rounded quotient is below `2^1024` exactly if the quotient is below the bound. The bound
    itself is as near to the greatest double as to `2^1024`, which is even. -/
theorem rounded_lt_iff (hnum : 0 < num) (hden : 0 < den) :
    rounded num den < top ↔ (num : ℚ) / den < bound := by
  obtain ⟨half, hhalf, hbelow, habove⟩ := bound_spec
  have hpreferred := fun v => preferred_of_isPoint (v := v) hnum hden
  constructor
  · intro hlt
    by_contra hge
    rw [not_lt] at hge
    obtain ⟨hcount, hfull⟩ := unitCount_bounds hnum hden
    obtain ⟨m, e, hcanonical, -, hvalue, heven⟩ :=
      (pack_cases false hcount (le_max_left _ _) hfull).1 hlt
    have hle := le_greatest hcanonical
    rw [hvalue] at hle
    change rounded num den ≤ greatest at hle
    have hnear := hpreferred _ isPoint_top hlt.ne'
    have hdistance := hnear.le
    rw [abs_of_nonpos (by linarith)] at hdistance
    -- As near to the greatest double as to the power beyond it, the quotient is the bound itself.
    rcases le_total ((num : ℚ) / den) top with h | h
    · rw [abs_of_nonneg (by linarith)] at hdistance
      have hlast : rounded num den = greatest := by linarith
      refine odd_of_greatest hcanonical (hvalue.trans hlast) (heven (hnear.even ?_))
      rw [abs_of_nonpos (by linarith), abs_of_nonneg (by linarith)]
      linarith
    · rw [abs_of_nonpos (by linarith)] at hdistance
      linarith
  · intro hlt
    by_contra hge
    rw [not_lt] at hge
    have hdistance := (hpreferred _ isPoint_greatest (by linarith)).le
    rw [abs_of_nonneg (by linarith)] at hdistance
    rcases le_total ((num : ℚ) / den) greatest with h | h
    · rw [abs_of_nonneg (by linarith)] at hdistance
      linarith
    · rw [abs_of_nonpos (by linarith)] at hdistance
      linarith

/-! ## Quotients -/

/-- A quotient below the bound is rounded to the nearest double of its sign. -/
theorem ofRatio_isNearest (negative : Bool) (hden : 0 < den) (h : (num : ℚ) / den < bound) :
    (ofRatio negative num den).IsNearest (signed negative (num / den)) ∧
      (ofRatio negative num den).isNegative = negative := by
  rcases Nat.eq_zero_or_pos num with rfl | hnum
  · have hzero : (signedZero negative).value = signed negative (((0 : Nat) : ℚ) / den) := by
      simp [value, signedZero]
    refine ⟨⟨rfl, fun y _ => ?_, fun _ _ _ _ => rfl⟩, rfl⟩
    change |(signedZero negative).value - _| ≤ _
    rw [hzero, sub_self, abs_zero]
    exact abs_nonneg _
  · obtain ⟨hcount, hfull⟩ := unitCount_bounds hnum hden
    obtain ⟨m, e, hcanonical, hpack, hvalue, heven⟩ :=
      (pack_cases negative hcount (le_max_left _ _) hfull).1 ((rounded_lt_iff hnum hden).mpr h)
    have hdistance (y : Double) :
        |y.value - signed negative (num / den)| = |signed negative y.value - num / den| :=
      abs_sub_signed _ _ _
    have hresult : signed negative (Double.value (.finite negative m e hcanonical)) =
        rounded num den := by
      rw [value, signed_signed, hvalue]
      rfl
    rw [ofRatio_eq_pack negative hnum]
    change pack negative (unitCount num den) (unitExponent num den) = _ at hpack
    rw [hpack]
    refine ⟨⟨rfl, fun y hy => ?_, fun y hy hne heq => ?_⟩, rfl⟩
    · rw [hdistance, hdistance, hresult]
      by_cases hsame : signed negative y.value = rounded num den
      · rw [hsame]
      · exact (preferred_of_isPoint hnum hden ((isPoint_value hy).signed negative) hsame).le
    · rw [hdistance, hdistance, hresult] at heq
      have hother : signed negative y.value ≠ rounded num den := by
        rw [← hresult, ne_eq, signed_eq_iff, signed_signed]
        exact hne
      have hpoint := preferred_of_isPoint hnum hden ((isPoint_value hy).signed negative) hother
      exact beq_iff_eq.mpr (heven (hpoint.even heq))

/-- A quotient from the bound on is rounded to infinity. -/
theorem ofRatio_eq_infinite (negative : Bool) (hden : 0 < den) (h : bound ≤ (num : ℚ) / den) :
    ofRatio negative num den = .infinite negative := by
  have hnum : 0 < num := by
    rcases Nat.eq_zero_or_pos num with rfl | hnum
    · rw [Nat.cast_zero, zero_div] at h
      exact absurd (one_le_bound.trans h) (by norm_num)
    · exact hnum
  obtain ⟨hcount, hfull⟩ := unitCount_bounds hnum hden
  rw [ofRatio_eq_pack negative hnum]
  exact (pack_cases negative hcount (le_max_left _ _) hfull).2
    (not_lt.mp fun hlt => absurd ((rounded_lt_iff hnum hden).mp hlt) (not_lt.mpr h))

end

/-! ## Decimals -/

theorem bound_lt : bound < (10 : ℚ) ^ (316 : Int) := by
  obtain ⟨half, hpos, -, heq⟩ := bound_spec
  calc bound < top := by linarith
    _ ≤ (2 : ℚ) ^ (13 * 79) := pow_le_pow_right₀ one_le_two (by decide)
    _ ≤ (10 : ℚ) ^ (4 * 79) := two_pow_le_ten_pow 79

/-- Zero is nearest to a number that is much smaller than the least double. -/
theorem signedZero_isNearest (negative : Bool) {q : ℚ} (h : 2 * |q| < (10 : ℚ) ^ (-332 : Int)) :
    (signedZero negative).IsNearest q := by
  have hzero : (signedZero negative).value = 0 := by
    simp [value, signedZero, signed]
  have hnear (y : Double) (hy : y.isFinite = true) (hne : y.value ≠ 0) : |q| < |y.value - q| := by
    have hmagnitude : (10 : ℚ) ^ (-332 : Int) ≤ |y.value| := by
      cases y with
      | infinite => cases hy
      | nan => cases hy
      | finite s m e hcanonical =>
        have hm : 0 < m := by
          refine Nat.pos_of_ne_zero fun hm => hne ?_
          simp [value, signed, hm]
        rw [value, abs_signed, abs_of_nonneg (by positivity)]
        exact le_magnitude hcanonical hm
    have := abs_sub_abs_le_abs_sub y.value q
    linarith
  refine ⟨rfl, fun y hy => ?_, fun _ _ _ _ => rfl⟩
  rw [hzero, zero_sub, abs_neg]
  by_cases hne : y.value = 0
  · rw [hne, zero_sub, abs_neg]
  · exact (hnear y hy hne).le

end Double

namespace Decimal

theorem value_nonneg (d : Decimal) : 0 ≤ d.value :=
  mul_nonneg (Nat.cast_nonneg _) (by positivity)

/-- A decimal with a great exponent is beyond the doubles. -/
theorem bound_le_value {d : Decimal} (hcoefficient : d.coefficient ≠ 0) (h : 400 < d.exponent) :
    Double.bound ≤ d.value := by
  have hone : (1 : ℚ) ≤ d.coefficient := by
    exact_mod_cast Nat.one_le_iff_ne_zero.mpr hcoefficient
  calc Double.bound ≤ (10 : ℚ) ^ (316 : Int) := Double.bound_lt.le
    _ ≤ (10 : ℚ) ^ d.exponent := zpow_le_zpow_right₀ (by norm_num) (by omega)
    _ ≤ d.value := le_mul_of_one_le_left (by positivity) hone

/-- A decimal whose exponent is far below the number of its bits is next to zero. -/
theorem value_lt {d : Decimal} (hcoefficient : d.coefficient ≠ 0)
    (h : d.exponent < -(400 + d.coefficient.log2 : Nat)) : d.value < (10 : ℚ) ^ (-400 : Int) := by
  obtain ⟨-, hbits⟩ := Double.log2_bounds (Nat.pos_of_ne_zero hcoefficient)
  have hcount : (d.coefficient : ℚ) < (10 : ℚ) ^ ((d.coefficient.log2 : Int) + 1) := by
    refine hbits.trans_le ?_
    rw [← Nat.cast_succ, zpow_natCast, zpow_natCast]
    exact pow_le_pow_left₀ (by norm_num) (by norm_num) _
  calc d.value
      < (10 : ℚ) ^ ((d.coefficient.log2 : Int) + 1) * (10 : ℚ) ^ d.exponent :=
        mul_lt_mul_of_pos_right hcount (by positivity)
    _ = (10 : ℚ) ^ ((d.coefficient.log2 : Int) + 1 + d.exponent) :=
        (zpow_add₀ (by norm_num) _ _).symm
    _ ≤ (10 : ℚ) ^ (-400 : Int) := zpow_le_zpow_right₀ (by norm_num) (by push_cast at h; omega)

end Decimal

namespace Double

/-- How a decimal is rounded: to zero if it is next to it, to infinity if its exponent is great, and
    as a quotient otherwise. -/
theorem ofDecimal_cases (negative : Bool) (d : Decimal) :
    (d.value < (10 : ℚ) ^ (-400 : Int) ∧ ofDecimal negative d = signedZero negative) ∨
    (bound ≤ d.value ∧ ofDecimal negative d = .infinite negative) ∨
    (∃ num den : Nat, 0 < den ∧ (num : ℚ) / den = d.value ∧
      ofDecimal negative d = ofRatio negative num den) := by
  unfold ofDecimal
  split_ifs with hcoefficient hgreat hsmall hsign
  · refine .inl ⟨?_, rfl⟩
    rw [Decimal.value, hcoefficient, Nat.cast_zero, zero_mul]
    positivity
  · exact .inr (.inl ⟨d.bound_le_value hcoefficient hgreat, rfl⟩)
  · exact .inl ⟨d.value_lt hcoefficient hsmall, rfl⟩
  all_goals
    obtain ⟨hpos, hvalue⟩ := multiply_value (b := 10) (by decide) d.coefficient d.exponent rfl
    refine .inr (.inr ⟨_, _, hpos, by exact_mod_cast hvalue, ?_⟩)
  · rw [if_pos hsign]
  · rw [if_neg hsign]

/-- A decimal below the bound is rounded to the nearest double of its sign. -/
theorem ofDecimal_isNearest (negative : Bool) {d : Decimal} (h : d.value < bound) :
    (ofDecimal negative d).IsNearest (signed negative d.value) ∧
      (ofDecimal negative d).isNegative = negative := by
  rcases ofDecimal_cases negative d with ⟨hsmall, heq⟩ | ⟨hgreat, -⟩ | ⟨num, den, hden, hvalue, heq⟩
  · rw [heq]
    refine ⟨signedZero_isNearest negative ?_, rfl⟩
    rw [abs_signed, abs_of_nonneg d.value_nonneg]
    have hfar : (10 : ℚ) ^ (-400 : Int) * 2 ≤ (10 : ℚ) ^ (-332 : Int) := by
      have hten : (10 : ℚ) ^ (-399 : Int) ≤ (10 : ℚ) ^ (-332 : Int) :=
        zpow_le_zpow_right₀ (by norm_num) (by decide)
      refine le_trans ?_ hten
      rw [show (-399 : Int) = -400 + 1 from rfl, zpow_add_one₀ (by norm_num)]
      exact mul_le_mul_of_nonneg_left (by norm_num) (by positivity)
    linarith
  · exact absurd h (not_lt.mpr hgreat)
  · rw [heq, ← hvalue]
    exact ofRatio_isNearest negative hden (by rwa [hvalue])

/-- A decimal from the bound on is rounded to infinity. -/
theorem ofDecimal_eq_infinite (negative : Bool) {d : Decimal} (h : bound ≤ d.value) :
    ofDecimal negative d = .infinite negative := by
  rcases ofDecimal_cases negative d with ⟨hsmall, -⟩ | ⟨-, heq⟩ | ⟨num, den, hden, hvalue, heq⟩
  · have hone := one_le_bound
    have hsmall' : (10 : ℚ) ^ (-400 : Int) ≤ 1 := zpow_le_one_of_nonpos₀ (by norm_num) (by decide)
    linarith
  · exact heq
  · rw [heq]
    exact ofRatio_eq_infinite negative hden (by rwa [hvalue])

end Double

end PatternSql
