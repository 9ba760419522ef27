import Mathlib.Algebra.Order.Field.Power
import Mathlib.Data.Rat.Cast.Order
import Mathlib.Tactic.Linarith
import Mathlib.Tactic.FieldSimp
import Mathlib.Tactic.NormNum
import Mathlib.Tactic.Ring
import PatternSql.Number.Numeral

/-!
# Rounding to doubles

Rounding a quotient depends on its value alone, and it finds the double that the value is close to:
half the distance between neighbouring doubles is never less than a part in `2^54` of either.

Main results:

* `Double.ofRatio_congr`: equal quotients are rounded to the same double.
* `Double.ofRatio_of_near`: a quotient that is close to a double is rounded to it.
-/

namespace PatternSql

namespace Double

/-! ## Quotients and powers -/

/-- A quotient divided by a power: which of its parts is multiplied depends on the sign of the
    exponent. -/
theorem divide_value {b : Nat} (hb : 0 < b) (num : Nat) {den : Nat} (hden : 0 < den) (e : Int)
    {r : Nat × Nat}
    (hr : r = if 0 ≤ e then (num, den * b ^ e.toNat) else (num * b ^ (-e).toNat, den)) :
    0 < r.2 ∧ (r.1 : ℚ) / r.2 = (num : ℚ) / den / (b : ℚ) ^ e := by
  subst hr
  split
  · rename_i he
    obtain ⟨k, rfl⟩ := Int.eq_ofNat_of_zero_le he
    refine ⟨by positivity, ?_⟩
    push_cast
    rw [Int.toNat_natCast, zpow_natCast, div_div]
  · rename_i he
    obtain ⟨k, rfl⟩ : ∃ k : Nat, e = -(k : Int) := ⟨(-e).toNat, by omega⟩
    refine ⟨hden, ?_⟩
    rw [neg_neg, Int.toNat_natCast, zpow_neg, zpow_natCast, div_inv_eq_mul]
    push_cast
    ring

/-- A whole number multiplied by a power, as a quotient. -/
theorem multiply_value {b : Nat} (hb : 0 < b) (m : Nat) (e : Int) {r : Nat × Nat}
    (hr : r = if 0 ≤ e then (m * b ^ e.toNat, 1) else (m, b ^ (-e).toNat)) :
    0 < r.2 ∧ (r.1 : ℚ) / r.2 = m * (b : ℚ) ^ e := by
  subst hr
  split
  · rename_i he
    obtain ⟨k, rfl⟩ := Int.eq_ofNat_of_zero_le he
    refine ⟨Nat.one_pos, ?_⟩
    rw [Int.toNat_natCast, zpow_natCast]
    push_cast
    ring
  · rename_i he
    obtain ⟨k, rfl⟩ : ∃ k : Nat, e = -(k : Int) := ⟨(-e).toNat, by omega⟩
    refine ⟨by positivity, ?_⟩
    rw [neg_neg, Int.toNat_natCast, zpow_neg, zpow_natCast]
    push_cast
    rw [div_eq_mul_inv]

theorem divideByPower_value (num : Nat) {den : Nat} (hden : 0 < den) (e : Int) :
    0 < (divideByPower num den e).2 ∧
      ((divideByPower num den e).1 : ℚ) / (divideByPower num den e).2 =
        (num : ℚ) / den / (2 : ℚ) ^ e :=
  divide_value (b := 2) Nat.two_pos num hden e rfl

/-- The logarithm of a natural number is rounded down. -/
theorem log2_bounds {n : Nat} (h : 0 < n) :
    (2 : ℚ) ^ (n.log2 : Int) ≤ n ∧ (n : ℚ) < (2 : ℚ) ^ ((n.log2 : Int) + 1) := by
  constructor
  · rw [zpow_natCast]
    exact_mod_cast Nat.log2_self_le h.ne'
  · rw [← Nat.cast_succ, zpow_natCast]
    exact_mod_cast Nat.lt_log2_self

theorem floorLog2_spec {num den : Nat} (hnum : 0 < num) (hden : 0 < den) :
    (2 : ℚ) ^ floorLog2 num den ≤ (num : ℚ) / den ∧
      (num : ℚ) / den < (2 : ℚ) ^ (floorLog2 num den + 1) := by
  have hden' : (0 : ℚ) < den := by exact_mod_cast hden
  obtain ⟨hn₁, hn₂⟩ := log2_bounds hnum
  obtain ⟨hd₁, hd₂⟩ := log2_bounds hden
  have hlow : (2 : ℚ) ^ ((num.log2 : Int) - den.log2 - 1) < (num : ℚ) / den := by
    rw [lt_div_iff₀ hden']
    calc (2 : ℚ) ^ ((num.log2 : Int) - den.log2 - 1) * den
        < (2 : ℚ) ^ ((num.log2 : Int) - den.log2 - 1) * (2 : ℚ) ^ ((den.log2 : Int) + 1) := by
          gcongr
      _ = (2 : ℚ) ^ (num.log2 : Int) := by
          rw [← zpow_add₀ two_ne_zero]
          congr 1
          omega
      _ ≤ num := hn₁
  have hhigh : (num : ℚ) / den < (2 : ℚ) ^ ((num.log2 : Int) - den.log2 + 1) := by
    rw [div_lt_iff₀ hden']
    calc (num : ℚ) < (2 : ℚ) ^ ((num.log2 : Int) + 1) := hn₂
      _ = (2 : ℚ) ^ ((num.log2 : Int) - den.log2 + 1) * (2 : ℚ) ^ (den.log2 : Int) := by
          rw [← zpow_add₀ two_ne_zero]
          congr 1
          omega
      _ ≤ (2 : ℚ) ^ ((num.log2 : Int) - den.log2 + 1) * den := by gcongr
  obtain ⟨hpos, hvalue⟩ := divideByPower_value num hden ((num.log2 : Int) - den.log2)
  have hpower : (0 : ℚ) < (2 : ℚ) ^ ((num.log2 : Int) - den.log2) := by positivity
  simp only [floorLog2]
  generalize divideByPower num den ((num.log2 : Int) - den.log2) = r at hpos hvalue
  obtain ⟨n, d⟩ := r
  have hd : (0 : ℚ) < d := by exact_mod_cast hpos
  have hiff : d ≤ n ↔ (2 : ℚ) ^ ((num.log2 : Int) - den.log2) ≤ (num : ℚ) / den := by
    rw [← one_le_div₀ hpower, ← hvalue, one_le_div₀ hd, Nat.cast_le]
  dsimp only
  split
  · rename_i hle
    exact ⟨hiff.mp hle, hhigh⟩
  · rename_i hle
    rw [sub_add_cancel]
    exact ⟨hlow.le, not_le.mp fun h => hle (hiff.mpr h)⟩

/-- The power of two below a quotient is determined by its value. -/
theorem floorLog2_unique {num den : Nat} (hnum : 0 < num) (hden : 0 < den) {k : Int}
    (hlow : (2 : ℚ) ^ k ≤ (num : ℚ) / den) (hhigh : (num : ℚ) / den < (2 : ℚ) ^ (k + 1)) :
    floorLog2 num den = k := by
  obtain ⟨hlow', hhigh'⟩ := floorLog2_spec hnum hden
  have h₁ := (zpow_lt_zpow_iff_right₀ one_lt_two).mp (hlow.trans_lt hhigh')
  have h₂ := (zpow_lt_zpow_iff_right₀ one_lt_two).mp (hlow'.trans_lt hhigh)
  omega

/-! ## Rounding to whole numbers -/

/-- A quotient less than half away from a whole number is rounded to it. -/
theorem roundHalfEven_of_near {n d m : Nat} (hlow : 2 * m * d < 2 * n + d)
    (hhigh : 2 * n < 2 * m * d + d) : roundHalfEven n d = m := by
  rcases Nat.lt_or_ge n (m * d) with hlt | hge
  · obtain ⟨k, rfl⟩ : ∃ k, m = k + 1 := ⟨m - 1, by
      rcases Nat.eq_zero_or_pos m with rfl | hm
      · simp at hlt
      · omega⟩
    have hmul : (k + 1) * d = k * d + d := Nat.succ_mul k d
    have hmul' : 2 * (k + 1) * d = 2 * ((k + 1) * d) := Nat.mul_assoc 2 (k + 1) d
    have hquot : n / d = k := Nat.div_eq_of_lt_le (by omega) (by rw [hmul]; omega)
    have hrem : n % d = n - k * d := by
      have := Nat.div_add_mod n d
      rw [hquot, Nat.mul_comm d k] at this
      omega
    simp only [roundHalfEven, hquot, hrem]
    rw [if_neg (by omega), if_pos (by omega)]
  · have hmul : 2 * m * d = 2 * (m * d) := Nat.mul_assoc 2 m d
    have hquot : n / d = m := Nat.div_eq_of_lt_le hge (by rw [Nat.succ_mul]; omega)
    have hrem : n % d = n - m * d := by
      have := Nat.div_add_mod n d
      rw [hquot, Nat.mul_comm d m] at this
      omega
    simp only [roundHalfEven, hquot, hrem]
    rw [if_pos (by omega)]

/-- Equal quotients are rounded to the same whole number. -/
theorem roundHalfEven_congr {n d n' d' : Nat} (hd : 0 < d) (hd' : 0 < d')
    (h : n * d' = n' * d) : roundHalfEven n d = roundHalfEven n' d' := by
  have hquot : n / d = n' / d' := by
    rw [← Nat.mul_div_mul_right n d hd', h, Nat.mul_comm d d', Nat.mul_div_mul_right n' d' hd]
  have hrem : n % d * d' = n' % d' * d := by
    have h₁ := congrArg (· * d') (Nat.div_add_mod n d)
    have h₂ := congrArg (· * d) (Nat.div_add_mod n' d')
    simp only [Nat.add_mul] at h₁ h₂
    rw [hquot] at h₁
    have hcomm : d * (n' / d') * d' = d' * (n' / d') * d := by ring
    omega
  have hscale {b : Nat} (hb : 0 < b) (x y : Nat) : x < y ↔ x * b < y * b :=
    (Nat.mul_lt_mul_right hb).symm
  have hlow : 2 * (n % d) < d ↔ 2 * (n' % d') < d' := by
    rw [hscale hd' (2 * (n % d)), hscale hd (2 * (n' % d')), Nat.mul_assoc, hrem, Nat.mul_assoc,
      Nat.mul_comm d d']
  have hhigh : d < 2 * (n % d) ↔ d' < 2 * (n' % d') := by
    rw [hscale hd' d, hscale hd d', Nat.mul_assoc, hrem, Nat.mul_assoc, Nat.mul_comm d d']
  simp only [roundHalfEven, hquot, hlow, hhigh]

/-! ## Rounding to doubles -/

theorem mul_eq_mul_iff {n d n' d' : Nat} (hd : 0 < d) (hd' : 0 < d') :
    n * d' = n' * d ↔ (n : ℚ) / d = (n' : ℚ) / d' := by
  have hd₁ : (d : ℚ) ≠ 0 := by exact_mod_cast hd.ne'
  have hd₂ : (d' : ℚ) ≠ 0 := by exact_mod_cast hd'.ne'
  rw [div_eq_div_iff hd₁ hd₂]
  exact_mod_cast Iff.rfl

/-- Equal quotients are rounded to the same double. -/
theorem ofRatio_congr (negative : Bool) {num den num' den' : Nat} (hden : 0 < den)
    (hden' : 0 < den') (h : (num : ℚ) / den = (num' : ℚ) / den') :
    ofRatio negative num den = ofRatio negative num' den' := by
  have hmul := (mul_eq_mul_iff hden hden').mpr h
  rcases Nat.eq_zero_or_pos num with rfl | hnum
  · rw [Nat.zero_mul, eq_comm, Nat.mul_eq_zero] at hmul
    obtain rfl : num' = 0 := hmul.resolve_right hden.ne'
    rfl
  · have hnum' : 0 < num' := by
      rcases Nat.eq_zero_or_pos num' with rfl | hnum'
      · rw [Nat.zero_mul, Nat.mul_eq_zero] at hmul
        omega
      · exact hnum'
    obtain ⟨hlow, hhigh⟩ := floorLog2_spec hnum hden
    rw [h] at hlow hhigh
    have hlog := floorLog2_unique hnum' hden' hlow hhigh
    simp only [ofRatio, hnum.ne', hnum'.ne', if_false, hlog]
    obtain ⟨hpos, hvalue⟩ := divideByPower_value num hden
      (max (-1074) (floorLog2 num den - 52))
    obtain ⟨hpos', hvalue'⟩ := divideByPower_value num' hden'
      (max (-1074) (floorLog2 num den - 52))
    congr 1
    rw [h, ← hvalue'] at hvalue
    exact roundHalfEven_congr hpos hpos' ((mul_eq_mul_iff hpos hpos').mpr hvalue)

theorem pack_of_canonical (negative : Bool) {m : Nat} {e : Int} (h : Canonical m e) :
    pack negative m e = .finite negative m e h := by
  unfold pack
  rw [if_neg h.1.ne]
  exact dif_pos h

/-- Rounding up can leave a power of two, which is halved. -/
theorem pack_of_full (negative : Bool) {e : Int} (h : Canonical (2 ^ 52) e) :
    pack negative (2 ^ 53) (e - 1) = .finite negative (2 ^ 52) e h := by
  unfold pack
  rw [if_pos rfl, sub_add_cancel]
  exact dif_pos h

/-- A quotient that is less than half a unit away from a whole number of units is rounded to it. -/
theorem roundHalfEven_divideByPower {num den m : Nat} (hden : 0 < den) {e : Int}
    (hlow : (2 * m - 1 : ℚ) * (2 : ℚ) ^ e < 2 * ((num : ℚ) / den))
    (hhigh : 2 * ((num : ℚ) / den) < (2 * m + 1 : ℚ) * (2 : ℚ) ^ e) :
    roundHalfEven (divideByPower num den e).1 (divideByPower num den e).2 = m := by
  obtain ⟨hpos, hvalue⟩ := divideByPower_value num hden e
  generalize divideByPower num den e = r at hpos hvalue
  obtain ⟨n, d⟩ := r
  have hd : (0 : ℚ) < d := by exact_mod_cast hpos
  have hpower : (0 : ℚ) < (2 : ℚ) ^ e := by positivity
  have hq : (num : ℚ) / den = (n : ℚ) / d * (2 : ℚ) ^ e := by
    rw [hvalue, div_mul_cancel₀ _ hpower.ne']
  have hn : (n : ℚ) / d * d = n := div_mul_cancel₀ _ hd.ne'
  rw [hq, ← mul_assoc, mul_lt_mul_iff_left₀ hpower] at hlow hhigh
  have hlow' := mul_lt_mul_of_pos_right hlow hd
  have hhigh' := mul_lt_mul_of_pos_right hhigh hd
  rw [mul_assoc, hn] at hlow' hhigh'
  refine roundHalfEven_of_near ?_ ?_
  · have : (2 * m * d : ℚ) < 2 * n + d := by linarith
    exact_mod_cast this
  · have : (2 * n : ℚ) < 2 * m * d + d := by linarith
    exact_mod_cast this

/-! ## Quotients close to a double -/

section

variable {m num den : Nat} {e : Int}

theorem near_bounds {q x : ℚ} (h : 2 ^ 54 * |q - x| < x) :
    x - x / 2 ^ 54 < q ∧ q < x + x / 2 ^ 54 := by
  have hpart : |q - x| < x / 2 ^ 54 := by
    rw [lt_div_iff₀ (by norm_num), mul_comm]
    exact h
  obtain ⟨hbelow, habove⟩ := abs_lt.mp hpart
  exact ⟨by linarith, by linarith⟩

theorem two_zpow_add (k : Nat) (e : Int) : (2 : ℚ) ^ ((k : Int) + e) = 2 ^ k * (2 : ℚ) ^ e := by
  rw [zpow_add₀ two_ne_zero, zpow_natCast]

/-- A quotient close to a double has no more bits than the double. -/
theorem floorLog2_le_of_near (hm : m < 2 ^ 53) (hnum : 0 < num) (hden : 0 < den)
    (hnear : 2 ^ 54 * |(num : ℚ) / den - m * (2 : ℚ) ^ e| < m * (2 : ℚ) ^ e) :
    floorLog2 num den ≤ 52 + e := by
  have hpower : (0 : ℚ) < (2 : ℚ) ^ e := by positivity
  have hmq : (m : ℚ) + 1 ≤ 2 ^ 53 := by exact_mod_cast hm
  have hsize : (m : ℚ) * (2 : ℚ) ^ e ≤ (2 ^ 53 - 1) * (2 : ℚ) ^ e :=
    mul_le_mul_of_nonneg_right (by linarith) hpower.le
  have htop : (2 : ℚ) ^ floorLog2 num den < (2 : ℚ) ^ (((53 : Nat) : Int) + e) := by
    have hlow := (floorLog2_spec hnum hden).1
    have habove := (near_bounds hnear).2
    rw [two_zpow_add]
    linarith
  have := (zpow_lt_zpow_iff_right₀ one_lt_two).mp htop
  omega

/-- A quotient close to a double has fewer bits than the double only across a power of two, which
    is the double itself. -/
theorem eq_of_floorLog2_lt (hm : 2 ^ 52 ≤ m) (hnum : 0 < num) (hden : 0 < den)
    (hnear : 2 ^ 54 * |(num : ℚ) / den - m * (2 : ℚ) ^ e| < m * (2 : ℚ) ^ e)
    (hlt : floorLog2 num den < 52 + e) :
    m = 2 ^ 52 ∧ floorLog2 num den = 51 + e ∧ (num : ℚ) / den < 2 ^ 52 * (2 : ℚ) ^ e := by
  have hpower : (0 : ℚ) < (2 : ℚ) ^ e := by positivity
  have hbelow := (near_bounds hnear).1
  have hbits : (num : ℚ) / den < 2 ^ 52 * (2 : ℚ) ^ e := by
    rw [← two_zpow_add]
    refine (floorLog2_spec hnum hden).2.trans_le ?_
    exact (zpow_le_zpow_iff_right₀ one_lt_two).mpr (by omega)
  obtain rfl : m = 2 ^ 52 := by
    by_contra hne
    have hm' : (2 ^ 52 + 1 : ℚ) ≤ m := by exact_mod_cast Nat.lt_of_le_of_ne hm (Ne.symm hne)
    have := mul_le_mul_of_nonneg_right hm' hpower.le
    linarith
  refine ⟨rfl, floorLog2_unique hnum hden ?_ ?_, hbits⟩
  · have := two_zpow_add 51 e
    push_cast at hbelow this
    rw [this]
    linarith
  · have hsum : (51 + e + 1 : Int) = ((52 : Nat) : Int) + e := by omega
    rw [hsum, two_zpow_add]
    exact hbits

/-- A quotient that is close to a double is rounded to it. -/
theorem ofRatio_of_near (negative : Bool) (h : Canonical m e) (hm : 0 < m) (hden : 0 < den)
    (hnear : 2 ^ 54 * |(num : ℚ) / den - m * (2 : ℚ) ^ e| < m * (2 : ℚ) ^ e) :
    ofRatio negative num den = .finite negative m e h := by
  obtain ⟨hm53, hlowest, -, hfull⟩ := h
  have hpower : (0 : ℚ) < (2 : ℚ) ^ e := by positivity
  have hmq : (m : ℚ) + 1 ≤ 2 ^ 53 := by exact_mod_cast hm53
  have hsize : (m : ℚ) * (2 : ℚ) ^ e ≤ (2 ^ 53 - 1) * (2 : ℚ) ^ e :=
    mul_le_mul_of_nonneg_right (by linarith) hpower.le
  obtain ⟨hbelow, habove⟩ := near_bounds hnear
  have hnum : 0 < num := by
    rcases Nat.eq_zero_or_pos num with rfl | hnum
    · have hmpos : (0 : ℚ) < m * (2 : ℚ) ^ e := by positivity
      rw [Nat.cast_zero, zero_div] at hbelow
      linarith
    · exact hnum
  have hexp : floorLog2 num den - 52 ≤ e := by
    have := floorLog2_le_of_near hm53 hnum hden hnear
    omega
  simp only [ofRatio, hnum.ne', if_false]
  rcases eq_or_lt_of_le (max_le hlowest hexp) with heq | hlt
  · rw [heq, roundHalfEven_divideByPower hden (m := m)]
    · exact pack_of_canonical negative _
    · linarith
    · linarith
  · obtain ⟨rfl, hlog, hbits⟩ :=
      eq_of_floorLog2_lt (hfull.resolve_right (by omega)) hnum hden hnear (by omega)
    have hexponent : max (-1074) (floorLog2 num den - 52) = e - 1 := by
      rw [hlog]
      omega
    have hhalf : (2 : ℚ) ^ e = 2 * (2 : ℚ) ^ (e - 1) := by
      rw [← zpow_one_add₀ two_ne_zero]
      congr 1
      omega
    -- the quotient is rounded up to 53 bits of half the unit
    rw [hexponent, roundHalfEven_divideByPower hden (m := 2 ^ 53)]
    · exact pack_of_full negative _
    · push_cast at hbelow ⊢
      rw [hhalf] at hbelow
      linarith
    · push_cast
      rw [hhalf] at hbits
      linarith

end

end Double

end PatternSql
