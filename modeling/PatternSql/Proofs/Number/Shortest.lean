import PatternSql.Number.Shortest
import PatternSql.Proofs.Number.Digits
import PatternSql.Proofs.Number.Rounding

/-!
# Shortest decimals read back

Reading a decimal number depends on its value alone, as long as its exponent is not extreme. Among
the points of the decimal grid of seventeen digits the one nearest to a double is close enough to be
rounded to it, so the search for a shortest decimal succeeds, and what it finds reads back.

Main results:

* `Double.ofDecimal_congr`: equal decimals are rounded to the same double.
* `Double.exists_gridPoint`: seventeen digits suffice.
* `Double.ofDecimal_shortest`: the shortest decimal of a double is rounded to it.
-/

namespace PatternSql

/-- The number that a decimal stands for. -/
def Decimal.value (d : Decimal) : ℚ :=
  d.coefficient * (10 : ℚ) ^ d.exponent

/-- An exponent that is not extreme: the number is written out to be rounded. -/
def Decimal.IsModerate (d : Decimal) : Prop :=
  -400 ≤ d.exponent ∧ d.exponent ≤ 400

namespace Double

open Text

/-! ## Reading decimals -/

/-- A decimal number of moderate exponent is rounded as a quotient of its value. -/
theorem ofDecimal_eq_ofRatio (negative : Bool) {d : Decimal} (h : d.IsModerate) :
    ∃ num den : Nat, 0 < den ∧ (num : ℚ) / den = d.value ∧
      ofDecimal negative d = ofRatio negative num den := by
  obtain ⟨c, e⟩ := d
  obtain ⟨hlow, hhigh⟩ := h
  dsimp only at hlow hhigh
  unfold ofDecimal Decimal.value
  dsimp only
  by_cases hc : c = 0
  · subst hc
    exact ⟨0, 1, Nat.one_pos, by simp, by simp [ofRatio]⟩
  · have hfar : ¬e < -((400 + c.log2 : Nat) : Int) := by omega
    obtain ⟨hpos, hvalue⟩ := multiply_value (b := 10) (by decide) c e rfl
    refine ⟨_, _, hpos, by exact_mod_cast hvalue, ?_⟩
    rw [if_neg hc, if_neg (by omega), if_neg hfar]
    split <;> rfl

/-- Equal decimals are rounded to the same double. -/
theorem ofDecimal_congr (negative : Bool) {d d' : Decimal} (h : d.IsModerate) (h' : d'.IsModerate)
    (hvalue : d.value = d'.value) : ofDecimal negative d = ofDecimal negative d' := by
  obtain ⟨num, den, hden, hnum, heq⟩ := ofDecimal_eq_ofRatio negative h
  obtain ⟨num', den', hden', hnum', heq'⟩ := ofDecimal_eq_ofRatio negative h'
  rw [heq, heq']
  exact ofRatio_congr negative hden hden' (by rw [hnum, hnum', hvalue])

/-- A decimal that is close to a double is rounded to it. -/
theorem ofDecimal_of_near (negative : Bool) {m : Nat} {e : Int} (h : Canonical m e) (hm : 0 < m)
    {d : Decimal} (hd : d.IsModerate)
    (hnear : 2 ^ 54 * |d.value - m * (2 : ℚ) ^ e| < m * (2 : ℚ) ^ e) :
    ofDecimal negative d = .finite negative m e h := by
  obtain ⟨num, den, hden, hnum, heq⟩ := ofDecimal_eq_ofRatio negative hd
  rw [heq]
  exact ofRatio_of_near negative h hm hden (by rw [hnum]; exact hnear)

/-! ## Magnitudes and powers of ten -/

theorem ratio_value (m : Nat) (e : Int) :
    0 < (ratio m e).2 ∧ ((ratio m e).1 : ℚ) / (ratio m e).2 = m * (2 : ℚ) ^ e :=
  multiply_value (b := 2) Nat.two_pos m e rfl

theorem divideByTens_value (num : Nat) {den : Nat} (hden : 0 < den) (e : Int) :
    0 < (divideByTens num den e).2 ∧
      ((divideByTens num den e).1 : ℚ) / (divideByTens num den e).2 =
        (num : ℚ) / den / (10 : ℚ) ^ e :=
  divide_value (b := 10) (by decide) num hden e rfl

theorem floor_bounds (n : Nat) {d : Nat} (hd : 0 < d) :
    ((n / d : Nat) : ℚ) ≤ (n : ℚ) / d ∧ (n : ℚ) / d < ((n / d : Nat) : ℚ) + 1 := by
  have hd' : (0 : ℚ) < d := by exact_mod_cast hd
  rw [le_div_iff₀ hd', div_lt_iff₀ hd']
  constructor
  · exact_mod_cast Nat.div_mul_le_self n d
  · exact_mod_cast Nat.lt_mul_of_div_lt (Nat.lt_succ_self _) hd

theorem digitCount_bounds {n : Nat} (h : 0 < n) :
    ∃ k : Nat, digitCount n = k + 1 ∧ (10 : ℚ) ^ k ≤ n ∧ (n : ℚ) + 1 ≤ (10 : ℚ) ^ (k + 1) := by
  obtain ⟨hlow, hhigh⟩ := length_toDigits_bounds h
  have hpos := Nat.length_toDigits_pos (b := 10) (n := n)
  refine ⟨digitCount n - 1, (Nat.sub_add_cancel hpos).symm, by exact_mod_cast hlow, ?_⟩
  unfold digitCount
  rw [Nat.sub_add_cancel hpos]
  exact_mod_cast hhigh

/-- The leading digit of a quotient has the place that is looked up from its number of digits. -/
theorem floorLog10_spec {num den : Nat} (hnum : 0 < num) (hden : 0 < den) :
    (10 : ℚ) ^ floorLog10 num den ≤ (num : ℚ) / den ∧
      (num : ℚ) / den < (10 : ℚ) ^ (floorLog10 num den + 1) := by
  have hnum' : (0 : ℚ) < num := by exact_mod_cast hnum
  have hden' : (0 : ℚ) < den := by exact_mod_cast hden
  unfold floorLog10
  split
  · rename_i hle
    obtain ⟨k, hcount, hlow, hhigh⟩ := digitCount_bounds (Nat.div_pos hle hden)
    obtain ⟨hfloor, hceil⟩ := floor_bounds num hden
    rw [hcount]
    push_cast
    rw [add_sub_cancel_right, zpow_natCast, ← Nat.cast_succ, zpow_natCast]
    exact ⟨hlow.trans hfloor, hceil.trans_le hhigh⟩
  · rename_i hlt
    obtain ⟨k, hcount, hlow, hhigh⟩ := digitCount_bounds (Nat.div_pos (Nat.le_of_not_le hlt) hnum)
    obtain ⟨hfloor, hceil⟩ := floor_bounds den hnum
    -- The place of a quotient below one is found from the reciprocal, rounding the other way.
    have hbelow : (num : ℚ) * 10 ^ k ≤ den := by
      have := hlow.trans hfloor
      rwa [le_div_iff₀ hnum', mul_comm] at this
    have habove : (den : ℚ) < num * 10 ^ (k + 1) := by
      have := hceil.trans_le hhigh
      rwa [div_lt_iff₀ hnum', mul_comm] at this
    have hten : (0 : ℚ) < 10 ^ k := by positivity
    rw [hcount, Nat.add_sub_cancel]
    dsimp only
    split
    · rename_i heq
      have heq' : (num : ℚ) * 10 ^ k = den := by exact_mod_cast heq
      rw [le_div_iff₀ hden', div_lt_iff₀ hden', zpow_add_one₀ (by norm_num), zpow_neg,
        zpow_natCast, ← heq', mul_comm (num : ℚ), inv_mul_cancel_left₀ hten.ne']
      refine ⟨le_rfl, ?_⟩
      rw [mul_right_comm, inv_mul_cancel_left₀ hten.ne', mul_comm]
      linarith
    · rename_i hne
      have hne' : (num : ℚ) * 10 ^ k ≠ den := by exact_mod_cast hne
      rw [le_div_iff₀ hden', div_lt_iff₀ hden', sub_add_cancel, zpow_neg, zpow_natCast,
        zpow_sub_one₀ (by norm_num), zpow_neg, zpow_natCast]
      constructor
      · rw [← mul_inv, ← pow_succ, inv_mul_le_iff₀ (by positivity), mul_comm]
        exact habove.le
      · rw [lt_inv_mul_iff₀ hten, mul_comm]
        exact lt_of_le_of_ne hbelow hne'

/-! ## Points of the decimal grid -/

/-- A point that the grid offers reads back; it is the floor of the quotient or the next one. -/
theorem gridPoint?_spec {x : Double} {negative : Bool} {num den : Nat} (hden : 0 < den) {g : Int}
    {d : Decimal} (h : gridPoint? x negative num den g = some d) :
    ofDecimal negative d = x ∧ d.exponent = g ∧ d.value ≤ (num : ℚ) / den + (10 : ℚ) ^ g := by
  obtain ⟨hpos, hvalue⟩ := divideByTens_value num hden g
  unfold gridPoint? at h
  generalize divideByTens num den g = r at h hpos hvalue
  obtain ⟨n, d'⟩ := r
  have hten : (0 : ℚ) < (10 : ℚ) ^ g := by positivity
  obtain ⟨hfloor, -⟩ := floor_bounds n hpos
  rw [hvalue, le_div_iff₀ hten] at hfloor
  have hbound : ∀ c : Nat, c ≤ n / d' + 1 →
      (⟨c, g⟩ : Decimal).value ≤ (num : ℚ) / den + (10 : ℚ) ^ g := by
    intro c hc
    have hc' : (c : ℚ) ≤ ((n / d' : Nat) : ℚ) + 1 := by exact_mod_cast hc
    calc (c : ℚ) * (10 : ℚ) ^ g
        ≤ (((n / d' : Nat) : ℚ) + 1) * (10 : ℚ) ^ g := mul_le_mul_of_nonneg_right hc' hten.le
      _ ≤ (num : ℚ) / den + (10 : ℚ) ^ g := by linarith
  dsimp only at h
  split at h
  · rename_i hbelow habove
    obtain rfl := Option.some.inj h
    refine ⟨?_, rfl, hbound _ (roundHalfEven_le n d')⟩
    have hle := le_roundHalfEven n d'
    have hge := roundHalfEven_le n d'
    rcases Nat.lt_or_ge (n / d') (roundHalfEven n d') with hlt | hle'
    · rw [show roundHalfEven n d' = n / d' + 1 by omega]
      exact eq_of_beq habove
    · rw [show roundHalfEven n d' = n / d' by omega]
      exact eq_of_beq hbelow
  · rename_i hbelow _
    obtain rfl := Option.some.inj h
    exact ⟨eq_of_beq hbelow, rfl, hbound _ (Nat.le_succ _)⟩
  · rename_i _ habove
    obtain rfl := Option.some.inj h
    exact ⟨eq_of_beq habove, rfl, hbound _ (Nat.le_refl _)⟩
  · exact nomatch h

theorem gridPoint?_isSome {x : Double} {negative : Bool} {num den : Nat} {g : Int}
    {n d : Nat} (hn : divideByTens num den g = (n, d))
    (h : ofDecimal negative ⟨n / d, g⟩ = x ∨ ofDecimal negative ⟨n / d + 1, g⟩ = x) :
    (gridPoint? x negative num den g).isSome = true := by
  unfold gridPoint?
  rw [hn]
  dsimp only
  split
  · rfl
  · rfl
  · rfl
  · rename_i hbelow habove
    rcases h with h | h
    · rw [h, beq_self_eq_true] at hbelow
      exact nomatch hbelow
    · rw [h, beq_self_eq_true] at habove
      exact nomatch habove

section Magnitude

variable {m : Nat} {e : Int}

/-- Thirteen bits are fewer than four digits. -/
theorem two_pow_le_ten_pow (k : Nat) : (2 : ℚ) ^ (13 * k) ≤ (10 : ℚ) ^ (4 * k) := by
  rw [pow_mul, pow_mul]
  exact pow_le_pow_left₀ (by norm_num) (by norm_num) k

theorem magnitude_lt (h : Canonical m e) : m * (2 : ℚ) ^ e < (10 : ℚ) ^ (316 : Int) := by
  obtain ⟨hm, -, he, -⟩ := h
  have hm' : (m : ℚ) < (2 : ℚ) ^ (53 : Int) := by exact_mod_cast hm
  calc m * (2 : ℚ) ^ e
      < (2 : ℚ) ^ (53 : Int) * (2 : ℚ) ^ e := mul_lt_mul_of_pos_right hm' (by positivity)
    _ = (2 : ℚ) ^ (53 + e) := (zpow_add₀ two_ne_zero _ _).symm
    _ ≤ (2 : ℚ) ^ ((13 * 79 : Nat) : Int) := zpow_le_zpow_right₀ one_le_two (by omega)
    _ ≤ (10 : ℚ) ^ ((4 * 79 : Nat) : Int) := by
        rw [zpow_natCast, zpow_natCast]
        exact two_pow_le_ten_pow 79

theorem le_magnitude (h : Canonical m e) (hm : 0 < m) :
    (10 : ℚ) ^ (-332 : Int) ≤ m * (2 : ℚ) ^ e := by
  have hm' : (1 : ℚ) ≤ m := by exact_mod_cast hm
  calc (10 : ℚ) ^ (-((4 * 83 : Nat) : Int))
      ≤ (2 : ℚ) ^ (-((13 * 83 : Nat) : Int)) := by
        rw [zpow_neg, zpow_neg, zpow_natCast, zpow_natCast]
        exact inv_anti₀ (by positivity) (two_pow_le_ten_pow 83)
    _ ≤ (2 : ℚ) ^ e := zpow_le_zpow_right₀ one_le_two (by have := h.2.1; omega)
    _ ≤ m * (2 : ℚ) ^ e := le_mul_of_one_le_left (by positivity) hm'

/-- Seventeen digits suffice: the nearer neighbour on their grid is less than a part in `2^54`
    away. -/
theorem exists_gridPoint (negative : Bool) (h : Canonical m e) (hm : 0 < m) {num den : Nat}
    (hden : 0 < den) (hvalue : (num : ℚ) / den = m * (2 : ℚ) ^ e) {g : Int}
    (hlow : -400 ≤ g) (hhigh : g ≤ 400) (hg : (10 : ℚ) ^ (g + 16) ≤ m * (2 : ℚ) ^ e) :
    (gridPoint? (.finite negative m e h) negative num den g).isSome = true := by
  obtain ⟨hpos, hquot⟩ := divideByTens_value num hden g
  generalize hr : divideByTens num den g = r at hpos hquot
  obtain ⟨n, d⟩ := r
  dsimp only at hpos hquot
  have hten : (0 : ℚ) < (10 : ℚ) ^ g := by positivity
  obtain ⟨hfloor, hceil⟩ := floor_bounds n hpos
  rw [hquot, hvalue] at hfloor hceil
  rw [le_div_iff₀ hten] at hfloor
  rw [div_lt_iff₀ hten] at hceil
  have hunit : (10 : ℚ) ^ 16 * (10 : ℚ) ^ g ≤ m * (2 : ℚ) ^ e := by
    rw [zpow_add₀ (by norm_num), mul_comm] at hg
    exact_mod_cast hg
  refine gridPoint?_isSome hr ?_
  have hhalf : 2 ^ 53 * (10 : ℚ) ^ g < m * (2 : ℚ) ^ e := by
    have : (2 : ℚ) ^ 53 * (10 : ℚ) ^ g < 10 ^ 16 * (10 : ℚ) ^ g :=
      mul_lt_mul_of_pos_right (by norm_num) hten
    exact this.trans_le hunit
  rcases le_total (2 * (m * (2 : ℚ) ^ e - ((n / d : Nat) : ℚ) * (10 : ℚ) ^ g)) ((10 : ℚ) ^ g)
    with hnear | hfar
  · refine Or.inl (ofDecimal_of_near negative h hm ⟨hlow, hhigh⟩ ?_)
    have habs : |((n / d : Nat) : ℚ) * (10 : ℚ) ^ g - m * (2 : ℚ) ^ e| ≤ (10 : ℚ) ^ g / 2 :=
      abs_le.mpr ⟨by linarith, by linarith⟩
    unfold Decimal.value
    linarith
  · refine Or.inr (ofDecimal_of_near negative h hm ⟨hlow, hhigh⟩ ?_)
    have habs : |((n / d + 1 : Nat) : ℚ) * (10 : ℚ) ^ g - m * (2 : ℚ) ^ e| ≤ (10 : ℚ) ^ g / 2 := by
      push_cast
      exact abs_le.mpr ⟨by linarith, by linarith⟩
    unfold Decimal.value
    linarith

theorem leading_bounds (h : Canonical m e) (hm : 0 < m) {leading : Int}
    (hlow : (10 : ℚ) ^ leading ≤ m * (2 : ℚ) ^ e)
    (hhigh : m * (2 : ℚ) ^ e < (10 : ℚ) ^ (leading + 1)) : -333 ≤ leading ∧ leading < 316 := by
  have hten : (1 : ℚ) < 10 := by norm_num
  have hmin := (zpow_lt_zpow_iff_right₀ hten).mp ((le_magnitude h hm).trans_lt hhigh)
  have hmax := (zpow_lt_zpow_iff_right₀ hten).mp (hlow.trans_lt (magnitude_lt h))
  omega

/-- The search for a shortest decimal succeeds, and what it finds reads back. -/
theorem findSome?_gridPoint (negative : Bool) (h : Canonical m e) (hm : 0 < m) {num den : Nat}
    (hden : 0 < den) (hvalue : (num : ℚ) / den = m * (2 : ℚ) ^ e) :
    ∃ d, (List.range 17).findSome? (fun digits : Nat =>
        gridPoint? (.finite negative m e h) negative num den (floorLog10 num den - digits)) =
          some d ∧
      ofDecimal negative d = .finite negative m e h ∧ -400 ≤ d.exponent ∧
      d.value < (10 : ℚ) ^ (400 : Int) := by
  have hnum : 0 < num := by
    rcases Nat.eq_zero_or_pos num with rfl | hnum
    · rw [Nat.cast_zero, zero_div] at hvalue
      exact absurd hvalue (ne_of_lt (lt_of_lt_of_le (by positivity) (le_magnitude h hm)))
    · exact hnum
  obtain ⟨hlow, hhigh⟩ := floorLog10_spec hnum hden
  generalize floorLog10 num den = leading at hlow hhigh ⊢
  rw [hvalue] at hlow hhigh
  obtain ⟨hmin, hmax⟩ := leading_bounds h hm hlow hhigh
  have hlast := exists_gridPoint negative h hm hden hvalue (g := leading - ((16 : Nat) : Int))
    (by omega) (by omega) (by rw [Nat.cast_ofNat, sub_add_cancel]; exact hlow)
  obtain ⟨d, hd⟩ : ∃ d, (List.range 17).findSome? (fun digits : Nat =>
      gridPoint? (.finite negative m e h) negative num den (leading - digits)) = some d := by
    rw [← Option.isSome_iff_exists, List.findSome?_isSome_iff]
    exact ⟨16, by decide, hlast⟩
  obtain ⟨digits, hdigits, hpoint⟩ := List.exists_of_findSome?_eq_some hd
  rw [List.mem_range] at hdigits
  obtain ⟨hread, hexponent, hbound⟩ := gridPoint?_spec hden hpoint
  refine ⟨d, hd, hread, by omega, ?_⟩
  rw [hvalue] at hbound
  calc d.value
      ≤ m * (2 : ℚ) ^ e + (10 : ℚ) ^ (leading - digits) := hbound
    _ ≤ m * (2 : ℚ) ^ e + m * (2 : ℚ) ^ e := by
        have := zpow_le_zpow_right₀ (by norm_num : (1 : ℚ) ≤ 10)
          (by omega : leading - digits ≤ leading)
        linarith
    _ < (10 : ℚ) ^ (316 : Int) * 10 := by
        have := magnitude_lt h
        have : (0 : ℚ) < (10 : ℚ) ^ (316 : Int) := by positivity
        generalize (10 : ℚ) ^ (316 : Int) = b at *
        linarith
    _ = (10 : ℚ) ^ (317 : Int) := (zpow_add_one₀ (by norm_num) 316).symm
    _ ≤ (10 : ℚ) ^ (400 : Int) := zpow_le_zpow_right₀ (by norm_num) (by decide)

end Magnitude

end Double

/-! ## Zeros at the end -/

theorem Decimal.value_of_stripped {d d' : Decimal} {k : Nat}
    (hc : d.coefficient = d'.coefficient * 10 ^ k) (he : d'.exponent = d.exponent + k) :
    d.value = d'.value := by
  unfold Decimal.value
  rw [hc, he, zpow_add₀ (by norm_num), zpow_natCast]
  push_cast
  ring

/-- The exponent of a number that is not zero is less than one that the number is less than. -/
theorem Decimal.exponent_lt {d : Decimal} (hd : d.coefficient ≠ 0) {b : Int}
    (h : d.value < (10 : ℚ) ^ b) : d.exponent < b := by
  have hone : (1 : ℚ) ≤ d.coefficient := by exact_mod_cast Nat.one_le_iff_ne_zero.mpr hd
  have hle : (10 : ℚ) ^ d.exponent ≤ d.value := le_mul_of_one_le_left (by positivity) hone
  exact (zpow_lt_zpow_iff_right₀ (by norm_num)).mp (hle.trans_lt h)

namespace Double

/-- The shortest decimal of a double is rounded to it, and its exponent is not extreme. -/
theorem ofDecimal_shortest (negative : Bool) {m : Nat} {e : Int} (h : Canonical m e) :
    (shortest negative m e h).IsModerate ∧
      ofDecimal negative (shortest negative m e h) = .finite negative m e h := by
  unfold shortest
  rcases Nat.eq_zero_or_pos m with rfl | hm
  · obtain rfl : e = -1074 := h.2.2.2.resolve_left (by decide)
    rw [if_pos rfl]
    exact ⟨⟨by decide, by decide⟩, rfl⟩
  · obtain ⟨hden, hvalue⟩ := ratio_value m e
    rw [if_neg hm.ne']
    dsimp only
    obtain ⟨d, hd, hread, hlow, hhigh⟩ := findSome?_gridPoint negative h hm hden hvalue
    rw [hd, Option.getD_some]
    obtain ⟨k, hc, he⟩ := d.value_stripZeros
    have hne : d.coefficient ≠ 0 := by
      intro hzero
      unfold ofDecimal at hread
      rw [if_pos hzero] at hread
      simp only [signedZero, finite.injEq] at hread
      omega
    have hvalue' := Decimal.value_of_stripped hc he
    have hmax := Decimal.exponent_lt hne hhigh
    have hmax' : d.stripZeros.exponent < 400 :=
      Decimal.exponent_lt (fun hzero => hne (by rw [hc, hzero, Nat.zero_mul])) (hvalue' ▸ hhigh)
    have hmoderate : d.stripZeros.IsModerate := ⟨by omega, by omega⟩
    exact ⟨hmoderate,
      (ofDecimal_congr negative hmoderate ⟨hlow, by omega⟩ hvalue'.symm).trans hread⟩

end Double

end PatternSql
