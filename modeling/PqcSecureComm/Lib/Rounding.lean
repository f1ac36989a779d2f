import Mathlib

set_option autoImplicit false

/-! # Rounding to a number of bits

`halfEven` rounds to the nearest integer and `nearest p` to the nearest number with `p` significant bits,
ties to even; the exponent is not bounded. Both are monotone, leave alone what needs no rounding
(`nearest_dyadic`), and err by half a unit at most (`abs_nearest_sub_le`). -/

namespace Rounding

/-! ## To integers -/

def halfEven (q : ℚ) : ℤ :=
  if q - ⌊q⌋ < 1 / 2 then ⌊q⌋
  else if 1 / 2 < q - ⌊q⌋ then ⌊q⌋ + 1
  else if ⌊q⌋ % 2 = 0 then ⌊q⌋
  else ⌊q⌋ + 1

theorem abs_halfEven_sub_le (q : ℚ) : |(halfEven q : ℚ) - q| ≤ 1 / 2 := by
  have hlow := Int.floor_le q
  have hhigh := Int.lt_floor_add_one q
  unfold halfEven
  rw [abs_le]
  split
  · exact ⟨by linarith, by linarith⟩
  · split
    · exact ⟨by push_cast; linarith, by push_cast; linarith⟩
    · split
      · exact ⟨by linarith, by linarith⟩
      · exact ⟨by push_cast; linarith, by push_cast; linarith⟩

/-- It is the only integer so near, with the tie broken. -/
theorem halfEven_eq {q : ℚ} {n : ℤ} (hnear : |(n : ℚ) - q| ≤ 1 / 2)
    (htie : |(n : ℚ) - q| = 1 / 2 → n % 2 = 0) : halfEven q = n := by
  have hlow := Int.floor_le q
  have hhigh := Int.lt_floor_add_one q
  obtain ⟨hbelow, habove⟩ := abs_le.1 hnear
  have hge : ⌊q⌋ ≤ n := by
    have hlt : ((⌊q⌋ : ℤ) : ℚ) < ((n + 1 : ℤ) : ℚ) := by
      push_cast
      linarith
    exact Int.lt_add_one_iff.1 (by exact_mod_cast hlt)
  have hle : n ≤ ⌊q⌋ + 1 := by
    have hlt : (n : ℚ) < ((⌊q⌋ + 2 : ℤ) : ℚ) := by
      push_cast
      linarith
    have hlt' : n < ⌊q⌋ + 2 := by exact_mod_cast hlt
    omega
  rcases (by omega : n = ⌊q⌋ ∨ n = ⌊q⌋ + 1) with heq | heq
  · -- rounded down, so the fraction is at most a half
    have hcast : (n : ℚ) = ⌊q⌋ := by rw [heq]
    unfold halfEven
    rw [if_neg (by linarith : ¬ 1 / 2 < q - ⌊q⌋)]
    split
    · exact heq.symm
    · next hhalf =>
        have habs : |(n : ℚ) - q| = 1 / 2 := by
          rw [hcast, abs_of_nonpos (by linarith)]
          linarith
        rw [if_pos (heq ▸ htie habs)]
        exact heq.symm
  · have hcast : (n : ℚ) = ⌊q⌋ + 1 := by
      rw [heq]
      push_cast
      rfl
    unfold halfEven
    rw [if_neg (by linarith : ¬ q - ⌊q⌋ < 1 / 2)]
    split
    · exact heq.symm
    · next hhalf =>
        have habs : |(n : ℚ) - q| = 1 / 2 := by
          rw [hcast, abs_of_nonneg (by linarith)]
          linarith
        have hodd : ¬ ⌊q⌋ % 2 = 0 := by
          have heven := htie habs
          omega
        rw [if_neg hodd]
        exact heq.symm

@[simp]
theorem halfEven_intCast (n : ℤ) : halfEven n = n :=
  halfEven_eq (by simp) (by simp)

theorem halfEven_neg (q : ℚ) : halfEven (-q) = -halfEven q := by
  have habs : |((-halfEven q : ℤ) : ℚ) - -q| = |(halfEven q : ℚ) - q| := by
    rw [← abs_neg]
    congr 1
    push_cast
    ring
  refine halfEven_eq (habs ▸ abs_halfEven_sub_le q) fun htie => ?_
  -- at a tie the definition takes the even neighbour
  rw [habs] at htie
  have heven : halfEven q % 2 = 0 := by
    have hlow := Int.floor_le q
    have hhigh := Int.lt_floor_add_one q
    unfold halfEven at htie ⊢
    split at htie
    · next hlt =>
        rw [abs_of_nonpos (by linarith)] at htie
        linarith
    · next hge =>
        split at htie
        · next hgt =>
            push_cast at htie
            rw [abs_of_nonneg (by linarith)] at htie
            linarith
        · next hle =>
            rw [if_neg hge, if_neg hle]
            split
            · next heven => exact heven
            · next hodd => omega
  omega

theorem halfEven_mono {q r : ℚ} (h : q ≤ r) : halfEven q ≤ halfEven r := by
  by_contra hlt
  obtain ⟨-, hq⟩ := abs_le.1 (abs_halfEven_sub_le q)
  obtain ⟨hr, -⟩ := abs_le.1 (abs_halfEven_sub_le r)
  have hstep : ((halfEven r + 1 : ℤ) : ℚ) ≤ (halfEven q : ℚ) := by
    exact_mod_cast Int.add_one_le_iff.2 (not_le.1 hlt)
  push_cast at hstep
  -- both are a tie at the same number
  obtain rfl : q = r := by linarith
  exact hlt le_rfl

/-! ## To `p` bits -/

/-- The distance of the numbers with `p` bits around `q`. -/
def unit (p : ℕ) (q : ℚ) : ℚ := 2 ^ (Int.log 2 |q| + 1 - p)

def nearest (p : ℕ) (q : ℚ) : ℚ := halfEven (q / unit p q) * unit p q

section Nearest

variable {p : ℕ} {q r : ℚ}

theorem unit_pos (p : ℕ) (q : ℚ) : 0 < unit p q := zpow_pos (by norm_num) _

@[simp]
theorem nearest_zero (p : ℕ) : nearest p 0 = 0 := by
  unfold nearest
  rw [zero_div]
  have hzero : halfEven 0 = 0 := by exact_mod_cast halfEven_intCast 0
  rw [hzero]
  simp

theorem nearest_neg (p : ℕ) (q : ℚ) : nearest p (-q) = -nearest p q := by
  unfold nearest unit
  rw [abs_neg, neg_div, halfEven_neg]
  push_cast
  ring

/-- Half a unit at most. -/
theorem abs_nearest_sub_unit (p : ℕ) (q : ℚ) : |nearest p q - q| ≤ unit p q / 2 := by
  have hpos := unit_pos p q
  have hsplit : nearest p q - q = (halfEven (q / unit p q) - q / unit p q) * unit p q := by
    unfold nearest
    rw [sub_mul, div_mul_cancel₀ _ hpos.ne']
  rw [hsplit, abs_mul, abs_of_pos hpos]
  calc |(halfEven (q / unit p q) : ℚ) - q / unit p q| * unit p q ≤ 1 / 2 * unit p q :=
        mul_le_mul_of_nonneg_right (abs_halfEven_sub_le _) hpos.le
    _ = unit p q / 2 := by ring

theorem unit_le (hq : q ≠ 0) : unit p q ≤ 2 * |q| / 2 ^ p := by
  have hle : (2 : ℚ) ^ Int.log 2 |q| ≤ |q| := by
    exact_mod_cast Int.zpow_log_le_self (by norm_num : 1 < 2) (abs_pos.2 hq)
  unfold unit
  rw [zpow_sub₀ (by norm_num), zpow_add₀ (by norm_num), zpow_one, zpow_natCast]
  calc (2 : ℚ) ^ Int.log 2 |q| * 2 / 2 ^ p ≤ |q| * 2 / 2 ^ p := by gcongr
    _ = 2 * |q| / 2 ^ p := by ring

/-- **Relative error.** -/
theorem abs_nearest_sub_le (p : ℕ) (q : ℚ) : |nearest p q - q| ≤ |q| / 2 ^ p := by
  by_cases hq : q = 0
  · rw [hq, nearest_zero]
    simp
  · calc |nearest p q - q| ≤ unit p q / 2 := abs_nearest_sub_unit p q
      _ ≤ 2 * |q| / 2 ^ p / 2 := by linarith [unit_le (p := p) hq]
      _ = |q| / 2 ^ p := by ring

/-- One more rounding, behind `d` of them. -/
theorem abs_nearest_sub_le_pow {d : ℕ} (hr : 0 ≤ r) (h : |q - r| ≤ ((1 + 1 / 2 ^ p) ^ d - 1) * r) :
    |nearest p q - r| ≤ ((1 + 1 / 2 ^ p) ^ (d + 1) - 1) * r := by
  have hsize : |q| ≤ (1 + 1 / 2 ^ p) ^ d * r := by
    calc |q| = |(q - r) + r| := by rw [sub_add_cancel]
      _ ≤ |q - r| + |r| := abs_add_le _ _
      _ ≤ ((1 + 1 / 2 ^ p) ^ d - 1) * r + r := by linarith [abs_of_nonneg hr]
      _ = (1 + 1 / 2 ^ p) ^ d * r := by ring
  calc |nearest p q - r| = |(nearest p q - q) + (q - r)| := by rw [sub_add_sub_cancel]
    _ ≤ |nearest p q - q| + |q - r| := abs_add_le _ _
    _ ≤ |q| / 2 ^ p + ((1 + 1 / 2 ^ p) ^ d - 1) * r := add_le_add (abs_nearest_sub_le p q) h
    _ ≤ (1 + 1 / 2 ^ p) ^ d * r / 2 ^ p + ((1 + 1 / 2 ^ p) ^ d - 1) * r := by gcongr
    _ = ((1 + 1 / 2 ^ p) ^ (d + 1) - 1) * r := by ring

/-- Exact scaling keeps a relative error. -/
theorem abs_mul_sub_mul_le {error c : ℚ} (hc : 0 ≤ c) (h : |q - r| ≤ error * r) :
    |q * c - r * c| ≤ error * (r * c) := by
  rw [← sub_mul, abs_mul, abs_of_nonneg hc, ← mul_assoc]
  exact mul_le_mul_of_nonneg_right h hc

/-- **Exactness.** What has `p` bits is left alone. -/
theorem nearest_dyadic {m k : ℤ} (hm : |m| < 2 ^ p) : nearest p (m * 2 ^ k) = m * 2 ^ k := by
  by_cases hzero : m = 0
  · subst hzero
    simp
  · -- the unit divides the number
    have hne : (m : ℚ) * 2 ^ k ≠ 0 := mul_ne_zero (by exact_mod_cast hzero) (zpow_ne_zero _ (by norm_num))
    have hlog : Int.log 2 |(m : ℚ) * 2 ^ k| + 1 - p ≤ k := by
      have hlt : |(m : ℚ) * 2 ^ k| < 2 ^ (k + p) := by
        have hcast : |(m : ℚ)| < 2 ^ p := by exact_mod_cast hm
        rw [abs_mul, abs_of_pos (zpow_pos (by norm_num : (0 : ℚ) < 2) k), zpow_add₀ (by norm_num),
          zpow_natCast, mul_comm]
        exact mul_lt_mul_of_pos_left hcast (zpow_pos (by norm_num) k)
      have hlt' : Int.log 2 |(m : ℚ) * 2 ^ k| < k + p :=
        (Int.lt_zpow_iff_log_lt (by norm_num) (abs_pos.2 hne)).1 (by exact_mod_cast hlt)
      omega
    obtain ⟨j, hj⟩ := Int.le.dest hlog
    have hquotient : (m : ℚ) * 2 ^ k / unit p (m * 2 ^ k) = ((m * 2 ^ j : ℤ) : ℚ) := by
      have hsplit : (2 : ℚ) ^ k = 2 ^ j * unit p (m * 2 ^ k) := by
        unfold unit
        rw [← zpow_natCast, ← zpow_add₀ (by norm_num)]
        congr 1
        omega
      rw [div_eq_iff (unit_pos _ _).ne']
      push_cast
      rw [mul_assoc, ← hsplit]
    unfold nearest
    rw [hquotient, halfEven_intCast, ← hquotient, div_mul_cancel₀ _ (unit_pos _ _).ne']

theorem nearest_intCast {n : ℤ} (hn : |n| < 2 ^ p) : nearest p n = n := by
  have hdyadic := nearest_dyadic (p := p) (k := 0) hn
  rwa [zpow_zero, mul_one] at hdyadic

/-! ### Monotonicity -/

theorem zpow_log_eq (p : ℕ) (q : ℚ) : (2 : ℚ) ^ (Int.log 2 |q| + 1) = 2 ^ p * unit p q := by
  unfold unit
  rw [← zpow_natCast, ← zpow_add₀ (by norm_num)]
  congr 1
  omega

theorem nearest_le_zpow (p : ℕ) (q : ℚ) : nearest p q ≤ 2 ^ (Int.log 2 |q| + 1) := by
  have hpos := unit_pos p q
  have hlt : q < 2 ^ (Int.log 2 |q| + 1) := by
    have hself : |q| < 2 ^ (Int.log 2 |q| + 1) := by
      exact_mod_cast Int.lt_zpow_succ_log_self (by norm_num : 1 < 2) |q|
    exact lt_of_le_of_lt (le_abs_self q) hself
  rw [zpow_log_eq p q] at hlt ⊢
  have hquotient : q / unit p q ≤ (((2 : ℤ) ^ p : ℤ) : ℚ) := by
    push_cast
    exact ((div_lt_iff₀ hpos).2 hlt).le
  have hle := halfEven_mono hquotient
  rw [halfEven_intCast] at hle
  have hcast : (halfEven (q / unit p q) : ℚ) ≤ 2 ^ p := by exact_mod_cast hle
  exact mul_le_mul_of_nonneg_right hcast hpos.le

theorem zpow_le_nearest (hp : 0 < p) (hq : 0 < q) : 2 ^ Int.log 2 |q| ≤ nearest p q := by
  have hpos := unit_pos p q
  have hge : (2 : ℚ) ^ Int.log 2 |q| ≤ q := by
    have hself : (2 : ℚ) ^ Int.log 2 |q| ≤ |q| := by
      exact_mod_cast Int.zpow_log_le_self (by norm_num : 1 < 2) (abs_pos.2 hq.ne')
    rwa [abs_of_pos hq] at hself ⊢
  have hsplit : (2 : ℚ) ^ Int.log 2 |q| = 2 ^ (p - 1) * unit p q := by
    unfold unit
    rw [← zpow_natCast, ← zpow_add₀ (by norm_num)]
    congr 1
    omega
  rw [hsplit] at hge ⊢
  have hquotient : (((2 : ℤ) ^ (p - 1) : ℤ) : ℚ) ≤ q / unit p q := by
    push_cast
    exact (le_div_iff₀ hpos).2 hge
  have hle := halfEven_mono hquotient
  rw [halfEven_intCast] at hle
  have hcast : (2 : ℚ) ^ (p - 1) ≤ halfEven (q / unit p q) := by exact_mod_cast hle
  exact mul_le_mul_of_nonneg_right hcast hpos.le

theorem nearest_mono_of_pos (hp : 0 < p) (hq : 0 < q) (h : q ≤ r) : nearest p q ≤ nearest p r := by
  have hr : 0 < r := lt_of_lt_of_le hq h
  have hlog : Int.log 2 |q| ≤ Int.log 2 |r| := by
    rw [abs_of_pos hq, abs_of_pos hr]
    exact Int.log_mono_right hq h
  rcases hlog.eq_or_lt with heq | hlt
  · -- the same unit
    have hunit : unit p q = unit p r := by
      unfold unit
      rw [heq]
    unfold nearest
    rw [hunit]
    have hpos := unit_pos p r
    have hle : halfEven (q / unit p r) ≤ halfEven (r / unit p r) :=
      halfEven_mono (div_le_div_of_nonneg_right h hpos.le)
    have hcast : (halfEven (q / unit p r) : ℚ) ≤ halfEven (r / unit p r) := by exact_mod_cast hle
    exact mul_le_mul_of_nonneg_right hcast hpos.le
  · -- a power of two is between them
    calc nearest p q ≤ 2 ^ (Int.log 2 |q| + 1) := nearest_le_zpow p q
      _ ≤ 2 ^ Int.log 2 |r| := zpow_le_zpow_right₀ (by norm_num) hlt
      _ ≤ nearest p r := zpow_le_nearest hp hr

theorem nearest_nonneg (hp : 0 < p) (hq : 0 ≤ q) : 0 ≤ nearest p q := by
  rcases hq.eq_or_lt with rfl | hpos
  · rw [nearest_zero]
  · exact le_trans (zpow_pos (by norm_num) _).le (zpow_le_nearest hp hpos)

theorem nearest_mono (hp : 0 < p) (h : q ≤ r) : nearest p q ≤ nearest p r := by
  rcases lt_or_ge 0 q with hq | hq
  · exact nearest_mono_of_pos hp hq h
  · have hleft : nearest p q ≤ 0 := by
      have hneg := nearest_nonneg hp (neg_nonneg.2 hq)
      rw [nearest_neg] at hneg
      exact neg_nonneg.1 hneg
    rcases le_or_gt 0 r with hr | hr
    · exact hleft.trans (nearest_nonneg hp hr)
    · have hreflected := nearest_mono_of_pos hp (neg_pos.2 hr) (neg_le_neg h)
      rw [nearest_neg, nearest_neg] at hreflected
      exact neg_le_neg_iff.1 hreflected

end Nearest

end Rounding
