import Mathlib

set_option autoImplicit false

/-! # Doubles and integers

A double is given by its 64 bits. `truncate` cuts off its fraction, `ofNat` rounds a natural number to
the nearest double, ties to even. Below `2^53` nothing is rounded, so that the double of a number
truncates to the number (`truncate_ofNat`). -/

namespace Binary64

/-! ## Fields -/

def exponent (x : UInt64) : ℕ := x.toNat / 2 ^ 52 % 2 ^ 11

def fraction (x : UInt64) : ℕ := x.toNat % 2 ^ 52

def negative (x : UInt64) : Bool := decide (2 ^ 63 ≤ x.toNat)

/-- Neither an infinity nor a NaN. -/
def Finite (x : UInt64) : Prop := exponent x ≠ 2047

instance (x : UInt64) : Decidable (Finite x) := inferInstanceAs (Decidable (_ ≠ _))

/-! ## To integers -/

/-- The absolute value, its fraction cut off. -/
def magnitude (x : UInt64) : ℕ :=
  if exponent x < 1023 then 0
  else if exponent x < 1075 then (2 ^ 52 + fraction x) / 2 ^ (1075 - exponent x)
  else (2 ^ 52 + fraction x) * 2 ^ (exponent x - 1075)

/-- The double rounded towards zero. -/
def truncate (x : UInt64) : Option ℤ :=
  if exponent x = 2047 then none
  else if negative x then some (-magnitude x)
  else some (magnitude x)

/-! ## From natural numbers -/

/-- `n / 2 ^ shift` to the nearest integer, ties to even. -/
def shiftHalfEven (n shift : ℕ) : ℕ :=
  let quotient := n / 2 ^ shift
  let twice := 2 * (n % 2 ^ shift)
  if twice < 2 ^ shift ∨ (twice = 2 ^ shift ∧ quotient % 2 = 0) then quotient else quotient + 1

/-- The nearest double, ties to even; none from where an infinity would be nearer. -/
def ofNat (n : ℕ) : Option UInt64 :=
  if n = 0 then some 0
  else
    let scale := n.log2
    -- from `2^52` up; one that is rounded up to `2^53` carries into the exponent
    let significand := if scale ≤ 52 then n * 2 ^ (52 - scale) else shiftHalfEven n (scale - 52)
    let bits := (scale + 1022) * 2 ^ 52 + significand
    if bits < 2047 * 2 ^ 52 then some (UInt64.ofNat bits) else none

/-- Small numbers are exact: their leading one is hidden, the rest is the fraction. -/
theorem ofNat_of_lt {n : ℕ} (hpos : n ≠ 0) (h : n < 2 ^ 53) :
    ∃ x, ofNat n = some x ∧ exponent x = n.log2 + 1023 ∧
      2 ^ 52 + fraction x = n * 2 ^ (52 - n.log2) ∧ negative x = false := by
  have hscale : n.log2 ≤ 52 := by
    have hlog := (Nat.log2_lt hpos).2 h
    omega
  have hlow : 2 ^ 52 ≤ n * 2 ^ (52 - n.log2) := by
    calc 2 ^ 52 = 2 ^ n.log2 * 2 ^ (52 - n.log2) := by
          rw [← pow_add, Nat.add_sub_cancel' hscale]
      _ ≤ n * 2 ^ (52 - n.log2) := Nat.mul_le_mul_right _ (Nat.log2_self_le hpos)
  have hhigh : n * 2 ^ (52 - n.log2) < 2 ^ 53 := by
    calc n * 2 ^ (52 - n.log2) < 2 ^ (n.log2 + 1) * 2 ^ (52 - n.log2) :=
          Nat.mul_lt_mul_of_pos_right Nat.lt_log2_self (by positivity)
      _ = 2 ^ 53 := by
          rw [← pow_add]
          congr 1
          omega
  refine ⟨UInt64.ofNat ((n.log2 + 1022) * 2 ^ 52 + n * 2 ^ (52 - n.log2)), ?_, ?_, ?_, ?_⟩
  · unfold ofNat
    rw [if_neg hpos]
    simp only [if_pos hscale]
    rw [if_pos (by omega)]
  all_goals
    have hbits : (UInt64.ofNat ((n.log2 + 1022) * 2 ^ 52 + n * 2 ^ (52 - n.log2))).toNat =
        (n.log2 + 1022) * 2 ^ 52 + n * 2 ^ (52 - n.log2) := by
      rw [UInt64.toNat_ofNat']
      omega
  · unfold exponent
    rw [hbits]
    omega
  · unfold fraction
    rw [hbits]
    omega
  · unfold negative
    rw [hbits]
    simp only [decide_eq_false_iff_not]
    omega

/-- A number with a double has at most 1025 bits. -/
theorem log2_of_ofNat {n : ℕ} {x : UInt64} (h : ofNat n = some x) : n.log2 < 1025 := by
  unfold ofNat at h
  split at h
  · next hzero =>
      rw [hzero]
      decide
  · simp only at h
    generalize (if n.log2 ≤ 52 then n * 2 ^ (52 - n.log2) else shiftHalfEven n (n.log2 - 52)) =
      significand at h
    split at h
    · next hbits =>
        have hexponent : (n.log2 + 1022) * 2 ^ 52 < 2047 * 2 ^ 52 :=
          lt_of_le_of_lt (Nat.le_add_right _ _) hbits
        omega
    · exact absurd h (by simp)

theorem shiftHalfEven_le (n shift : ℕ) : shiftHalfEven n shift ≤ n / 2 ^ shift + 1 := by
  unfold shiftHalfEven
  simp only
  split
  · exact Nat.le_succ _
  · exact le_refl _

/-- A number of at most 1023 bits has a double. -/
theorem exists_ofNat {n : ℕ} (h : n.log2 < 1023) : ∃ x, ofNat n = some x := by
  by_cases hpos : n = 0
  · exact ⟨0, by rw [ofNat, if_pos hpos]⟩
  · have hsignificand : (if n.log2 ≤ 52 then n * 2 ^ (52 - n.log2)
        else shiftHalfEven n (n.log2 - 52)) ≤ 2 ^ 53 := by
      have hlt : n < 2 ^ (n.log2 + 1) := Nat.lt_log2_self
      split
      · calc n * 2 ^ (52 - n.log2) ≤ 2 ^ (n.log2 + 1) * 2 ^ (52 - n.log2) :=
              Nat.mul_le_mul_right _ (le_of_lt hlt)
          _ = 2 ^ 53 := by
              rw [← pow_add]
              congr 1
              omega
      · have hquotient : n / 2 ^ (n.log2 - 52) < 2 ^ 53 := by
          rw [Nat.div_lt_iff_lt_mul (by positivity), ← pow_add]
          have hexponent : 53 + (n.log2 - 52) = n.log2 + 1 := by omega
          rwa [hexponent]
        have hle := shiftHalfEven_le n (n.log2 - 52)
        omega
    unfold ofNat
    rw [if_neg hpos]
    simp only
    rw [if_pos (by omega)]
    exact ⟨_, rfl⟩

/-- **Counters survive the round trip** up to `2^53`. -/
theorem truncate_ofNat {n : ℕ} (h : n < 2 ^ 53) :
    ∃ x, ofNat n = some x ∧ truncate x = some (n : ℤ) := by
  by_cases hpos : n = 0
  · subst hpos
    exact ⟨0, rfl, rfl⟩
  · obtain ⟨x, hx, hexponent, hfraction, hnegative⟩ := ofNat_of_lt hpos h
    have hscale : n.log2 ≤ 52 := by
      have hlog := (Nat.log2_lt hpos).2 h
      omega
    refine ⟨x, hx, ?_⟩
    have hmagnitude : magnitude x = n := by
      unfold magnitude
      rw [hexponent, hfraction, if_neg (by omega)]
      split
      · have hshift : 1075 - (n.log2 + 1023) = 52 - n.log2 := by omega
        rw [hshift, Nat.mul_div_cancel _ (by positivity)]
      · have hexact : n.log2 = 52 := by omega
        rw [hexact]
        simp
    unfold truncate
    rw [if_neg (by omega), hnegative, hmagnitude]
    rfl

end Binary64
