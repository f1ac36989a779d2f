import PqcSecureComm.BenchmarkRun
import PqcSecureComm.Lib.OrderStatistic
import PqcSecureComm.Lib.Rounding

set_option autoImplicit false

/-! # The statistics of a benchmark

`summarize` boils the samples of a file down to mean, median and 95th percentile, partly in floating
point. A number is given by its value here: that of a double has 53 bits, and below `2^53` an integer
needs no rounding. -/

namespace PqcSecureComm

open OrderStatistic Rounding

/-! ## The source -/

/-- The double of a value; it raises if there is no finite one. No value here is so small that the
    exponent of its double would be at its lower bound. -/
def toDouble (message : String) (value : ℚ) : Except PyError ℚ :=
  if |nearest 53 value| < 2 ^ 1024 then .ok (nearest 53 value)
  else .error (.mk' .overflowError message)

/-- `a / b` of integers. -/
def trueDiv (a : ℤ) (b : ℕ) : Except PyError ℚ :=
  toDouble "integer division result too large for a float" (a / b)

/-- `int(value)`: towards zero. -/
def truncate (value : ℚ) : ℤ := if value < 0 then ⌈value⌉ else ⌊value⌋

/-- `statistics.mean` of integers: an integer again if the division leaves no remainder. -/
def mean (values : List ℤ) : Except PyError ℚ :=
  if (values.length : ℤ) ∣ values.sum then .ok (values.sum / values.length : ℤ)
  else trueDiv values.sum values.length

/-- `statistics.median` of integers. -/
def median (values : List ℤ) : Except PyError ℚ :=
  let middle := values.length / 2
  if values.length % 2 = 1 then .ok ((ordered values).getD middle 0)
  else trueDiv ((ordered values).getD (middle - 1) 0 + (ordered values).getD middle 0) 2

/-- `min(len(ordered) - 1, max(0, round((percentile / 100.0) * (len(ordered) - 1))))`. -/
def percentileIndex (length : ℕ) (percentile : ℚ) : ℤ :=
  let position := nearest 53 (nearest 53 (percentile / 100) * nearest 53 ((length : ℤ) - 1 : ℤ))
  min ((length : ℤ) - 1) (max 0 (halfEven position))

/-- `_percentile`. -/
def percentile (values : List ℤ) (percentile : ℚ) : Except PyError ℚ :=
  if values = [] then .ok 0
  else toDouble "int too large to convert to float"
    ((ordered values).getD (percentileIndex values.length percentile).toNat 0 : ℤ)

/-- `int(statistic(values)) if values else 0`. -/
def intOf (statistic : List ℤ → Except PyError ℚ) (values : List ℤ) : Except PyError ℤ :=
  if values = [] then .ok 0 else truncate <$> statistic values

/-- The three statistics of a column. -/
structure ColumnStatistics where
  mean : ℤ
  median : ℤ
  p95 : ℤ
  deriving DecidableEq, Repr

def columnStatistics (values : List ℤ) : Except PyError ColumnStatistics := do
  let mean ← intOf mean values
  let median ← intOf median values
  let p95 ← intOf (fun values => percentile values 95) values
  pure ⟨mean, median, p95⟩

/-- What `summarize` returns. -/
structure SummaryDict where
  rows : ℕ
  ok : ℕ
  failed : ℕ
  verifyNs : ColumnStatistics
  e2eNs : ColumnStatistics
  deriving DecidableEq, Repr

/-- The statistics of the samples. -/
def Summary.statistics (self : Summary) : Except PyError SummaryDict := do
  let verifyNs ← columnStatistics self.verifyNs
  let e2eNs ← columnStatistics self.e2eNs
  pure ⟨self.rows, self.ok, self.failed, verifyNs, e2eNs⟩

/-- `summarize` of the text of a file. -/
def summarizeCsv (text : PyStr) : Except SummaryError SummaryDict := do
  let samples ← summarizeFile text
  (samples.statistics).mapError SummaryError.py

/-! ## Rounding between integers -/

/-- Below `2^53` rounding does not leave an interval with integer ends. -/
theorem toDouble_between (message : String) {value : ℚ} {low high : ℤ} (hlow : |low| < 2 ^ 53)
    (hhigh : |high| < 2 ^ 53) (hle : low ≤ value) (hge : value ≤ high) :
    ∃ x, toDouble message value = .ok x ∧ (low : ℚ) ≤ x ∧ x ≤ high := by
  have hle' : (low : ℚ) ≤ nearest 53 value := by
    calc (low : ℚ) = nearest 53 low := (nearest_intCast hlow).symm
      _ ≤ nearest 53 value := nearest_mono (by norm_num) hle
  have hge' : nearest 53 value ≤ high := by
    calc nearest 53 value ≤ nearest 53 high := nearest_mono (by norm_num) hge
      _ = high := nearest_intCast hhigh
  have hfinite : |nearest 53 value| < 2 ^ 1024 := by
    have hlow' : -(2 : ℚ) ^ 53 < low := by exact_mod_cast (abs_lt.1 hlow).1
    have hhigh' : (high : ℚ) < 2 ^ 53 := by exact_mod_cast (abs_lt.1 hhigh).2
    have hbits : (2 : ℚ) ^ 53 ≤ 2 ^ 1024 := pow_le_pow_right₀ (by norm_num) (by norm_num)
    rw [abs_lt]
    exact ⟨(neg_le_neg hbits).trans_lt (hlow'.trans_le hle'), (hge'.trans_lt hhigh').trans_le hbits⟩
  refine ⟨nearest 53 value, ?_, hle', hge'⟩
  unfold toDouble
  rw [if_pos hfinite]

theorem toDouble_intCast (message : String) {n : ℤ} (hn : |n| < 2 ^ 53) :
    toDouble message n = .ok (n : ℚ) := by
  obtain ⟨x, hx, hle, hge⟩ := toDouble_between message hn hn le_rfl le_rfl
  rw [hx, le_antisymm hge hle]

@[simp]
theorem truncate_intCast (n : ℤ) : truncate n = n := by
  unfold truncate
  split
  · exact Int.ceil_intCast n
  · exact Int.floor_intCast n

theorem truncate_between {value : ℚ} {low high : ℤ} (hle : low ≤ value) (hge : value ≤ high) :
    low ≤ truncate value ∧ truncate value ≤ high := by
  have hlow : low ≤ ⌊value⌋ := Int.le_floor.2 hle
  have hhigh : ⌈value⌉ ≤ high := Int.ceil_le.2 hge
  have hfloor := Int.floor_le_ceil value
  unfold truncate
  split
  · exact ⟨hlow.trans hfloor, hhigh⟩
  · exact ⟨hlow, hfloor.trans hhigh⟩

/-! ## The mean -/

/-- `low` and `high` bound the values. -/
def Within (values : List ℤ) (low high : ℤ) : Prop := ∀ v ∈ values, low ≤ v ∧ v ≤ high

theorem Within.sum {values : List ℤ} {low high : ℤ} (h : Within values low high) :
    low * values.length ≤ values.sum ∧ values.sum ≤ high * values.length := by
  have hlow := List.card_nsmul_le_sum values low fun v hv => (h v hv).1
  have hhigh := List.sum_le_card_nsmul values high fun v hv => (h v hv).2
  rw [nsmul_eq_mul] at hlow hhigh
  constructor
  · linarith
  · linarith

/-- Below `2^53` the mean is reported within one unit of the exact one, and within the values. -/
theorem intOf_mean {values : List ℤ} (hne : values ≠ []) {low high : ℤ} (hwithin : Within values low high)
    (hlow : |low| < 2 ^ 53) (hhigh : |high| < 2 ^ 53) :
    ∃ m, intOf mean values = .ok m ∧ (low ≤ m ∧ m ≤ high) ∧
      |m * values.length - values.sum| < values.length := by
  have hpos : (0 : ℤ) < values.length := by
    exact_mod_cast List.length_pos_iff.2 hne
  have hpos' : (0 : ℚ) < values.length := by exact_mod_cast hpos
  obtain ⟨hsumLow, hsumHigh⟩ := hwithin.sum
  unfold intOf mean
  rw [if_neg hne]
  split
  · next hdvd =>
      obtain ⟨m, hm⟩ := hdvd
      have hquotient : values.sum / values.length = m := by
        rw [hm, Int.mul_ediv_cancel_left _ hpos.ne']
      refine ⟨m, ?_, ⟨?_, ?_⟩, ?_⟩
      · rw [hquotient]
        exact congrArg Except.ok (truncate_intCast m)
      · rw [hm] at hsumLow
        nlinarith
      · rw [hm] at hsumHigh
        nlinarith
      · have hzero : m * values.length - values.sum = 0 := by
          rw [hm]
          ring
        rw [hzero, abs_zero]
        exact hpos
  · -- the quotient is rounded between its two integer neighbours
    generalize hq : ((values.sum : ℚ) / (values.length : ℕ)) = q
    have hmul : q * values.length = values.sum := by
      rw [← hq, div_mul_cancel₀ _ hpos'.ne']
    have hfloor : low ≤ ⌊q⌋ := by
      rw [Int.le_floor, ← hq, le_div_iff₀ hpos']
      exact_mod_cast hsumLow
    have hceil : ⌈q⌉ ≤ high := by
      rw [Int.ceil_le, ← hq, div_le_iff₀ hpos']
      exact_mod_cast hsumHigh
    have hneighbours := Int.floor_le_ceil q
    rw [abs_lt] at hlow hhigh
    obtain ⟨x, hx, hle, hge⟩ := toDouble_between "integer division result too large for a float"
      (abs_lt.2 ⟨by omega, by omega⟩ : |⌊q⌋| < 2 ^ 53) (abs_lt.2 ⟨by omega, by omega⟩ : |⌈q⌉| < 2 ^ 53)
      (Int.floor_le q) (Int.le_ceil q)
    obtain ⟨hbelow, habove⟩ := truncate_between hle hge
    refine ⟨truncate x, ?_, ⟨hfloor.trans hbelow, habove.trans hceil⟩, ?_⟩
    · unfold trueDiv
      rw [hq, hx]
      rfl
    · have hlower : q - 1 < truncate x := by
        have hcast : ((⌊q⌋ : ℤ) : ℚ) ≤ truncate x := by exact_mod_cast hbelow
        linarith [Int.lt_floor_add_one q]
      have hupper : (truncate x : ℚ) < q + 1 := by
        have hcast : (truncate x : ℚ) ≤ ⌈q⌉ := by exact_mod_cast habove
        linarith [Int.ceil_lt_add_one q]
      have hreal : |(truncate x : ℚ) * values.length - values.sum| < values.length := by
        rw [← hmul, ← sub_mul, abs_mul, abs_of_pos hpos']
        have habs : |(truncate x : ℚ) - q| < 1 := by
          rw [abs_lt]
          exact ⟨by linarith, by linarith⟩
        nlinarith
      exact_mod_cast hreal

/-! ## The median -/

theorem Within.ordered {values : List ℤ} {low high : ℤ} (h : Within values low high) {i : ℕ}
    (hi : i < (ordered values).length) : low ≤ (ordered values)[i] ∧ (ordered values)[i] ≤ high :=
  h _ (mem_ordered.1 (List.getElem_mem hi))

/-- The median lies between the two values in the middle. -/
theorem intOf_median {values : List ℤ} {low high : ℤ} (hwithin : Within values low high)
    (hlow : |low| < 2 ^ 53) (hhigh : |high| < 2 ^ 53)
    (hleft : (values.length - 1) / 2 < (ordered values).length)
    (hright : values.length / 2 < (ordered values).length) :
    ∃ m, intOf median values = .ok m ∧ (ordered values)[(values.length - 1) / 2] ≤ m ∧
      m ≤ (ordered values)[values.length / 2] := by
  have hlength := length_ordered values
  have hne : values ≠ [] := by
    rw [← List.length_pos_iff]
    omega
  unfold intOf median
  rw [if_neg hne]
  simp only
  split
  · next hodd =>
      have hsame : (values.length - 1) / 2 = values.length / 2 := by omega
      refine ⟨(ordered values)[values.length / 2], ?_, ?_, le_rfl⟩
      · rw [List.getD_eq_getElem _ _ hright]
        exact congrArg Except.ok (truncate_intCast _)
      · simp only [hsame, le_refl]
  · next heven =>
      have hindex : values.length / 2 - 1 = (values.length - 1) / 2 := by omega
      have hmono := ordered_mono (by omega : (values.length - 1) / 2 ≤ values.length / 2) hright
      obtain ⟨hlowLeft, hhighLeft⟩ := hwithin.ordered hleft
      obtain ⟨hlowRight, hhighRight⟩ := hwithin.ordered hright
      rw [hindex, List.getD_eq_getElem _ _ hleft, List.getD_eq_getElem _ _ hright]
      generalize (ordered values)[(values.length - 1) / 2] = a at *
      generalize (ordered values)[values.length / 2] = b at *
      rw [abs_lt] at hlow hhigh
      have hcast : (a : ℚ) ≤ b := by exact_mod_cast hmono
      obtain ⟨x, hx, hle, hge⟩ := toDouble_between "integer division result too large for a float"
        (abs_lt.2 ⟨by omega, by omega⟩ : |a| < 2 ^ 53) (abs_lt.2 ⟨by omega, by omega⟩ : |b| < 2 ^ 53)
        (by push_cast; linarith : (a : ℚ) ≤ ((a + b : ℤ) : ℚ) / (2 : ℕ))
        (by push_cast; linarith : ((a + b : ℤ) : ℚ) / (2 : ℕ) ≤ (b : ℚ))
      obtain ⟨hbelow, habove⟩ := truncate_between hle hge
      refine ⟨truncate x, ?_, hbelow, habove⟩
      unfold trueDiv
      rw [hx]
      rfl

/-! ## The 95th percentile -/

/-- The position before it is made an index, with its three roundings. -/
theorem abs_position_sub_lt {n : ℚ} (hnonneg : 0 ≤ n) (hn : n < 2 ^ 47) :
    |nearest 53 (nearest 53 (95 / 100) * n) - 95 / 100 * n| < 1 / 20 := by
  have hfactor : |nearest 53 (95 / 100) - 95 / 100| ≤ 1 / 2 ^ 53 := by
    have herror := abs_nearest_sub_le 53 (95 / 100 : ℚ)
    rw [abs_of_pos (by norm_num : (0 : ℚ) < 95 / 100)] at herror
    exact herror.trans (by norm_num)
  generalize nearest 53 (95 / 100) = factor at *
  have hscaled : |factor * n - 95 / 100 * n| ≤ 1 / 2 ^ 6 := by
    rw [← sub_mul, abs_mul, abs_of_nonneg hnonneg]
    calc |factor - 95 / 100| * n ≤ 1 / 2 ^ 53 * 2 ^ 47 := mul_le_mul hfactor hn.le hnonneg (by norm_num)
      _ = 1 / 2 ^ 6 := by norm_num
  have hproduct : |nearest 53 (factor * n) - factor * n| ≤ 1 / 2 ^ 5 := by
    have hle : |factor * n| ≤ 2 ^ 48 := by
      rw [abs_le] at hscaled ⊢
      exact ⟨by linarith, by linarith⟩
    calc |nearest 53 (factor * n) - factor * n| ≤ |factor * n| / 2 ^ 53 := abs_nearest_sub_le 53 _
      _ ≤ 2 ^ 48 / 2 ^ 53 := div_le_div_of_nonneg_right hle (by norm_num)
      _ = 1 / 2 ^ 5 := by norm_num
  rw [abs_le] at hscaled hproduct
  rw [abs_lt]
  exact ⟨by linarith, by linarith⟩

/-- The index is within half a place of the exact position, so the clamps never bite. -/
theorem percentileIndex_bounds {length : ℕ} (hpos : 0 < length) (hlength : length < 2 ^ 47) :
    19 * (length : ℤ) ≤ 20 * percentileIndex length 95 + 29 ∧
      20 * percentileIndex length 95 + 9 ≤ 19 * length ∧ 0 ≤ percentileIndex length 95 ∧
        percentileIndex length 95 < length := by
  have hexact : nearest 53 (((length : ℤ) - 1 : ℤ) : ℚ) = (((length : ℤ) - 1 : ℤ) : ℚ) := by
    refine nearest_intCast ?_
    rw [abs_lt]
    exact ⟨by omega, by omega⟩
  have hposition := abs_position_sub_lt (n := (((length : ℤ) - 1 : ℤ) : ℚ))
    (by exact_mod_cast (by omega : (0 : ℤ) ≤ (length : ℤ) - 1))
    (by exact_mod_cast (by omega : (length : ℤ) - 1 < 2 ^ 47))
  unfold percentileIndex
  simp only [hexact]
  generalize nearest 53 (nearest 53 (95 / 100) * (((length : ℤ) - 1 : ℤ) : ℚ)) = position at *
  have hround := abs_halfEven_sub_le position
  generalize halfEven position = index at *
  rw [abs_le] at hround
  rw [abs_lt] at hposition
  push_cast at hposition
  have hlow : 19 * (length : ℤ) - 30 < 20 * index := by
    have hreal : (19 * (length : ℚ) - 30) < 20 * index := by linarith
    exact_mod_cast hreal
  have hhigh : 20 * index < 19 * (length : ℤ) - 8 := by
    have hreal : 20 * (index : ℚ) < 19 * (length : ℚ) - 8 := by linarith
    exact_mod_cast hreal
  have hclamp : min ((length : ℤ) - 1) (max 0 index) = index := by omega
  rw [hclamp]
  omega

/-- The 95th percentile is the value at the index. -/
theorem intOf_percentile {values : List ℤ} {low high : ℤ} (hwithin : Within values low high)
    (hlow : |low| < 2 ^ 53) (hhigh : |high| < 2 ^ 53)
    (hindex : (percentileIndex values.length 95).toNat < (ordered values).length) :
    intOf (fun values => percentile values 95) values =
      .ok (ordered values)[(percentileIndex values.length 95).toNat] := by
  have hne : values ≠ [] := by
    rw [← List.length_pos_iff, ← length_ordered]
    omega
  obtain ⟨hle, hge⟩ := hwithin.ordered hindex
  rw [abs_lt] at hlow hhigh
  have hvalue : percentile values 95 =
      .ok ((ordered values)[(percentileIndex values.length 95).toNat] : ℚ) := by
    unfold percentile
    rw [if_neg hne, List.getD_eq_getElem _ _ hindex, toDouble_intCast _ (abs_lt.2 ⟨by omega, by omega⟩)]
  unfold intOf
  simp only [if_neg hne, hvalue]
  exact congrArg Except.ok (truncate_intCast _)

/-! ## A column -/

/-- What the statistics say about the samples of a column. -/
structure ColumnStatistics.Describe (s : ColumnStatistics) (values : List ℤ) : Prop where
  /-- the exact mean, up to less than one -/
  mean_near : |s.mean * values.length - values.sum| < values.length
  within : ∀ low high, Within values low high →
    Within [s.mean, s.median, s.p95] low high
  /-- half of the samples are on either side -/
  median_low : values.length ≤ 2 * values.countP (· ≤ s.median)
  median_high : values.length ≤ 2 * values.countP (s.median ≤ ·)
  p95_mem : s.p95 ∈ values
  p95_low : 19 * values.length ≤ 20 * values.countP (· ≤ s.p95) + 9
  p95_high : values.length + 9 ≤ 20 * values.countP (s.p95 ≤ ·)
  median_le_p95 : s.median ≤ s.p95

/-- Finitely many values have bounds among themselves. -/
theorem exists_within {values : List ℤ} (hne : values ≠ []) :
    ∃ low ∈ values, ∃ high ∈ values, Within values low high := by
  have hpos : 0 < (ordered values).length := by
    rw [length_ordered]
    exact List.length_pos_iff.2 hne
  refine ⟨(ordered values)[0], mem_ordered.1 (List.getElem_mem _),
    (ordered values)[(ordered values).length - 1], mem_ordered.1 (List.getElem_mem _), fun v hv => ?_⟩
  obtain ⟨i, hi, rfl⟩ := List.mem_iff_getElem.1 (mem_ordered.2 hv)
  exact ⟨ordered_mono (Nat.zero_le i) hi, ordered_mono (by omega) (by omega)⟩

theorem columnStatistics_nil : columnStatistics [] = .ok ⟨0, 0, 0⟩ := rfl

/-- The statistics do not depend on the order of the samples. -/
theorem columnStatistics_perm {values values' : List ℤ} (h : values.Perm values') :
    columnStatistics values = columnStatistics values' := by
  have hnil : values = [] ↔ values' = [] := ⟨fun heq => (heq ▸ h).nil_eq.symm, fun heq => (heq ▸ h).eq_nil⟩
  unfold columnStatistics intOf mean median percentile
  simp only [h.length_eq, h.sum_eq, ordered_eq_of_perm h, hnil]

/-- **A column.** Below `2^53` the statistics are there and describe the samples. -/
theorem columnStatistics_describe {values : List ℤ} (hne : values ≠ []) (hlength : values.length < 2 ^ 47)
    (hsmall : ∀ v ∈ values, |v| < 2 ^ 53) :
    ∃ s, columnStatistics values = .ok s ∧ s.Describe values := by
  have hpos := List.length_pos_iff.2 hne
  have hsame := length_ordered values
  obtain ⟨hindexLow, hindexHigh, hindexNonneg, hindexLt⟩ := percentileIndex_bounds hpos hlength
  have hleft : (values.length - 1) / 2 < (ordered values).length := by omega
  have hright : values.length / 2 < (ordered values).length := by omega
  have hindex : (percentileIndex values.length 95).toNat < (ordered values).length := by omega
  obtain ⟨least, hleast, greatest, hgreatest, hall⟩ := exists_within hne
  obtain ⟨m, hm, hmean, hnear⟩ := intOf_mean hne hall (hsmall _ hleast) (hsmall _ hgreatest)
  obtain ⟨med, hmed, hmedLow, hmedHigh⟩ := intOf_median hall (hsmall _ hleast) (hsmall _ hgreatest)
    hleft hright
  have hp95 := intOf_percentile hall (hsmall _ hleast) (hsmall _ hgreatest) hindex
  refine ⟨⟨m, med, (ordered values)[(percentileIndex values.length 95).toNat]⟩, ?_, ?_⟩
  · unfold columnStatistics
    rw [hm, Fallible.ok_bind, hmed, Fallible.ok_bind, hp95]
    rfl
  · have hmono := ordered_mono
        (by omega : values.length / 2 ≤ (percentileIndex values.length 95).toNat) hindex
    have hbelow := lt_countP_le hleft hmedLow
    have habove := length_le_countP_ge hright hmedHigh
    have hp95Below := lt_countP_le hindex le_rfl
    have hp95Above := length_le_countP_ge hindex le_rfl
    obtain ⟨hleastMed, -⟩ := hall.ordered hleft
    obtain ⟨-, hmedGreatest⟩ := hall.ordered hright
    obtain ⟨hleastP95, hp95Greatest⟩ := hall.ordered hindex
    generalize hvalue : (ordered values)[(percentileIndex values.length 95).toNat] = p95 at *
    have hmedLow : values.length ≤ 2 * values.countP (· ≤ med) := by omega
    have hmedHigh : values.length ≤ 2 * values.countP (med ≤ ·) := by omega
    have hp95Low : 19 * values.length ≤ 20 * values.countP (· ≤ p95) + 9 := by omega
    have hp95High : values.length + 9 ≤ 20 * values.countP (p95 ≤ ·) := by omega
    have hmedP95 : med ≤ p95 := by omega
    refine ⟨hnear, fun low high hwithin => ?_, hmedLow, hmedHigh, ?_, hp95Low, hp95High, hmedP95⟩
    · obtain ⟨hlow, -⟩ := hwithin _ hleast
      obtain ⟨-, hhigh⟩ := hwithin _ hgreatest
      intro v hv
      simp only [List.mem_cons, List.not_mem_nil, or_false] at hv
      rcases hv with rfl | rfl | rfl
      · exact ⟨hlow.trans hmean.1, hmean.2.trans hhigh⟩
      · exact ⟨by omega, by omega⟩
      · exact ⟨hlow.trans hleastP95, hp95Greatest.trans hhigh⟩
    · rw [← hvalue]
      exact mem_ordered.1 (List.getElem_mem _)

/-- Larger ones are rounded: the percentile of this sample is below it. -/
example : columnStatistics [2 ^ 53 + 1] = .ok ⟨2 ^ 53 + 1, 2 ^ 53 + 1, 2 ^ 53⟩ := by decide +kernel

/-! ## A file -/

/-- The samples of `summarize`: the rows with `result_code` `0`. -/
def okOf (rows : List BenchmarkRow) : List BenchmarkRow := rows.filter fun row => row.resultCode == 0

/-- The statistics describe the samples; without any they are `0`. -/
def ColumnStatistics.Report (s : ColumnStatistics) (values : List ℤ) : Prop :=
  (values = [] → s = ⟨0, 0, 0⟩) ∧ (values ≠ [] → s.Describe values)

theorem columnStatistics_report {values : List ℤ} (hlength : values.length < 2 ^ 47)
    (hsmall : ∀ v ∈ values, |v| < 2 ^ 53) :
    ∃ s, columnStatistics values = .ok s ∧ s.Report values := by
  by_cases hnil : values = []
  · exact ⟨⟨0, 0, 0⟩, by rw [hnil, columnStatistics_nil], fun _ => rfl, fun hne => absurd hnil hne⟩
  · obtain ⟨s, hs, hdescribe⟩ := columnStatistics_describe hnil hlength hsmall
    exact ⟨s, hs, fun heq => absurd heq hnil, fun _ => hdescribe⟩

theorem summarizeCsv_fileText {rows : List BenchmarkRow} (h : ∀ row ∈ rows, row.Fits) :
    summarizeCsv (fileText rows) = ((summaryOf rows).statistics).mapError SummaryError.py := by
  unfold summarizeCsv
  rw [(summarizeFile_fileText h).1]
  rfl

theorem statistics_perm {rows rows' : List BenchmarkRow} (h : rows.Perm rows') :
    (summaryOf rows).statistics = (summaryOf rows').statistics := by
  have hok := h.filter fun row => row.resultCode == 0
  unfold Summary.statistics summaryOf
  simp only [columnStatistics_perm (hok.map BenchmarkRow.verifyNs),
    columnStatistics_perm (hok.map BenchmarkRow.e2eNs), h.length_eq, hok.length_eq]

/-- **What a summary says.** -/
theorem summary_describes {rows : List BenchmarkRow} (hfits : ∀ row ∈ rows, row.Fits)
    (hcount : rows.length < 2 ^ 47)
    (hsmall : ∀ row ∈ okOf rows, |row.verifyNs| < 2 ^ 53 ∧ |row.e2eNs| < 2 ^ 53) :
    ∃ s, summarizeCsv (fileText rows) = .ok s ∧
      s.rows = rows.length ∧ s.ok = (okOf rows).length ∧ s.ok + s.failed = s.rows ∧
      s.verifyNs.Report ((okOf rows).map BenchmarkRow.verifyNs) ∧
      s.e2eNs.Report ((okOf rows).map BenchmarkRow.e2eNs) ∧
      ∀ rows', rows.Perm rows' → summarizeCsv (fileText rows') = .ok s := by
  have hlength : (okOf rows).length ≤ rows.length := List.length_filter_le _ _
  obtain ⟨verify, hverify, hverifyReport⟩ :=
    columnStatistics_report (by rw [List.length_map]; omega)
      (List.forall_mem_map.2 fun row hrow => (hsmall row hrow).1)
  obtain ⟨e2e, he2e, he2eReport⟩ :=
    columnStatistics_report (by rw [List.length_map]; omega)
      (List.forall_mem_map.2 fun row hrow => (hsmall row hrow).2)
  have hstatistics : (summaryOf rows).statistics =
      .ok ⟨rows.length, (okOf rows).length, rows.length - (okOf rows).length, verify, e2e⟩ := by
    unfold Summary.statistics summaryOf
    simp only
    unfold okOf at hverify he2e
    rw [hverify, Fallible.ok_bind, he2e]
    rfl
  refine ⟨⟨rows.length, (okOf rows).length, rows.length - (okOf rows).length, verify, e2e⟩, ?_, rfl, rfl,
    Nat.add_sub_cancel' hlength, hverifyReport, he2eReport, fun rows' hperm => ?_⟩
  · rw [summarizeCsv_fileText hfits, hstatistics]
    rfl
  · rw [summarizeCsv_fileText fun row hrow => hfits row (hperm.mem_iff.2 hrow), ← statistics_perm hperm,
      hstatistics]
    rfl

/-- Two commands that were verified, and one that was refused. -/
def BenchmarkRow.demo : List BenchmarkRow :=
  [{ BenchmarkRow.prompt with e2eNs := 9 }, { BenchmarkRow.prompt with sequence := 1, e2eNs := 4 },
    { BenchmarkRow.prompt with sequence := 2, resultCode := 7 }]

theorem BenchmarkRow.fits_demo : ∀ row ∈ BenchmarkRow.demo, row.Fits := by
  have hrun : IsRunId BenchmarkRow.prompt.runId := isRunId_ofString (by simp) (by simp)
  have hmode : ∃ mode : BenchMode, BenchmarkRow.prompt.mode = mode.text := ⟨.appSig, rfl⟩
  simp only [BenchmarkRow.demo, List.forall_mem_cons]
  refine ⟨⟨hrun, hmode, ?_, ?_, ?_, ?_, ?_, ?_⟩, ⟨hrun, hmode, ?_, ?_, ?_, ?_, ?_, ?_⟩,
    ⟨hrun, hmode, ?_, ?_, ?_, ?_, ?_, ?_⟩, fun _ hnil => absurd hnil List.not_mem_nil⟩
  all_goals exact fitsField_of_lt (by decide)

theorem summary_describes_demo :
    ∃ s, summarizeCsv (fileText BenchmarkRow.demo) = .ok s ∧ s.ok = 2 ∧ s.failed = 1 ∧
      |s.e2eNs.mean * 2 - 13| < 2 ∧ s.e2eNs.p95 ∈ [9, 4] := by
  obtain ⟨s, hs, hrows, hok, hfailed, -, hreport, -⟩ := summary_describes BenchmarkRow.fits_demo (by decide)
    (by decide)
  have hdescribe := hreport.2 (by decide)
  have hlength : (okOf BenchmarkRow.demo).length = 2 := rfl
  have htotal : BenchmarkRow.demo.length = 3 := rfl
  exact ⟨s, hs, by omega, by omega, hdescribe.mean_near, hdescribe.p95_mem⟩

/-! ## The success rate of the report -/

/-- `ok_count / total * 100.0 if total else 0.0`. -/
def successRate (okCount total : ℕ) : ℚ :=
  if total = 0 then 0 else nearest 53 (nearest 53 (okCount / total) * 100)

/-- What `summarize_mode` returns for a file, with the latencies in place of their quantiles. -/
structure ModeSummary where
  samples : ℕ
  e2eNs : List ℤ
  successRate : ℚ

/-- `summarize_mode`: the latencies are taken first, and there have to be some. -/
def summarizeMode (frame : List CsvRecord) : Except PyError ModeSummary := do
  let values ← positiveLatency frame
  let okRows ← okRows frame
  pure ⟨frame.length, values, successRate okRows.length frame.length⟩

/-- `int(round(app_sig['samples'] * app_sig['success_rate'] / 100.0))` of `save_summary_markdown`. -/
def reportedOk (samples : ℕ) (successRate : ℚ) : ℤ :=
  halfEven (nearest 53 (nearest 53 (nearest 53 samples * successRate) / 100))

/-- Four roundings of a count are off by less than a half. -/
theorem abs_reported_sub_lt {okCount total : ℕ} (hpos : 0 < total) (hle : okCount ≤ total)
    (htotal : total < 2 ^ 49) :
    |nearest 53 (nearest 53 (total * nearest 53 (nearest 53 (okCount / total) * 100)) / 100) - okCount| <
      1 / 2 := by
  have hpos' : (0 : ℚ) < total := by exact_mod_cast hpos
  have hratio : (0 : ℚ) ≤ okCount / total := by positivity
  have hquotient : |nearest 53 ((okCount : ℚ) / total) - okCount / total| ≤
      ((1 + 1 / 2 ^ 53) ^ 1 - 1) * (okCount / total) := by
    refine abs_nearest_sub_le_pow (d := 0) hratio ?_
    rw [sub_self, abs_zero, pow_zero, sub_self, zero_mul]
  have hrate := abs_nearest_sub_le_pow (mul_nonneg hratio (by norm_num))
    (abs_mul_sub_mul_le (by norm_num : (0 : ℚ) ≤ 100) hquotient)
  have hproduct := abs_nearest_sub_le_pow (by positivity) (abs_mul_sub_mul_le hpos'.le hrate)
  have hcount := abs_nearest_sub_le_pow (by positivity)
    (abs_mul_sub_mul_le (by norm_num : (0 : ℚ) ≤ 1 / 100) hproduct)
  have hexact : (okCount : ℚ) / total * 100 * total * (1 / 100) = okCount := by
    field_simp
  rw [hexact, mul_comm _ (total : ℚ), mul_one_div] at hcount
  refine lt_of_le_of_lt hcount ?_
  have hok : (okCount : ℚ) ≤ 2 ^ 49 - 1 := by
    have hnat : okCount + 1 ≤ 2 ^ 49 := by omega
    have hcast : (okCount : ℚ) + 1 ≤ 2 ^ 49 := by exact_mod_cast hnat
    linarith
  calc ((1 + 1 / 2 ^ 53) ^ (1 + 1 + 1 + 1) - 1 : ℚ) * okCount ≤
        ((1 + 1 / 2 ^ 53) ^ (1 + 1 + 1 + 1) - 1) * (2 ^ 49 - 1) :=
          mul_le_mul_of_nonneg_left hok (by norm_num)
    _ < 1 / 2 := by norm_num

/-- The report names the number of ok rows the rate was made from. -/
theorem reportedOk_successRate {okCount total : ℕ} (hle : okCount ≤ total) (htotal : total < 2 ^ 49) :
    reportedOk total (successRate okCount total) = okCount := by
  rcases Nat.eq_zero_or_pos total with hzero | hpos
  · obtain rfl : okCount = 0 := by omega
    unfold reportedOk successRate
    rw [if_pos hzero, mul_zero, nearest_zero, zero_div, nearest_zero]
    exact halfEven_intCast 0
  · have hsamples : nearest 53 (total : ℚ) = total := by
      have hexact := nearest_intCast (p := 53) (n := (total : ℤ)) (by rw [Nat.abs_cast]; omega)
      exact_mod_cast hexact
    have herror := abs_reported_sub_lt hpos hle htotal
    unfold reportedOk successRate
    rw [if_neg hpos.ne', hsamples]
    generalize nearest 53 (nearest 53 (total * nearest 53 (nearest 53 (okCount / total) * 100)) / 100) =
      reported at *
    have hnear : |((okCount : ℤ) : ℚ) - reported| < 1 / 2 := by
      rw [abs_sub_comm]
      exact_mod_cast herror
    exact halfEven_eq hnear.le fun htie => absurd htie hnear.ne

theorem successRate_mono {total : ℕ} {m n : ℕ} (h : m ≤ n) : successRate m total ≤ successRate n total := by
  unfold successRate
  split
  · exact le_rfl
  · have hratio : (m : ℚ) / total ≤ n / total :=
      div_le_div_of_nonneg_right (by exact_mod_cast h) (by positivity)
    have hquotient := nearest_mono (p := 53) (by norm_num) hratio
    exact nearest_mono (by norm_num) (by linarith)

theorem successRate_zero (total : ℕ) : successRate 0 total = 0 := by
  unfold successRate
  simp

theorem successRate_self {total : ℕ} (hpos : 0 < total) : successRate total total = 100 := by
  have hpos' : (total : ℚ) ≠ 0 := by exact_mod_cast hpos.ne'
  have hone : nearest 53 (1 : ℚ) = 1 := by
    have hexact := nearest_intCast (p := 53) (n := 1) (by norm_num)
    exact_mod_cast hexact
  have hhundred : nearest 53 (100 : ℚ) = 100 := by
    have hexact := nearest_intCast (p := 53) (n := 100) (by norm_num)
    exact_mod_cast hexact
  unfold successRate
  rw [if_neg hpos.ne', div_self hpos', hone, one_mul, hhundred]

theorem successRate_lt_iff {m n total : ℕ} (hm : m ≤ total) (hn : n ≤ total) (htotal : total < 2 ^ 49) :
    successRate m total < successRate n total ↔ m < n := by
  refine ⟨fun hlt => ?_, fun hlt => lt_of_le_of_ne (successRate_mono hlt.le) fun heq => ?_⟩
  · by_contra hge
    exact absurd (successRate_mono (not_lt.1 hge)) (not_le.2 hlt)
  · -- equal rates report equal counts
    have hcounts : (m : ℤ) = n := by
      rw [← reportedOk_successRate hm htotal, heq, reportedOk_successRate hn htotal]
    omega

theorem summarizeMode_toCsv {rows : List BenchmarkRow} (h : ∃ row ∈ rows, 0 < row.e2eNs) :
    summarizeMode (rows.map BenchmarkRow.toCsv) =
      .ok ⟨rows.length, (rows.filter fun row => decide (0 < row.e2eNs)).map BenchmarkRow.e2eNs,
        successRate (okOf rows).length rows.length⟩ := by
  unfold summarizeMode okOf
  rw [positiveLatency_toCsv h, Fallible.ok_bind, okRows_toCsv, Fallible.ok_bind, List.length_map,
    List.length_map]
  rfl

/-- A file is summarised iff it has a positive latency. -/
theorem summarizeMode_raises_iff {rows : List BenchmarkRow} :
    Fallible.Raises (summarizeMode (rows.map BenchmarkRow.toCsv)) ↔ ∀ row ∈ rows, row.e2eNs ≤ 0 := by
  by_cases hsome : ∃ row ∈ rows, 0 < row.e2eNs
  · rw [summarizeMode_toCsv hsome]
    refine iff_of_false (by simp [Fallible.Raises]) ?_
    obtain ⟨row, hrow, hpositive⟩ := hsome
    exact fun hall => absurd (hall row hrow) (not_le.2 hpositive)
  · refine iff_of_true ?_ ?_
    · exact Fallible.bind_raises_iff.2 (Or.inl (positiveLatency_raises hsome))
    · intro row hrow
      by_contra hpositive
      exact hsome ⟨row, hrow, not_le.1 hpositive⟩

theorem summarizeMode_eq_ok {rows : List BenchmarkRow} {s : ModeSummary}
    (h : summarizeMode (rows.map BenchmarkRow.toCsv) = .ok s) :
    rows ≠ [] ∧ s.samples = rows.length ∧
      s.successRate = successRate (okOf rows).length rows.length := by
  have hsome : ∃ row ∈ rows, 0 < row.e2eNs := by
    by_contra hnone
    obtain ⟨exc, hexc⟩ : Fallible.Raises (summarizeMode (rows.map BenchmarkRow.toCsv)) :=
      Fallible.bind_raises_iff.2 (Or.inl (positiveLatency_raises hnone))
    exact absurd (hexc.symm.trans h) (by simp)
  obtain rfl := Except.ok.inj ((summarizeMode_toCsv hsome).symm.trans h)
  obtain ⟨row, hrow, -⟩ := hsome
  exact ⟨List.ne_nil_of_mem hrow, rfl, rfl⟩

/-- **The success rate keeps the count.** `summarize_mode` raises iff no latency is positive. Where it
    returns, below `2^49` rows, the report states the number of ok rows the rate was made from; the rate
    grows with every one of them, and is `0` or `100` percent only if none or all are. -/
theorem success_rate_faithful {rows : List BenchmarkRow} (hcount : rows.length < 2 ^ 49) :
    (Fallible.Raises (summarizeMode (rows.map BenchmarkRow.toCsv)) ↔ ∀ row ∈ rows, row.e2eNs ≤ 0) ∧
      ∀ s, summarizeMode (rows.map BenchmarkRow.toCsv) = .ok s →
        s.samples = rows.length ∧ reportedOk s.samples s.successRate = (okOf rows).length ∧
        0 ≤ s.successRate ∧ s.successRate ≤ 100 ∧
        (s.successRate = 0 ↔ okOf rows = []) ∧ (s.successRate = 100 ↔ okOf rows = rows) ∧
        ∀ (rows' : List BenchmarkRow) (s' : ModeSummary), rows'.length = rows.length →
          summarizeMode (rows'.map BenchmarkRow.toCsv) = .ok s' →
          (s.successRate < s'.successRate ↔ (okOf rows).length < (okOf rows').length) := by
  refine ⟨summarizeMode_raises_iff, fun s hs => ?_⟩
  obtain ⟨hne, hsamples, hrate⟩ := summarizeMode_eq_ok hs
  have hpos := List.length_pos_iff.2 hne
  have hle : (okOf rows).length ≤ rows.length := List.length_filter_le _ _
  have hnonneg : 0 ≤ s.successRate := by
    rw [hrate, ← successRate_zero rows.length]
    exact successRate_mono (Nat.zero_le _)
  have hhundred : s.successRate ≤ 100 := by
    rw [hrate, ← successRate_self hpos]
    exact successRate_mono hle
  have hnone := successRate_lt_iff (Nat.zero_le _) hle hcount
  have hall := successRate_lt_iff hle le_rfl hcount
  rw [successRate_zero, ← hrate] at hnone
  rw [successRate_self hpos, ← hrate] at hall
  refine ⟨hsamples, ?_, hnonneg, hhundred, ?_, ?_, fun rows' s' hsame hs' => ?_⟩
  · rw [hsamples, hrate]
    exact reportedOk_successRate hle hcount
  · rw [← List.length_eq_zero_iff, ← Nat.le_zero, ← not_lt, ← hnone, not_lt]
    exact ⟨fun hzero => hzero.le, fun hzero => le_antisymm hzero hnonneg⟩
  · have hkeeps : okOf rows = rows ↔ rows.length ≤ (okOf rows).length :=
      ⟨fun heq => heq.symm ▸ le_rfl, fun hge => List.filter_sublist.eq_of_length (le_antisymm hle hge)⟩
    rw [hkeeps, ← not_lt, ← hall, not_lt]
    exact ⟨fun heq => heq.symm.le, fun hge => le_antisymm hhundred hge⟩
  · obtain ⟨-, -, hrate'⟩ := summarizeMode_eq_ok hs'
    have hle' : (okOf rows').length ≤ rows.length := hsame ▸ List.length_filter_le _ _
    rw [hrate, hrate', hsame]
    exact successRate_lt_iff hle hle' hcount

/-- Two of three rows are ok; had one of them been refused, the rate would be smaller. A file with the
    refused row alone is not summarised. -/
theorem success_rate_faithful_demo :
    let fewer := BenchmarkRow.demo.map fun row =>
      if row.sequence = 1 then { row with resultCode := 7 } else row
    let refused := BenchmarkRow.demo.filter fun row => row.resultCode = 7
    (∃ s s', summarizeMode (BenchmarkRow.demo.map BenchmarkRow.toCsv) = .ok s ∧
      summarizeMode (fewer.map BenchmarkRow.toCsv) = .ok s' ∧ reportedOk 3 s.successRate = 2 ∧
      s.successRate ≠ 100 ∧ s.successRate ≠ 0 ∧ s'.successRate < s.successRate) ∧
      Fallible.Raises (summarizeMode (refused.map BenchmarkRow.toCsv)) := by
  intro fewer refused
  have hpositive : ∃ row ∈ BenchmarkRow.demo, 0 < row.e2eNs := ⟨_, List.mem_cons_self, by decide⟩
  have hpositive' : ∃ row ∈ fewer, 0 < row.e2eNs := ⟨_, List.mem_cons_self, by decide⟩
  obtain ⟨-, hdemo⟩ := success_rate_faithful (show BenchmarkRow.demo.length < 2 ^ 49 by decide)
  obtain ⟨-, hreported, -, -, hzero, hall, -⟩ := hdemo _ (summarizeMode_toCsv hpositive)
  obtain ⟨-, hfewer⟩ := success_rate_faithful (show fewer.length < 2 ^ 49 by decide)
  obtain ⟨-, -, -, -, -, -, hless⟩ := hfewer _ (summarizeMode_toCsv hpositive')
  obtain ⟨hraises, -⟩ := success_rate_faithful (show refused.length < 2 ^ 49 by decide)
  refine ⟨⟨_, _, summarizeMode_toCsv hpositive, summarizeMode_toCsv hpositive', hreported,
    fun heq => absurd (hall.1 heq) (by decide), fun heq => absurd (hzero.1 heq) (by decide), ?_⟩, ?_⟩
  · exact (hless BenchmarkRow.demo _ rfl (summarizeMode_toCsv hpositive)).2 (by decide)
  · exact hraises.2 (by decide)

end PqcSecureComm
