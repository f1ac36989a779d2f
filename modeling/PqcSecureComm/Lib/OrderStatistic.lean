import Mathlib

set_option autoImplicit false

/-! # Order statistics

The values of a list in ascending order. More than `i` of them are at or below the one at index `i`, and
all but `i` at or above it. -/

namespace OrderStatistic

variable {α : Type} [LinearOrder α]

def ordered (xs : List α) : List α := xs.insertionSort (· ≤ ·)

@[simp]
theorem length_ordered (xs : List α) : (ordered xs).length = xs.length := List.length_insertionSort _ xs

@[simp]
theorem mem_ordered {xs : List α} {x : α} : x ∈ ordered xs ↔ x ∈ xs := List.mem_insertionSort _

theorem perm_ordered (xs : List α) : (ordered xs).Perm xs := List.perm_insertionSort _ xs

/-- The order they came in does not matter. -/
theorem ordered_eq_of_perm {xs ys : List α} (h : xs.Perm ys) : ordered xs = ordered ys := by
  have hperm : (ordered xs).Perm (ordered ys) := (perm_ordered xs).trans (h.trans (perm_ordered ys).symm)
  exact hperm.eq_of_sortedLE List.sortedLE_insertionSort List.sortedLE_insertionSort

theorem ordered_mono {xs : List α} {i j : ℕ} (hij : i ≤ j) (hj : j < (ordered xs).length) :
    (ordered xs)[i] ≤ (ordered xs)[j] :=
  List.sortedLE_iff_getElem_le_getElem_of_le.1 List.sortedLE_insertionSort hij

/-! ## Counting -/

/-- More than `i` values are at or below every bound of the one at `i`. -/
theorem lt_countP_le {xs : List α} {i : ℕ} (hi : i < (ordered xs).length) {x : α}
    (hx : (ordered xs)[i] ≤ x) : i < xs.countP (· ≤ x) := by
  have htake : ((ordered xs).take (i + 1)).countP (· ≤ x) = ((ordered xs).take (i + 1)).length := by
    rw [List.countP_eq_length]
    intro y hy
    obtain ⟨j, hj, rfl⟩ := List.mem_iff_getElem.1 hy
    rw [List.length_take] at hj
    rw [List.getElem_take]
    exact decide_eq_true ((ordered_mono (by omega) hi).trans hx)
  rw [List.length_take] at htake
  calc i < ((ordered xs).take (i + 1)).countP (· ≤ x) := by omega
    _ ≤ (ordered xs).countP (· ≤ x) := (List.take_sublist _ _).countP_le
    _ = xs.countP (· ≤ x) := (perm_ordered xs).countP_eq _

/-- All but `i` values are at or above every bound of the one at `i`. -/
theorem length_le_countP_ge {xs : List α} {i : ℕ} (hi : i < (ordered xs).length) {x : α}
    (hx : x ≤ (ordered xs)[i]) : xs.length ≤ xs.countP (x ≤ ·) + i := by
  have hdrop : ((ordered xs).drop i).countP (x ≤ ·) = ((ordered xs).drop i).length := by
    rw [List.countP_eq_length]
    intro y hy
    obtain ⟨j, hj, rfl⟩ := List.mem_iff_getElem.1 hy
    rw [List.length_drop] at hj
    rw [List.getElem_drop]
    exact decide_eq_true (hx.trans (ordered_mono (by omega) (by omega)))
  rw [List.length_drop, length_ordered] at hdrop
  have hle : ((ordered xs).drop i).countP (x ≤ ·) ≤ xs.countP (x ≤ ·) := by
    rw [← (perm_ordered xs).countP_eq]
    exact (List.drop_sublist _ _).countP_le
  omega

end OrderStatistic
