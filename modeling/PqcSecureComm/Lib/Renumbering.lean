import Mathlib

set_option autoImplicit false

/-! # Streams that are numbered twice

A numbered stream loses some of its items on the way, and what is left is numbered again from `0`. The
new number of an item is its position among the survivors, and never more than its old one; the two agree
iff everything in front of the item survived (`getElem_eq_iff`). -/

namespace Renumbering

/-- The old numbers of the survivors are at least their positions. -/
theorem le_getElem {ns : List ℕ} (h : ns.Pairwise (· < ·)) {k : ℕ} (hk : k < ns.length) :
    k ≤ ns[k] := by
  induction k with
  | zero => exact Nat.zero_le _
  | succ k ih =>
      have hprev := ih (Nat.lt_of_succ_lt hk)
      have hlt := List.pairwise_iff_getElem.1 h k (k + 1) (Nat.lt_of_succ_lt hk) hk (Nat.lt_succ_self k)
      omega

/-- **The numbers agree iff nothing was lost before.** -/
theorem getElem_eq_iff {ns : List ℕ} (h : ns.Pairwise (· < ·)) {k : ℕ} (hk : k < ns.length) :
    ns[k] = k ↔ ∀ j < ns[k], j ∈ ns := by
  have hmono : ∀ {i j : ℕ} (hi : i < ns.length) (hj : j < ns.length), ns[i] < ns[j] → i < j := by
    intro i j hi hj hlt
    by_contra hle
    rcases Nat.lt_or_eq_of_le (not_lt.1 hle) with hji | rfl
    · exact absurd (List.pairwise_iff_getElem.1 h j i hj hi hji) (by omega)
    · exact lt_irrefl _ hlt
  refine ⟨?_, ?_⟩
  · -- below `k` there are `k` numbers, increasing, so there is no room for a gap
    intro hkk
    have hall : ∀ i, i ≤ k → (hi : i < ns.length) → ns[k - i] = k - i := by
      intro i
      induction i with
      | zero => exact fun _ _ => hkk
      | succ i ih =>
          intro hik hi
          have hprev := ih (by omega) (by omega)
          have hlt := List.pairwise_iff_getElem.1 h (k - (i + 1)) (k - i) (by omega) (by omega) (by omega)
          have hge := le_getElem h (k := k - (i + 1)) (by omega)
          omega
    intro j hj
    rw [hkk] at hj
    have hat := hall (k - j) (by omega) (by omega)
    have hindex : k - (k - j) = j := by omega
    simp only [hindex] at hat
    exact List.mem_of_getElem hat
  · -- all smaller numbers stand in front of position `k`, each at one of its own
    intro hbelow
    refine le_antisymm ?_ (le_getElem h hk)
    have hsubset : Finset.range ns[k] ⊆ (ns.take k).toFinset := by
      intro j hj
      obtain ⟨i, hi, hij⟩ := List.getElem_of_mem (hbelow j (Finset.mem_range.1 hj))
      have hik : i < k := hmono hi hk (by rw [hij]; exact Finset.mem_range.1 hj)
      rw [List.mem_toFinset, ← hij]
      exact List.mem_take_iff_getElem.2 ⟨i, by omega, rfl⟩
    calc ns[k] = (Finset.range ns[k]).card := (Finset.card_range _).symm
      _ ≤ (ns.take k).toFinset.card := Finset.card_le_card hsubset
      _ ≤ (ns.take k).length := List.toFinset_card_le _
      _ ≤ k := List.length_take_le k ns

/-- As many survivors as there were items are all of them. -/
theorem eq_range {ns : List ℕ} (h : ns.Pairwise (· < ·)) {count : ℕ} (hlt : ∀ n ∈ ns, n < count)
    (hlength : count ≤ ns.length) : ns = List.range count := by
  have hsubset : ns ⊆ List.range count := fun n hn => List.mem_range.2 (hlt n hn)
  have hsubperm := List.subperm_of_subset (h.imp ne_of_lt) hsubset
  have hperm := hsubperm.perm_of_length_le (by rwa [List.length_range])
  exact hperm.eq_of_pairwise' h List.pairwise_lt_range

end Renumbering
