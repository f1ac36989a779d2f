import Mathlib

set_option autoImplicit false

/-! # Maps written entry by entry

A map into which a list of entries is written one after the other, each one overwriting what its key
held before. What a key holds in the end is decided by the last of its entries (`lookup_overwrite`),
so that entries of other keys can be inserted, deleted and moved. -/

namespace LastWins

variable {κ ν α β : Type} [DecidableEq κ]

/-- Write the entries into the map, in order. -/
def overwrite (m : Finmap fun _ : κ => ν) (kvs : List (κ × ν)) : Finmap fun _ : κ => ν :=
  kvs.foldl (fun m kv => m.insert kv.1 kv.2) m

/-- **The last entry of a key decides.** -/
theorem lookup_overwrite (k : κ) (kvs : List (κ × ν)) :
    (overwrite ∅ kvs).lookup k = ((kvs.filter fun kv => kv.1 = k).getLast?).map Prod.snd := by
  induction kvs using List.reverseRecOn with
  | nil => rfl
  | append_singleton kvs kv ih =>
      have hwrite : overwrite ∅ (kvs ++ [kv]) = (overwrite ∅ kvs).insert kv.1 kv.2 :=
        List.foldl_append
      rw [hwrite, List.filter_append]
      by_cases hk : kv.1 = k
      · subst hk
        rw [Finmap.lookup_insert, List.filter_cons_of_pos (by simp), List.filter_nil,
          List.getLast?_concat]
        rfl
      · rw [Finmap.lookup_insert_of_ne _ fun h => hk h.symm, ih,
          List.filter_cons_of_neg (by simpa using hk), List.filter_nil, List.append_nil]

theorem lookup_overwrite_eq_some {k : κ} {v : ν} {kvs : List (κ × ν)}
    (h : (overwrite ∅ kvs).lookup k = some v) : (k, v) ∈ kvs := by
  rw [lookup_overwrite, Option.map_eq_some_iff] at h
  obtain ⟨kv, hlast, rfl⟩ := h
  obtain ⟨hmem, hk⟩ := List.mem_filter.1 (List.mem_of_getLast? hlast)
  obtain rfl := of_decide_eq_true hk
  exact hmem

/-- A key that was written holds something. -/
theorem exists_lookup_overwrite {kv : κ × ν} {kvs : List (κ × ν)} (h : kv ∈ kvs) :
    ∃ v, (overwrite ∅ kvs).lookup kv.1 = some v := by
  have hmem : kv ∈ kvs.filter fun kv' => kv'.1 = kv.1 := List.mem_filter.2 ⟨h, by simp⟩
  have hne := List.ne_nil_of_mem hmem
  rw [lookup_overwrite, List.getLast?_eq_some_getLast hne]
  exact ⟨_, rfl⟩

/-! ## Entries written for other data -/

theorem exists_of_mem_of_forall₂ {R : α → β → Prop} {as : List α} {bs : List β}
    (h : List.Forall₂ R as bs) {a : α} (ha : a ∈ as) : ∃ b ∈ bs, R a b := by
  induction h with
  | nil => exact absurd ha (by simp)
  | @cons a' b as bs hab _ ih =>
      rcases List.mem_cons.1 ha with rfl | hrest
      · exact ⟨b, List.mem_cons_self, hab⟩
      · obtain ⟨b', hb', hR⟩ := ih hrest
        exact ⟨b', List.mem_cons_of_mem b hb', hR⟩

/-- Lists related element by element end in related elements. -/
theorem getLast?_of_forall₂ {R : α → β → Prop} {as : List α} {bs : List β}
    (h : List.Forall₂ R as bs) :
    (as.getLast? = none ∧ bs.getLast? = none) ∨
      ∃ a b, as.getLast? = some a ∧ bs.getLast? = some b ∧ R a b := by
  rcases List.eq_nil_or_concat as with rfl | ⟨as', a, rfl⟩
  · rw [List.forall₂_nil_left_iff.1 h]
    exact Or.inl ⟨rfl, rfl⟩
  · rcases List.eq_nil_or_concat bs with rfl | ⟨bs', b, rfl⟩
    · exact absurd (List.Forall₂.length_eq h) (by simp)
    · have hreverse := List.forall₂_reverse_iff.2 h
      simp only [List.concat_eq_append, List.reverse_append, List.reverse_cons, List.reverse_nil,
        List.nil_append, List.singleton_append, List.forall₂_cons] at hreverse
      exact Or.inr ⟨a, b, by simp, by simp, hreverse.1⟩

end LastWins
