import Mathlib

set_option autoImplicit false

/-! # Sliding windows over an ordered group

A checker that must never accept a value twice may refuse everything at or below `max - W`, where
`max` is the greatest value accepted so far. `Admits` is the verdict of the checker that remembers
its whole history `H`; `recent` is the part of the history above the cutoff, and the facts below say
that, next to the maximum, it is all a checker needs to remember: they give the verdict
(`admits_iff_recent`), the pruned set can be maintained value by value (`recent_insert`), and over the
integers it never has more than `W` elements (`card_recent_le`). Verdicts are stable: what is refused
once is refused forever (`not_admits_offers`), and they depend only on what was *offered*, not on what
was accepted (`admits_offers_iff`). -/

namespace SlidingWindow

variable {G : Type} [AddCommGroup G] [LinearOrder G]

/-- `s` is not in the history, and above `max - W` if the history is not empty. -/
def Admits (W : G) (H : Finset G) (s : G) : Prop :=
  s ∉ H ∧ ∀ hH : H.Nonempty, H.max' hH - W < s

instance (W : G) (H : Finset G) (s : G) : Decidable (Admits W H s) :=
  inferInstanceAs (Decidable (_ ∧ _))

/-- The history after `s` was offered. -/
def offer (W : G) (H : Finset G) (s : G) : Finset G :=
  if Admits W H s then insert s H else H

/-- The history after a list of offers, in order. -/
def offers (W : G) (H : Finset G) (l : List G) : Finset G := l.foldl (offer W) H

/-- The part of the history above the cutoff. -/
def recent (W : G) (H : Finset G) : Finset G := {a ∈ H | ∀ hH : H.Nonempty, H.max' hH - W < a}

@[simp]
theorem offers_nil (W : G) (H : Finset G) : offers W H [] = H := rfl

@[simp]
theorem offers_cons (W : G) (H : Finset G) (s : G) (l : List G) :
    offers W H (s :: l) = offers W (offer W H s) l := rfl

theorem offers_append (W : G) (H : Finset G) (l₁ l₂ : List G) :
    offers W H (l₁ ++ l₂) = offers W (offers W H l₁) l₂ := List.foldl_append

theorem offer_of_admits {W : G} {H : Finset G} {s : G} (h : Admits W H s) :
    offer W H s = insert s H := if_pos h

theorem offer_of_not_admits {W : G} {H : Finset G} {s : G} (h : ¬ Admits W H s) :
    offer W H s = H := if_neg h

theorem subset_offer (W : G) (H : Finset G) (s : G) : H ⊆ offer W H s := by
  by_cases h : Admits W H s
  · rw [offer_of_admits h]
    exact Finset.subset_insert s H
  · rw [offer_of_not_admits h]

theorem subset_offers (W : G) (H : Finset G) (l : List G) : H ⊆ offers W H l := by
  induction l generalizing H with
  | nil => exact Finset.Subset.refl H
  | cons s l ih => exact (subset_offer W H s).trans (ih (offer W H s))

/-- Only what was offered enters the history. -/
theorem mem_of_mem_offers {W : G} {H : Finset G} {l : List G} {a : G} (h : a ∈ offers W H l) :
    a ∈ H ∨ a ∈ l := by
  induction l generalizing H with
  | nil => exact Or.inl h
  | cons s l ih =>
      rcases ih h with hoffer | hl
      · by_cases hs : Admits W H s
        · rw [offer_of_admits hs] at hoffer
          rcases Finset.mem_insert.1 hoffer with rfl | hH
          · exact Or.inr List.mem_cons_self
          · exact Or.inl hH
        · rw [offer_of_not_admits hs] at hoffer
          exact Or.inl hoffer
      · exact Or.inr (List.mem_cons_of_mem s hl)

theorem offers_subset_toFinset (W : G) (l : List G) : offers W ∅ l ⊆ l.toFinset := by
  intro a ha
  exact List.mem_toFinset.2 ((mem_of_mem_offers ha).resolve_left (Finset.notMem_empty a))

theorem mem_recent {W : G} {H : Finset G} (hH : H.Nonempty) {a : G} :
    a ∈ recent W H ↔ a ∈ H ∧ H.max' hH - W < a := by
  rw [recent, Finset.mem_filter]
  exact and_congr_right fun _ => ⟨fun h => h hH, fun h _ => h⟩

@[simp]
theorem recent_empty (W : G) : recent W (∅ : Finset G) = ∅ := rfl

theorem recent_subset (W : G) (H : Finset G) : recent W H ⊆ H := Finset.filter_subset _ _

/-- **Forgetting is invisible.** The greatest value and the recent part give the verdict of the whole
    history. -/
theorem admits_iff_recent {W : G} {H : Finset G} (hH : H.Nonempty) {s : G} :
    Admits W H s ↔ s ∉ recent W H ∧ H.max' hH - W < s := by
  refine ⟨?_, ?_⟩
  · rintro ⟨hs, hcut⟩
    exact ⟨fun hrecent => hs (recent_subset W H hrecent), hcut hH⟩
  · rintro ⟨hs, hcut⟩
    exact ⟨fun hmem => hs ((mem_recent hH).2 ⟨hmem, hcut⟩), fun _ => hcut⟩

/-- An admitted value is not admitted again. -/
theorem not_admits_of_mem {W : G} {H : Finset G} {s : G} (h : s ∈ H) : ¬ Admits W H s :=
  fun hs => hs.1 h

/-- A value offered once, whatever the verdict was, is refused from then on. -/
theorem not_admits_offer_self (W : G) (H : Finset G) (s : G) : ¬ Admits W (offer W H s) s := by
  by_cases h : Admits W H s
  · rw [offer_of_admits h]
    exact not_admits_of_mem (Finset.mem_insert_self s H)
  · rwa [offer_of_not_admits h]

variable [IsOrderedAddMonoid G]

/-- The cutoff in terms of the members of the history. -/
theorem admits_iff {W : G} {H : Finset G} {s : G} :
    Admits W H s ↔ s ∉ H ∧ ∀ h ∈ H, h - W < s := by
  refine and_congr_right fun _ => ⟨fun hmax h hh => ?_, fun hall hH => ?_⟩
  · have hle : h ≤ H.max' ⟨h, hh⟩ := H.le_max' h hh
    exact lt_of_le_of_lt (sub_le_sub_right hle W) (hmax ⟨h, hh⟩)
  · exact hall _ (H.max'_mem hH)

/-! ## Maintaining the recent part -/

theorem max'_mem_recent {W : G} (hW : 0 < W) {H : Finset G} (hH : H.Nonempty) :
    H.max' hH ∈ recent W H :=
  (mem_recent hH).2 ⟨H.max'_mem hH, sub_lt_self _ hW⟩

/-- A new value raises the cutoff and prunes what falls below it; nothing already pruned is missed. -/
theorem recent_insert (W : G) {H : Finset G} (hH : H.Nonempty) (s : G) :
    recent W (insert s H) = {a ∈ insert s (recent W H) | max (H.max' hH) s - W < a} := by
  ext a
  rw [mem_recent (Finset.insert_nonempty s H), Finset.max'_insert s H hH, max_comm s,
    Finset.mem_filter, Finset.mem_insert, Finset.mem_insert, mem_recent hH]
  refine ⟨?_, ?_⟩
  · rintro ⟨hmem, hcut⟩
    refine ⟨hmem.imp id fun ha => ⟨ha, ?_⟩, hcut⟩
    exact lt_of_le_of_lt (sub_le_sub_right (le_max_left _ s) W) hcut
  · rintro ⟨hmem, hcut⟩
    exact ⟨hmem.imp id And.left, hcut⟩

theorem recent_singleton {W : G} (hW : 0 < W) (s : G) : recent W {s} = {s} := by
  refine Finset.Subset.antisymm (recent_subset W {s}) ?_
  rw [Finset.singleton_subset_iff, mem_recent (Finset.singleton_nonempty s), Finset.max'_singleton]
  exact ⟨Finset.mem_singleton_self s, sub_lt_self s hW⟩

/-! ## Verdicts are stable -/

theorem not_admits_of_subset {W : G} {H H' : Finset G} {s : G} (hsub : H ⊆ H')
    (h : ¬ Admits W H s) : ¬ Admits W H' s := by
  rw [admits_iff] at h ⊢
  exact fun hs => h ⟨fun hsH => hs.1 (hsub hsH), fun a ha => hs.2 a (hsub ha)⟩

/-- What was refused, or offered at all, is refused after any further offers. -/
theorem not_admits_offers {W : G} {H : Finset G} {s : G} (h : ¬ Admits W H s) (l : List G) :
    ¬ Admits W (offers W H l) s :=
  not_admits_of_subset (subset_offers W H l) h

/-- Whatever was offered is admitted or below something admitted. -/
theorem exists_le_of_mem {W : G} (hW : 0 < W) {l : List G} {t : G} (ht : t ∈ l) :
    ∃ h ∈ offers W ∅ l, t ≤ h := by
  obtain ⟨pre, post, rfl⟩ := List.append_of_mem ht
  rw [offers_append, offers_cons]
  by_cases hadm : Admits W (offers W ∅ pre) t
  · refine ⟨t, subset_offers W _ post ?_, le_rfl⟩
    rw [offer_of_admits hadm]
    exact Finset.mem_insert_self _ _
  · rw [offer_of_not_admits hadm]
    by_contra hnone
    have hbelow : ∀ h ∈ offers W ∅ pre, h < t := by
      intro h hh
      exact lt_of_not_ge fun hle => hnone ⟨h, subset_offers W _ post hh, hle⟩
    refine hadm (admits_iff.2 ⟨fun hmem => lt_irrefl t (hbelow t hmem), fun h hh => ?_⟩)
    exact (sub_lt_self h hW).trans (hbelow h hh)

/-- **Closed form.** From the empty history, `s` is admitted iff every value offered before, accepted
    or not, differs from `s` and is less than `s + W`. -/
theorem admits_offers_iff {W : G} (hW : 0 < W) {l : List G} {s : G} :
    Admits W (offers W ∅ l) s ↔ ∀ t ∈ l, t ≠ s ∧ t - W < s := by
  refine ⟨?_, ?_⟩
  · intro hs t ht
    obtain ⟨h, hh, hth⟩ := exists_le_of_mem hW ht
    have hcut : h - W < s := (admits_iff.1 hs).2 h hh
    refine ⟨fun heq => ?_, lt_of_le_of_lt (sub_le_sub_right hth W) hcut⟩
    subst heq
    obtain ⟨pre, post, rfl⟩ := List.append_of_mem ht
    rw [offers_append, offers_cons] at hs
    exact not_admits_offers (not_admits_offer_self W _ t) post hs
  · intro hall
    have hoffered : ∀ h ∈ offers W ∅ l, h ∈ l := fun h hh =>
      List.mem_toFinset.1 (offers_subset_toFinset W l hh)
    exact admits_iff.2 ⟨fun hmem => (hall s (hoffered s hmem)).1 rfl,
      fun h hh => (hall h (hoffered h hh)).2⟩

/-- A larger window admits whatever a smaller one does, though their histories differ. -/
theorem admits_offers_mono {W W' : G} (hW : 0 < W) (hle : W ≤ W') {l : List G} {s : G}
    (h : Admits W (offers W ∅ l) s) : Admits W' (offers W' ∅ l) s := by
  rw [admits_offers_iff hW] at h
  rw [admits_offers_iff (hW.trans_le hle)]
  intro t ht
  obtain ⟨hne, hcut⟩ := h t ht
  exact ⟨hne, lt_of_le_of_lt (sub_le_sub_left hle t) hcut⟩

/-! ## Only what was offered matters -/

theorem offers_nonempty {W : G} (hW : 0 < W) {l : List G} (h : l.toFinset.Nonempty) :
    (offers W ∅ l).Nonempty := by
  obtain ⟨t, ht⟩ := h
  obtain ⟨a, ha, -⟩ := exists_le_of_mem hW (List.mem_toFinset.1 ht)
  exact ⟨a, ha⟩

/-- The greatest value offered is admitted when it comes first. -/
theorem max'_offers {W : G} (hW : 0 < W) {l : List G} (hl : l.toFinset.Nonempty) :
    (offers W ∅ l).max' (offers_nonempty hW hl) = l.toFinset.max' hl := by
  refine le_antisymm ?_ ?_
  · exact Finset.max'_subset _ (offers_subset_toFinset W l)
  · obtain ⟨a, ha, hle⟩ := exists_le_of_mem hW (List.mem_toFinset.1 (l.toFinset.max'_mem hl))
    exact hle.trans ((offers W ∅ l).le_max' a ha)

/-- **Order and repetition do not matter.** What is remembered is the recent part of what was offered,
    accepted or not. -/
theorem recent_offers {W : G} (hW : 0 < W) (l : List G) :
    recent W (offers W ∅ l) = recent W l.toFinset := by
  rcases l.toFinset.eq_empty_or_nonempty with hempty | hl
  · have hsub := offers_subset_toFinset W l
    rw [hempty, Finset.subset_empty] at hsub
    rw [hempty, hsub]
  · have hoffers := offers_nonempty hW hl
    ext a
    rw [mem_recent hoffers, mem_recent hl, max'_offers hW hl]
    refine ⟨fun ⟨ha, hcut⟩ => ⟨offers_subset_toFinset W l ha, hcut⟩, ?_⟩
    rintro ⟨ha, hcut⟩
    refine ⟨?_, hcut⟩
    -- it is refused by now, and above the cutoff: so it is in the history
    have hrefused : ¬ Admits W (offers W ∅ l) a := fun hadm =>
      ((admits_offers_iff hW).1 hadm a (List.mem_toFinset.1 ha)).1 rfl
    by_contra hmem
    refine hrefused ⟨hmem, fun _ => ?_⟩
    rwa [max'_offers hW hl]

/-! ## Memory -/

/-- Over the integers the recent part lies in an interval of `W` elements. -/
theorem recent_subset_Ioc (W : ℤ) {H : Finset ℤ} (hH : H.Nonempty) :
    recent W H ⊆ Finset.Ioc (H.max' hH - W) (H.max' hH) := by
  intro a ha
  obtain ⟨hmem, hcut⟩ := (mem_recent hH).1 ha
  exact Finset.mem_Ioc.2 ⟨hcut, H.le_max' a hmem⟩

theorem card_recent_le (W : ℤ) (H : Finset ℤ) : (recent W H).card ≤ W.toNat := by
  rcases H.eq_empty_or_nonempty with rfl | hH
  · simp
  · have hcard := Finset.card_le_card (recent_subset_Ioc W hH)
    rwa [Int.card_Ioc, sub_sub_cancel] at hcard

end SlidingWindow
