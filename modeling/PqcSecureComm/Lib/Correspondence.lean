import Mathlib

set_option autoImplicit false

/-! # Correspondences between the actions of a trace

The two halves of injective agreement: every claim, an action satisfying `Pre`, is preceded by an action
it corresponds to by `R`; and no action has two claims correspond to it. For the second half it is
enough that corresponding to one action fixes a key, and that no two claims have the same key. -/

namespace Correspondence

variable {α κ : Type}

/-- Every claim is preceded by an action it corresponds to. -/
def Corresponds (t : List α) (Pre : α → Prop) (R : α → α → Prop) : Prop :=
  ∀ pre a post, t = pre ++ a :: post → Pre a → ∃ b ∈ pre, R a b

/-- No action has claims at two positions correspond to it. -/
def Injective (t : List α) (Pre : α → Prop) (R : α → α → Prop) : Prop :=
  ∀ (i j : ℕ) (a a' b : α), t[i]? = some a → t[j]? = some a' → Pre a → Pre a' → R a b → R a' b →
    i = j

/-- Actions with the same key are at the same position, if no key occurs twice. -/
theorem eq_of_key_eq {t : List α} {key : α → Option κ} (hnodup : (t.filterMap key).Nodup) {i j : ℕ}
    {a a' : α} (hi : t[i]? = some a) (hj : t[j]? = some a') {k : κ} (ha : key a = some k)
    (ha' : key a' = some k) : i = j := by
  rw [List.Nodup, List.pairwise_filterMap, List.pairwise_iff_getElem] at hnodup
  obtain ⟨hilt, rfl⟩ := List.getElem?_eq_some_iff.1 hi
  obtain ⟨hjlt, rfl⟩ := List.getElem?_eq_some_iff.1 hj
  rcases lt_trichotomy i j with hlt | heq | hgt
  · exact absurd rfl (hnodup i j hilt hjlt hlt k ha k ha')
  · exact heq
  · exact absurd rfl (hnodup j i hjlt hilt hgt k ha' k ha)

/-- A correspondence that fixes the key of its claims is injective, if no key is claimed twice. -/
theorem Injective.of_key {t : List α} {Pre : α → Prop} {R : α → α → Prop} (key : α → Option κ)
    (hnodup : (t.filterMap key).Nodup)
    (hkey : ∀ a a' b, Pre a → Pre a' → R a b → R a' b → ∃ k, key a = some k ∧ key a' = some k) :
    Injective t Pre R := by
  intro i j a a' b hi hj ha ha' hab hab'
  obtain ⟨k, hk, hk'⟩ := hkey a a' b ha ha' hab hab'
  exact eq_of_key_eq hnodup hi hj hk hk'

end Correspondence
