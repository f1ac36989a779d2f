import PqcSecureComm.Lib.Fallible

set_option autoImplicit false

/-! # Self-delimiting encodings

An encoder is a partial function `f : α → Except ε (List β)`: a value it cannot represent raises.
It is **self-delimiting** when its output can be split off the front of any longer string in one
way only, so that fields written one after the other can be read back one after the other. The
property is closed under sequencing (`SelfDelimiting.seq`) and reindexing (`SelfDelimiting.comap`),
holds of injective fixed-width encoders (`SelfDelimiting.of_length`), and a length prefix turns any
injective encoder into a self-delimiting one (`SelfDelimiting.lengthPrefixed`), whatever its
contents look like. -/

namespace PrefixCode

variable {α γ β ε : Type}

/-- The output of `f` can be split off the front of any longer string in one way only. -/
def SelfDelimiting (f : α → Except ε (List β)) : Prop :=
  ∀ ⦃a b : α⦄ ⦃x y s t : List β⦄, f a = .ok x → f b = .ok y → x ++ s = y ++ t → a = b ∧ s = t

/-- Two values with the same complete encoding are equal. -/
def Unambiguous (f : α → Except ε (List β)) : Prop :=
  ∀ ⦃a b : α⦄ ⦃x : List β⦄, f a = .ok x → f b = .ok x → a = b

/-- No encoding is a proper prefix of another one. -/
theorem SelfDelimiting.eq_of_prefix {f : α → Except ε (List β)} (hf : SelfDelimiting f) {a b : α}
    {x y : List β} (ha : f a = .ok x) (hb : f b = .ok y) (hxy : x <+: y) : a = b := by
  obtain ⟨t, ht⟩ := hxy
  have hsplit : x ++ t = y ++ [] := by rw [ht, List.append_nil]
  exact (hf ha hb hsplit).1

/-- A fixed width makes an unambiguous encoder self-delimiting. -/
theorem SelfDelimiting.of_length {f : α → Except ε (List β)} (w : ℕ)
    (hlen : ∀ a x, f a = .ok x → x.length = w) (hf : Unambiguous f) : SelfDelimiting f := by
  intro a b x y s t ha hb hxy
  have hw : x.length = y.length := by rw [hlen a x ha, hlen b y hb]
  obtain ⟨rfl, rfl⟩ := List.append_inj hxy hw
  exact ⟨hf ha hb, rfl⟩

theorem SelfDelimiting.comap {f : α → Except ε (List β)} (hf : SelfDelimiting f) {g : γ → α}
    (hg : Function.Injective g) : SelfDelimiting (fun c => f (g c)) := by
  intro c d x y s t hc hd hxy
  obtain ⟨hcd, hst⟩ := hf hc hd hxy
  exact ⟨hg hcd, hst⟩

/-! ## Sequencing -/

/-- Encode a pair field by field, the first component first. -/
def seq (f : α → Except ε (List β)) (g : γ → Except ε (List β)) (p : α × γ) :
    Except ε (List β) := do
  let x ← f p.1
  let y ← g p.2
  pure (x ++ y)

theorem seq_eq_ok {f : α → Except ε (List β)} {g : γ → Except ε (List β)} {p : α × γ}
    {z : List β} :
    seq f g p = .ok z ↔ ∃ x y, f p.1 = .ok x ∧ g p.2 = .ok y ∧ x ++ y = z := by
  simp only [seq, Fallible.bind_eq_ok, Fallible.pure_eq_ok]
  constructor
  · rintro ⟨x, hx, y, hy, rfl⟩
    exact ⟨x, y, hx, hy, rfl⟩
  · rintro ⟨x, y, hx, hy, rfl⟩
    exact ⟨x, hx, y, hy, rfl⟩

theorem SelfDelimiting.seq {f : α → Except ε (List β)} {g : γ → Except ε (List β)}
    (hf : SelfDelimiting f) (hg : SelfDelimiting g) : SelfDelimiting (seq f g) := by
  rintro ⟨a, c⟩ ⟨b, d⟩ z w s t hz hw hzw
  obtain ⟨x, y, hx, hy, rfl⟩ := seq_eq_ok.1 hz
  obtain ⟨x', y', hx', hy', rfl⟩ := seq_eq_ok.1 hw
  rw [List.append_assoc, List.append_assoc] at hzw
  -- peel the first field, then the second one off what is left
  obtain ⟨hab, hrest⟩ := hf hx hx' hzw
  obtain ⟨hcd, hst⟩ := hg hy hy' hrest
  exact ⟨Prod.ext hab hcd, hst⟩

/-! ## Length prefixes -/

/-- The encoding of the length of the contents, then the contents. -/
def lengthPrefixed (len : ℕ → Except ε (List β)) (f : α → Except ε (List β)) (a : α) :
    Except ε (List β) := do
  let x ← f a
  let n ← len x.length
  pure (n ++ x)

theorem lengthPrefixed_eq_ok {len : ℕ → Except ε (List β)} {f : α → Except ε (List β)} {a : α}
    {z : List β} :
    lengthPrefixed len f a = .ok z ↔ ∃ x n, f a = .ok x ∧ len x.length = .ok n ∧ n ++ x = z := by
  simp only [lengthPrefixed, Fallible.bind_eq_ok, Fallible.pure_eq_ok]
  constructor
  · rintro ⟨x, hx, n, hn, rfl⟩
    exact ⟨x, n, hx, hn, rfl⟩
  · rintro ⟨x, n, hx, hn, rfl⟩
    exact ⟨x, hx, n, hn, rfl⟩

/-- The contents may imitate anything: the length read first says where they end. -/
theorem SelfDelimiting.lengthPrefixed {len : ℕ → Except ε (List β)} {f : α → Except ε (List β)}
    (hlen : SelfDelimiting len) (hf : Unambiguous f) : SelfDelimiting (lengthPrefixed len f) := by
  intro a b z w s t hz hw hzw
  obtain ⟨x, n, hx, hn, rfl⟩ := lengthPrefixed_eq_ok.1 hz
  obtain ⟨y, m, hy, hm, rfl⟩ := lengthPrefixed_eq_ok.1 hw
  rw [List.append_assoc, List.append_assoc] at hzw
  obtain ⟨hxy, hrest⟩ := hlen hn hm hzw
  obtain ⟨rfl, rfl⟩ := List.append_inj hrest hxy
  exact ⟨hf hx hy, rfl⟩

/-! ## Strings of symbols -/

/-- Encode a string symbol by symbol. -/
def concat (f : α → Except ε (List β)) : List α → Except ε (List β)
  | [] => .ok []
  | a :: as => do
      let x ← f a
      let y ← concat f as
      pure (x ++ y)

theorem concat_cons (f : α → Except ε (List β)) (a : α) (as : List α) :
    concat f (a :: as) = PrefixCode.seq f (concat f) (a, as) := rfl

/-- Strings of nonempty self-delimiting symbols are unambiguous: the end of the output is the end
    of the string. -/
theorem SelfDelimiting.concat {f : α → Except ε (List β)} (hf : SelfDelimiting f)
    (hne : ∀ a x, f a = .ok x → x ≠ []) : Unambiguous (concat f) := by
  intro as
  induction as with
  | nil =>
      intro bs z hz hw
      cases bs with
      | nil => rfl
      | cons b bs =>
          rw [concat_cons] at hw
          obtain ⟨x, y, hx, -, hxy⟩ := seq_eq_ok.1 hw
          simp only [PrefixCode.concat, Except.ok.injEq] at hz
          subst hz
          exact absurd (List.append_eq_nil_iff.1 hxy).1 (hne b x hx)
  | cons a as ih =>
      intro bs z hz hw
      rw [concat_cons] at hz
      obtain ⟨x, y, hx, hy, rfl⟩ := seq_eq_ok.1 hz
      cases bs with
      | nil =>
          simp only [PrefixCode.concat, Except.ok.injEq] at hw
          exact absurd (List.append_eq_nil_iff.1 hw.symm).1 (hne a x hx)
      | cons b bs =>
          rw [concat_cons] at hw
          obtain ⟨x', y', hx', hy', hsplit⟩ := seq_eq_ok.1 hw
          obtain ⟨hab, hrest⟩ := hf hx hx' hsplit.symm
          subst hrest
          exact congrArg₂ List.cons hab (ih hy hy')

/-! ## Fixed-width little-endian numbers -/

/-- The `w` lowest base-256 digits of `n`, least significant first. -/
def littleEndian : ℕ → ℕ → List UInt8
  | 0, _ => []
  | w + 1, n => UInt8.ofNat n :: littleEndian w (n / 256)

@[simp]
theorem length_littleEndian (w n : ℕ) : (littleEndian w n).length = w := by
  induction w generalizing n with
  | zero => rfl
  | succ w ih => simp [littleEndian, ih]

theorem littleEndian_injective (w : ℕ) {n m : ℕ} (hn : n < 256 ^ w) (hm : m < 256 ^ w)
    (h : littleEndian w n = littleEndian w m) : n = m := by
  induction w generalizing n m with
  | zero => omega
  | succ w ih =>
      simp only [littleEndian, List.cons.injEq] at h
      obtain ⟨hlow, hhigh⟩ := h
      have hdigit : n % 256 = m % 256 := by
        have := congrArg UInt8.toNat hlow
        simpa using this
      have hquot : n / 256 = m / 256 := by
        refine ih ?_ ?_ hhigh
        · rw [Nat.div_lt_iff_lt_mul (by omega), ← pow_succ]; exact hn
        · rw [Nat.div_lt_iff_lt_mul (by omega), ← pow_succ]; exact hm
      omega

end PrefixCode
