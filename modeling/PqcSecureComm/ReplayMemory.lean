import PqcSecureComm.VerifierRuns

set_option autoImplicit false

/-! # Replay memory is bounded

`check_and_update` creates the entry of a pair before it looks at the sequence, so what keeps the
dictionary small is the order of the checks in the verifier: only messages of trusted pairs get that
far. Per pair, the entry is the recent part of everything accepted, at most `window_size` sequences. -/

namespace PqcSecureComm

open SlidingWindow

/-! ## Which pairs have an entry -/

/-- The pair has an enabled entry of scheme ML-DSA-44 in the trust store of the verifier. -/
def VerifierConfig.Trusts (self : VerifierConfig) (p : Pair) : Prop :=
  ∃ store entry, self.trustStore = some store ∧ store.Enables p entry

/-- All pairs the verifier trusts. -/
def VerifierConfig.enabledPairs (self : VerifierConfig) : Finset Pair :=
  match self.trustStore with
  | some store => store.enabledPairs
  | none => ∅

theorem VerifierConfig.mem_enabledPairs {self : VerifierConfig} {p : Pair} :
    p ∈ self.enabledPairs ↔ self.Trusts p := by
  unfold VerifierConfig.enabledPairs VerifierConfig.Trusts
  cases self.trustStore with
  | none => simp
  | some store =>
      rw [TrustStore.mem_enabledPairs]
      refine ⟨?_, ?_⟩
      · rintro ⟨entry, hentry⟩
        exact ⟨store, entry, rfl, hentry⟩
      · rintro ⟨store', entry, hstore, hentry⟩
        rw [Option.some.inj hstore]
        exact ⟨entry, hentry⟩

/-- Only messages of trusted pairs are live. -/
theorem VerifierConfig.trusts_of_live {P : Platform} {self : VerifierConfig} {d : Delivery}
    (h : self.Live P d) : self.Trusts d.msg.pair := by
  obtain ⟨store, key, bytes, hpassed⟩ := VerifierConfig.passed_of_live h
  have hkey : store.getPublicKey P d.msg.pair.1 d.msg.pair.2 sigSchemeMlDsa44 = .ok (some key) :=
    hpassed.publicKey
  obtain ⟨entry, hentry, -⟩ := TrustStore.getPublicKey_eq_some.1 hkey
  exact ⟨store, entry, hpassed.trustStore, hentry⟩

/-- Every entry of the window is the entry of a trusted pair. -/
def VerifierNode.EntriesTrusted (node : VerifierNode) : Prop :=
  ∀ p ∈ node.replayWindow.states, node.Trusts p

theorem VerifierNode.EntriesTrusted.handle {P : Platform} {node : VerifierNode}
    (h : node.EntriesTrusted) (d : Delivery) : (node.handle P d).1.EntriesTrusted := by
  intro p hp
  rw [VerifierNode.toVerifierConfig_handle]
  by_cases hcall : node.Consults P d
  · rw [VerifierNode.window_handle_of_consults hcall] at hp
    -- the call may create the entry of the pair of the message, and of no other
    rcases Finmap.mem_insert.1 hp with rfl | hold
    · exact VerifierConfig.trusts_of_live hcall.1
    · exact h p hold
  · rw [VerifierNode.window_handle_of_not_consults hcall] at hp
    exact h p hp

theorem VerifierNode.EntriesTrusted.final {P : Platform} {node : VerifierNode}
    (h : node.EntriesTrusted) (ds : List Delivery) :
    (Machine.final (VerifierNode.handle P) node ds).EntriesTrusted :=
  Machine.final_invariant (VerifierNode.handle P) (fun _ d _ hnode => hnode.handle d)
    (fun _ _ => trivial) h

/-! ## What an entry holds -/

/-- The number of sequences the window stores, over all pairs. -/
def ReplayWindow.size (self : ReplayWindow) : ℕ :=
  ∑ p ∈ self.states.keys, ((self.states.lookup p).getD {}).acceptedSequences.card

/-- The entry of a pair of which `accepted` was accepted: its greatest element, and all of it above
    the cutoff. -/
structure ReplayState.Holds (state : ReplayState) (windowSize : ℤ) (accepted : Finset ℤ) : Prop where
  greatest : IsGreatest (accepted : Set ℤ) state.highestSequenceSeen
  highest_mem : state.highestSequenceSeen ∈ state.acceptedSequences
  interval : ∀ s ∈ state.acceptedSequences,
    state.highestSequenceSeen - windowSize < s ∧ s ≤ state.highestSequenceSeen
  exact : ∀ s, s ∈ state.acceptedSequences ↔ s ∈ accepted ∧
    state.highestSequenceSeen - windowSize < s ∧ s ≤ state.highestSequenceSeen
  card_le : (state.acceptedSequences.card : ℤ) ≤ windowSize

theorem ReplayState.holds_ofHistory {windowSize : ℤ} (hW : 0 < windowSize) {H : Finset ℤ}
    (hH : H.Nonempty) : (ReplayState.ofHistory windowSize H).Holds windowSize H := by
  rw [ReplayState.ofHistory_of_nonempty hH]
  constructor
  · exact H.isGreatest_max' hH
  · exact max'_mem_recent hW hH
  · intro s hs
    exact Finset.mem_Ioc.1 (recent_subset_Ioc windowSize hH hs)
  · intro s
    show s ∈ recent windowSize H ↔ _
    rw [mem_recent hH]
    refine ⟨?_, ?_⟩
    · rintro ⟨hmem, hcut⟩
      exact ⟨hmem, hcut, H.le_max' s hmem⟩
    · rintro ⟨hmem, hcut, -⟩
      exact ⟨hmem, hcut⟩
  · have hcard := card_recent_le windowSize H
    show ((recent windowSize H).card : ℤ) ≤ windowSize
    omega

theorem ReplayWindow.Tracks.holds {window : ReplayWindow} {H : Reference} (h : window.Tracks H)
    {p : Pair} {state : ReplayState} (hstate : window.states.lookup p = some state) :
    state.Holds window.windowSize (H p) := by
  have hne : (H p).Nonempty := (h.mem p).1 (Finmap.mem_of_lookup_eq_some hstate)
  have heq := h.state p
  rw [hstate, Option.getD_some] at heq
  rw [heq]
  exact ReplayState.holds_ofHistory window.windowSize_pos hne

theorem ReplayWindow.Tracks.size_le {window : ReplayWindow} {H : Reference} (h : window.Tracks H)
    {pairs : Finset Pair} (hpairs : ∀ p ∈ window.states, p ∈ pairs) :
    (window.size : ℤ) ≤ window.windowSize * pairs.card := by
  have hentry : ∀ p ∈ window.states.keys,
      ((window.states.lookup p).getD {}).acceptedSequences.card ≤ window.windowSize.toNat := by
    intro p hp
    obtain ⟨state, hstate⟩ := Finmap.mem_iff.1 (Finmap.mem_keys.1 hp)
    rw [hstate, Option.getD_some]
    have hcard := (h.holds hstate).card_le
    omega
  have hkeys : window.states.keys.card ≤ pairs.card :=
    Finset.card_le_card fun p hp => hpairs p (Finmap.mem_keys.1 hp)
  have hsize : window.size ≤ pairs.card * window.windowSize.toNat :=
    calc window.size
        ≤ window.states.keys.card * window.windowSize.toNat :=
          Finset.sum_le_card_nsmul _ _ _ hentry
      _ ≤ pairs.card * window.windowSize.toNat := Nat.mul_le_mul_right _ hkeys
  have hW := window.windowSize_pos
  calc (window.size : ℤ)
      ≤ ((pairs.card * window.windowSize.toNat : ℕ) : ℤ) := by exact_mod_cast hsize
    _ = window.windowSize * pairs.card := by
        rw [Nat.cast_mul, Int.toNat_of_nonneg hW.le, mul_comm]

/-- **Replay memory is bounded.** In every state a started verifier reaches, the window has entries of
    trusted pairs only, and of those for which something was accepted; the entry of a pair is the
    recent part of what was accepted for it, and all entries together hold at most `window_size`
    sequences for each enabled pair. -/
theorem replayMemory_bounded (P : Platform) (params : VerifierParams) (node : VerifierNode)
    (hinit : VerifierNode.init P params = .ok node) (ds : List Delivery) :
    let window := (Machine.final (VerifierNode.handle P) node ds).replayWindow
    (∀ p ∈ window.states, node.Trusts p) ∧
    (∀ p, p ∈ window.states ↔ (node.accepted P ds p).Nonempty) ∧
    (∀ p state, window.states.lookup p = some state →
      state.Holds params.replayWindowSize (node.accepted P ds p)) ∧
    (window.size : ℤ) ≤ params.replayWindowSize * node.enabledPairs.card := by
  intro window
  obtain ⟨hfresh, hsize⟩ := VerifierNode.init_eq_ok hinit
  have htracks : window.Tracks (node.accepted P ds) := VerifierNode.tracks_accepted hfresh ds
  have hwindow : window.windowSize = params.replayWindowSize := by
    rw [← hsize]
    exact VerifierNode.windowSize_final P node ds
  have hstart : node.EntriesTrusted := by
    intro p hp
    rw [hfresh] at hp
    exact absurd hp Finmap.notMem_empty
  have htrusted : ∀ p ∈ window.states, node.Trusts p := by
    intro p hp
    have hp' := hstart.final ds p hp
    rwa [VerifierNode.toVerifierConfig_final] at hp'
  refine ⟨htrusted, htracks.mem, ?_, ?_⟩
  · intro p state hstate
    rw [← hwindow]
    exact htracks.holds hstate
  · rw [← hwindow]
    exact htracks.size_le fun p hp => VerifierConfig.mem_enabledPairs.2 (htrusted p hp)

theorem replayMemory_bounded_demo :
    let window := (Machine.final (VerifierNode.handle .demo) .demo [.demo, .demo]).replayWindow
    (∀ p ∈ window.states, VerifierNode.demo.Trusts p) ∧
    SignedTwist.demo.pair ∈ window.states ∧
    (∀ p state, window.states.lookup p = some state →
      state.Holds VerifierParams.demo.replayWindowSize
        (VerifierNode.demo.accepted .demo [.demo, .demo] p)) ∧
    (window.size : ℤ) ≤
      VerifierParams.demo.replayWindowSize * VerifierNode.demo.enabledPairs.card := by
  intro window
  obtain ⟨htrusted, hmem, hholds, hsize⟩ :=
    replayMemory_bounded .demo .demo .demo VerifierNode.init_demo [.demo, .demo]
  have haccepted : 0 ∈ VerifierNode.demo.accepted .demo [.demo, .demo] SignedTwist.demo.pair := by
    decide
  exact ⟨htrusted, (hmem _).2 ⟨0, haccepted⟩, hholds, hsize⟩

end PqcSecureComm
