import PqcSecureComm.Signer
import PqcSecureComm.VerifierRuns

set_option autoImplicit false

/-! # Restarts of the signer

The counter of the signer lives in memory and starts at `0` with every new node, while the verifier
goes on with the window of the old one. The message specification promises a "monotonically increasing
signer-side sequence"; over several lifetimes the code keeps it only within each. `genuineNotReplayed_iff`
is the exact condition on what arrived under which none of the genuine messages is called a replay. -/

namespace PqcSecureComm

open SlidingWindow

/-! ## Several lifetimes -/

/-- One life of a signer: its parameters and the raw commands that reach it. -/
structure Lifetime where
  params : SignerParams
  inputs : List RawTwist

/-- What the signer published in this life. -/
def Lifetime.signed (P : Platform) (self : Lifetime) : List SignedTwist :=
  (SignerNode.init P self.params).signedTwists P self.inputs

/-- Everything published in one life after the other, in the order of signing, each message with the
    number of its life. -/
def signedOver (P : Platform) (lifetimes : List Lifetime) : List (ℕ × SignedTwist) :=
  lifetimes.zipIdx.flatMap fun life => (life.1.signed P).map fun msg => (life.2, msg)

/-- The counter of a lifetime starts at `0`, and numbers its messages from there. -/
theorem Lifetime.sequence_signed (P : Platform) (life : Lifetime) :
    (life.signed P).map (fun msg => msg.sequence.toNat) = List.range (life.signed P).length := by
  rw [List.range_eq_range']
  exact SignerNode.sequence_signedTwists P (SignerNode.init P life.params) life.inputs

/-- A message signed later is of a later life, or of the same life with a greater sequence. -/
theorem pairwise_signedOver (P : Platform) (lifetimes : List Lifetime) :
    (signedOver P lifetimes).Pairwise fun a b =>
      a.1 < b.1 ∨ a.1 = b.1 ∧ a.2.sequence.toNat < b.2.sequence.toNat := by
  rw [signedOver, List.pairwise_flatMap]
  refine ⟨?_, ?_⟩
  · intro life _
    have hsequence : ((life.1.signed P).map fun msg => msg.sequence.toNat).Pairwise (· < ·) := by
      rw [Lifetime.sequence_signed]
      exact List.pairwise_lt_range
    rw [List.pairwise_map] at hsequence ⊢
    exact hsequence.imp fun hlt => Or.inr ⟨rfl, hlt⟩
  · have hlives : (lifetimes.zipIdx.map Prod.snd).Pairwise (· < ·) := by
      rw [List.zipIdx_map_snd]
      exact List.pairwise_lt_range'
    rw [List.pairwise_map] at hlives
    refine hlives.imp fun {life life'} hlt => ?_
    intro a ha b hb
    obtain ⟨msg, -, rfl⟩ := List.mem_map.1 ha
    obtain ⟨msg', -, rfl⟩ := List.mem_map.1 hb
    exact Or.inl hlt

/-! ## Which messages are called replays -/

/-- Having been asked about `t` first, the window does not refuse `s`. -/
def Compatible (windowSize t s : ℤ) : Prop := t ≠ s ∧ t - windowSize < s

instance (windowSize t s : ℤ) : Decidable (Compatible windowSize t s) :=
  inferInstanceAs (Decidable (_ ∧ _))

/-- The sequences the window is asked about for a pair. -/
def VerifierConfig.askedFor (P : Platform) (self : VerifierConfig) (p : Pair) (ds : List Delivery) :
    List ℤ :=
  (ds.filter fun d => self.Consults P d ∧ d.msg.pair = p).map fun d => (d.msg.sequence.toNat : ℤ)

theorem VerifierConfig.sequencesOf_calls (P : Platform) (self : VerifierConfig) (p : Pair)
    (ds : List Delivery) :
    sequencesOf p (ds.filterMap (self.call? P)) = self.askedFor P p ds := by
  induction ds with
  | nil => rfl
  | cons d ds ih =>
      unfold VerifierConfig.askedFor at ih ⊢
      by_cases hcall : self.Consults P d
      · rw [List.filterMap_cons_some (VerifierConfig.call?_eq_some.2 ⟨hcall, rfl⟩), sequencesOf_cons,
          ih, Delivery.replayCall_pair, Delivery.replayCall_sequence]
        by_cases hp : d.msg.pair = p
        · rw [if_pos hp, List.filter_cons_of_pos (by simp [hcall, hp]), List.map_cons]
        · rw [if_neg hp, List.filter_cons_of_neg (by simp [hp])]
      · rw [List.filterMap_cons_none (VerifierConfig.call?_eq_none.2 hcall), ih,
          List.filter_cons_of_neg (by simp [hcall])]

/-- **Replays in a run.** A message that gets to the replay check is called a replay iff its sequence
    is incompatible with one the window was asked about earlier for the same pair. -/
theorem VerifierNode.resultCode_ne_replay_iff {P : Platform} {node : VerifierNode}
    (hfresh : node.replayWindow.states = ∅) (before : List Delivery) {d : Delivery}
    (hcall : node.Consults P d) :
    (Machine.final (VerifierNode.handle P) node before).resultCode P d ≠ .replay ↔
      ∀ t ∈ node.askedFor P d.msg.pair before,
        Compatible node.replayWindow.windowSize t d.msg.sequence.toNat := by
  have hcalls : ∀ call ∈ before.filterMap (node.toVerifierConfig.call? P), 0 ≤ call.sequence := by
    intro call hmem
    obtain ⟨e, -, he⟩ := List.mem_filterMap.1 hmem
    obtain ⟨-, rfl⟩ := VerifierConfig.call?_eq_some.1 he
    exact Int.natCast_nonneg _
  have htracks := ReplayWindow.tracks_final hfresh hcalls
  rw [← VerifierNode.replayWindow_final] at htracks
  rw [VerifierNode.resultCode_eq, ne_eq, VerifierNode.code_judge_eq_replay,
    VerifierNode.toVerifierConfig_final, VerifierNode.answer, htracks.answer (Int.natCast_nonneg _),
    decide_eq_false_iff_not, VerifierNode.windowSize_final, Delivery.replayCall_pair,
    Delivery.replayCall_sequence, history, VerifierConfig.sequencesOf_calls,
    admits_offers_iff node.replayWindow.windowSize_pos, not_and, not_not]
  exact forall_prop_of_true hcall

/-! ## Genuine messages -/

/-- The message of `d` is the `n`-th signed, in life `life`. It gets to the replay check, and whatever
    got there before it for the pair was signed earlier: so it arrives for the first time, in the order
    of signing and within its TTL. -/
structure Arrives (P : Platform) (node : VerifierNode) (lifetimes : List Lifetime)
    (before : List Delivery) (d : Delivery) (n life : ℕ) : Prop where
  signed : (signedOver P lifetimes)[n]? = some (life, d.msg)
  consults : node.Consults P d
  inOrder : ∀ e ∈ before, node.Consults P e → e.msg.pair = d.msg.pair →
    ∃ m < n, ∃ life', (signedOver P lifetimes)[m]? = some (life', e.msg)

/-- No genuine message of the run is called a replay. -/
def GenuineNotReplayed (P : Platform) (node : VerifierNode) (lifetimes : List Lifetime)
    (ds : List Delivery) : Prop :=
  ∀ before d after n life, ds = before ++ d :: after → Arrives P node lifetimes before d n life →
    (Machine.final (VerifierNode.handle P) node before).resultCode P d ≠ .replay

/-- Whenever a genuine message arrives, no message of an earlier life arrived before it with the same
    sequence, or with one that is `window_size` or more above. -/
def CountersCompatible (P : Platform) (node : VerifierNode) (lifetimes : List Lifetime)
    (ds : List Delivery) : Prop :=
  ∀ before d after n life, ds = before ++ d :: after → Arrives P node lifetimes before d n life →
    ∀ e ∈ before, node.Consults P e → e.msg.pair = d.msg.pair →
      ∀ life' < life, (life', e.msg) ∈ signedOver P lifetimes →
        Compatible node.replayWindow.windowSize e.msg.sequence.toNat d.msg.sequence.toNat

/-- Within one life the counter only grows, so only an earlier life can be in the way. -/
theorem Arrives.compatible_iff {P : Platform} {node : VerifierNode} {lifetimes : List Lifetime}
    {before : List Delivery} {d : Delivery} {n life : ℕ}
    (h : Arrives P node lifetimes before d n life) :
    (∀ t ∈ node.askedFor P d.msg.pair before,
        Compatible node.replayWindow.windowSize t d.msg.sequence.toNat) ↔
      ∀ e ∈ before, node.Consults P e → e.msg.pair = d.msg.pair →
        ∀ life' < life, (life', e.msg) ∈ signedOver P lifetimes →
          Compatible node.replayWindow.windowSize e.msg.sequence.toNat d.msg.sequence.toNat := by
  refine ⟨?_, ?_⟩
  · intro hall e he hcall hpair life' _ _
    refine hall _ (List.mem_map.2 ⟨e, List.mem_filter.2 ⟨he, ?_⟩, rfl⟩)
    exact decide_eq_true ⟨hcall, hpair⟩
  · intro hall t ht
    obtain ⟨e, he, rfl⟩ := List.mem_map.1 ht
    obtain ⟨hmem, hasked⟩ := List.mem_filter.1 he
    obtain ⟨hcall, hpair⟩ := of_decide_eq_true hasked
    obtain ⟨m, hm, life', hsigned⟩ := h.inOrder e hmem hcall hpair
    have hn := h.signed
    rw [List.getElem?_eq_some_iff] at hsigned hn
    obtain ⟨hmlt, hme⟩ := hsigned
    obtain ⟨hnlt, hnd⟩ := hn
    have horder := List.pairwise_iff_getElem.1 (pairwise_signedOver P lifetimes) m n hmlt hnlt hm
    rw [hme, hnd] at horder
    -- signed earlier: in an earlier life, or in this one with a smaller sequence
    rcases horder with hearlier | ⟨-, hsequence⟩
    · exact hall e hmem hcall hpair life' hearlier (hme ▸ List.getElem_mem hmlt)
    · have hW := node.replayWindow.windowSize_pos
      have hlt : e.msg.sequence.toNat < d.msg.sequence.toNat := hsequence
      exact ⟨by omega, by omega⟩

/-- **When restarts do no harm.** In every run of a started verifier over any lifetimes of the signer,
    with any other traffic in between, no genuine message is called a replay iff whenever one arrives,
    the messages of earlier lives that came before it have other sequences, less than `window_size`
    above its own. -/
theorem genuineNotReplayed_iff (P : Platform) (params : VerifierParams) (node : VerifierNode)
    (hinit : VerifierNode.init P params = .ok node) (lifetimes : List Lifetime)
    (ds : List Delivery) :
    GenuineNotReplayed P node lifetimes ds ↔ CountersCompatible P node lifetimes ds := by
  obtain ⟨hfresh, -⟩ := VerifierNode.init_eq_ok hinit
  refine ⟨?_, ?_⟩
  · intro hgood before d after n life hsplit harrives
    rw [← harrives.compatible_iff,
      ← VerifierNode.resultCode_ne_replay_iff hfresh before harrives.consults]
    exact hgood before d after n life hsplit harrives
  · intro hcounters before d after n life hsplit harrives
    rw [VerifierNode.resultCode_ne_replay_iff hfresh before harrives.consults,
      harrives.compatible_iff]
    exact hcounters before d after n life hsplit harrives

/-! ## A restart that does harm -/

/-- The demo signer, started twice, with one command each time. -/
def demoLifetimes : List Lifetime := [⟨.demo, [.demo]⟩, ⟨.demo, [.demoRestart]⟩]

/-- What it publishes after the restart: sequence `0` again. -/
def SignedTwist.demoRestart : SignedTwist :=
  { SignedTwist.demo with
    headerStamp := ⟨6, 0⟩
    command := RawTwist.demoRestart.msg
    sourceStamp := ⟨6, 0⟩
    payloadDigest := demoRestartDigest
    signature := 1 :: demoRestartDigest }

/-- One microsecond after it was signed. -/
def Delivery.demoRestart : Delivery := ⟨.demoRestart, .quiet 6000001000⟩

theorem signedOver_demo :
    signedOver .demo demoLifetimes = [(0, .demo), (1, .demoRestart)] := by decide

/-- Both messages arrive once, in order and fresh, and the second is called a replay. -/
theorem genuineReplayed_demo :
    Arrives .demo .demo demoLifetimes [.demo] .demoRestart 1 1 ∧
    (Machine.final (VerifierNode.handle .demo) .demo [.demo]).resultCode .demo .demoRestart =
      .replay ∧
    ¬ GenuineNotReplayed .demo .demo demoLifetimes [.demo, .demoRestart] := by
  have harrives : Arrives .demo .demo demoLifetimes [.demo] .demoRestart 1 1 := by
    constructor
    · rw [signedOver_demo]
      rfl
    · decide
    · intro e he _ _
      obtain rfl : e = .demo := List.mem_singleton.1 he
      rw [signedOver_demo]
      exact ⟨0, by decide, 0, rfl⟩
  have hreplay : (Machine.final (VerifierNode.handle .demo) .demo [.demo]).resultCode .demo
      .demoRestart = .replay := by decide
  refine ⟨harrives, hreplay, ?_⟩
  intro hgood
  exact hgood [.demo] .demoRestart [] 1 1 rfl harrives hreplay

theorem genuineNotReplayed_iff_demo :
    GenuineNotReplayed .demo .demo demoLifetimes [.demo, .demoRestart] ↔
      CountersCompatible .demo .demo demoLifetimes [.demo, .demoRestart] :=
  genuineNotReplayed_iff .demo .demo .demo VerifierNode.init_demo demoLifetimes _

end PqcSecureComm
