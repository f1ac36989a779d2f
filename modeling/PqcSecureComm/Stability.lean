import PqcSecureComm.VerifierRuns

set_option autoImplicit false

/-! # Verdicts are final

Only the first delivery of a message can succeed. Each check before the replay check is a function of
the message, except the age check, which only gets stricter as the clock advances; and a sequence the
window was asked about once is refused ever after, because histories only grow. -/

namespace PqcSecureComm

open SlidingWindow

/-! ## The checks are stable -/

/-- The handling raises before the body of `check_and_update` runs. -/
def VerifierConfig.RaisesEarly (P : Platform) (self : VerifierConfig) (d : Delivery) : Prop :=
  Fallible.Raises (self.checks P d) ∨ self.Live P d ∧ d.env.faults .checkAndUpdate ≠ none

theorem VerifierConfig.Consults.not_raisesEarly {P : Platform} {config : VerifierConfig}
    {d : Delivery} (h : config.Consults P d) : ¬ config.RaisesEarly P d := by
  rintro (⟨exc, hraises⟩ | ⟨-, hfault⟩)
  · have hlive : config.checks P d = .ok none := h.1
    rw [hlive] at hraises
    exact absurd hraises (by simp)
  · exact hfault h.2

/-- The age of a message grows with the clock. -/
theorem Delivery.ageNs_mono {msg : SignedTwist} {env env' : VerifierEnv}
    (h : env.nowNs ≤ env'.nowNs) : (⟨msg, env⟩ : Delivery).ageNs ≤ (⟨msg, env'⟩ : Delivery).ageNs :=
  max_le_max le_rfl (sub_le_sub_right h _)

/-- A message whose contents pass the checks can only be stopped by a fault. -/
theorem VerifierConfig.Passed.noFault_of_checks_ok {P : Platform} {config : VerifierConfig}
    {msg : SignedTwist} {env env' : VerifierEnv} {store : TrustStore} {key bytes : Bytes}
    (h : config.Passed P ⟨msg, env'⟩ store key bytes) {x : Option (ResultCode × PyStr)}
    (hx : config.checks P ⟨msg, env⟩ = .ok x) :
    ∀ call, call ≠ .checkAndUpdate → call ≠ .publish → env.faults call = none := by
  obtain ⟨refusal, hchecks⟩ := h.checks_eq env
  rw [hchecks] at hx
  simp only [Fallible.bind_eq_ok, Fallible.check_eq_ok] at hx
  obtain ⟨-, hkey, -, hbytes, -, hdigest, -, hverify, -⟩ := hx
  exact VerifierEnv.noFault_of hkey hbytes hdigest hverify

/-- **The checks are stable.** If a message is live later on, then earlier it was live already, or its
    checks raised. -/
theorem VerifierConfig.live_or_raises {P : Platform} {config : VerifierConfig} {d d' : Delivery}
    (hmsg : d.msg = d'.msg) (hclock : d.env.nowNs ≤ d'.env.nowNs) (h : config.Live P d') :
    config.Live P d ∨ Fallible.Raises (config.checks P d) := by
  obtain ⟨msg, env⟩ := d
  obtain ⟨msg', env'⟩ := d'
  obtain rfl : msg = msg' := hmsg
  obtain ⟨store, key, bytes, hpassed⟩ := VerifierConfig.passed_of_live h
  by_cases hraises : Fallible.Raises (config.checks P ⟨msg, env⟩)
  · exact Or.inr hraises
  · left
    rw [Fallible.raises_iff_not_ok, not_not] at hraises
    obtain ⟨x, hx⟩ := hraises
    have hearlier : config.Passed P ⟨msg, env⟩ store key bytes :=
      { hpassed with
        age := (Delivery.ageNs_mono hclock).trans hpassed.age
        noFault := hpassed.noFault_of_checks_ok hx }
    exact hearlier.live

/-! ## The window is stable -/

/-- What the window was asked about, it refuses from then on. -/
theorem VerifierNode.not_answer_of_consults {P : Platform} {node : VerifierNode} {H : Reference}
    (htracks : node.replayWindow.Tracks H) {d : Delivery} (hcall : node.Consults P d)
    (mid : List Delivery) {d' : Delivery} (hmsg : d.msg = d'.msg) :
    (Machine.final (VerifierNode.handle P) node (d :: mid)).answer d' = false := by
  have hafter := VerifierNode.tracks_handle (P := P) htracks d
  have hlater := VerifierNode.tracks_final (P := P) hafter mid
  have hsize := VerifierNode.windowSize_final P node (d :: mid)
  unfold VerifierNode.answer
  rw [Machine.final_cons] at hsize ⊢
  rw [hlater.answer (Int.natCast_nonneg _), hsize, Delivery.replayCall_pair,
    Delivery.replayCall_sequence, ← hmsg, decide_eq_false_iff_not]
  refine not_admits_of_subset Finset.subset_union_left ?_
  by_cases haccepts : node.Accepts P d
  · -- accepted: now it is in the history
    rw [if_pos ⟨haccepts, rfl⟩]
    exact not_admits_of_mem (Finset.mem_insert_self _ _)
  · -- refused: the history it was refused against is still there
    rw [if_neg fun h => haccepts h.1]
    exact fun hadm => haccepts ((VerifierNode.accepts_iff htracks).2 ⟨hcall, hadm⟩)

/-! ## Runs -/

/-- A message handled without an exception before the replay check is not `RESULT_OK` later on. -/
theorem VerifierNode.code_ne_ok_of_handled {P : Platform} {node : VerifierNode} {H : Reference}
    (htracks : node.replayWindow.Tracks H) {d d' : Delivery} (hmsg : d.msg = d'.msg)
    (hclock : d.env.nowNs ≤ d'.env.nowNs) (hfirst : ¬ node.RaisesEarly P d) (mid : List Delivery) :
    ((Machine.final (VerifierNode.handle P) node (d :: mid)).judge P d').code ≠ .ok := by
  intro hok
  obtain ⟨hcall', hanswer, -⟩ := VerifierNode.code_judge_eq_ok.1 hok
  rw [VerifierNode.toVerifierConfig_final] at hcall'
  rcases VerifierConfig.live_or_raises hmsg hclock hcall'.1 with hlive | hraises
  · -- live before, so the window was asked about the sequence
    have hcall : node.Consults P d := by
      refine ⟨hlive, ?_⟩
      by_contra hfault
      exact hfirst (Or.inr ⟨hlive, hfault⟩)
    rw [VerifierNode.not_answer_of_consults htracks hcall mid hmsg] at hanswer
    exact absurd hanswer (by simp)
  · exact hfirst (Or.inl hraises)

/-- **Only the first delivery can succeed.** In a run of a started verifier whose clock does not go
    back, once a message was handled without an exception before the replay check, every later handling
    of it ends with a result other than `RESULT_OK` and publishes no command. -/
theorem verdicts_are_final (P : Platform) (params : VerifierParams) (node : VerifierNode)
    (hinit : VerifierNode.init P params = .ok node) (before mid : List Delivery)
    (d d' : Delivery) (hmsg : d.msg = d'.msg)
    (hclock : (before ++ d :: mid ++ [d']).Pairwise fun e e' => e.env.nowNs ≤ e'.env.nowNs)
    (hfirst : ¬ node.RaisesEarly P d) :
    let later := ((Machine.final (VerifierNode.handle P) node (before ++ d :: mid)).handle P d').2
    (∀ event ∈ eventsOf later, event.resultCode ≠ ResultCode.ok.toUInt8) ∧ verifiedOf later = [] := by
  intro later
  have hle : d.env.nowNs ≤ d'.env.nowNs := by
    have hpair := (List.pairwise_append.1 hclock).2.2 d (by simp) d' (by simp)
    exact hpair
  obtain ⟨hfresh, -⟩ := VerifierNode.init_eq_ok hinit
  set pre := Machine.final (VerifierNode.handle P) node (before ++ d :: mid) with hpre
  have hcode : (pre.judge P d').code ≠ .ok := by
    rw [hpre, Machine.final_append]
    refine VerifierNode.code_ne_ok_of_handled (VerifierNode.tracks_accepted hfresh before) hmsg hle
      ?_ mid
    rw [VerifierNode.toVerifierConfig_final]
    exact hfirst
  have hlater : later = d'.report (pre.judge P d') := by
    show (pre.handle P d').2 = _
    rw [VerifierNode.handle_eq]
  refine ⟨?_, ?_⟩
  · intro event hevent
    rw [hlater] at hevent
    rw [resultCode_of_mem_eventsOf hevent, ne_eq, ResultCode.toUInt8_injective.eq_iff]
    exact hcode
  · rw [hlater, verifiedOf_report, VerifierNode.verified_judge, if_neg hcode]
    rfl

/-- The demo message, accepted, and delivered again a second later. -/
theorem verdicts_are_final_demo :
    let later := ((Machine.final (VerifierNode.handle .demo) .demo [.demo]).handle .demo
      ⟨.demo, .quiet 6000000000⟩).2
    (∀ event ∈ eventsOf later, event.resultCode ≠ ResultCode.ok.toUInt8) ∧ verifiedOf later = [] :=
  verdicts_are_final .demo .demo .demo VerifierNode.init_demo [] [] .demo
    ⟨.demo, .quiet 6000000000⟩ rfl (by decide) Delivery.demo_consults.not_raisesEarly

end PqcSecureComm
