import PqcSecureComm.Accounting
import PqcSecureComm.Stability

set_option autoImplicit false

/-! # Faults and the replay window

A callback hit by an exception ends in `RESULT_INTERNAL_ERROR`. Up to and including the call of
`check_and_update` an exception leaves the verifier as it was, so that the message can be sent again.
The publication comes after the window has recorded the sequence: if it raises, the command is lost and
the sequence is spent. (The signer, by contrast, counts only after its publication.) -/

namespace PqcSecureComm

open SlidingWindow

/-! ## Faults -/

/-- A call inside the `try` block raises while the delivery is handled. -/
def VerifierNode.Faults (P : Platform) (self : VerifierNode) (d : Delivery) : Prop :=
  self.RaisesEarly P d ∨ self.Accepts P d ∧ d.env.faults .publish ≠ none

theorem VerifierConfig.RaisesEarly.not_consults {P : Platform} {config : VerifierConfig}
    {d : Delivery} (h : config.RaisesEarly P d) : ¬ config.Consults P d :=
  fun hcall => hcall.not_raisesEarly h

/-- The event of a callback hit by a fault is `RESULT_INTERNAL_ERROR`, and no command is published. -/
theorem VerifierNode.Faults.judge {P : Platform} {node : VerifierNode} {d : Delivery}
    (h : node.Faults P d) :
    (node.judge P d).code = .internalError ∧ (node.judge P d).verified = none := by
  rcases h with (⟨exc, hraises⟩ | ⟨hlive, hfault⟩) | ⟨⟨hcall, hanswer⟩, hfault⟩
  · unfold VerifierNode.judge VerifierConfig.verdict
    rw [hraises]
    exact ⟨rfl, rfl⟩
  · obtain ⟨exc, hexc⟩ := Option.ne_none_iff_exists'.1 hfault
    have hchecks : node.checks P d = .ok none := hlive
    unfold VerifierNode.judge VerifierConfig.verdict
    rw [hchecks, hexc]
    exact ⟨rfl, rfl⟩
  · obtain ⟨exc, hexc⟩ := Option.ne_none_iff_exists'.1 hfault
    have hchecks : node.checks P d = .ok none := hcall.1
    unfold VerifierNode.judge VerifierConfig.verdict
    rw [hchecks, hcall.2, hanswer, hexc]
    exact ⟨rfl, rfl⟩

/-- An exception before the body of `check_and_update` leaves the node as it was. -/
theorem VerifierNode.handle_of_raisesEarly {P : Platform} {node : VerifierNode} {d : Delivery}
    (h : node.RaisesEarly P d) : (node.handle P d).1 = node := by
  have hwindow := VerifierNode.window_handle_of_not_consults h.not_consults
  have hconfig := VerifierNode.toVerifierConfig_handle P node d
  rw [VerifierNode.handle_eq] at hwindow ⊢
  show node.withWindow (node.nextWindow P d) = node
  have hnext : node.nextWindow P d = node.replayWindow := hwindow
  rw [hnext]
  rfl

/-! ## Redelivery -/

/-- A fault at the end of a run did no harm: the window answers every later sequence of calls as
    before, and whenever the message comes again, fresh and with no fault, its sequence neither accepted
    by the rest of the run nor stale, it is accepted and its command published. -/
structure VerifierNode.Unharmed (P : Platform) (node : VerifierNode) (ds : List Delivery)
    (d : Delivery) : Prop where
  answers : ∀ calls,
    Machine.outputs ReplayWindow.checkAndUpdate
        (Machine.final (VerifierNode.handle P) node (ds ++ [d])).replayWindow calls =
      Machine.outputs ReplayWindow.checkAndUpdate
        (Machine.final (VerifierNode.handle P) node ds).replayWindow calls
  redelivered : ∀ (mid : List Delivery) (d' : Delivery), d'.msg = d.msg → node.Live P d' →
    (∀ call, d'.env.faults call = none) → d'.env.ClockInRange →
    Admits node.replayWindow.windowSize (node.accepted P (ds ++ mid) d.msg.pair)
      d.msg.sequence.toNat →
    ∃ event, event.resultCode = ResultCode.ok.toUInt8 ∧
      ((Machine.final (VerifierNode.handle P) node (ds ++ d :: mid)).handle P d').2 =
        ⟨.ok (), [.verified d.msg.command, .event event]⟩

/-- A message that passes every check, with a sequence that is new and in the window, is accepted and
    its command published, if nothing raises. -/
theorem VerifierNode.handle_fresh {P : Platform} {node : VerifierNode} {H : Reference}
    (htracks : node.replayWindow.Tracks H) {d : Delivery} (hlive : node.Live P d)
    (hquiet : ∀ call, d.env.faults call = none) (hclock : d.env.ClockInRange)
    (hadm : Admits node.replayWindow.windowSize (H d.msg.pair) d.msg.sequence.toNat) :
    ∃ event, event.resultCode = ResultCode.ok.toUInt8 ∧
      (node.handle P d).2 = ⟨.ok (), [.verified d.msg.command, .event event]⟩ := by
  have haccepts : node.Accepts P d :=
    (VerifierNode.accepts_iff htracks).2 ⟨⟨hlive, hquiet .checkAndUpdate⟩, hadm⟩
  have hcode : (node.judge P d).code = .ok :=
    VerifierNode.code_judge_eq_ok.2 ⟨haccepts.1, haccepts.2, hquiet .publish⟩
  have hverified : (node.judge P d).verified = some d.msg.command := by
    rw [VerifierNode.verified_judge, if_pos hcode]
  obtain ⟨event, hevent⟩ :=
    Delivery.makeEvent_ok hclock (node.judge P d).code (node.judge P d).reason
  refine ⟨event, ?_, ?_⟩
  · rw [Delivery.resultCode_of_makeEvent hevent, hcode]
  · rw [VerifierNode.handle_eq]
    unfold Delivery.report
    rw [hevent, hverified]
    rfl

/-- A callback that leaves the node as it was does no harm. -/
theorem VerifierNode.unharmed_of_handle_eq {P : Platform} {node : VerifierNode}
    (hfresh : node.replayWindow.states = ∅) {ds : List Delivery} {d : Delivery}
    (hstill : ((Machine.final (VerifierNode.handle P) node ds).handle P d).1 =
      Machine.final (VerifierNode.handle P) node ds) : node.Unharmed P ds d := by
  have hafter : ∀ mid, Machine.final (VerifierNode.handle P) node (ds ++ d :: mid) =
      Machine.final (VerifierNode.handle P) node (ds ++ mid) := by
    intro mid
    rw [Machine.final_append, Machine.final_cons, hstill, ← Machine.final_append]
  refine ⟨?_, ?_⟩
  · intro calls
    rw [hafter [], List.append_nil]
  · intro mid d' hmsg hlive hquiet hclock hadm
    rw [hafter mid, ← hmsg]
    refine VerifierNode.handle_fresh (VerifierNode.tracks_accepted hfresh (ds ++ mid)) ?_ hquiet
      hclock ?_
    · rw [VerifierNode.toVerifierConfig_final]
      exact hlive
    · rw [VerifierNode.windowSize_final, hmsg]
      exact hadm

/-- Once the window has accepted a message, it answers the very same call differently. -/
theorem VerifierNode.not_unharmed_of_accepts {P : Platform} {node : VerifierNode}
    (hfresh : node.replayWindow.states = ∅) {ds : List Delivery} {d : Delivery}
    (haccepts : (Machine.final (VerifierNode.handle P) node ds).Accepts P d) :
    ¬ node.Unharmed P ds d := by
  intro hunharmed
  have hanswers := hunharmed.answers [d.replayCall]
  rw [Machine.final_append] at hanswers
  have hsame := List.head_eq_of_cons_eq hanswers
  have hagain := VerifierNode.not_answer_of_consults (VerifierNode.tracks_accepted hfresh ds)
    haccepts.1 [] (rfl : d.msg = d.msg)
  have hfirst : (Machine.final (VerifierNode.handle P) node ds).answer d = true := haccepts.2
  change (Machine.final (VerifierNode.handle P) (Machine.final (VerifierNode.handle P) node ds)
    [d]).answer d = (Machine.final (VerifierNode.handle P) node ds).answer d at hsame
  rw [hagain, hfirst] at hsame
  exact absurd hsame (by simp)

/-- The message passes every check, its sequence is new and in the window, and the publication of its
    command raises. -/
def VerifierNode.CommandLost (P : Platform) (node : VerifierNode) (ds : List Delivery)
    (d : Delivery) : Prop :=
  node.Live P d ∧ d.env.faults .checkAndUpdate = none ∧
    Admits node.replayWindow.windowSize (node.accepted P ds d.msg.pair) d.msg.sequence.toNat ∧
    d.env.faults .publish ≠ none

/-- **When a fault does no harm.** At every step of every run of a started verifier: a fault ends in
    `RESULT_INTERNAL_ERROR` with no command published, and it leaves the replay window as good as it was
    and the message deliverable exactly if it is not the publication of an accepted command that
    raises. -/
theorem fault_unharmed_iff (P : Platform) (params : VerifierParams) (node : VerifierNode)
    (hinit : VerifierNode.init P params = .ok node) (ds : List Delivery) (d : Delivery) :
    let pre := Machine.final (VerifierNode.handle P) node ds
    (pre.Faults P d → pre.resultCode P d = .internalError ∧ verifiedOf (pre.handle P d).2 = []) ∧
    ((pre.Faults P d → node.Unharmed P ds d) ↔ ¬ node.CommandLost P ds d) := by
  intro pre
  obtain ⟨hfresh, -⟩ := VerifierNode.init_eq_ok hinit
  have haccepts : pre.Accepts P d ↔ node.Consults P d ∧
      Admits node.replayWindow.windowSize (node.accepted P ds d.msg.pair) d.msg.sequence.toNat := by
    rw [VerifierNode.accepts_iff (VerifierNode.tracks_accepted hfresh ds),
      VerifierNode.toVerifierConfig_final, VerifierNode.windowSize_final]
  refine ⟨?_, ?_, ?_⟩
  · intro hfault
    obtain ⟨hcode, hverified⟩ := hfault.judge
    refine ⟨(VerifierNode.resultCode_eq P pre d).trans hcode, ?_⟩
    rw [VerifierNode.handle_eq, verifiedOf_report, hverified]
    rfl
  · rintro hunharmed ⟨hlive, hcheck, hadm, hpublish⟩
    have hacc : pre.Accepts P d := haccepts.2 ⟨⟨hlive, hcheck⟩, hadm⟩
    exact VerifierNode.not_unharmed_of_accepts hfresh hacc (hunharmed (Or.inr ⟨hacc, hpublish⟩))
  · intro hlost hfault
    rcases hfault with hearly | ⟨hacc, hpublish⟩
    · exact VerifierNode.unharmed_of_handle_eq hfresh (VerifierNode.handle_of_raisesEarly hearly)
    · obtain ⟨⟨hlive, hcheck⟩, hadm⟩ := haccepts.1 hacc
      exact absurd ⟨hlive, hcheck, hadm, hpublish⟩ hlost

/-- The demo message whose publication raises. -/
def Delivery.demoLost : Delivery where
  msg := .demo
  env := { VerifierEnv.quiet 5000001000 with
    faults := fun call =>
      if call = .publish then some (.mk' .runtimeError "Failed to publish") else none }

/-- Hit by a fault of the publication, the demo message is a replay when it comes again. -/
theorem fault_harmful_demo :
    VerifierNode.demo.Faults .demo .demoLost ∧ ¬ VerifierNode.demo.Unharmed .demo [] .demoLost ∧
    (VerifierNode.demo.verifyEvents .demo [.demoLost, .demo]).map VerificationEvent.resultCode =
      [ResultCode.internalError.toUInt8, ResultCode.replay.toUInt8] := by
  refine ⟨Or.inr ⟨by decide, by decide⟩, ?_, by decide⟩
  intro hunharmed
  exact absurd (hunharmed.answers [Delivery.demoLost.replayCall]) (by decide)

theorem fault_unharmed_iff_demo :
    let pre := Machine.final (VerifierNode.handle .demo) .demo []
    (pre.Faults .demo .demoLost → pre.resultCode .demo .demoLost = .internalError ∧
      verifiedOf (pre.handle .demo .demoLost).2 = []) ∧
    ((pre.Faults .demo .demoLost → VerifierNode.demo.Unharmed .demo [] .demoLost) ↔
      ¬ VerifierNode.demo.CommandLost .demo [] .demoLost) :=
  fault_unharmed_iff .demo .demo .demo VerifierNode.init_demo [] .demoLost

end PqcSecureComm
