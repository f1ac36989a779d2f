import PqcSecureComm.VerifierRuns

set_option autoImplicit false

/-! # Events account for commands

Every message gets one event and every command on `/cmd_vel/verified` belongs to a `RESULT_OK` event,
whatever raises inside the `try` block. Outside it the callback fills in the event, which must not
raise: the clock readings are in the range of a stamp, and the age of any stamp off the wire stays far
below 2^64. -/

namespace PqcSecureComm

/-- Both clock readings are in the years a stamp can count. -/
def VerifierEnv.ClockInRange (env : VerifierEnv) : Prop :=
  (0 ≤ env.nowNs ∧ env.nowNs < 2 ^ 31 * 1000000000) ∧
    (0 ≤ env.eventNowNs ∧ env.eventNowNs < 2 ^ 31 * 1000000000)

instance (env : VerifierEnv) : Decidable env.ClockInRange := inferInstanceAs (Decidable (_ ∧ _))

/-- The event is about the message of the delivery. -/
structure VerificationEvent.Reports (event : VerificationEvent) (d : Delivery) : Prop where
  sourceId : event.sourceId = d.msg.sourceId
  keyId : event.keyId = d.msg.keyId
  sequence : event.sequence = d.msg.sequence
  ok : event.ok = true ↔ event.resultCode = ResultCode.ok.toUInt8
  ageNs : (event.ageNs.toNat : ℤ) = d.ageNs

/-! ## One callback -/

theorem Delivery.ageNs_bounds {d : Delivery} (hclock : d.env.ClockInRange) :
    0 ≤ d.ageNs ∧ d.ageNs < 2 ^ 64 := by
  obtain ⟨⟨h0, hnow⟩, -⟩ := hclock
  have hstamp := d.msg.sourceStamp.nanoseconds_bounds
  have heq : d.sourceStampNs = d.msg.sourceStamp.nanoseconds := rfl
  unfold Delivery.ageNs
  rw [heq]
  omega

theorem uint64Field_ok {v : ℤ} (h0 : 0 ≤ v) (h : v < 2 ^ 64) : ∃ x, uint64Field v = .ok x :=
  ⟨_, unsignedField_eq_ok.2 ⟨⟨h0, h⟩, rfl⟩⟩

/-- An event that could be filled in is about its message. -/
theorem Delivery.reports_of_makeEvent {d : Delivery} {code : ResultCode} {reason : PyStr}
    {event : VerificationEvent} (h : d.makeEvent code reason = .ok event) : event.Reports d := by
  simp only [Delivery.makeEvent, Fallible.bind_eq_ok, Fallible.pure_eq_ok] at h
  obtain ⟨headerStamp, -, verifyNs, -, ageNs, hageNs, rfl⟩ := h
  constructor
  · rfl
  · rfl
  · rfl
  · show (code == .ok) = true ↔ code.toUInt8 = ResultCode.ok.toUInt8
    rw [beq_iff_eq, ResultCode.toUInt8_injective.eq_iff]
  · exact uint64Field_eq_ok hageNs

/-- Filling in the event does not raise. -/
theorem Delivery.makeEvent_ok {d : Delivery} (hclock : d.env.ClockInRange) (code : ResultCode)
    (reason : PyStr) : ∃ event, d.makeEvent code reason = .ok event := by
  obtain ⟨hage0, hage⟩ := Delivery.ageNs_bounds hclock
  obtain ⟨headerStamp, hstamp⟩ := Time.ofNanoseconds_ok hclock.2.1 hclock.2.2
  obtain ⟨verifyNs, hverify⟩ := uint64Field_ok (sub_nonneg.2 d.env.perf_mono) d.env.perf_span
  obtain ⟨ageNs, hageNs⟩ := uint64Field_ok hage0 hage
  simp only [Delivery.makeEvent, Fallible.bind_eq_ok, Fallible.pure_eq_ok]
  exact ⟨_, headerStamp, hstamp, verifyNs, hverify, ageNs, hageNs, rfl⟩

/-- **One callback.** It returns, with one event, after the command iff the event is `RESULT_OK`. -/
theorem VerifierNode.handle_reports (P : Platform) (self : VerifierNode) {d : Delivery}
    (hclock : d.env.ClockInRange) :
    ∃ event, (self.handle P d).2.outcome = .ok () ∧ eventsOf (self.handle P d).2 = [event] ∧
      event.Reports d ∧
      verifiedOf (self.handle P d).2 =
        if event.resultCode = ResultCode.ok.toUInt8 then [d.msg.command] else [] := by
  obtain ⟨event, hevent⟩ :=
    Delivery.makeEvent_ok hclock (self.judge P d).code (self.judge P d).reason
  have hcode := Delivery.resultCode_of_makeEvent hevent
  refine ⟨event, ?_, ?_, Delivery.reports_of_makeEvent hevent, ?_⟩
  · rw [VerifierNode.handle_eq, Delivery.report, hevent]
  · rw [VerifierNode.handle_eq, eventsOf_report, hevent]
    rfl
  · rw [VerifierNode.handle_eq, verifiedOf_report, VerifierNode.verified_judge, hcode]
    simp only [ResultCode.toUInt8_injective.eq_iff]
    by_cases hok : (self.judge P d).code = .ok
    · rw [if_pos hok, if_pos hok]
      rfl
    · rw [if_neg hok, if_neg hok]
      rfl

/-! ## Runs -/

/-- The commands of the messages whose event is `RESULT_OK`, in order. -/
def acceptedCommands (ds : List Delivery) (events : List VerificationEvent) : List Twist :=
  ((ds.zip events).filter fun de => de.2.resultCode = ResultCode.ok.toUInt8).map
    fun de => de.1.msg.command

/-- **Events and verified commands account for each other.** In every run with clock readings in
    range, no callback raises, there is one event per message, in order, about that message, and the
    commands on `/cmd_vel/verified` are those of the messages whose event is `RESULT_OK`. -/
theorem events_account (P : Platform) (node : VerifierNode) (ds : List Delivery)
    (hclock : ∀ d ∈ ds, d.env.ClockInRange) :
    (∀ r ∈ Machine.outputs (VerifierNode.handle P) node ds,
      r.outcome = .ok () ∧ ∃ event, eventsOf r = [event]) ∧
    List.Forall₂ (fun d event => event.Reports d) ds (node.verifyEvents P ds) ∧
    node.verifiedTwists P ds = acceptedCommands ds (node.verifyEvents P ds) := by
  unfold VerifierNode.verifyEvents VerifierNode.verifiedTwists acceptedCommands
  -- over the deliveries, from any node: no invariant is needed, every callback accounts for itself
  induction ds generalizing node with
  | nil => exact ⟨by simp, List.Forall₂.nil, rfl⟩
  | cons d ds ih =>
      obtain ⟨event, hreturn, hevent, hreports, hverified⟩ :=
        node.handle_reports P (hclock d List.mem_cons_self)
      obtain ⟨hreturns, hall, hcommands⟩ :=
        ih (node.handle P d).1 fun d' hd' => hclock d' (List.mem_cons_of_mem d hd')
      rw [Machine.outputs_cons, List.flatMap_cons, List.flatMap_cons, hevent, List.singleton_append]
      refine ⟨?_, List.Forall₂.cons hreports hall, ?_⟩
      · intro r hr
        rcases List.mem_cons.1 hr with rfl | hrest
        · exact ⟨hreturn, event, hevent⟩
        · exact hreturns r hrest
      · rw [hverified, hcommands, List.zip_cons_cons, List.filter_cons]
        by_cases hok : event.resultCode = ResultCode.ok.toUInt8
        · simp [hok]
        · simp [hok]

/-- The demo message delivered twice: two events, one command. -/
theorem events_account_demo :
    (∀ r ∈ Machine.outputs (VerifierNode.handle .demo) .demo [.demo, .demo],
      r.outcome = .ok () ∧ ∃ event, eventsOf r = [event]) ∧
    List.Forall₂ (fun d event => event.Reports d) [.demo, .demo]
      (VerifierNode.demo.verifyEvents .demo [.demo, .demo]) ∧
    acceptedCommands [.demo, .demo] (VerifierNode.demo.verifyEvents .demo [.demo, .demo]) =
      [SignedTwist.demo.command] := by
  obtain ⟨hreturns, hreports, hcommands⟩ :=
    events_account .demo .demo [.demo, .demo] (by decide)
  have hverified :
      VerifierNode.demo.verifiedTwists .demo [.demo, .demo] = [SignedTwist.demo.command] := by
    decide
  exact ⟨hreturns, hreports, hcommands.symm.trans hverified⟩

end PqcSecureComm
