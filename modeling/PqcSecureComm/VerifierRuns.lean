import PqcSecureComm.Verifier

set_option autoImplicit false

/-! # Callbacks and runs of the verifier

`VerifierNode.handle_eq` gives the callback of the verifier in closed form, and `VerifierNode.judges`
says once what it can do. A run of the verifier is a run of its replay window on the messages that get
that far (`VerifierNode.replayWindow_final`), and the window remembers what the run accepted
(`VerifierNode.tracks_accepted`). -/

namespace PqcSecureComm

open SlidingWindow

/-! ## The callback in closed form -/

/-- What the `try` block comes to: code and reason, and the command it published. -/
structure Verdict where
  code : ResultCode
  reason : PyStr
  verified : Option Twist

/-- The outcome of the `try` block with its `except` clause, given the answer of the window. -/
def VerifierConfig.verdict (P : Platform) (self : VerifierConfig) (d : Delivery) (answer : Bool) :
    Verdict :=
  match self.checks P d with
  | .error exc => ⟨.internalError, internalErrorReason exc, none⟩
  | .ok (some refusal) => ⟨refusal.1, refusal.2, none⟩
  | .ok none =>
    match d.env.faults .checkAndUpdate with
    | some exc => ⟨.internalError, internalErrorReason exc, none⟩
    | none =>
      if answer = false then
        ⟨.replay, PyStr.ofString "Replayed or stale sequence detected: " ++
          PyStr.ofInt d.msg.sequence.toNat, none⟩
      else
        match d.env.faults .publish with
        | some exc => ⟨.internalError, internalErrorReason exc, none⟩
        | none => ⟨.ok, [], some d.msg.command⟩

/-- The delivery gets as far as the body of `check_and_update`. -/
def VerifierConfig.Consults (P : Platform) (self : VerifierConfig) (d : Delivery) : Prop :=
  self.Live P d ∧ d.env.faults .checkAndUpdate = none

instance (P : Platform) (self : VerifierConfig) (d : Delivery) : Decidable (self.Consults P d) :=
  inferInstanceAs (Decidable (_ ∧ _))

/-- The answer the window would give. -/
def VerifierNode.answer (self : VerifierNode) (d : Delivery) : Bool :=
  (self.replayWindow.checkAndUpdate d.replayCall).2

def VerifierNode.judge (P : Platform) (self : VerifierNode) (d : Delivery) : Verdict :=
  self.verdict P d (self.answer d)

/-- The window the callback leaves. -/
def VerifierNode.nextWindow (P : Platform) (self : VerifierNode) (d : Delivery) : ReplayWindow :=
  match self.checks P d, d.env.faults .checkAndUpdate with
  | .ok none, none => (self.replayWindow.checkAndUpdate d.replayCall).1
  | _, _ => self.replayWindow

/-- The reaction to a verdict: the command first, then the event, if its fields can be filled. -/
def Delivery.report (d : Delivery) (v : Verdict) : Callback.Reaction VerifierOutput PyError :=
  match d.makeEvent v.code v.reason with
  | .ok e => ⟨.ok (), (v.verified.map VerifierOutput.verified).toList ++ [.event e]⟩
  | .error exc => ⟨.error exc, (v.verified.map VerifierOutput.verified).toList⟩

theorem VerifierNode.run_try (P : Platform) (self : VerifierNode) (d : Delivery) :
    Callback.run (tryCatch (VerifierNode.tryBlock P d)
        fun exc => pure (.internalError, internalErrorReason exc)) self [] =
      (.ok ((self.judge P d).code, (self.judge P d).reason),
        self.withWindow (self.nextWindow P d),
        ((self.judge P d).verified.map VerifierOutput.verified).toList) := by
  rw [Callback.run_tryCatch]
  unfold VerifierNode.tryBlock VerifierNode.judge VerifierConfig.verdict VerifierNode.nextWindow
  rw [Callback.run_node_bind, Callback.run_call_bind]
  cases hchecks : self.checks P d with
  | error exc => rfl
  | ok refusal =>
      cases refusal with
      | some verdict => rfl
      | none =>
          simp only [Callback.run_raiseIf_bind]
          cases d.env.faults .checkAndUpdate with
          | some exc => rfl
          | none =>
              -- from here on the window is updated, whatever follows
              simp only [Callback.run_modifyNode_bind]
              by_cases hanswer : (self.replayWindow.checkAndUpdate d.replayCall).2 = false
              · have hreplay : self.answer d = false := hanswer
                simp only [if_pos hanswer, if_pos hreplay]
                rfl
              · have hreplay : ¬ self.answer d = false := hanswer
                simp only [if_neg hanswer, if_neg hreplay, Callback.run_raiseIf_bind]
                cases d.env.faults .publish with
                | some exc => rfl
                | none => rfl

/-- The value of `result_code` behind the `try` block. -/
def VerifierNode.resultCode (P : Platform) (self : VerifierNode) (d : Delivery) : ResultCode :=
  match (Callback.run (tryCatch (VerifierNode.tryBlock P d)
    fun exc => pure (.internalError, internalErrorReason exc)) self []).1 with
  | .ok verdict => verdict.1
  | .error _ => .internalError

theorem VerifierNode.resultCode_eq (P : Platform) (self : VerifierNode) (d : Delivery) :
    self.resultCode P d = (self.judge P d).code := by
  unfold VerifierNode.resultCode
  rw [VerifierNode.run_try]

/-- **The callback in closed form.** Only the window changes, and whether the callback raises and what
    it publishes follow from the verdict. -/
theorem VerifierNode.handle_eq (P : Platform) (self : VerifierNode) (d : Delivery) :
    self.handle P d = (self.withWindow (self.nextWindow P d), d.report (self.judge P d)) := by
  unfold VerifierNode.handle Callback.react VerifierNode.onSignedTwist Delivery.report
  rw [Callback.run_bind, VerifierNode.run_try]
  simp only [Callback.run_call_bind]
  cases d.makeEvent (self.judge P d).code (self.judge P d).reason with
  | error exc => rfl
  | ok e => rfl

@[simp]
theorem VerifierNode.toVerifierConfig_handle (P : Platform) (self : VerifierNode) (d : Delivery) :
    (self.handle P d).1.toVerifierConfig = self.toVerifierConfig := by
  rw [VerifierNode.handle_eq]
  rfl

theorem VerifierNode.window_handle_of_consults {P : Platform} {self : VerifierNode} {d : Delivery}
    (h : self.Consults P d) :
    (self.handle P d).1.replayWindow = (self.replayWindow.checkAndUpdate d.replayCall).1 := by
  rw [VerifierNode.handle_eq]
  show self.nextWindow P d = _
  unfold VerifierNode.nextWindow
  rw [h.1, h.2]

theorem VerifierNode.window_handle_of_not_consults {P : Platform} {self : VerifierNode}
    {d : Delivery} (h : ¬ self.Consults P d) :
    (self.handle P d).1.replayWindow = self.replayWindow := by
  rw [VerifierNode.handle_eq]
  show self.nextWindow P d = _
  unfold VerifierNode.nextWindow
  split
  · next hchecks hfault => exact absurd ⟨hchecks, hfault⟩ h
  · rfl

theorem verifiedOf_report (d : Delivery) (v : Verdict) :
    verifiedOf (d.report v) = v.verified.toList := by
  unfold Delivery.report verifiedOf
  cases d.makeEvent v.code v.reason <;> cases v.verified <;> rfl

theorem eventsOf_report (d : Delivery) (v : Verdict) :
    eventsOf (d.report v) = (d.makeEvent v.code v.reason).toOption.toList := by
  unfold Delivery.report eventsOf
  cases d.makeEvent v.code v.reason <;> cases v.verified <;> rfl

theorem Delivery.resultCode_of_makeEvent {d : Delivery} {code : ResultCode} {reason : PyStr}
    {event : VerificationEvent} (h : d.makeEvent code reason = .ok event) :
    event.resultCode = code.toUInt8 := by
  simp only [Delivery.makeEvent, Fallible.bind_eq_ok, Fallible.pure_eq_ok] at h
  obtain ⟨headerStamp, -, verifyNs, -, ageNs, -, rfl⟩ := h
  rfl

/-- The events of a callback carry the code of its verdict. -/
theorem resultCode_of_mem_eventsOf {d : Delivery} {v : Verdict} {event : VerificationEvent}
    (h : event ∈ eventsOf (d.report v)) : event.resultCode = v.code.toUInt8 := by
  rw [eventsOf_report] at h
  cases hmake : d.makeEvent v.code v.reason with
  | error exc =>
      rw [hmake] at h
      exact absurd h List.not_mem_nil
  | ok e =>
      rw [hmake] at h
      obtain rfl : event = e := List.mem_singleton.1 h
      exact Delivery.resultCode_of_makeEvent hmake

/-- A refusal before the replay check is neither `RESULT_OK` nor `RESULT_REPLAY`. -/
theorem VerifierConfig.code_of_checks {P : Platform} {self : VerifierConfig} {d : Delivery}
    {verdict : ResultCode × PyStr} (h : self.checks P d = .ok (some verdict)) :
    verdict.1 ≠ .ok ∧ verdict.1 ≠ .replay := by
  -- every branch gives a constant code, whatever its text
  have hcode : ∀ (code : ResultCode) (reason : PyStr), code ≠ .ok → code ≠ .replay →
      some (code, reason) = some verdict → verdict.1 ≠ .ok ∧ verdict.1 ≠ .replay := by
    intro code reason hok hreplay heq
    rw [← Option.some.inj heq]
    exact ⟨hok, hreplay⟩
  unfold VerifierConfig.checks at h
  simp only at h
  split at h
  · exact hcode _ _ (by simp) (by simp) (Except.ok.inj h)
  split at h
  · exact hcode _ _ (by simp) (by simp) (Except.ok.inj h)
  split at h
  · exact hcode _ _ (by simp) (by simp) (Except.ok.inj h)
  split at h
  · simp only [Fallible.bind_eq_ok] at h
    obtain ⟨-, -, key?, -, h⟩ := h
    cases key? with
    | none => exact hcode _ _ (by simp) (by simp) (Except.ok.inj h)
    | some key =>
        simp only [Fallible.bind_eq_ok] at h
        obtain ⟨-, -, bytes, -, -, -, h⟩ := h
        split at h
        · exact hcode _ _ (by simp) (by simp) (Except.ok.inj h)
        simp only [Fallible.bind_eq_ok] at h
        obtain ⟨-, -, valid, -, h⟩ := h
        split at h
        · exact hcode _ _ (by simp) (by simp) (Except.ok.inj h)
        split at h
        · exact hcode _ _ (by simp) (by simp) (Except.ok.inj h)
        · exact absurd (Except.ok.inj h) (by simp)
  · exact hcode _ _ (by simp) (by simp) (Except.ok.inj h)

/-- What a callback of the verifier can come to. -/
inductive VerifierNode.Judges (P : Platform) (node : VerifierNode) (d : Delivery) : Verdict → Prop
  /-- not as far as the replay check -/
  | refused (code : ResultCode) (reason : PyStr) (hskip : ¬ node.Consults P d) (hok : code ≠ .ok)
      (hreplay : code ≠ .replay) : Judges P node d ⟨code, reason, none⟩
  | replayed (reason : PyStr) (hcall : node.Consults P d) (hanswer : node.answer d = false) :
      Judges P node d ⟨.replay, reason, none⟩
  /-- accepted by the window, and the publication of the command raises -/
  | lost (exc : PyError) (hcall : node.Consults P d) (hanswer : node.answer d = true)
      (hfault : d.env.faults .publish = some exc) :
      Judges P node d ⟨.internalError, internalErrorReason exc, none⟩
  | accepted (hcall : node.Consults P d) (hanswer : node.answer d = true)
      (hfault : d.env.faults .publish = none) :
      Judges P node d ⟨.ok, [], some d.msg.command⟩

/-- **What a callback of the verifier can do.** Nothing is published unless the message gets to the
    replay check, the window accepts it and the publication does not raise. -/
theorem VerifierNode.judges (P : Platform) (self : VerifierNode) (d : Delivery) :
    self.Judges P d (self.judge P d) := by
  unfold VerifierNode.judge VerifierConfig.verdict
  cases hchecks : self.checks P d with
  | error exc =>
      have hskip : ¬ self.Consults P d := by
        intro hcall
        have hlive : self.checks P d = .ok none := hcall.1
        simp [hchecks] at hlive
      exact .refused .internalError _ hskip (by simp) (by simp)
  | ok refusal =>
      cases refusal with
      | some verdict =>
          obtain ⟨hok, hreplay⟩ := VerifierConfig.code_of_checks hchecks
          have hskip : ¬ self.Consults P d := by
            intro hcall
            have hlive : self.checks P d = .ok none := hcall.1
            simp [hchecks] at hlive
          exact .refused verdict.1 verdict.2 hskip hok hreplay
      | none =>
          cases hfault : d.env.faults .checkAndUpdate with
          | some exc =>
              have hskip : ¬ self.Consults P d := by
                intro hcall
                rw [hcall.2] at hfault
                exact absurd hfault (by simp)
              exact .refused .internalError _ hskip (by simp) (by simp)
          | none =>
              have hcall : self.Consults P d := ⟨hchecks, hfault⟩
              by_cases hanswer : self.answer d = false
              · simp only [if_pos hanswer]
                exact .replayed _ hcall hanswer
              · simp only [if_neg hanswer]
                rw [Bool.not_eq_false] at hanswer
                cases hpublish : d.env.faults .publish with
                | some exc => exact .lost exc hcall hanswer hpublish
                | none => exact .accepted hcall hanswer hpublish

/-- The command is published iff the code is `RESULT_OK`. -/
theorem VerifierNode.verified_judge (P : Platform) (self : VerifierNode) (d : Delivery) :
    (self.judge P d).verified =
      if (self.judge P d).code = .ok then some d.msg.command else none := by
  have hjudges := self.judges P d
  generalize self.judge P d = v at hjudges ⊢
  cases hjudges with
  | refused code reason hskip hok hreplay => rw [if_neg hok]
  | replayed reason hcall hanswer => rfl
  | lost exc hcall hanswer hfault => rfl
  | accepted hcall hanswer hfault => rfl

/-- The code is `RESULT_OK` iff the window is reached, accepts, and the command can be published. -/
theorem VerifierNode.code_judge_eq_ok {P : Platform} {self : VerifierNode} {d : Delivery} :
    (self.judge P d).code = .ok ↔
      self.Consults P d ∧ self.answer d = true ∧ d.env.faults .publish = none := by
  have hjudges := self.judges P d
  generalize self.judge P d = v at hjudges ⊢
  cases hjudges with
  | refused code reason hskip hok hreplay => exact iff_of_false hok fun h => hskip h.1
  | replayed reason hcall hanswer => simp [hanswer]
  | lost exc hcall hanswer hfault => simp [hfault]
  | accepted hcall hanswer hfault => exact iff_of_true rfl ⟨hcall, hanswer, hfault⟩

/-- The code is `RESULT_REPLAY` iff the window is reached and refuses. -/
theorem VerifierNode.code_judge_eq_replay {P : Platform} {self : VerifierNode} {d : Delivery} :
    (self.judge P d).code = .replay ↔ self.Consults P d ∧ self.answer d = false := by
  have hjudges := self.judges P d
  generalize self.judge P d = v at hjudges ⊢
  cases hjudges with
  | refused code reason hskip hok hreplay => exact iff_of_false hreplay fun h => hskip h.1
  | replayed reason hcall hanswer => exact iff_of_true rfl ⟨hcall, hanswer⟩
  | lost exc hcall hanswer hfault => simp [hanswer]
  | accepted hcall hanswer hfault => simp [hanswer]

/-! ## Runs -/

@[simp]
theorem Delivery.replayCall_pair (d : Delivery) : d.replayCall.pair = d.msg.pair := rfl

@[simp]
theorem Delivery.replayCall_sequence (d : Delivery) :
    d.replayCall.sequence = d.msg.sequence.toNat := rfl

/-- The `check_and_update` call the delivery causes, if it gets that far. -/
def VerifierConfig.call? (P : Platform) (self : VerifierConfig) (d : Delivery) :
    Option ReplayCall :=
  if self.Consults P d then some d.replayCall else none

theorem VerifierConfig.call?_eq_some {P : Platform} {self : VerifierConfig} {d : Delivery}
    {call : ReplayCall} : self.call? P d = some call ↔ self.Consults P d ∧ d.replayCall = call := by
  unfold VerifierConfig.call?
  split
  · next h => simp [h]
  · next h => simp [h]

theorem VerifierConfig.call?_eq_none {P : Platform} {self : VerifierConfig} {d : Delivery} :
    self.call? P d = none ↔ ¬ self.Consults P d := by
  unfold VerifierConfig.call?
  split
  · next h => simp [h]
  · next h => simp [h]

theorem VerifierNode.toVerifierConfig_final (P : Platform) (self : VerifierNode)
    (ds : List Delivery) :
    (Machine.final (VerifierNode.handle P) self ds).toVerifierConfig = self.toVerifierConfig := by
  induction ds generalizing self with
  | nil => rfl
  | cons d ds ih => rw [Machine.final_cons, ih, VerifierNode.toVerifierConfig_handle]

/-- **A run of the verifier is a run of its window** on the calls of the deliveries that get that
    far. -/
theorem VerifierNode.replayWindow_final (P : Platform) (self : VerifierNode)
    (ds : List Delivery) :
    (Machine.final (VerifierNode.handle P) self ds).replayWindow =
      Machine.final ReplayWindow.checkAndUpdate self.replayWindow
        (ds.filterMap (self.toVerifierConfig.call? P)) := by
  -- the invariant: every node of the run has the configuration it was started with
  refine Machine.final_filterMap (fun node => node.toVerifierConfig = self.toVerifierConfig)
    VerifierNode.replayWindow (self.toVerifierConfig.call? P) ?_ ?_ ?_ rfl ds
  · intro node d hnode
    rw [VerifierNode.toVerifierConfig_handle, hnode]
  · intro node d call hnode hcall
    rw [← hnode, VerifierConfig.call?_eq_some] at hcall
    obtain ⟨hconsults, rfl⟩ := hcall
    exact VerifierNode.window_handle_of_consults hconsults
  · intro node d hnode hcall
    rw [← hnode, VerifierConfig.call?_eq_none] at hcall
    exact VerifierNode.window_handle_of_not_consults hcall

/-- What a run published on `/pqc/verify_event`. -/
def VerifierNode.verifyEvents (P : Platform) (self : VerifierNode) (ds : List Delivery) :
    List VerificationEvent :=
  (Machine.outputs (VerifierNode.handle P) self ds).flatMap eventsOf

/-- What a run published on `/cmd_vel/verified`. -/
def VerifierNode.verifiedTwists (P : Platform) (self : VerifierNode) (ds : List Delivery) :
    List Twist :=
  (Machine.outputs (VerifierNode.handle P) self ds).flatMap verifiedOf

/-! ## What a run accepted -/

/-- The window accepts the message: `check_and_update` is reached and returns `True`. -/
def VerifierNode.Accepts (P : Platform) (self : VerifierNode) (d : Delivery) : Prop :=
  self.Consults P d ∧ self.answer d = true

instance (P : Platform) (self : VerifierNode) (d : Delivery) : Decidable (self.Accepts P d) :=
  inferInstanceAs (Decidable (_ ∧ _))

/-- The sequences a run accepted for a pair. -/
def VerifierNode.accepted (P : Platform) (self : VerifierNode) (ds : List Delivery) (p : Pair) :
    Finset ℤ :=
  (((Machine.steps (VerifierNode.handle P) self ds).filter fun st =>
      st.pre.Accepts P st.input ∧ st.input.msg.pair = p).map
    fun st => (st.input.msg.sequence.toNat : ℤ)).toFinset

/-- A command is published only for a message the window accepts. -/
theorem VerifierNode.accepts_of_verified_mem {P : Platform} {self : VerifierNode} {d : Delivery}
    {command : Twist} (h : .verified command ∈ (self.handle P d).2.published) :
    self.Accepts P d ∧ command = d.msg.command := by
  have hmem : command ∈ verifiedOf (self.handle P d).2 := List.mem_filterMap.2 ⟨_, h, rfl⟩
  rw [VerifierNode.handle_eq, verifiedOf_report, VerifierNode.verified_judge, Option.mem_toList]
    at hmem
  by_cases hok : (self.judge P d).code = .ok
  · rw [if_pos hok] at hmem
    obtain ⟨hcall, hanswer, -⟩ := VerifierNode.code_judge_eq_ok.1 hok
    exact ⟨⟨hcall, hanswer⟩, (Option.some.inj hmem).symm⟩
  · rw [if_neg hok] at hmem
    exact absurd hmem (by simp)

theorem VerifierNode.accepted_cons (P : Platform) (self : VerifierNode) (d : Delivery)
    (ds : List Delivery) (p : Pair) :
    self.accepted P (d :: ds) p =
      if self.Accepts P d ∧ d.msg.pair = p then
        insert (d.msg.sequence.toNat : ℤ) ((self.handle P d).1.accepted P ds p)
      else (self.handle P d).1.accepted P ds p := by
  unfold VerifierNode.accepted
  rw [Machine.steps_cons, List.filter_cons]
  by_cases haccepts : self.Accepts P d ∧ d.msg.pair = p
  · simp [haccepts]
  · simp [haccepts]

theorem VerifierNode.accepts_iff {P : Platform} {self : VerifierNode} {H : Reference}
    (h : self.replayWindow.Tracks H) {d : Delivery} :
    self.Accepts P d ↔ self.Consults P d ∧
      Admits self.replayWindow.windowSize (H d.msg.pair) d.msg.sequence.toNat := by
  unfold VerifierNode.Accepts VerifierNode.answer
  rw [h.answer (Int.natCast_nonneg _), decide_eq_true_iff]
  rfl

/-- `RESULT_OK` in terms of the history of the pair. -/
theorem VerifierNode.resultCode_eq_ok_iff {P : Platform} {self : VerifierNode} {H : Reference}
    (h : self.replayWindow.Tracks H) {d : Delivery} :
    self.resultCode P d = .ok ↔ self.Consults P d ∧
      Admits self.replayWindow.windowSize (H d.msg.pair) d.msg.sequence.toNat ∧
      d.env.faults .publish = none := by
  rw [VerifierNode.resultCode_eq, VerifierNode.code_judge_eq_ok, ← and_assoc, ← and_assoc]
  exact and_congr_left fun _ => VerifierNode.accepts_iff h

/-- A message that gets to the replay check moves the histories like the reference checker. -/
theorem VerifierNode.tracks_handle_of_consults {P : Platform} {self : VerifierNode} {H : Reference}
    (h : self.replayWindow.Tracks H) {d : Delivery} (hcall : self.Consults P d) :
    (self.handle P d).1.replayWindow.Tracks
      (Reference.check self.replayWindow.windowSize H d.replayCall).1 := by
  have hsequence : 0 ≤ d.replayCall.sequence := Int.natCast_nonneg _
  rw [VerifierNode.window_handle_of_consults hcall]
  exact h.next hsequence

theorem VerifierNode.tracks_handle_of_not_consults {P : Platform} {self : VerifierNode}
    {H : Reference} (h : self.replayWindow.Tracks H) {d : Delivery} (hcall : ¬ self.Consults P d) :
    (self.handle P d).1.replayWindow.Tracks H := by
  rw [VerifierNode.window_handle_of_not_consults hcall]
  exact h

/-- **One callback** adds the sequence to the history of its pair iff it is accepted. -/
theorem VerifierNode.tracks_handle {P : Platform} {self : VerifierNode} {H : Reference}
    (h : self.replayWindow.Tracks H) (d : Delivery) :
    (self.handle P d).1.replayWindow.Tracks fun p =>
      if self.Accepts P d ∧ d.msg.pair = p then insert (d.msg.sequence.toNat : ℤ) (H p)
      else H p := by
  by_cases hcall : self.Consults P d
  · -- the reference checker and the window accept the same messages
    refine (VerifierNode.tracks_handle_of_consults h hcall).congr fun p => ?_
    rw [Reference.check_apply, Delivery.replayCall_pair, Delivery.replayCall_sequence]
    by_cases hp : d.msg.pair = p
    · subst hp
      by_cases hadm : Admits self.replayWindow.windowSize (H d.msg.pair) d.msg.sequence.toNat
      · rw [if_pos rfl, if_pos ⟨(VerifierNode.accepts_iff h).2 ⟨hcall, hadm⟩, rfl⟩,
          offer_of_admits hadm]
      · rw [if_pos rfl, if_neg fun hboth => hadm ((VerifierNode.accepts_iff h).1 hboth.1).2,
          offer_of_not_admits hadm]
    · rw [if_neg hp, if_neg fun hboth => hp hboth.2]
  · refine (VerifierNode.tracks_handle_of_not_consults h hcall).congr fun p => ?_
    rw [if_neg fun hboth => hcall hboth.1.1]

/-- **The window remembers what the run accepted**, from any state whose window tracks a history. -/
theorem VerifierNode.tracks_final {P : Platform} {self : VerifierNode} {H : Reference}
    (h : self.replayWindow.Tracks H) (ds : List Delivery) :
    (Machine.final (VerifierNode.handle P) self ds).replayWindow.Tracks
      fun p => H p ∪ self.accepted P ds p := by
  induction ds generalizing self H with
  | nil => exact h.congr fun p => (Finset.union_empty (H p)).symm
  | cons d ds ih =>
      rw [Machine.final_cons]
      refine (ih (VerifierNode.tracks_handle h d)).congr fun p => ?_
      rw [VerifierNode.accepted_cons]
      by_cases haccepts : self.Accepts P d ∧ d.msg.pair = p
      · rw [if_pos haccepts, if_pos haccepts, Finset.insert_union, Finset.union_insert]
      · rw [if_neg haccepts, if_neg haccepts]

/-- From a fresh window, the histories are exactly what the run accepted. -/
theorem VerifierNode.tracks_accepted {P : Platform} {self : VerifierNode}
    (hfresh : self.replayWindow.states = ∅) (ds : List Delivery) :
    (Machine.final (VerifierNode.handle P) self ds).replayWindow.Tracks (self.accepted P ds) :=
  (VerifierNode.tracks_final (ReplayWindow.tracks_empty hfresh) ds).congr fun p =>
    Finset.empty_union (self.accepted P ds p)

theorem VerifierNode.windowSize_final (P : Platform) (self : VerifierNode) (ds : List Delivery) :
    (Machine.final (VerifierNode.handle P) self ds).replayWindow.windowSize =
      self.replayWindow.windowSize := by
  rw [VerifierNode.replayWindow_final, ReplayWindow.windowSize_final]

/-- A verifier that was just started has an empty window of the size of its parameter. -/
theorem VerifierNode.init_eq_ok {P : Platform} {params : VerifierParams} {node : VerifierNode}
    (h : VerifierNode.init P params = .ok node) :
    node.replayWindow.states = ∅ ∧ node.replayWindow.windowSize = params.replayWindowSize := by
  simp only [VerifierNode.init, Fallible.bind_eq_ok, Fallible.pure_eq_ok] at h
  obtain ⟨window, hwindow, rfl⟩ := h
  obtain ⟨hsize, hstates⟩ := ReplayWindow.init_eq_ok hwindow
  exact ⟨hstates, hsize⟩

/-! ## The demo verifier -/

/-- The declared parameters, with the trust store of the demo platform. -/
def VerifierParams.demo : VerifierParams where
  trustStorePath := PyStr.ofString "/keys/trust_store.yaml"

def VerifierNode.demo : VerifierNode where
  expectedPayloadSchema := payloadSchemaTwistV1
  expectedPayloadVersion := payloadVersionV1
  topicName := PyStr.ofString "/cmd_vel/raw"
  trustStore := some .demo
  backend := some ⟨PyStr.ofString "ML-DSA-44"⟩
  replayWindow := ⟨64, ∅, by decide⟩

theorem VerifierNode.init_demo : VerifierNode.init .demo .demo = .ok .demo := by rfl

/-- A signed command of `demo_source`. -/
def SignedTwist.demo : SignedTwist where
  headerStamp := ⟨5, 0⟩
  command := ⟨⟨0x3fe0000000000000, 0, 0⟩, ⟨0, 0, 0x3fd0000000000000⟩⟩
  payloadVersion := 1
  payloadSchema := payloadSchemaTwistV1
  sourceStamp := ⟨5, 0⟩
  sequence := 0
  ttlMs := 500
  sourceId := PyStr.ofString "demo_source"
  keyId := PyStr.ofString "demo_mldsa44_key_1"
  sigScheme := 1
  hashScheme := 1
  payloadDigest := demoDigest
  signature := 1 :: demoDigest

/-- Nothing raises, and both clock readings are `ns`. -/
def VerifierEnv.quiet (ns : ℤ) : VerifierEnv where
  startNs := 0
  endNs := 1
  nowNs := ns
  eventNowNs := ns
  faults _ := none
  perf_mono := by decide
  perf_span := by decide

/-- The demo message one microsecond after it was signed. -/
def Delivery.demo : Delivery := ⟨.demo, .quiet 5000001000⟩

theorem Delivery.demo_consults : VerifierNode.demo.Consults .demo .demo := by decide

end PqcSecureComm
