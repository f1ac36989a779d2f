import PqcSecureComm.VerifierRuns

set_option autoImplicit false

/-! # Foreign and rejected traffic

What a pair can observe of the verifier is the entry of the pair in the window. A message that is not
live for the pair leaves that entry alone, because every refusal and every exception comes before the
window is touched and the window is keyed by the whole pair; and the reaction to a live message of the
pair depends on nothing else. By unwinding, all other traffic can be deleted from a run. -/

namespace PqcSecureComm

/-! ## One callback -/

/-- The message names the pair and passes every check before the replay check. -/
def VerifierConfig.LiveFor (P : Platform) (self : VerifierConfig) (p : Pair) (d : Delivery) : Prop :=
  self.Live P d ∧ d.msg.pair = p

instance (P : Platform) (self : VerifierConfig) (p : Pair) : DecidablePred (self.LiveFor P p) :=
  fun d => inferInstanceAs (Decidable (self.Live P d ∧ d.msg.pair = p))

/-- What a pair can see of the window: the size and its own entry. -/
def ReplayWindow.entry (self : ReplayWindow) (p : Pair) : ℤ × Option ReplayState :=
  (self.windowSize, self.states.lookup p)

theorem ReplayWindow.entry_checkAndUpdate_of_ne (self : ReplayWindow) {call : ReplayCall} {p : Pair}
    (h : call.pair ≠ p) : (self.checkAndUpdate call).1.entry p = self.entry p :=
  Prod.ext rfl (ReplayWindow.lookup_checkAndUpdate_of_ne self fun heq => h heq.symm)

/-- The entry of the pair of a call decides what the call does. -/
theorem ReplayWindow.checkAndUpdate_congr {self other : ReplayWindow} {call : ReplayCall}
    (h : self.entry call.pair = other.entry call.pair) :
    (self.checkAndUpdate call).1.entry call.pair = (other.checkAndUpdate call).1.entry call.pair ∧
      (self.checkAndUpdate call).2 = (other.checkAndUpdate call).2 := by
  obtain ⟨hsize, hlookup⟩ := Prod.mk.inj h
  refine ⟨Prod.ext hsize ?_, ?_⟩
  · show (self.checkAndUpdate call).1.states.lookup call.pair =
      (other.checkAndUpdate call).1.states.lookup call.pair
    rw [ReplayWindow.lookup_checkAndUpdate, ReplayWindow.lookup_checkAndUpdate, hsize, hlookup]
  · simp only [ReplayWindow.checkAndUpdate, hsize, hlookup]

/-- The reaction depends on the configuration and the answer of the window. -/
theorem VerifierNode.reaction_congr {P : Platform} {self other : VerifierNode} {d : Delivery}
    (hconfig : self.toVerifierConfig = other.toVerifierConfig)
    (hanswer : self.answer d = other.answer d) : (self.handle P d).2 = (other.handle P d).2 := by
  have hjudge : self.judge P d = other.judge P d := by
    unfold VerifierNode.judge
    rw [hconfig, hanswer]
  rw [VerifierNode.handle_eq, VerifierNode.handle_eq, hjudge]

/-- A message that does not get to the replay check publishes no command. -/
theorem VerifierNode.verifiedOf_handle_of_not_consults {P : Platform} {self : VerifierNode}
    {d : Delivery} (h : ¬ self.Consults P d) : verifiedOf (self.handle P d).2 = [] := by
  have hcode : (self.judge P d).code ≠ .ok := fun hok => h (VerifierNode.code_judge_eq_ok.1 hok).1
  rw [VerifierNode.handle_eq, verifiedOf_report, VerifierNode.verified_judge, if_neg hcode]
  rfl

/-- **Unwinding.** In states of one configuration, the entry of `p` moves only with messages live for
    `p`, and decides what these do. -/
theorem VerifierNode.unwinds (P : Platform) (config : VerifierConfig) (p : Pair) :
    Machine.Unwinds (VerifierNode.handle P) (fun node => node.toVerifierConfig = config)
      (fun node => node.replayWindow.entry p) (config.LiveFor P p) where
  inv := by
    intro node d hnode
    rw [VerifierNode.toVerifierConfig_handle, hnode]
  skip := by
    intro node d hnode hlive
    by_cases hcall : node.Consults P d
    · -- live, hence of another pair
      have hpair : d.replayCall.pair ≠ p := fun hp => hlive ⟨hnode ▸ hcall.1, hp⟩
      rw [VerifierNode.window_handle_of_consults hcall]
      exact ReplayWindow.entry_checkAndUpdate_of_ne node.replayWindow hpair
    · rw [VerifierNode.window_handle_of_not_consults hcall]
  next := by
    intro node other d hnode hother hlive hentry
    obtain ⟨-, rfl⟩ := hlive
    have hpair : node.replayWindow.entry d.replayCall.pair =
      other.replayWindow.entry d.replayCall.pair := hentry
    by_cases hcall : node.Consults P d
    · have hcall' : other.Consults P d := by
        rw [hother, ← hnode]
        exact hcall
      rw [VerifierNode.window_handle_of_consults hcall,
        VerifierNode.window_handle_of_consults hcall']
      exact (ReplayWindow.checkAndUpdate_congr hpair).1
    · have hcall' : ¬ other.Consults P d := by
        rw [hother, ← hnode]
        exact hcall
      rw [VerifierNode.window_handle_of_not_consults hcall,
        VerifierNode.window_handle_of_not_consults hcall', hentry]
  output := by
    intro node other d hnode hother hlive hentry
    obtain ⟨-, rfl⟩ := hlive
    have hpair : node.replayWindow.entry d.replayCall.pair =
      other.replayWindow.entry d.replayCall.pair := hentry
    exact VerifierNode.reaction_congr (hnode.trans hother.symm)
      (ReplayWindow.checkAndUpdate_congr hpair).2

/-! ## Runs -/

/-- The commands of a pair a run published on `/cmd_vel/verified`, in order. -/
def VerifierNode.verifiedTwistsFor (P : Platform) (self : VerifierNode) (ds : List Delivery)
    (p : Pair) : List Twist :=
  ((Machine.steps (VerifierNode.handle P) self ds).filter fun st => st.input.msg.pair = p).flatMap
    fun st => verifiedOf st.output

/-- Only live messages have commands published. -/
theorem VerifierNode.verifiedTwistsFor_eq (P : Platform) (self : VerifierNode) (ds : List Delivery)
    (p : Pair) :
    self.verifiedTwistsFor P ds p =
      (((Machine.steps (VerifierNode.handle P) self ds).filter fun st =>
        self.LiveFor P p st.input).map Machine.Step.output).flatMap verifiedOf := by
  unfold VerifierNode.verifiedTwistsFor
  induction ds generalizing self with
  | nil => rfl
  | cons d ds ih =>
      have hrest := ih (self.handle P d).1
      rw [VerifierNode.toVerifierConfig_handle] at hrest
      rw [Machine.steps_cons, List.filter_cons, List.filter_cons]
      by_cases hp : d.msg.pair = p
      · by_cases hlive : self.Live P d
        · have hfor : self.LiveFor P p d := ⟨hlive, hp⟩
          rw [if_pos (decide_eq_true hp), if_pos (decide_eq_true hfor), List.flatMap_cons, hrest,
            List.map_cons, List.flatMap_cons]
        · have hfor : ¬ self.LiveFor P p d := fun h => hlive h.1
          have hnothing : verifiedOf (self.handle P d).2 = [] :=
            VerifierNode.verifiedOf_handle_of_not_consults fun h => hlive h.1
          rw [if_pos (decide_eq_true hp), if_neg (by simpa using hfor), List.flatMap_cons, hrest,
            hnothing, List.nil_append]
      · have hfor : ¬ self.LiveFor P p d := fun h => hp h.2
        rw [if_neg (by simpa using hp), if_neg (by simpa using hfor), hrest]

/-- **Rejected and foreign traffic cannot influence the commands of a source.** Delete from a run
    everything that is not live for `p`: each live message of `p` gets the same event with the same
    result code, the commands published for `p` are the same, and so is the replay state of `p` at
    the end. -/
theorem foreign_traffic_invisible (P : Platform) (node : VerifierNode) (ds : List Delivery)
    (p : Pair) :
    let live := ds.filter (node.LiveFor P p)
    ((Machine.steps (VerifierNode.handle P) node ds).filter fun st =>
        node.LiveFor P p st.input).map Machine.Step.output =
      Machine.outputs (VerifierNode.handle P) node live ∧
    node.verifiedTwistsFor P ds p = node.verifiedTwistsFor P live p ∧
    (Machine.final (VerifierNode.handle P) node ds).replayWindow.states.lookup p =
      (Machine.final (VerifierNode.handle P) node live).replayWindow.states.lookup p := by
  intro live
  obtain ⟨hview, houts⟩ :=
    (VerifierNode.unwinds P node.toVerifierConfig p).run rfl rfl rfl ds
  -- deleting twice deletes nothing more
  obtain ⟨-, houts'⟩ :=
    (VerifierNode.unwinds P node.toVerifierConfig p).run rfl rfl rfl live
  have hlive : live.filter (node.LiveFor P p) = live := by
    rw [List.filter_filter]
    simp only [Bool.and_self]
    rfl
  rw [hlive] at houts'
  refine ⟨houts, ?_, congrArg Prod.snd hview⟩
  rw [VerifierNode.verifiedTwistsFor_eq, VerifierNode.verifiedTwistsFor_eq, houts, houts']

end PqcSecureComm
