import PqcSecureComm.Lib.FreshChannel
import PqcSecureComm.Agreement

set_option autoImplicit false

/-! # The signed path as an ideal channel

Signatures, digests, trust store and replay window together are meant to be a channel that nobody can put
anything into but the holder of the key. For every attacker on the network there is a scheduler of the
ideal channel under which the same is sent and the same comes out (`refines_fresh_channel`); so what the
attacker can do to a pair is what a scheduler can: delay, drop, repeat and reorder. -/

namespace PqcSecureComm

open SlidingWindow FreshChannel

/-! ## What is seen of the system -/

/-- A command with the stamp and the lifetime it was signed with. -/
structure StampedCommand where
  command : Twist
  sourceStampNs : ℤ
  ttlMs : ℤ
  deriving DecidableEq, Repr

/-- The item of a command: it has the sequence as its number and is good until it expires. -/
def StampedCommand.item (self : StampedCommand) (sequence : ℤ) : Item StampedCommand ℤ :=
  ⟨self, sequence, self.sourceStampNs + self.ttlMs * 1000000⟩

def SigningEvent.item (self : SigningEvent) : Item StampedCommand ℤ :=
  StampedCommand.item ⟨self.command, self.args.sourceStampNs, self.args.ttlMs⟩ self.args.sequence

def Delivery.item (d : Delivery) (command : Twist) : Item StampedCommand ℤ :=
  StampedCommand.item ⟨command, d.sourceStampNs, d.msg.ttlMs.toNat⟩ d.msg.sequence.toNat

/-- The signing is for the pair, under the version, schema and topic of the verifier. -/
def SigningEvent.For (self : SigningEvent) (config : VerifierConfig) (p : Pair) : Prop :=
  self.adapter.payloadVersion = config.expectedPayloadVersion ∧
    self.adapter.payloadSchema = config.expectedPayloadSchema ∧
    self.args.topicName = config.topicName ∧ (self.args.sourceId, self.args.keyId) = p

instance (self : SigningEvent) (config : VerifierConfig) (p : Pair) : Decidable (self.For config p) :=
  inferInstanceAs (Decidable (_ ∧ _ ∧ _ ∧ _))

/-- What an output of a signer puts into the channel. -/
def SignerOutput.item? (config : VerifierConfig) (p : Pair) (privateKey : Bytes) :
    SignerOutput → Option (Item StampedCommand ℤ)
  | .signing event =>
    if event.privateKey = privateKey ∧ event.For config p then some event.item else none
  | .published _ => none

/-- What one sees who watches the signings with the key for the pair and the commands published for it. -/
def Event.obs? (config : VerifierConfig) (p : Pair) (privateKey : Bytes) :
    Event → Option (Obs StampedCommand ℤ)
  | .signer _ output => (output.item? config p privateKey).map .sent
  | .verifier d (.verified command) =>
    if d.msg.pair = p then some (.delivered (d.item command) d.env.nowNs) else none
  | .verifier _ (.event _) => none

theorem filterMap_obs_signer (config : VerifierConfig) (p : Pair) (privateKey : Bytes) (i : ℕ)
    (outputs : List SignerOutput) :
    (outputs.map (Event.signer i)).filterMap (Event.obs? config p privateKey) =
      (outputs.filterMap (SignerOutput.item? config p privateKey)).map .sent := by
  rw [List.filterMap_map, List.map_filterMap]
  rfl

/-- What a callback of the verifier shows. -/
theorem filterMap_obs_verify (P : Platform) (node : VerifierNode) (d : Delivery)
    (config : VerifierConfig) (p : Pair) (privateKey : Bytes) :
    ((node.handle P d).2.published.map (Event.verifier d)).filterMap
        (Event.obs? config p privateKey) =
      if (node.judge P d).code = .ok ∧ d.msg.pair = p then
        [.delivered (d.item d.msg.command) d.env.nowNs] else [] := by
  rw [VerifierNode.handle_eq]
  unfold Delivery.report
  rw [VerifierNode.verified_judge]
  by_cases hok : (node.judge P d).code = .ok
  · by_cases hp : d.msg.pair = p
    · cases d.makeEvent (node.judge P d).code (node.judge P d).reason <;>
        simp [hok, hp, Event.obs?]
    · cases d.makeEvent (node.judge P d).code (node.judge P d).reason <;>
        simp [hok, hp, Event.obs?]
  · cases d.makeEvent (node.judge P d).code (node.judge P d).reason <;>
      simp [hok, Event.obs?]

/-- The callback of the verifier, seen from the channel: what its window accepts for the pair is picked,
    and dropped if the publication fails. -/
theorem VerifierNode.exists_picks {P : Platform} {node : VerifierNode} {H : Reference}
    (htracks : node.replayWindow.Tracks H) {p : Pair} {ideal : State StampedCommand ℤ}
    (htaken : H p = ideal.taken) (d : Delivery)
    (hsent : node.Live P d → d.msg.pair = p → d.item d.msg.command ∈ ideal.sent) :
    ∃ schedule,
      (Machine.final (FreshChannel.step node.replayWindow.windowSize) ideal schedule).sent = ideal.sent ∧
      ∃ H', (node.handle P d).1.replayWindow.Tracks H' ∧
        H' p = (Machine.final (FreshChannel.step node.replayWindow.windowSize) ideal schedule).taken ∧
        Machine.trace (FreshChannel.step node.replayWindow.windowSize) ideal schedule =
          if (node.judge P d).code = .ok ∧ d.msg.pair = p then
            [.delivered (d.item d.msg.command) d.env.nowNs] else [] := by
  have hok : (node.judge P d).code = .ok ↔ node.Accepts P d ∧ d.env.faults .publish = none := by
    rw [VerifierNode.code_judge_eq_ok, ← and_assoc]
    rfl
  have hnext : ∀ H' : Reference, (H' = fun q =>
      if node.Accepts P d ∧ d.msg.pair = q then insert (d.msg.sequence.toNat : ℤ) (H q) else H q) →
      (node.handle P d).1.replayWindow.Tracks H' := by
    rintro H' rfl
    exact VerifierNode.tracks_handle htracks d
  by_cases htake : node.Accepts P d ∧ d.msg.pair = p
  · obtain ⟨haccepts, hpair⟩ := htake
    obtain ⟨⟨hlive, -⟩, hadmits⟩ := (VerifierNode.accepts_iff htracks).1 haccepts
    obtain ⟨store, key, bytes, hpassed⟩ := VerifierConfig.passed_of_live hlive
    rw [hpair, htaken] at hadmits
    obtain ⟨k, hk, hitem⟩ := List.getElem_of_mem (hsent hlive hpair)
    have hat : ideal.sent[k]? = some (d.item d.msg.command) := by
      rw [List.getElem?_eq_getElem hk, hitem]
    have hpick := step_pick_of_admits hat (Delivery.ageNs_le_iff.1 hpassed.age) hadmits
      (d.env.faults .publish).isSome
    refine ⟨[.pick k d.env.nowNs (d.env.faults .publish).isSome], ?_, _, hnext _ rfl, ?_, ?_⟩
    · rw [Machine.final_cons, hpick]
      rfl
    · rw [Machine.final_cons, hpick, if_pos ⟨haccepts, hpair⟩, htaken]
      rfl
    · rw [Machine.trace_cons, hpick, Machine.trace_nil, List.append_nil]
      cases hfault : d.env.faults .publish with
      | none => simp [hok, haccepts, hfault, hpair]
      | some exc => simp [hok, hfault]
  · refine ⟨[], rfl, _, hnext _ rfl, ?_, ?_⟩
    · rw [if_neg htake]
      exact htaken
    · rw [if_neg fun hand => htake ⟨(hok.1 hand.1).1, hand.2⟩]
      rfl

/-! ## The simulation -/

/-- The state of the ideal channel behind some actions: it holds what was signed for the pair, and has
    taken the numbers the window of the verifier has. -/
structure IdealFor (P : Platform) (verifier : VerifierNode) (p : Pair) (privateKey : Bytes)
    (actions : List Action) (ideal : State StampedCommand ℤ) : Prop where
  sent : ∀ i event, .signer i (.signing event) ∈ (System.init verifier).trace P actions →
    event.privateKey = privateKey → event.For verifier.toVerifierConfig p → event.item ∈ ideal.sent
  taken : ∃ H, ((System.init verifier).after P actions).verifier.replayWindow.Tracks H ∧
    H p = ideal.taken
  windowSize : ((System.init verifier).after P actions).verifier.replayWindow.windowSize =
    verifier.replayWindow.windowSize

theorem System.after_concat (P : Platform) (self : System) (actions : List Action) (action : Action) :
    self.after P (actions ++ [action]) = ((self.after P actions).step P action).1 := by
  unfold System.after
  rw [Machine.final_append]
  rfl

theorem System.trace_concat (P : Platform) (self : System) (actions : List Action) (action : Action) :
    self.trace P (actions ++ [action]) =
      self.trace P actions ++ ((self.after P actions).step P action).2 := by
  unfold System.trace System.after
  rw [Machine.trace_append, Machine.trace_cons, Machine.trace_nil, List.append_nil]

section Steps

variable {P : Platform} {verifier : VerifierNode} {p : Pair} {privateKey : Bytes} {before : List Action}
  {ideal : State StampedCommand ℤ}

/-- An action that leaves the verifier alone, and whose signings are in the channel. -/
theorem IdealFor.extend (h : IdealFor P verifier p privateKey before ideal) {action : Action}
    (hverifier : (((System.init verifier).after P before).step P action).1.verifier =
      ((System.init verifier).after P before).verifier)
    {ideal' : State StampedCommand ℤ} (htaken : ideal'.taken = ideal.taken)
    (hold : ∀ item ∈ ideal.sent, item ∈ ideal'.sent)
    (hnew : ∀ i event, .signer i (.signing event) ∈
      (((System.init verifier).after P before).step P action).2 → event.privateKey = privateKey →
      event.For verifier.toVerifierConfig p → event.item ∈ ideal'.sent) :
    IdealFor P verifier p privateKey (before ++ [action]) ideal' := by
  refine ⟨?_, ?_, ?_⟩
  · intro i event hmem hprivate hfor
    rw [System.trace_concat] at hmem
    rcases List.mem_append.1 hmem with hbefore | hnow
    · exact hold _ (h.sent i event hbefore hprivate hfor)
    · exact hnew i event hnow hprivate hfor
  · rw [System.after_concat, hverifier, htaken]
    exact h.taken
  · rw [System.after_concat, hverifier]
    exact h.windowSize

/-- An action that signs nothing either. -/
theorem IdealFor.stay (h : IdealFor P verifier p privateKey before ideal) {action : Action}
    (hverifier : (((System.init verifier).after P before).step P action).1.verifier =
      ((System.init verifier).after P before).verifier)
    (hunsigned : ∀ i event, .signer i (.signing event) ∉
      (((System.init verifier).after P before).step P action).2) :
    IdealFor P verifier p privateKey (before ++ [action]) ideal :=
  h.extend hverifier rfl (fun _ hitem => hitem) fun i event hmem => absurd hmem (hunsigned i event)

/-- A raw command: what the signer signs is sent. -/
theorem IdealFor.rawTwist (h : IdealFor P verifier p privateKey before ideal) (W : ℤ) (i : ℕ)
    (input : RawTwist) :
    ∃ schedule, IdealFor P verifier p privateKey (before ++ [.rawTwist i input])
        (Machine.final (FreshChannel.step W) ideal schedule) ∧
      Machine.trace (FreshChannel.step W) ideal schedule =
        (((System.init verifier).after P before).step P (.rawTwist i input)).2.filterMap
          (Event.obs? verifier.toVerifierConfig p privateKey) := by
  have hverifier : (((System.init verifier).after P before).step P (.rawTwist i input)).1.verifier =
      ((System.init verifier).after P before).verifier := System.verifier_rawTwist P _ i input
  cases hnode : ((System.init verifier).after P before).signers i with
  | none =>
      have hnothing : ((System.init verifier).after P before).step P (.rawTwist i input) =
          ((System.init verifier).after P before, []) := System.rawTwist_of_none hnode
      refine ⟨[], h.stay hverifier ?_, by rw [hnothing]; rfl⟩
      rw [hnothing]
      exact fun _ _ => List.not_mem_nil
  | some node =>
      have houtput : (((System.init verifier).after P before).step P (.rawTwist i input)).2 =
          (node.handle P input).2.published.map (.signer i) :=
        congrArg Prod.snd (System.rawTwist_of_some hnode)
      obtain ⟨hfinal, htrace⟩ := run_sends W ideal ((node.handle P input).2.published.filterMap
        (SignerOutput.item? verifier.toVerifierConfig p privateKey))
      refine ⟨_, h.extend hverifier (by rw [hfinal]) ?_ ?_, htrace.trans ?_⟩
      · intro item hitem
        rw [hfinal]
        exact List.mem_append_left _ hitem
      · intro j event hmem hprivate hfor
        rw [houtput] at hmem
        obtain ⟨output, hin, heq⟩ := List.mem_map.1 hmem
        obtain ⟨-, rfl⟩ := Event.signer.inj heq
        rw [hfinal]
        exact List.mem_append_right _ (List.mem_filterMap.2 ⟨_, hin, if_pos ⟨hprivate, hfor⟩⟩)
      · rw [houtput, filterMap_obs_signer]

/-- What passes all checks in front of the window was put into the channel before. -/
theorem IdealFor.mem_sent_of_live (h : IdealFor P verifier p privateKey before ideal) {publicKey : Bytes}
    (hkey : KeyOf P verifier.toVerifierConfig p publicKey) {actions after : List Action}
    (hunforgeable : Unforgeable P (.init verifier) actions privateKey publicKey)
    (hcollision : CollisionFree P (.init verifier) actions) {d : Delivery} {rest : List SignedTwist}
    (hsplit : actions = before ++ .verify d.env :: after)
    (hinbox : ((System.init verifier).after P before).inbox = d.msg :: rest)
    (hlive : verifier.toVerifierConfig.Live P d) (hpair : d.msg.pair = p) :
    d.item d.msg.command ∈ ideal.sent := by
  obtain ⟨store, key, bytes, hpassed⟩ := VerifierConfig.passed_of_live hlive
  have hlookup : store.getPublicKey P p.1 p.2 sigSchemeMlDsa44 = .ok (some key) := by
    rw [← hpair]
    exact hpassed.publicKey
  obtain rfl : key = publicKey := hkey store key hpassed.trustStore hlookup
  obtain ⟨i, event, hsigned, hprivate, hdigest⟩ :=
    hunforgeable before d.env after d.msg rest hsplit hinbox hpassed.signature
  obtain ⟨-, hbytes, hhash⟩ := System.signing_of_mem_trace hsigned
  have hsame : event.canonicalBytes = bytes := by
    refine hcollision before d.env after d.msg rest bytes i event hsplit hinbox
      hpassed.canonicalBytes hsigned ?_
    rw [← hhash, hdigest, hpassed.payloadDigest]
  rw [hsame] at hbytes
  obtain ⟨hadapter, hcommand, hargs⟩ :=
    TwistAdapter.eq_of_buildCanonicalBytes_prefix hbytes hpassed.canonicalBytes List.prefix_rfl
  have hfor : event.For verifier.toVerifierConfig p := by
    unfold SigningEvent.For
    rw [hadapter, hargs, ← hpair]
    exact ⟨rfl, rfl, rfl, rfl⟩
  have hitem : event.item = d.item d.msg.command := by
    unfold SigningEvent.item Delivery.item
    rw [hcommand, hargs]
    rfl
  rw [← hitem]
  exact h.sent i event hsigned hprivate hfor

/-- The callback of the verifier. -/
theorem IdealFor.verify (h : IdealFor P verifier p privateKey before ideal) {publicKey : Bytes}
    (hkey : KeyOf P verifier.toVerifierConfig p publicKey) {actions after : List Action}
    (hunforgeable : Unforgeable P (.init verifier) actions privateKey publicKey)
    (hcollision : CollisionFree P (.init verifier) actions) {env : VerifierEnv}
    (hsplit : actions = before ++ .verify env :: after) :
    ∃ schedule, IdealFor P verifier p privateKey (before ++ [.verify env])
        (Machine.final (FreshChannel.step verifier.replayWindow.windowSize) ideal schedule) ∧
      Machine.trace (FreshChannel.step verifier.replayWindow.windowSize) ideal schedule =
        (((System.init verifier).after P before).step P (.verify env)).2.filterMap
          (Event.obs? verifier.toVerifierConfig p privateKey) := by
  have hunsigned : ∀ i event, .signer i (.signing event) ∉
      (((System.init verifier).after P before).step P (.verify env)).2 := by
    intro i event hmem
    obtain ⟨msg, rest, output, -, -, heq⟩ := System.exists_of_mem_verify hmem
    exact absurd heq (by simp)
  cases hinbox : ((System.init verifier).after P before).inbox with
  | nil =>
      have hnothing : ((System.init verifier).after P before).step P (.verify env) =
          ((System.init verifier).after P before, []) := System.verify_of_nil hinbox
      exact ⟨[], h.stay (by rw [hnothing]) hunsigned, by rw [hnothing]; rfl⟩
  | cons msg rest =>
      obtain ⟨H, htracks, htaken⟩ := h.taken
      have hconfig := System.config_after P (.init verifier) before
      change ((System.init verifier).after P before).verifier.toVerifierConfig =
        verifier.toVerifierConfig at hconfig
      have hsent : ((System.init verifier).after P before).verifier.Live P ⟨msg, env⟩ → msg.pair = p →
          Delivery.item ⟨msg, env⟩ msg.command ∈ ideal.sent := fun hlive hpair =>
        h.mem_sent_of_live hkey hunforgeable hcollision hsplit hinbox (hconfig ▸ hlive) hpair
      obtain ⟨schedule, hsame, H', htracks', htaken', htrace⟩ :=
        VerifierNode.exists_picks htracks htaken ⟨msg, env⟩ hsent
      have hnext : ((System.init verifier).after P before).step P (.verify env) = _ :=
        System.verify_of_cons hinbox
      rw [h.windowSize] at hsame htaken' htrace
      refine ⟨schedule, ⟨?_, ?_, ?_⟩, ?_⟩
      · intro i event hmem hprivate hfor
        rw [System.trace_concat] at hmem
        rw [hsame]
        exact h.sent i event ((List.mem_append.1 hmem).resolve_right (hunsigned i event)) hprivate hfor
      · rw [System.after_concat, hnext]
        exact ⟨H', htracks', htaken'⟩
      · rw [System.after_concat, hnext]
        exact (VerifierNode.windowSize_final P _ [⟨msg, env⟩]).trans h.windowSize
      · rw [hnext, filterMap_obs_verify]
        exact htrace

end Steps

/-- **The signed path refines the ideal channel.** In every run of a started verifier with any signers,
    restarts and faults, and an attacker who delivers what it likes: what is signed with the key of a pair
    and what is published for it could be seen of an ideal channel with some scheduler. So every
    published command was put in before, with its number, stamp and lifetime, is in time, comes out once,
    and is not overtaken by a whole window. -/
theorem refines_fresh_channel (P : Platform) (params : VerifierParams) (verifier : VerifierNode)
    (hinit : VerifierNode.init P params = .ok verifier) (p : Pair) (privateKey publicKey : Bytes)
    (hkey : KeyOf P verifier.toVerifierConfig p publicKey) (actions : List Action)
    (hunforgeable : Unforgeable P (.init verifier) actions privateKey publicKey)
    (hcollision : CollisionFree P (.init verifier) actions) :
    let seen := ((System.init verifier).trace P actions).filterMap
      (Event.obs? verifier.toVerifierConfig p privateKey)
    (∃ schedule, Machine.trace (FreshChannel.step params.replayWindowSize) .empty schedule = seen) ∧
    Machine.Throughout (Obs.JustifiedBy params.replayWindowSize) seen := by
  intro seen
  obtain ⟨hfresh, hsize⟩ := VerifierNode.init_eq_ok hinit
  have hstart : IdealFor P verifier p privateKey [] .empty :=
    ⟨fun i event hmem => absurd hmem List.not_mem_nil, ⟨_, ReplayWindow.tracks_empty hfresh, rfl⟩, rfl⟩
  have hanswer : ∀ before action after ideal, actions = before ++ action :: after →
      IdealFor P verifier p privateKey before ideal →
      ∃ schedule, IdealFor P verifier p privateKey (before ++ [action])
          (Machine.final (FreshChannel.step verifier.replayWindow.windowSize) ideal schedule) ∧
        Machine.trace (FreshChannel.step verifier.replayWindow.windowSize) ideal schedule =
          (((System.init verifier).after P before).step P action).2.filterMap
            (Event.obs? verifier.toVerifierConfig p privateKey) := by
    intro before action after ideal hsplit h
    cases action with
    | start i params' => exact ⟨[], h.stay rfl (fun _ _ => List.not_mem_nil), rfl⟩
    | deliver msg => exact ⟨[], h.stay rfl (fun _ _ => List.not_mem_nil), rfl⟩
    | rawTwist i input => exact h.rawTwist _ i input
    | verify env => exact h.verify hkey hunforgeable hcollision hsplit
  obtain ⟨schedule, -, hschedule⟩ := Machine.exists_run_of_answers _ hstart hanswer
  rw [hsize] at hschedule
  have hjustified := justified_trace params.replayWindowSize schedule
  rw [hschedule] at hjustified
  exact ⟨⟨schedule, hschedule⟩, hjustified⟩

/-- The run of the demo signer and verifier: one command goes in, reaches the verifier twice and comes out
    once, a microsecond later. -/
theorem refines_fresh_channel_demo :
    ∃ schedule, Machine.trace (FreshChannel.step 64) .empty schedule =
      [.sent SigningEvent.demo.item, .delivered SigningEvent.demo.item 5000001000] := by
  obtain ⟨⟨schedule, hschedule⟩, -⟩ := refines_fresh_channel .demo .demo .demo VerifierNode.init_demo
    SignedTwist.demo.pair [1] [2] demo_keyOf demoActions demo_unforgeable demo_collisionFree
  exact ⟨schedule, hschedule.trans (by rfl)⟩

end PqcSecureComm
