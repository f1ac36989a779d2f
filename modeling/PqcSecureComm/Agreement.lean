import PqcSecureComm.System

set_option autoImplicit false

/-! # The signed command path is authentic

Injective agreement: every command the verifier publishes for a pair is one the honest holder of the
pair's private key signed before, field by field, and no signing accounts for two publications. What
signatures and hash are assumed to do is stated for the run at hand; the attacker is otherwise free. -/

namespace PqcSecureComm

open SlidingWindow Correspondence

/-! ## Assumptions on a run -/

/-- When the verifier handles a message whose signature verifies under the public key, the digest was
    signed with the private key before. -/
def Unforgeable (P : Platform) (start : System) (actions : List Action)
    (privateKey publicKey : Bytes) : Prop :=
  ∀ before env after msg rest, actions = before ++ .verify env :: after →
    (start.after P before).inbox = msg :: rest →
    P.verify msg.payloadDigest msg.signature publicKey = .ok true →
    ∃ i event, .signer i (.signing event) ∈ start.trace P before ∧
      event.privateKey = privateKey ∧ event.payloadDigest = msg.payloadDigest

/-- No canonical bytes the verifier recomputed collide with different ones that were signed. -/
def CollisionFree (P : Platform) (start : System) (actions : List Action) : Prop :=
  ∀ before env after msg rest bytes i event, actions = before ++ .verify env :: after →
    (start.after P before).inbox = msg :: rest →
    start.verifier.adapter.buildCanonicalBytes msg.command
      (start.verifier.canonicalArgs ⟨msg, env⟩) = .ok bytes →
    .signer i (.signing event) ∈ start.trace P before →
    P.sha256 event.canonicalBytes = P.sha256 bytes → event.canonicalBytes = bytes

/-- Only signer `honest` is ever started with the private key. -/
def SoleHolder (P : Platform) (actions : List Action) (honest : ℕ) (privateKey : Bytes) : Prop :=
  ∀ i params, .start i params ∈ actions →
    loadKeyBytes P params.privateKeyPath = .ok privateKey → i = honest

/-- Whatever public key the trust store has for the pair, it is this one. -/
def KeyOf (P : Platform) (config : VerifierConfig) (p : Pair) (publicKey : Bytes) : Prop :=
  ∀ store key, config.trustStore = some store →
    store.getPublicKey P p.1 p.2 sigSchemeMlDsa44 = .ok (some key) → key = publicKey

/-! ## Agreement -/

/-- The publication is of what was signed: the same command bit for bit, the same value of every
    protected field, and in time. -/
structure Agrees (config : VerifierConfig) (honest : ℕ) (privateKey : Bytes) (d : Delivery)
    (command : Twist) (i : ℕ) (event : SigningEvent) : Prop where
  signer : i = honest
  privateKey : event.privateKey = privateKey
  command : event.command = command
  payloadVersion : event.adapter.payloadVersion = config.expectedPayloadVersion
  payloadSchema : event.adapter.payloadSchema = config.expectedPayloadSchema
  topicName : event.args.topicName = config.topicName
  sourceId : event.args.sourceId = d.msg.sourceId
  keyId : event.args.keyId = d.msg.keyId
  sequence : event.args.sequence = d.msg.sequence.toNat
  ttlMs : event.args.ttlMs = d.msg.ttlMs.toNat
  sourceStampNs : event.args.sourceStampNs = d.sourceStampNs
  inTime : d.env.nowNs ≤ event.args.sourceStampNs + event.args.ttlMs * 1000000

/-- The event is a publication on `/cmd_vel/verified` for the pair. -/
inductive Event.PublishedFor (p : Pair) : Event → Prop
  | verified (d : Delivery) (command : Twist) (hpair : d.msg.pair = p) :
      PublishedFor p (.verifier d (.verified command))

/-- A publication and the signing it goes back to. -/
inductive Event.GoesBackTo (config : VerifierConfig) (honest : ℕ) (privateKey : Bytes) :
    Event → Event → Prop
  | signed (d : Delivery) (command : Twist) (i : ℕ) (event : SigningEvent)
      (hagrees : Agrees config honest privateKey d command i event) :
      GoesBackTo config honest privateKey (.verifier d (.verified command))
        (.signer i (.signing event))

/-- Everything signed was signed by a signer started with the key it used. -/
theorem System.signing_of_mem_trace {P : Platform} {verifier : VerifierNode} {actions : List Action}
    {i : ℕ} {event : SigningEvent}
    (h : .signer i (.signing event) ∈ (System.init verifier).trace P actions) :
    (∃ params, .start i params ∈ actions ∧
      loadKeyBytes P params.privateKeyPath = .ok event.privateKey) ∧
    event.adapter.buildCanonicalBytes event.command event.args = .ok event.canonicalBytes ∧
    event.payloadDigest = P.sha256 event.canonicalBytes := by
  obtain ⟨pre, post, htrace⟩ := List.append_of_mem h
  obtain ⟨before, action, after, rfl, hmem, -⟩ :=
    Machine.exists_step_of_trace_eq (System.step P) htrace
  obtain ⟨node, input, hnode, hevent⟩ := System.signing_of_mem_step hmem
  refine ⟨?_, hevent.canonicalBytes, hevent.payloadDigest⟩
  obtain ⟨params, hstart, hkey⟩ :=
    System.keysFrom_after P verifier before i node event.privateKey hnode hevent.privateKey
  exact ⟨params, List.mem_append_left _ hstart, hkey⟩

/-- **Agreement.** What the verifier publishes for the pair was signed before by the honest holder of
    the key. -/
theorem System.corresponds (P : Platform) (verifier : VerifierNode) {p : Pair} {honest : ℕ}
    {privateKey publicKey : Bytes} (hkey : KeyOf P verifier.toVerifierConfig p publicKey)
    {actions : List Action} (hsole : SoleHolder P actions honest privateKey)
    (hunforgeable : Unforgeable P (.init verifier) actions privateKey publicKey)
    (hcollision : CollisionFree P (.init verifier) actions) :
    Corresponds ((System.init verifier).trace P actions) (Event.PublishedFor p)
      (Event.GoesBackTo verifier.toVerifierConfig honest privateKey) := by
  intro pre a post htrace ha
  obtain ⟨d, command, hpair⟩ := ha
  obtain ⟨before, action, after, rfl, hmem, hpre⟩ :=
    Machine.exists_step_of_trace_eq (System.step P) htrace
  obtain ⟨rest, rfl, hinbox, ⟨⟨hlive, -⟩, -⟩, rfl⟩ := System.verified_of_mem_step hmem
  have hconfig : ((System.init verifier).after P before).verifier.toVerifierConfig =
      verifier.toVerifierConfig := System.config_after P (.init verifier) before
  change ((System.init verifier).after P before).verifier.Live P d at hlive
  rw [hconfig] at hlive
  obtain ⟨store, key, bytes, hpassed⟩ := VerifierConfig.passed_of_live hlive
  -- the key is the honest signer's, so the digest was signed
  have hlookup : store.getPublicKey P p.1 p.2 sigSchemeMlDsa44 = .ok (some key) := by
    rw [← hpair]
    exact hpassed.publicKey
  obtain rfl : key = publicKey := hkey store key hpassed.trustStore hlookup
  obtain ⟨i, event, hsigned, hprivate, hdigest⟩ :=
    hunforgeable before d.env after d.msg rest rfl hinbox hpassed.signature
  obtain ⟨⟨params, hstart, hfile⟩, hbytes, hhash⟩ := System.signing_of_mem_trace hsigned
  -- the digest is that of the canonical bytes on both sides, and these determine the fields
  have hsame : event.canonicalBytes = bytes := by
    refine hcollision before d.env after d.msg rest bytes i event rfl hinbox
      hpassed.canonicalBytes hsigned ?_
    rw [← hhash, hdigest, hpassed.payloadDigest]
  rw [hsame] at hbytes
  obtain ⟨hadapter, hcommand, hargs⟩ :=
    TwistAdapter.eq_of_buildCanonicalBytes_prefix hbytes hpassed.canonicalBytes List.prefix_rfl
  refine ⟨_, hpre _ hsigned, .signed d d.msg.command i event ?_⟩
  have htime := Delivery.ageNs_le_iff.1 hpassed.age
  exact {
    signer := by
      refine hsole i params (List.mem_append_left _ hstart) ?_
      rw [hfile, hprivate]
    privateKey := hprivate
    command := hcommand
    payloadVersion := by rw [hadapter]; rfl
    payloadSchema := by rw [hadapter]; rfl
    topicName := by rw [hargs]; rfl
    sourceId := by rw [hargs]; rfl
    keyId := by rw [hargs]; rfl
    sequence := by rw [hargs]; rfl
    ttlMs := by rw [hargs]; rfl
    sourceStampNs := by rw [hargs]; rfl
    inTime := by
      rw [hargs]
      exact htime }

/-! ## No signing accounts for two publications -/

/-- The sequence under which a command was published for the pair. -/
def Event.sequenceFor (p : Pair) : Event → Option ℤ
  | .verifier d (.verified _) => if d.msg.pair = p then some d.msg.sequence.toNat else none
  | _ => none

/-- A callback of the verifier publishes at most one command, under the sequence of the message. -/
theorem filterMap_sequenceFor (P : Platform) (node : VerifierNode) (d : Delivery) (p : Pair) :
    ((node.handle P d).2.published.map (Event.verifier d)).filterMap (Event.sequenceFor p) =
      if (node.judge P d).code = .ok ∧ d.msg.pair = p then [(d.msg.sequence.toNat : ℤ)] else [] := by
  rw [VerifierNode.handle_eq]
  unfold Delivery.report
  rw [VerifierNode.verified_judge]
  by_cases hok : (node.judge P d).code = .ok
  · by_cases hp : d.msg.pair = p
    · cases d.makeEvent (node.judge P d).code (node.judge P d).reason <;>
        simp [hok, hp, Event.sequenceFor]
    · cases d.makeEvent (node.judge P d).code (node.judge P d).reason <;>
        simp [hok, hp, Event.sequenceFor]
  · cases d.makeEvent (node.judge P d).code (node.judge P d).reason <;>
      simp [hok, Event.sequenceFor]

/-- A raw command publishes nothing on `/cmd_vel/verified`. -/
theorem System.sequences_rawTwist (P : Platform) (self : System) (i : ℕ) (input : RawTwist)
    (p : Pair) : (self.rawTwist P i input).2.filterMap (Event.sequenceFor p) = [] := by
  rw [List.filterMap_eq_nil_iff]
  intro event hevent
  obtain ⟨node, output, -, -, rfl⟩ := System.exists_of_mem_rawTwist hevent
  rfl

/-- **One step.** What it publishes for the pair is new to the history of the pair, and part of it
    afterwards. -/
theorem System.step_sequences {P : Platform} {self : System} {H : Reference}
    (htracks : self.verifier.replayWindow.Tracks H) (p : Pair) (action : Action) :
    ∃ H', (self.step P action).1.verifier.replayWindow.Tracks H' ∧ H p ⊆ H' p ∧
      ((self.step P action).2.filterMap (Event.sequenceFor p)).Nodup ∧
      ∀ s ∈ (self.step P action).2.filterMap (Event.sequenceFor p), s ∉ H p ∧ s ∈ H' p := by
  cases action with
  | start j params => exact ⟨H, htracks, Finset.Subset.refl _, List.nodup_nil, by simp [System.step]⟩
  | deliver msg => exact ⟨H, htracks, Finset.Subset.refl _, List.nodup_nil, by simp [System.step]⟩
  | rawTwist j input =>
      simp only [System.step, System.sequences_rawTwist, System.verifier_rawTwist]
      exact ⟨H, htracks, Finset.Subset.refl _, List.nodup_nil, by simp⟩
  | verify env =>
      simp only [System.step]
      cases hinbox : self.inbox with
      | nil =>
          rw [System.verify_of_nil hinbox]
          exact ⟨H, htracks, Finset.Subset.refl _, List.nodup_nil, by simp⟩
      | cons msg rest =>
          -- the next history is that of the callback: the sequence is new iff it is accepted
          rw [System.verify_of_cons hinbox, filterMap_sequenceFor]
          refine ⟨_, VerifierNode.tracks_handle htracks ⟨msg, env⟩, ?_, ?_, ?_⟩
          · split
            · exact Finset.subset_insert _ _
            · exact Finset.Subset.refl _
          · split
            · exact List.nodup_singleton _
            · exact List.nodup_nil
          · intro s hs
            split at hs
            · next hcond =>
                obtain ⟨hok, hp⟩ := hcond
                obtain rfl := List.mem_singleton.1 hs
                obtain ⟨hcall, hanswer, -⟩ := VerifierNode.code_judge_eq_ok.1 hok
                have haccepts : self.verifier.Accepts P ⟨msg, env⟩ := ⟨hcall, hanswer⟩
                have hadm := ((VerifierNode.accepts_iff htracks).1 haccepts).2
                rw [if_pos ⟨haccepts, hp⟩, ← hp]
                exact ⟨hadm.1, Finset.mem_insert_self _ _⟩
            · exact absurd hs List.not_mem_nil

/-- **A run.** The sequences published for a pair are new to its history and pairwise different. -/
theorem System.trace_sequences {P : Platform} {self : System} {H : Reference}
    (htracks : self.verifier.replayWindow.Tracks H) (p : Pair) (actions : List Action) :
    ((self.trace P actions).filterMap (Event.sequenceFor p)).Nodup ∧
      ∀ s ∈ (self.trace P actions).filterMap (Event.sequenceFor p), s ∉ H p := by
  -- the history grows along the run, so what a later step publishes is new to all earlier ones
  induction actions generalizing self H with
  | nil => exact ⟨List.nodup_nil, by simp [System.trace]⟩
  | cons action actions ih =>
      obtain ⟨H', htracks', hsub, hnodup, hnew⟩ := System.step_sequences (P := P) htracks p action
      obtain ⟨hnodup', hnew'⟩ := ih htracks'
      have hsplit : (self.trace P (action :: actions)).filterMap (Event.sequenceFor p) =
          (self.step P action).2.filterMap (Event.sequenceFor p) ++
            ((self.step P action).1.trace P actions).filterMap (Event.sequenceFor p) :=
        List.filterMap_append
      rw [hsplit]
      refine ⟨?_, ?_⟩
      · refine List.nodup_append.2 ⟨hnodup, hnodup', ?_⟩
        rintro s hs t ht rfl
        exact hnew' s ht (hnew s hs).2
      · intro s hs
        rcases List.mem_append.1 hs with hfirst | hlater
        · exact (hnew s hfirst).1
        · exact fun hold => hnew' s hlater (hsub hold)

/-- **The signed command path is authentic.** In every run of a started verifier with any signers,
    restarts and interleaving, and an attacker who delivers what it likes: each command published on
    `/cmd_vel/verified` for a pair whose key only one honest signer holds goes back to a signing by that
    signer, with the same fields and in time, and no signing accounts for more than one publication. -/
theorem commands_authentic (P : Platform) (params : VerifierParams) (verifier : VerifierNode)
    (hinit : VerifierNode.init P params = .ok verifier) (p : Pair) (honest : ℕ)
    (privateKey publicKey : Bytes) (hkey : KeyOf P verifier.toVerifierConfig p publicKey)
    (actions : List Action) (hsole : SoleHolder P actions honest privateKey)
    (hunforgeable : Unforgeable P (.init verifier) actions privateKey publicKey)
    (hcollision : CollisionFree P (.init verifier) actions) :
    Corresponds ((System.init verifier).trace P actions) (Event.PublishedFor p)
      (Event.GoesBackTo verifier.toVerifierConfig honest privateKey) ∧
    Injective ((System.init verifier).trace P actions) (Event.PublishedFor p)
      (Event.GoesBackTo verifier.toVerifierConfig honest privateKey) := by
  refine ⟨System.corresponds P verifier hkey hsole hunforgeable hcollision, ?_⟩
  obtain ⟨hfresh, -⟩ := VerifierNode.init_eq_ok hinit
  have htracks : (System.init verifier).verifier.replayWindow.Tracks fun _ => ∅ :=
    ReplayWindow.tracks_empty hfresh
  -- the key of a publication is its sequence, which the signing event carries too
  refine Injective.of_key (Event.sequenceFor p) (System.trace_sequences htracks p actions).1 ?_
  intro a a' b ha ha' hab hab'
  obtain ⟨d, command, hpair⟩ := ha
  obtain ⟨d', command', hpair'⟩ := ha'
  cases hab with
  | signed _ _ i event hagrees =>
      cases hab' with
      | signed _ _ _ _ hagrees' =>
          refine ⟨event.args.sequence, ?_, ?_⟩
          · rw [hagrees.sequence]
            exact if_pos hpair
          · rw [hagrees'.sequence]
            exact if_pos hpair'

/-! ## The demo run -/

/-- The demo signer starts and signs a command, and the attacker passes the message on, twice. -/
def demoSigning : List Action :=
  [.start 0 .demo, .rawTwist 0 .demo, .deliver .demo, .deliver .demo]

/-- Then the verifier handles both copies, a microsecond later each. -/
def demoActions : List Action :=
  demoSigning ++ [.verify (.quiet 5000001000), .verify (.quiet 5000002000)]

/-- What the demo signer signs. -/
def SigningEvent.demo : SigningEvent :=
  (((SignerNode.init .demo .demo).signTwist .demo ⟨PyStr.ofString "ML-DSA-44"⟩ [1] .demo).toOption).get
    (by rfl)

theorem demo_trace : (System.init .demo).trace .demo demoSigning =
    [.signer 0 (.signing .demo), .signer 0 (.published .demo)] := by rfl

/-- The verifier recomputes the canonical bytes from the same fields. -/
theorem demo_fields :
    SigningEvent.demo.adapter = VerifierNode.demo.adapter ∧
      SigningEvent.demo.command = SignedTwist.demo.command ∧
      SigningEvent.demo.args = VerifierNode.demo.canonicalArgs .demo := by decide

theorem demoActions_split {before after : List Action} {env : VerifierEnv}
    (h : demoActions = before ++ .verify env :: after) :
    before = demoSigning ∨ before = demoSigning ++ [.verify (.quiet 5000001000)] := by
  rcases before with _ | ⟨b₀, _ | ⟨b₁, _ | ⟨b₂, _ | ⟨b₃, _ | ⟨b₄, _ | ⟨b₅, rest⟩⟩⟩⟩⟩⟩
  · simp [demoActions, demoSigning] at h
  · simp [demoActions, demoSigning] at h
  · simp [demoActions, demoSigning] at h
  · simp [demoActions, demoSigning] at h
  · simp only [demoActions, demoSigning, List.cons_append, List.cons.injEq] at h
    obtain ⟨rfl, rfl, rfl, rfl, -⟩ := h
    exact Or.inl rfl
  · simp only [demoActions, demoSigning, List.cons_append, List.nil_append, List.cons.injEq] at h
    obtain ⟨rfl, rfl, rfl, rfl, rfl, -⟩ := h
    exact Or.inr rfl
  · simp [demoActions, demoSigning] at h

/-- The verifier is only handed the message of the demo signer, the one thing signed before. -/
theorem demo_before {before after : List Action} {env : VerifierEnv} {msg : SignedTwist}
    {rest : List SignedTwist} (hsplit : demoActions = before ++ .verify env :: after)
    (hinbox : ((System.init .demo).after .demo before).inbox = msg :: rest) :
    msg = .demo ∧ .signer 0 (.signing .demo) ∈ (System.init .demo).trace .demo before ∧
      ∀ i event, .signer i (.signing event) ∈ (System.init .demo).trace .demo before → event = .demo := by
  have honly : ∀ i event, .signer i (.signing event) ∈ (System.init .demo).trace .demo demoSigning →
      event = .demo := by
    intro i event hmem
    rw [demo_trace] at hmem
    simp only [List.mem_cons, Event.signer.injEq, SignerOutput.signing.injEq, reduceCtorEq, and_false,
      List.not_mem_nil, or_false] at hmem
    exact hmem.2
  have hsigned : .signer 0 (.signing .demo) ∈ (System.init .demo).trace .demo demoSigning := by
    rw [demo_trace]
    exact List.mem_cons_self
  rcases demoActions_split hsplit with rfl | rfl
  · have hqueue : ((System.init .demo).after .demo demoSigning).inbox = [.demo, .demo] := by rfl
    exact ⟨(List.head_eq_of_cons_eq (hqueue.symm.trans hinbox)).symm, hsigned, honly⟩
  · have hqueue : ((System.init .demo).after .demo
        (demoSigning ++ [.verify (.quiet 5000001000)])).inbox = [.demo] := by rfl
    unfold System.trace at hsigned honly ⊢
    rw [Machine.trace_append]
    refine ⟨(List.head_eq_of_cons_eq (hqueue.symm.trans hinbox)).symm, List.mem_append_left _ hsigned, ?_⟩
    intro i event hmem
    rcases List.mem_append.1 hmem with hold | hverifier
    · exact honly i event hold
    · rw [Machine.trace_cons, Machine.trace_nil, List.append_nil] at hverifier
      obtain ⟨_, _, _, -, -, heq⟩ := System.exists_of_mem_verify hverifier
      exact absurd heq (by simp)

theorem demo_keyOf : KeyOf .demo VerifierNode.demo.toVerifierConfig SignedTwist.demo.pair [2] := by
  intro store key hstore hlookup
  obtain rfl : TrustStore.demo = store := Option.some.inj hstore
  have hpublic : TrustStore.demo.getPublicKey .demo SignedTwist.demo.pair.1
      SignedTwist.demo.pair.2 sigSchemeMlDsa44 = .ok (some [2]) := by rfl
  exact Option.some.inj (Except.ok.inj (hlookup.symm.trans hpublic))

theorem demo_unforgeable : Unforgeable .demo (.init .demo) demoActions [1] [2] := by
  intro before env after msg rest hsplit hinbox _
  obtain ⟨rfl, hsigned, -⟩ := demo_before hsplit hinbox
  exact ⟨0, .demo, hsigned, by rfl, by rfl⟩

theorem demo_collisionFree : CollisionFree .demo (.init .demo) demoActions := by
  intro before env after msg rest bytes i event hsplit hinbox hbytes hsigned _
  obtain ⟨rfl, -, honly⟩ := demo_before hsplit hinbox
  obtain rfl := honly i event hsigned
  obtain ⟨-, hbuilt, -⟩ := System.signing_of_mem_trace hsigned
  rw [demo_fields.1, demo_fields.2.1, demo_fields.2.2] at hbuilt
  exact Except.ok.inj (hbuilt.symm.trans hbytes)

/-- One signing and two deliveries: one publication, which goes back to it. -/
theorem commands_authentic_demo :
    Corresponds ((System.init .demo).trace .demo demoActions)
      (Event.PublishedFor SignedTwist.demo.pair)
      (Event.GoesBackTo VerifierNode.demo.toVerifierConfig 0 [1]) ∧
    Injective ((System.init .demo).trace .demo demoActions)
      (Event.PublishedFor SignedTwist.demo.pair)
      (Event.GoesBackTo VerifierNode.demo.toVerifierConfig 0 [1]) ∧
    ((System.init .demo).trace .demo demoActions).filterMap
      (Event.sequenceFor SignedTwist.demo.pair) = [0] := by
  have hsole : SoleHolder .demo demoActions 0 [1] := by
    intro i params hstart _
    simp only [demoActions, demoSigning, List.cons_append, List.nil_append, List.mem_cons,
      Action.start.injEq, reduceCtorEq, List.not_mem_nil, or_false] at hstart
    exact hstart.1
  obtain ⟨hcorresponds, hinjective⟩ := commands_authentic .demo .demo .demo VerifierNode.init_demo _ 0
    [1] [2] demo_keyOf demoActions hsole demo_unforgeable demo_collisionFree
  exact ⟨hcorresponds, hinjective, by rfl⟩

end PqcSecureComm
