import PqcSecureComm.Lib.Machine
import PqcSecureComm.KeyStore
import PqcSecureComm.TwistAdapter

set_option autoImplicit false

/-! # The signer node

`SignerNode._on_raw_twist`: encode, hash, sign, fill in a `SignedTwist`, publish, count. Nothing is
written before the publication, so a raise anywhere leaves the node as it was; the counter lives in
memory and a new node starts again at `0`. Which of the calls raise is the environment's choice.
`SignerNode.handle_cases` says once what a callback can do. -/

namespace PqcSecureComm

/-! ## The source -/

structure SignerNode where
  sourceId : PyStr
  keyId : PyStr
  sigScheme : ℤ
  hashScheme : ℤ
  ttlMs : ℤ
  topicName : PyStr
  sequence : ℕ
  adapter : TwistAdapter
  privateKey : Option Bytes
  backend : Option OqsMlDsa44Backend
  deriving DecidableEq, Repr

/-- The ROS parameters of the signer, with the values they are declared with. -/
structure SignerParams where
  sourceId : PyStr := PyStr.ofString "demo_source"
  keyId : PyStr := PyStr.ofString "demo_mldsa44_key_1"
  privateKeyPath : Path := PyStr.ofString "keys/signer/mldsa44_private.key"
  sigScheme : ℤ := sigSchemeMlDsa44
  hashScheme : ℤ := hashSchemeSha256
  ttlMs : ℤ := 500
  topicName : PyStr := PyStr.ofString "/cmd_vel/raw"
  payloadSchema : PyStr := payloadSchemaTwistV1
  deriving DecidableEq, Repr

/-- `SignerNode.__init__`; without key or backend the node starts and drops everything. -/
def SignerNode.init (P : Platform) (params : SignerParams) : SignerNode :=
  let loaded : Except PyError (Bytes × OqsMlDsa44Backend) := do
    let privateKey ← loadKeyBytes P params.privateKeyPath
    let backend ← OqsMlDsa44Backend.init P
    pure (privateKey, backend)
  { sourceId := params.sourceId
    keyId := params.keyId
    sigScheme := params.sigScheme
    hashScheme := params.hashScheme
    ttlMs := params.ttlMs
    topicName := params.topicName
    sequence := 0
    adapter := ⟨params.payloadSchema, payloadVersionV1⟩
    privateKey := loaded.toOption.map Prod.fst
    backend := loaded.toOption.map Prod.snd }

/-- The calls inside the `try` block of `_on_raw_twist` that may raise on their own. -/
inductive SignerCall
  | getClock
  | buildCanonicalBytes
  | sha256
  | sign
  | assignFields
  | publish
  deriving DecidableEq, Repr

/-- The surroundings of one callback: the clock reading, the randomness liboqs draws, and the calls
    that raise. -/
structure SignerEnv where
  nowNs : ℤ
  tape : Bytes
  faults : SignerCall → Option PyError

/-- One raw command reaching the signer. -/
structure RawTwist where
  msg : Twist
  env : SignerEnv

/-- A signing event: the private key was used on the digest of these fields. -/
structure SigningEvent where
  privateKey : Bytes
  adapter : TwistAdapter
  args : CanonicalArgs
  command : Twist
  canonicalBytes : Bytes
  payloadDigest : Bytes
  signature : Bytes
  deriving DecidableEq, Repr

/-- What the signer does that others can tell: `signing` marks the return of `backend.sign` and is
    not a publication, `published` is a message on `/cmd_vel/signed`. -/
inductive SignerOutput
  | signing (event : SigningEvent)
  | published (msg : SignedTwist)
  deriving DecidableEq, Repr

/-- The `try` block up to and including `backend.sign`. -/
def SignerNode.signTwist (P : Platform) (self : SignerNode) (backend : OqsMlDsa44Backend)
    (privateKey : Bytes) (input : RawTwist) : Except PyError SigningEvent := do
  Fallible.check (input.env.faults .getClock)
  let args : CanonicalArgs :=
    { topicName := self.topicName
      sourceId := self.sourceId
      keyId := self.keyId
      sourceStampNs := input.env.nowNs
      sequence := self.sequence
      ttlMs := self.ttlMs }
  Fallible.check (input.env.faults .buildCanonicalBytes)
  let canonicalBytes ← self.adapter.buildCanonicalBytes input.msg args
  Fallible.check (input.env.faults .sha256)
  let payloadDigest := P.sha256 canonicalBytes
  Fallible.check (input.env.faults .sign)
  let signature ← backend.sign P privateKey payloadDigest input.env.tape
  pure ⟨privateKey, self.adapter, args, input.msg, canonicalBytes, payloadDigest, signature⟩

/-- The assignments of the fields of the `SignedTwist`. -/
def SignerNode.fillMessage (self : SignerNode) (input : RawTwist) (event : SigningEvent) :
    Except PyError SignedTwist := do
  Fallible.check (input.env.faults .assignFields)
  let headerStamp ← Time.ofNanoseconds input.env.nowNs
  let payloadVersion ← uint8Field self.adapter.payloadVersion
  let sourceStamp ← Time.ofNanoseconds input.env.nowNs
  let sequence ← uint64Field self.sequence
  let ttlMs ← uint32Field self.ttlMs
  let sigScheme ← uint8Field self.sigScheme
  let hashScheme ← uint8Field self.hashScheme
  pure
    { headerStamp := headerStamp
      command := input.msg
      payloadVersion := payloadVersion
      payloadSchema := self.adapter.payloadSchema
      sourceStamp := sourceStamp
      sequence := sequence
      ttlMs := ttlMs
      sourceId := self.sourceId
      keyId := self.keyId
      sigScheme := sigScheme
      hashScheme := hashScheme
      payloadDigest := event.payloadDigest
      signature := event.signature }

/-- `self._sequence += 1`. -/
def SignerNode.incrementSequence (self : SignerNode) : SignerNode :=
  { self with sequence := self.sequence + 1 }

/-- `_on_raw_twist`; the `except` clause only logs. -/
def SignerNode.onRawTwist (P : Platform) (input : RawTwist) :
    Callback SignerNode SignerOutput PyError Unit := do
  let self ← Callback.node
  match self.backend, self.privateKey with
  | some backend, some privateKey =>
    -- the algorithms are checked for every command, not at the start
    if self.sigScheme ≠ sigSchemeMlDsa44 ∨ self.hashScheme ≠ hashSchemeSha256 then pure ()
    else
      tryCatch
        (do
          let event ← Callback.call (self.signTwist P backend privateKey input)
          Callback.publish (.signing event)
          let signedMsg ← Callback.call (self.fillMessage input event)
          Callback.raiseIf (input.env.faults .publish)
          Callback.publish (.published signedMsg)
          Callback.modifyNode SignerNode.incrementSequence)
        (fun _ => pure ())
  | _, _ => pure ()

/-- One callback of the signer. -/
def SignerNode.handle (P : Platform) (self : SignerNode) (input : RawTwist) :
    SignerNode × Callback.Reaction SignerOutput PyError :=
  Callback.react (SignerNode.onRawTwist P input) self

/-- The private key of a signer that was just started is the one in the file. -/
theorem SignerNode.privateKey_of_init {P : Platform} {params : SignerParams} {key : Bytes}
    (h : (SignerNode.init P params).privateKey = some key) :
    loadKeyBytes P params.privateKeyPath = .ok key := by
  unfold SignerNode.init at h
  cases hfile : loadKeyBytes P params.privateKeyPath with
  | error exc => simp [hfile, bind, Except.bind, Except.toOption] at h
  | ok key' =>
      cases hbackend : OqsMlDsa44Backend.init P with
      | error exc => simp [hfile, hbackend, bind, Except.bind, Except.toOption] at h
      | ok backend =>
          simp only [hfile, hbackend, bind, Except.bind, pure, Except.pure, Except.toOption,
            Option.map_some, Option.some.injEq] at h
          rw [h]

/-! ## What a callback can do -/

/-- `event` is the signing event of this input in this state. -/
structure SigningEvent.Of (P : Platform) (node : SignerNode) (input : RawTwist)
    (event : SigningEvent) : Prop where
  privateKey : node.privateKey = some event.privateKey
  sigScheme : node.sigScheme = sigSchemeMlDsa44
  hashScheme : node.hashScheme = hashSchemeSha256
  adapter : event.adapter = node.adapter
  args : event.args =
    ⟨node.topicName, node.sourceId, node.keyId, input.env.nowNs, node.sequence, node.ttlMs⟩
  command : event.command = input.msg
  canonicalBytes : event.adapter.buildCanonicalBytes event.command event.args =
    .ok event.canonicalBytes
  payloadDigest : event.payloadDigest = P.sha256 event.canonicalBytes
  signature : P.sign event.privateKey event.payloadDigest input.env.tape = .ok event.signature

/-- `msg` carries what `event` signed. -/
structure SignedTwist.Carries (msg : SignedTwist) (event : SigningEvent) : Prop where
  command : msg.command = event.command
  payloadVersion : (msg.payloadVersion.toNat : ℤ) = event.adapter.payloadVersion
  payloadSchema : msg.payloadSchema = event.adapter.payloadSchema
  sourceStamp : msg.sourceStamp.nanoseconds = event.args.sourceStampNs
  sequence : (msg.sequence.toNat : ℤ) = event.args.sequence
  ttlMs : (msg.ttlMs.toNat : ℤ) = event.args.ttlMs
  sourceId : msg.sourceId = event.args.sourceId
  keyId : msg.keyId = event.args.keyId
  sigScheme : (msg.sigScheme.toNat : ℤ) = sigSchemeMlDsa44
  hashScheme : (msg.hashScheme.toNat : ℤ) = hashSchemeSha256
  payloadDigest : msg.payloadDigest = event.payloadDigest
  signature : msg.signature = event.signature

theorem SignerNode.signTwist_eq_ok {P : Platform} {self : SignerNode} {backend : OqsMlDsa44Backend}
    {privateKey : Bytes} {input : RawTwist} {event : SigningEvent}
    (hkey : self.privateKey = some privateKey) (hsig : self.sigScheme = sigSchemeMlDsa44)
    (hhash : self.hashScheme = hashSchemeSha256)
    (h : self.signTwist P backend privateKey input = .ok event) :
    SigningEvent.Of P self input event := by
  simp only [SignerNode.signTwist, Fallible.bind_eq_ok, Fallible.pure_eq_ok] at h
  obtain ⟨-, -, -, -, canonicalBytes, hcanonical, -, -, -, -, signature, hsign, rfl⟩ := h
  exact {
    privateKey := hkey
    sigScheme := hsig
    hashScheme := hhash
    adapter := rfl
    args := rfl
    command := rfl
    canonicalBytes := hcanonical
    payloadDigest := rfl
    signature := hsign }

theorem SignerNode.fillMessage_eq_ok {P : Platform} {self : SignerNode} {input : RawTwist}
    {event : SigningEvent} {msg : SignedTwist} (hevent : SigningEvent.Of P self input event)
    (h : self.fillMessage input event = .ok msg) : msg.Carries event := by
  simp only [SignerNode.fillMessage, Fallible.bind_eq_ok, Fallible.pure_eq_ok] at h
  obtain ⟨-, -, headerStamp, -, version, hversion, stamp, hstamp, sequence, hsequence, ttl, httl,
    sig, hsig, hash, hhash, rfl⟩ := h
  obtain ⟨-, hsig1, hhash1, hadapter, hargs, hcommand, -, -, -⟩ := hevent
  exact {
    command := hcommand.symm
    payloadVersion := by rw [uint8Field_eq_ok hversion, hadapter]
    payloadSchema := by rw [hadapter]
    sourceStamp := by rw [Time.nanoseconds_ofNanoseconds hstamp, hargs]
    sequence := by rw [uint64Field_eq_ok hsequence, hargs]
    ttlMs := by rw [uint32Field_eq_ok httl, hargs]
    sourceId := by rw [hargs]
    keyId := by rw [hargs]
    sigScheme := by rw [uint8Field_eq_ok hsig, hsig1]
    hashScheme := by rw [uint8Field_eq_ok hhash, hhash1]
    payloadDigest := rfl
    signature := rfl }

/-- **What a callback of the signer can do**: nothing, sign without publishing (the node stays as it
    is in both cases), or sign and publish what was signed and count. It never raises. -/
theorem SignerNode.handle_cases (P : Platform) (self : SignerNode) (input : RawTwist) :
    self.handle P input = (self, ⟨.ok (), []⟩) ∨
    (∃ event, SigningEvent.Of P self input event ∧
      self.handle P input = (self, ⟨.ok (), [.signing event]⟩)) ∨
    (∃ event msg, SigningEvent.Of P self input event ∧ msg.Carries event ∧
      self.handle P input = (self.incrementSequence,
        ⟨.ok (), [.signing event, .published msg]⟩)) := by
  unfold SignerNode.handle Callback.react SignerNode.onRawTwist
  rw [Callback.run_node_bind]
  cases hbackend : self.backend with
  | none => exact Or.inl rfl
  | some backend =>
      cases hkey : self.privateKey with
      | none => exact Or.inl rfl
      | some privateKey =>
          by_cases hconfig : self.sigScheme ≠ sigSchemeMlDsa44 ∨ self.hashScheme ≠ hashSchemeSha256
          · simp only [if_pos hconfig]
            exact Or.inl rfl
          · simp only [if_neg hconfig, Callback.run_tryCatch, Callback.run_call_bind]
            rw [not_or, not_not, not_not] at hconfig
            cases hsign : self.signTwist P backend privateKey input with
            | error e => exact Or.inl rfl
            | ok event =>
                have hevent := SignerNode.signTwist_eq_ok hkey hconfig.1 hconfig.2 hsign
                simp only [Callback.run_publish_bind, Callback.run_call_bind]
                cases hfill : self.fillMessage input event with
                | error e => exact Or.inr (Or.inl ⟨event, hevent, rfl⟩)
                | ok msg =>
                    -- signed and filled in: only the publication can still fail
                    simp only [Callback.run_raiseIf_bind]
                    cases hfault : input.env.faults .publish with
                    | some e => exact Or.inr (Or.inl ⟨event, hevent, rfl⟩)
                    | none =>
                        exact Or.inr (Or.inr ⟨event, msg, hevent,
                          SignerNode.fillMessage_eq_ok hevent hfill, rfl⟩)

theorem SignerNode.privateKey_handle (P : Platform) (self : SignerNode) (input : RawTwist) :
    (self.handle P input).1.privateKey = self.privateKey := by
  rcases self.handle_cases P input with h | ⟨event, -, h⟩ | ⟨event, msg, -, -, h⟩
  · rw [h]
  · rw [h]
  · rw [h]
    rfl

/-! ## One lifetime -/

/-- The messages a callback published on `/cmd_vel/signed`. -/
def publishedOf (r : Callback.Reaction SignerOutput PyError) : List SignedTwist :=
  r.published.filterMap fun
    | .signing _ => none
    | .published msg => some msg

/-- What a signer published in the course of the raw commands. -/
def SignerNode.signedTwists (P : Platform) (self : SignerNode) (inputs : List RawTwist) :
    List SignedTwist :=
  (Machine.outputs (SignerNode.handle P) self inputs).flatMap publishedOf

def SignerNode.withSequence (self : SignerNode) (sequence : ℕ) : SignerNode :=
  { self with sequence := sequence }

theorem SignerNode.signedTwists_cons (P : Platform) (self : SignerNode) (input : RawTwist)
    (inputs : List RawTwist) :
    self.signedTwists P (input :: inputs) =
      publishedOf (self.handle P input).2 ++ (self.handle P input).1.signedTwists P inputs := by
  unfold SignerNode.signedTwists
  rw [Machine.outputs_cons, List.flatMap_cons]

/-- A callback publishes nothing and keeps the node, or publishes one message with the sequence of the
    counter, which then counts on. -/
theorem SignerNode.handle_published (P : Platform) (self : SignerNode) (input : RawTwist) :
    ((self.handle P input).1 = self ∧ publishedOf (self.handle P input).2 = []) ∨
    ∃ event msg, SigningEvent.Of P self input event ∧ msg.Carries event ∧
      msg.sequence.toNat = self.sequence ∧ (self.handle P input).1 = self.incrementSequence ∧
      publishedOf (self.handle P input).2 = [msg] := by
  rcases self.handle_cases P input with h | ⟨event, -, h⟩ | ⟨event, msg, hevent, hmsg, h⟩
  · rw [h]
    exact Or.inl ⟨rfl, rfl⟩
  · rw [h]
    exact Or.inl ⟨rfl, rfl⟩
  · rw [h]
    have hsequence : (msg.sequence.toNat : ℤ) = self.sequence := by
      rw [hmsg.sequence, hevent.args]
    exact Or.inr ⟨event, msg, hevent, hmsg, by exact_mod_cast hsequence, rfl, rfl⟩

/-- **The messages of one lifetime are numbered on from the counter**, without gap or reuse. -/
theorem SignerNode.sequence_signedTwists (P : Platform) (self : SignerNode)
    (inputs : List RawTwist) :
    (self.signedTwists P inputs).map (fun msg => msg.sequence.toNat) =
      List.range' self.sequence (self.signedTwists P inputs).length := by
  induction inputs generalizing self with
  | nil => rfl
  | cons input inputs ih =>
      rw [SignerNode.signedTwists_cons]
      rcases self.handle_published P input with ⟨hnode, hnone⟩ | ⟨event, msg, -, -, hseq, hnode, hone⟩
      · rw [hnode, hnone, List.nil_append]
        exact ih self
      · have hrest := ih self.incrementSequence
        rw [hnode, hone, List.singleton_append, List.map_cons, List.length_cons, List.range'_succ,
          hseq, hrest]
        rfl

/-- Every message of a lifetime carries what was signed under the parameters of the lifetime. -/
theorem SignerNode.exists_of_mem_signedTwists {P : Platform} {self : SignerNode}
    {inputs : List RawTwist} {msg : SignedTwist} (h : msg ∈ self.signedTwists P inputs) :
    ∃ input ∈ inputs, ∃ sequence event,
      SigningEvent.Of P (self.withSequence sequence) input event ∧ msg.Carries event := by
  induction inputs generalizing self with
  | nil => exact absurd h List.not_mem_nil
  | cons input inputs ih =>
      rw [SignerNode.signedTwists_cons, List.mem_append] at h
      rcases self.handle_published P input with ⟨hnode, hnone⟩ | ⟨event, msg', hevent, hmsg, -, hnode, hone⟩
      · rw [hnode, hnone] at h
        rcases h with hnil | hrest
        · exact absurd hnil List.not_mem_nil
        · obtain ⟨input', hinput', rest⟩ := ih hrest
          exact ⟨input', List.mem_cons_of_mem input hinput', rest⟩
      · rw [hnode, hone] at h
        rcases h with hhead | hrest
        · obtain rfl : msg = msg' := List.mem_singleton.1 hhead
          exact ⟨input, List.mem_cons_self, self.sequence, event, hevent, hmsg⟩
        · obtain ⟨input', hinput', sequence, event', hevent', hmsg'⟩ := ih hrest
          exact ⟨input', List.mem_cons_of_mem input hinput', sequence, event', hevent', hmsg'⟩

/-! ## The demo signer -/

/-- The declared parameters, with the private key of the demo platform. -/
def SignerParams.demo : SignerParams where
  privateKeyPath := PyStr.ofString "/keys/private.key"

/-- Nothing raises, and the clock reads `ns`. -/
def SignerEnv.quiet (ns : ℤ) : SignerEnv := ⟨ns, [], fun _ => none⟩

def RawTwist.demo : RawTwist :=
  ⟨⟨⟨0x3fe0000000000000, 0, 0⟩, ⟨0, 0, 0x3fd0000000000000⟩⟩, .quiet 5000000000⟩

/-- The first command after a restart of the demo signer. -/
def RawTwist.demoRestart : RawTwist :=
  ⟨⟨⟨0x3fd0000000000000, 0, 0⟩, ⟨0, 0, 0⟩⟩, .quiet 6000000000⟩

end PqcSecureComm
