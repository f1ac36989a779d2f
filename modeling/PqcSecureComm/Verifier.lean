import PqcSecureComm.KeyStore
import PqcSecureComm.ReplayWindow
import PqcSecureComm.TwistAdapter

set_option autoImplicit false

/-! # The verifier node

`VerifierNode._on_signed_twist`: schema, algorithms, trust, digest, signature and age are checked
without touching the node (`VerifierConfig.checks`); only a message that passes them all is
**live** and reaches the replay window, the only thing a callback writes. Which of the calls raise
is the environment's choice. `VerifierConfig.passed_of_live` says what the checks of a live message
established, and `VerifierConfig.Passed.live` that nothing else is needed. -/

namespace PqcSecureComm

/-! ## The source -/

/-- What `VerifierNode.__init__` sets and nothing writes afterwards. -/
structure VerifierConfig where
  expectedPayloadSchema : PyStr
  expectedPayloadVersion : ℤ
  topicName : PyStr
  trustStore : Option TrustStore
  backend : Option OqsMlDsa44Backend

structure VerifierNode extends VerifierConfig where
  replayWindow : ReplayWindow

/-- The ROS parameters of the verifier, with the values they are declared with. -/
structure VerifierParams where
  trustStorePath : Path := PyStr.ofString "keys/trust/trust_store.yaml"
  expectedPayloadSchema : PyStr := payloadSchemaTwistV1
  expectedPayloadVersion : ℤ := payloadVersionV1
  replayWindowSize : ℤ := 64
  topicName : PyStr := PyStr.ofString "/cmd_vel/raw"
  deriving DecidableEq, Repr

/-- `self._adapter`. -/
def VerifierConfig.adapter (self : VerifierConfig) : TwistAdapter :=
  ⟨self.expectedPayloadSchema, self.expectedPayloadVersion⟩

/-- `VerifierNode.__init__`; without trust store or backend the node starts and verifies nothing. -/
def VerifierNode.init (P : Platform) (params : VerifierParams) : Except PyError VerifierNode := do
  let replayWindow ← ReplayWindow.init params.replayWindowSize
  let loaded : Except PyError (TrustStore × OqsMlDsa44Backend) := do
    let trustStore ← TrustStore.fromFile P params.trustStorePath
    let backend ← OqsMlDsa44Backend.init P
    pure (trustStore, backend)
  pure
    { expectedPayloadSchema := params.expectedPayloadSchema
      expectedPayloadVersion := params.expectedPayloadVersion
      topicName := params.topicName
      trustStore := loaded.toOption.map Prod.fst
      backend := loaded.toOption.map Prod.snd
      replayWindow := replayWindow }

/-- The calls inside the `try` block of `_on_signed_twist` that may raise on their own. A raise
    strikes at the call, before its body does anything. -/
inductive VerifierCall
  | getPublicKey
  | buildCanonicalBytes
  | sha256
  | verify
  | checkAndUpdate
  | publish
  deriving DecidableEq, Repr

/-- The surroundings of one callback: the two readings of `time.perf_counter_ns`, which never goes
    back, the two readings of the node's clock, and the calls that raise. -/
structure VerifierEnv where
  startNs : ℤ
  endNs : ℤ
  nowNs : ℤ
  eventNowNs : ℤ
  faults : VerifierCall → Option PyError
  perf_mono : startNs ≤ endNs
  perf_span : endNs - startNs < 2 ^ 64

/-- One message reaching the verifier. -/
structure Delivery where
  msg : SignedTwist
  env : VerifierEnv

/-- Publications on `/cmd_vel/verified` and on `/pqc/verify_event`. -/
inductive VerifierOutput
  | verified (command : Twist)
  | event (e : VerificationEvent)
  deriving DecidableEq, Repr

/-- `source_stamp_ns`. -/
def Delivery.sourceStampNs (d : Delivery) : ℤ :=
  d.msg.sourceStamp.sec.toInt * 1000000000 + d.msg.sourceStamp.nanosec.toNat

/-- `age_ns`. -/
def Delivery.ageNs (d : Delivery) : ℤ := max 0 (d.env.nowNs - d.sourceStampNs)

/-- The keyword arguments of the verifier's `build_canonical_bytes` call. -/
def VerifierConfig.canonicalArgs (self : VerifierConfig) (d : Delivery) : CanonicalArgs :=
  { topicName := self.topicName
    sourceId := d.msg.sourceId
    keyId := d.msg.keyId
    sourceStampNs := d.sourceStampNs
    sequence := d.msg.sequence.toNat
    ttlMs := d.msg.ttlMs.toNat }

/-- The branches of the `try` block up to the age check: a refusal with its reason, or nothing if
    the message is to go on to the replay window. -/
def VerifierConfig.checks (P : Platform) (self : VerifierConfig) (d : Delivery) :
    Except PyError (Option (ResultCode × PyStr)) :=
  let msg := d.msg
  -- the version is compared with the constant and with the parameter
  if (msg.payloadVersion.toNat : ℤ) ≠ payloadVersionV1 ∨
      (msg.payloadVersion.toNat : ℤ) ≠ self.expectedPayloadVersion then
    .ok (some (.schemaError,
      PyStr.ofString "Unsupported payload_version: " ++ PyStr.ofInt msg.payloadVersion.toNat))
  else if msg.payloadSchema ≠ self.expectedPayloadSchema then
    .ok (some (.schemaError, PyStr.ofString "Unexpected payload_schema: " ++ msg.payloadSchema))
  else if (msg.sigScheme.toNat : ℤ) ≠ sigSchemeMlDsa44 ∨
      (msg.hashScheme.toNat : ℤ) ≠ hashSchemeSha256 then
    .ok (some (.algUnsupported,
      PyStr.ofString "Unsupported algorithms sig_scheme=" ++ PyStr.ofInt msg.sigScheme.toNat ++
        PyStr.ofString " hash_scheme=" ++ PyStr.ofInt msg.hashScheme.toNat))
  else
    -- both are loaded at the start, or neither is
    match self.trustStore, self.backend with
    | some trustStore, some backend => do
      Fallible.check (d.env.faults .getPublicKey)
      let publicKey? ← trustStore.getPublicKey P msg.sourceId msg.keyId msg.sigScheme.toNat
      match publicKey? with
      | none =>
        pure (some (.keyNotTrusted,
          PyStr.ofString "Key not trusted for source_id=" ++ msg.sourceId ++
            PyStr.ofString ", key_id=" ++ msg.keyId))
      | some publicKey => do
        Fallible.check (d.env.faults .buildCanonicalBytes)
        let canonicalBytes ← self.adapter.buildCanonicalBytes msg.command (self.canonicalArgs d)
        Fallible.check (d.env.faults .sha256)
        let expectedDigest := P.sha256 canonicalBytes
        if expectedDigest ≠ msg.payloadDigest then
          pure (some (.digestMismatch,
            PyStr.ofString "payload_digest does not match recomputed SHA-256 digest."))
        else do
          Fallible.check (d.env.faults .verify)
          let valid ← backend.verify P publicKey expectedDigest msg.signature
          if valid = false then
            pure (some (.sigInvalid, PyStr.ofString "ML-DSA-44 signature verification failed."))
          else if d.ageNs > msg.ttlMs.toNat * 1000000 then
            pure (some (.expired,
              PyStr.ofString "Message age " ++ PyStr.ofInt d.ageNs ++
                PyStr.ofString " ns exceeds ttl_ms=" ++ PyStr.ofInt msg.ttlMs.toNat))
          else pure none
    | _, _ => .ok (some (.internalError, PyStr.ofString "Verifier backend is not initialized."))

/-- The arguments of the `check_and_update` call. -/
def Delivery.replayCall (d : Delivery) : ReplayCall := ⟨d.msg.pair, d.msg.sequence.toNat⟩

def VerifierNode.withWindow (self : VerifierNode) (window : ReplayWindow) : VerifierNode :=
  { self with replayWindow := window }

/-- The `try` block: `result_code` and `reason`. -/
def VerifierNode.tryBlock (P : Platform) (d : Delivery) :
    Callback VerifierNode VerifierOutput PyError (ResultCode × PyStr) := do
  let self ← Callback.node
  let refusal ← Callback.call (self.checks P d)
  match refusal with
  | some verdict => pure verdict
  | none => do
    Callback.raiseIf (d.env.faults .checkAndUpdate)
    let answer := self.replayWindow.checkAndUpdate d.replayCall
    -- the window has recorded the sequence before anything is published
    Callback.modifyNode fun self => self.withWindow answer.1
    if answer.2 = false then
      pure (.replay, PyStr.ofString "Replayed or stale sequence detected: " ++
        PyStr.ofInt d.msg.sequence.toNat)
    else do
      Callback.raiseIf (d.env.faults .publish)
      Callback.publish (.verified d.msg.command)
      pure (.ok, [])

/-- The `VerificationEvent` of the callback. -/
def Delivery.makeEvent (d : Delivery) (resultCode : ResultCode) (reason : PyStr) :
    Except PyError VerificationEvent := do
  let headerStamp ← Time.ofNanoseconds d.env.eventNowNs
  let verifyNs ← uint64Field (d.env.endNs - d.env.startNs)
  let ageNs ← uint64Field d.ageNs
  pure
    { headerStamp := headerStamp
      ok := resultCode == .ok
      resultCode := resultCode.toUInt8
      reason := reason
      sourceId := d.msg.sourceId
      keyId := d.msg.keyId
      sequence := d.msg.sequence
      verifyNs := verifyNs
      ageNs := ageNs }

/-- The text of the `except` clause. -/
def internalErrorReason (exc : PyError) : PyStr :=
  PyStr.ofString "Internal verification error: " ++ exc.text

/-- `_on_signed_twist`. -/
def VerifierNode.onSignedTwist (P : Platform) (d : Delivery) :
    Callback VerifierNode VerifierOutput PyError Unit := do
  let verdict ← tryCatch (VerifierNode.tryBlock P d)
    fun exc => pure (.internalError, internalErrorReason exc)
  let event ← Callback.call (d.makeEvent verdict.1 verdict.2)
  Callback.publish (.event event)

/-- One callback of the verifier. -/
def VerifierNode.handle (P : Platform) (self : VerifierNode) (d : Delivery) :
    VerifierNode × Callback.Reaction VerifierOutput PyError :=
  Callback.react (VerifierNode.onSignedTwist P d) self

/-- The commands a callback published on `/cmd_vel/verified`. -/
def verifiedOf (r : Callback.Reaction VerifierOutput PyError) : List Twist :=
  r.published.filterMap fun
    | .verified command => some command
    | .event _ => none

/-- The events a callback published on `/pqc/verify_event`. -/
def eventsOf (r : Callback.Reaction VerifierOutput PyError) : List VerificationEvent :=
  r.published.filterMap fun
    | .verified _ => none
    | .event e => some e

/-- Young enough, in terms of the clock; a stamp ahead of the clock has age `0`. -/
theorem Delivery.ageNs_le_iff {d : Delivery} :
    d.ageNs ≤ d.msg.ttlMs.toNat * 1000000 ↔
      d.env.nowNs ≤ d.sourceStampNs + d.msg.ttlMs.toNat * 1000000 := by
  unfold Delivery.ageNs
  omega

/-! ## Live messages -/

/-- The delivery passes every check before the replay check. -/
def VerifierConfig.Live (P : Platform) (self : VerifierConfig) (d : Delivery) : Prop :=
  self.checks P d = .ok none

instance (P : Platform) (self : VerifierConfig) (d : Delivery) : Decidable (self.Live P d) :=
  match h : self.checks P d with
  | .ok none => isTrue h
  | .ok (some _) => isFalse fun hlive => by simp [VerifierConfig.Live, h] at hlive
  | .error _ => isFalse fun hlive => by simp [VerifierConfig.Live, h] at hlive

/-- Everything the checks of a live message established. -/
structure VerifierConfig.Passed (P : Platform) (config : VerifierConfig) (d : Delivery)
    (store : TrustStore) (key bytes : Bytes) : Prop where
  payloadVersion : (d.msg.payloadVersion.toNat : ℤ) = payloadVersionV1
  expectedPayloadVersion : config.expectedPayloadVersion = payloadVersionV1
  payloadSchema : d.msg.payloadSchema = config.expectedPayloadSchema
  sigScheme : (d.msg.sigScheme.toNat : ℤ) = sigSchemeMlDsa44
  hashScheme : (d.msg.hashScheme.toNat : ℤ) = hashSchemeSha256
  trustStore : config.trustStore = some store
  backend : config.backend.isSome
  publicKey : store.getPublicKey P d.msg.sourceId d.msg.keyId sigSchemeMlDsa44 =
    .ok (some key)
  canonicalBytes : config.adapter.buildCanonicalBytes d.msg.command (config.canonicalArgs d) =
    .ok bytes
  payloadDigest : P.sha256 bytes = d.msg.payloadDigest
  signature : P.verify d.msg.payloadDigest d.msg.signature key = .ok true
  age : d.ageNs ≤ d.msg.ttlMs.toNat * 1000000
  noFault : ∀ call, call ≠ .checkAndUpdate → call ≠ .publish → d.env.faults call = none

/-- The calls before the replay check, one by one. -/
theorem VerifierEnv.noFault_of {env : VerifierEnv} (hkey : env.faults .getPublicKey = none)
    (hbytes : env.faults .buildCanonicalBytes = none) (hdigest : env.faults .sha256 = none)
    (hverify : env.faults .verify = none) :
    ∀ call, call ≠ .checkAndUpdate → call ≠ .publish → env.faults call = none := by
  intro call hreplay hpublish
  cases call with
  | getPublicKey => exact hkey
  | buildCanonicalBytes => exact hbytes
  | sha256 => exact hdigest
  | verify => exact hverify
  | checkAndUpdate => exact absurd rfl hreplay
  | publish => exact absurd rfl hpublish

theorem VerifierConfig.passed_of_live {P : Platform} {self : VerifierConfig} {d : Delivery}
    (h : self.Live P d) :
    ∃ store key bytes, self.Passed P d store key bytes := by
  unfold VerifierConfig.Live VerifierConfig.checks at h
  simp only at h
  by_cases hversion : (d.msg.payloadVersion.toNat : ℤ) ≠ payloadVersionV1 ∨
      (d.msg.payloadVersion.toNat : ℤ) ≠ self.expectedPayloadVersion
  · simp [if_pos hversion] at h
  by_cases hschema : d.msg.payloadSchema ≠ self.expectedPayloadSchema
  · simp [if_neg hversion, if_pos hschema] at h
  by_cases hscheme : (d.msg.sigScheme.toNat : ℤ) ≠ sigSchemeMlDsa44 ∨
      (d.msg.hashScheme.toNat : ℤ) ≠ hashSchemeSha256
  · simp [if_neg hversion, if_neg hschema, if_pos hscheme] at h
  rw [if_neg hversion, if_neg hschema, if_neg hscheme] at h
  rw [not_or, not_not, not_not] at hversion hscheme
  rw [not_not] at hschema
  split at h
  · next store backend hstore hbackend =>
      simp only [Fallible.bind_eq_ok, Fallible.check_eq_ok] at h
      obtain ⟨-, hf1, key?, hkey, h⟩ := h
      cases key? with
      | none => simp at h
      | some key =>
          simp only [Fallible.bind_eq_ok, Fallible.check_eq_ok] at h
          obtain ⟨-, hf2, bytes, hbytes, -, hf3, h⟩ := h
          by_cases hdigest : P.sha256 bytes ≠ d.msg.payloadDigest
          · simp [if_pos hdigest] at h
          rw [if_neg hdigest] at h
          rw [not_not] at hdigest
          simp only [Fallible.bind_eq_ok, Fallible.check_eq_ok] at h
          obtain ⟨-, hf4, valid, hvalid, h⟩ := h
          by_cases hfalse : valid = false
          · simp [if_pos hfalse] at h
          by_cases hage : d.ageNs > d.msg.ttlMs.toNat * 1000000
          · simp [if_neg hfalse, if_pos hage] at h
          refine ⟨store, key, bytes, ?_⟩
          exact {
            payloadVersion := hversion.1
            expectedPayloadVersion := hversion.2.symm.trans hversion.1
            payloadSchema := hschema
            sigScheme := hscheme.1
            hashScheme := hscheme.2
            trustStore := hstore
            backend := by rw [hbackend]; rfl
            publicKey := by rw [← hscheme.1]; exact hkey
            canonicalBytes := hbytes
            payloadDigest := hdigest
            signature := by
              rw [← hdigest, ← Bool.eq_true_of_not_eq_false hfalse]
              exact hvalid
            age := not_lt.1 hage
            noFault := VerifierEnv.noFault_of hf1 hf2 hf3 hf4 }
  · simp at h

/-- Once the contents of a message have passed the checks, only a fault or its age can stop it. -/
theorem VerifierConfig.Passed.checks_eq {P : Platform} {config : VerifierConfig}
    {msg : SignedTwist} {env' : VerifierEnv} {store : TrustStore} {key bytes : Bytes}
    (h : config.Passed P ⟨msg, env'⟩ store key bytes) (env : VerifierEnv) :
    ∃ refusal, config.checks P ⟨msg, env⟩ = (do
      Fallible.check (env.faults .getPublicKey)
      Fallible.check (env.faults .buildCanonicalBytes)
      Fallible.check (env.faults .sha256)
      Fallible.check (env.faults .verify)
      pure (if (⟨msg, env⟩ : Delivery).ageNs ≤ msg.ttlMs.toNat * 1000000 then none
        else some refusal)) := by
  have hversion : ¬ ((msg.payloadVersion.toNat : ℤ) ≠ payloadVersionV1 ∨
      (msg.payloadVersion.toNat : ℤ) ≠ config.expectedPayloadVersion) := by
    rw [h.expectedPayloadVersion, or_self, not_not]
    exact h.payloadVersion
  have hschema : ¬ msg.payloadSchema ≠ config.expectedPayloadSchema := not_not.2 h.payloadSchema
  have hscheme : ¬ ((msg.sigScheme.toNat : ℤ) ≠ sigSchemeMlDsa44 ∨
      (msg.hashScheme.toNat : ℤ) ≠ hashSchemeSha256) := by
    rw [not_or, not_not, not_not]
    exact ⟨h.sigScheme, h.hashScheme⟩
  obtain ⟨backend, hbackend⟩ := Option.isSome_iff_exists.1 h.backend
  have hkey : store.getPublicKey P msg.sourceId msg.keyId msg.sigScheme.toNat = .ok (some key) := by
    have hscheme1 : (msg.sigScheme.toNat : ℤ) = sigSchemeMlDsa44 := h.sigScheme
    rw [hscheme1]
    exact h.publicKey
  -- the canonical arguments do not depend on the surroundings
  have hbytes : config.adapter.buildCanonicalBytes msg.command (config.canonicalArgs ⟨msg, env⟩) =
      .ok bytes := h.canonicalBytes
  have hdigest : ¬ P.sha256 bytes ≠ msg.payloadDigest := not_not.2 h.payloadDigest
  have hvalid : P.verify (P.sha256 bytes) msg.signature key = .ok true := by
    rw [h.payloadDigest]
    exact h.signature
  refine ⟨(.expired, PyStr.ofString "Message age " ++ PyStr.ofInt (⟨msg, env⟩ : Delivery).ageNs ++
    PyStr.ofString " ns exceeds ttl_ms=" ++ PyStr.ofInt msg.ttlMs.toNat), ?_⟩
  unfold VerifierConfig.checks
  simp only [if_neg hversion, if_neg hschema, if_neg hscheme, h.trustStore, hbackend, hkey, hbytes,
    Fallible.ok_bind, if_neg hdigest, OqsMlDsa44Backend.verify, hvalid, Bool.true_eq_false, if_false]
  by_cases hage : (⟨msg, env⟩ : Delivery).ageNs ≤ msg.ttlMs.toNat * 1000000
  · rw [if_pos hage, if_neg (not_lt.2 hage)]
  · rw [if_neg hage, if_pos (not_le.1 hage)]

theorem VerifierConfig.Passed.live {P : Platform} {config : VerifierConfig} {d : Delivery}
    {store : TrustStore} {key bytes : Bytes} (h : config.Passed P d store key bytes) :
    config.Live P d := by
  obtain ⟨refusal, hchecks⟩ := h.checks_eq d.env
  have hage : (⟨d.msg, d.env⟩ : Delivery).ageNs ≤ d.msg.ttlMs.toNat * 1000000 := h.age
  rw [h.noFault .getPublicKey (by simp) (by simp), h.noFault .buildCanonicalBytes (by simp) (by simp),
    h.noFault .sha256 (by simp) (by simp), h.noFault .verify (by simp) (by simp), if_pos hage]
    at hchecks
  exact hchecks

end PqcSecureComm
