import PqcSecureComm.Signer
import PqcSecureComm.VerifierRuns

set_option autoImplicit false

/-! # No genuine command is wrongly refused

Signer and verifier build the canonical bytes in two places, the verifier from a stamp that went over
the wire in two fields. With matching configuration they build the same bytes, so that a genuine message
passes every check but the age check, and the verdict on it is that of the clock and the window. -/

namespace PqcSecureComm

open SlidingWindow

/-! ## Matching configuration -/

/-- What the key holder signs, the public key verifies. -/
def Platform.KeyPair (P : Platform) (privateKey publicKey : Bytes) : Prop :=
  ∀ message tape signature, P.sign privateKey message tape = .ok signature →
    P.verify message signature publicKey = .ok true

/-- The demo platform signs with a key by putting it in front; the public key is one above it. -/
theorem Platform.keyPair_demo (key : UInt8) : Platform.demo.KeyPair [key] [key + 1] := by
  intro message tape signature hsign
  obtain rfl : [key] ++ message = signature := Except.ok.inj hsign
  show Except.ok ([key] ++ message == [key + 1 - 1] ++ message) = _
  rw [add_sub_cancel_right, beq_self_eq_true]

/-- Signer and verifier agree on topic, schema, version and algorithms, and the trust store of the
    verifier holds an enabled entry for the pair of the signer with the matching public key. -/
structure Matching (P : Platform) (signer : SignerParams) (verifier : VerifierParams)
    (store : TrustStore) : Prop where
  topicName : verifier.topicName = signer.topicName
  payloadSchema : verifier.expectedPayloadSchema = signer.payloadSchema
  payloadVersion : verifier.expectedPayloadVersion = payloadVersionV1
  sigScheme : signer.sigScheme = sigSchemeMlDsa44
  hashScheme : signer.hashScheme = hashSchemeSha256
  ttlMs : 0 ≤ signer.ttlMs ∧ signer.ttlMs < 2 ^ 32
  trusted : ∃ entry publicKey privateKey, store.Enables (signer.sourceId, signer.keyId) entry ∧
    loadKeyBytes P entry.publicKeyPath = .ok publicKey ∧
    loadKeyBytes P signer.privateKeyPath = .ok privateKey ∧ P.KeyPair privateKey publicKey

/-- `__init__` loads trust store and backend together. -/
theorem VerifierNode.config_of_init {P : Platform} {params : VerifierParams} {node : VerifierNode}
    (h : VerifierNode.init P params = .ok node) :
    node.topicName = params.topicName ∧
      node.expectedPayloadSchema = params.expectedPayloadSchema ∧
      node.expectedPayloadVersion = params.expectedPayloadVersion ∧
      (node.trustStore.isSome → node.backend.isSome) := by
  simp only [VerifierNode.init, Fallible.bind_eq_ok, Fallible.pure_eq_ok] at h
  obtain ⟨window, -, rfl⟩ := h
  refine ⟨rfl, rfl, rfl, ?_⟩
  rw [Option.isSome_map, Option.isSome_map]
  exact id

/-- The parameters signer and verifier are declared with match, whichever files they name: what is
    left to the operator is the key. -/
theorem Matching.of_declared {P : Platform} {store : TrustStore} (privateKeyPath trustStorePath : Path)
    {entry : TrustedKey} {publicKey privateKey : Bytes}
    (hentry : store.Enables (PyStr.ofString "demo_source", PyStr.ofString "demo_mldsa44_key_1") entry)
    (hpublic : loadKeyBytes P entry.publicKeyPath = .ok publicKey)
    (hprivate : loadKeyBytes P privateKeyPath = .ok privateKey)
    (hpair : P.KeyPair privateKey publicKey) :
    Matching P { privateKeyPath := privateKeyPath } { trustStorePath := trustStorePath } store where
  topicName := rfl
  payloadSchema := rfl
  payloadVersion := rfl
  sigScheme := rfl
  hashScheme := rfl
  ttlMs := ⟨by norm_num, by norm_num⟩
  trusted := ⟨entry, publicKey, privateKey, hentry, hpublic, hprivate, hpair⟩

/-! ## Genuine messages pass the checks -/

/-- **Signer and verifier agree.** With nothing raising, a message of a matching signer is live iff it
    is within its TTL. -/
theorem Matching.live_iff {P : Platform} {signer : SignerParams} {params : VerifierParams}
    {node : VerifierNode} {store : TrustStore} (h : Matching P signer params store)
    (hinit : VerifierNode.init P params = .ok node) (hstore : node.trustStore = some store)
    {inputs : List RawTwist} {d : Delivery}
    (hgenuine : d.msg ∈ (SignerNode.init P signer).signedTwists P inputs)
    (hquiet : ∀ call, d.env.faults call = none) :
    node.Live P d ↔ d.env.nowNs ≤ d.sourceStampNs + d.msg.ttlMs.toNat * 1000000 := by
  obtain ⟨htopic, hschema, hversion, hbackend⟩ := VerifierNode.config_of_init hinit
  obtain ⟨entry, publicKey, privateKey, hentry, hpublic, hprivate, hpair⟩ := h.trusted
  obtain ⟨input, -, sequence, event, hevent, hmsg⟩ := SignerNode.exists_of_mem_signedTwists hgenuine
  have hargs : node.canonicalArgs d = event.args := by
    have hstamp : d.sourceStampNs = event.args.sourceStampNs := hmsg.sourceStamp
    unfold VerifierConfig.canonicalArgs
    rw [htopic, h.topicName, hmsg.sourceId, hmsg.keyId, hstamp, hmsg.sequence, hmsg.ttlMs,
      hevent.args]
    rfl
  have hadapter : node.adapter = event.adapter := by
    unfold VerifierConfig.adapter
    rw [hschema, hversion, h.payloadSchema, h.payloadVersion, hevent.adapter]
    rfl
  have hbytes : node.adapter.buildCanonicalBytes d.msg.command (node.canonicalArgs d) =
      .ok event.canonicalBytes := by
    rw [hadapter, hargs, hmsg.command]
    exact hevent.canonicalBytes
  have hkey : store.getPublicKey P d.msg.sourceId d.msg.keyId sigSchemeMlDsa44 =
      .ok (some publicKey) := by
    rw [hmsg.sourceId, hmsg.keyId, hevent.args]
    exact TrustStore.getPublicKey_eq_some.2 ⟨entry, hentry, hpublic⟩
  -- the signer used the key of the file, which matches the public key of the trust store
  have hsignature : P.verify d.msg.payloadDigest d.msg.signature publicKey = .ok true := by
    have hfile : loadKeyBytes P signer.privateKeyPath = .ok event.privateKey :=
      SignerNode.privateKey_of_init hevent.privateKey
    have hsame : event.privateKey = privateKey := Except.ok.inj (hfile.symm.trans hprivate)
    have hsign := hevent.signature
    rw [hsame] at hsign
    rw [hmsg.payloadDigest, hmsg.signature]
    exact hpair _ _ _ hsign
  rw [← Delivery.ageNs_le_iff]
  refine ⟨?_, ?_⟩
  · intro hlive
    obtain ⟨_, _, _, hpassed⟩ := VerifierConfig.passed_of_live hlive
    exact hpassed.age
  · intro hage
    have hpassed : node.Passed P d store publicKey event.canonicalBytes := {
      payloadVersion := by
        rw [hmsg.payloadVersion, hevent.adapter]
        rfl
      expectedPayloadVersion := hversion.trans h.payloadVersion
      payloadSchema := by
        rw [hmsg.payloadSchema, hevent.adapter, hschema, h.payloadSchema]
        rfl
      sigScheme := hmsg.sigScheme
      hashScheme := hmsg.hashScheme
      trustStore := hstore
      backend := hbackend (by rw [hstore]; rfl)
      publicKey := hkey
      canonicalBytes := hbytes
      payloadDigest := by rw [hmsg.payloadDigest, hevent.payloadDigest]
      signature := hsignature
      age := hage
      noFault := fun call _ _ => hquiet call }
    exact hpassed.live

/-! ## The verdict -/

/-- The `i`-th message of a lifetime has sequence `i`. -/
theorem SignerNode.sequence_getElem? {P : Platform} {params : SignerParams}
    {inputs : List RawTwist} {i : ℕ} {msg : SignedTwist}
    (h : ((SignerNode.init P params).signedTwists P inputs)[i]? = some msg) :
    msg.sequence.toNat = i := by
  have hall := SignerNode.sequence_signedTwists P (SignerNode.init P params) inputs
  obtain ⟨hlt, hi⟩ := List.getElem?_eq_some_iff.1 h
  have hget := List.getElem_of_eq hall (i := i) (by rwa [List.length_map])
  rw [List.getElem_map, List.getElem_range', hi] at hget
  rw [hget]
  show 0 + 1 * i = i
  omega

/-- All messages of a signer name its pair. -/
theorem SignerNode.pair_of_mem_signedTwists {P : Platform} {params : SignerParams}
    {inputs : List RawTwist} {msg : SignedTwist}
    (h : msg ∈ (SignerNode.init P params).signedTwists P inputs) :
    msg.pair = (params.sourceId, params.keyId) := by
  obtain ⟨input, -, sequence, event, hevent, hmsg⟩ := SignerNode.exists_of_mem_signedTwists h
  unfold SignedTwist.pair
  rw [hmsg.sourceId, hmsg.keyId, hevent.args]
  rfl

/-- **No genuine command is wrongly refused.** Deliver to a started verifier, among any other traffic,
    the message number `i` of a lifetime of a matching signer, with nothing raising in its handling: it
    gets `RESULT_OK` and its command is published iff the clock of the verifier is within the TTL, `i`
    was not accepted for the pair before, and `i` is above the cutoff of what was accepted. -/
theorem genuine_accepted_iff (P : Platform) (signer : SignerParams) (params : VerifierParams)
    (node : VerifierNode) (store : TrustStore) (hinit : VerifierNode.init P params = .ok node)
    (hstore : node.trustStore = some store) (hmatch : Matching P signer params store)
    (inputs : List RawTwist) (before : List Delivery) (d : Delivery) (i : ℕ)
    (hgenuine : ((SignerNode.init P signer).signedTwists P inputs)[i]? = some d.msg)
    (hquiet : ∀ call, d.env.faults call = none) :
    let pre := Machine.final (VerifierNode.handle P) node before
    let accepted := node.accepted P before (signer.sourceId, signer.keyId)
    (pre.resultCode P d = .ok ∧ verifiedOf (pre.handle P d).2 = [d.msg.command] ↔
      d.env.nowNs ≤ d.sourceStampNs + d.msg.ttlMs.toNat * 1000000 ∧ (i : ℤ) ∉ accepted ∧
        ∀ hne : accepted.Nonempty, accepted.max' hne - params.replayWindowSize < i) ∧
    (∀ event ∈ eventsOf (pre.handle P d).2, event.resultCode = (pre.resultCode P d).toUInt8) := by
  intro pre accepted
  obtain ⟨hfresh, hsize⟩ := VerifierNode.init_eq_ok hinit
  have hmem : d.msg ∈ (SignerNode.init P signer).signedTwists P inputs :=
    List.mem_of_getElem? hgenuine
  have hpair : d.msg.pair = (signer.sourceId, signer.keyId) :=
    SignerNode.pair_of_mem_signedTwists hmem
  have hsequence : d.msg.sequence.toNat = i := SignerNode.sequence_getElem? hgenuine
  have hcode : pre.resultCode P d = .ok ↔
      d.env.nowNs ≤ d.sourceStampNs + d.msg.ttlMs.toNat * 1000000 ∧
        Admits params.replayWindowSize accepted i := by
    rw [VerifierNode.resultCode_eq_ok_iff (VerifierNode.tracks_accepted hfresh before),
      VerifierNode.toVerifierConfig_final, VerifierNode.windowSize_final, hsize, hpair, hsequence,
      ← hmatch.live_iff hinit hstore hmem hquiet]
    refine ⟨?_, ?_⟩
    · rintro ⟨hcall, hadm, -⟩
      exact ⟨hcall.1, hadm⟩
    · rintro ⟨hlive, hadm⟩
      exact ⟨⟨hlive, hquiet .checkAndUpdate⟩, hadm, hquiet .publish⟩
  refine ⟨?_, ?_⟩
  · refine Iff.trans (and_iff_left_of_imp fun hok => ?_) hcode
    rw [VerifierNode.resultCode_eq] at hok
    rw [VerifierNode.handle_eq, verifiedOf_report, VerifierNode.verified_judge, if_pos hok]
    rfl
  · intro event hevent
    rw [VerifierNode.handle_eq] at hevent
    rw [resultCode_of_mem_eventsOf hevent, VerifierNode.resultCode_eq]

theorem genuine_accepted_iff_demo :
    let pre := Machine.final (VerifierNode.handle .demo) .demo [.demo]
    let accepted := VerifierNode.demo.accepted .demo [.demo]
      (SignerParams.demo.sourceId, SignerParams.demo.keyId)
    (pre.resultCode .demo .demo = .ok ∧
        verifiedOf (pre.handle .demo .demo).2 = [SignedTwist.demo.command] ↔
      VerifierEnv.nowNs (.quiet 5000001000) ≤
          Delivery.demo.sourceStampNs + SignedTwist.demo.ttlMs.toNat * 1000000 ∧
        ((0 : ℕ) : ℤ) ∉ accepted ∧ ∀ hne : accepted.Nonempty,
          accepted.max' hne - VerifierParams.demo.replayWindowSize < (0 : ℕ)) ∧
    (∀ event ∈ eventsOf (pre.handle .demo .demo).2,
      event.resultCode = (pre.resultCode .demo .demo).toUInt8) := by
  have hpair : Platform.demo.KeyPair [1] [2] := by
    intro message tape signature hsign
    obtain rfl : [1] ++ message = signature := Except.ok.inj hsign
    show Except.ok ([1] ++ message == [1] ++ message) = _
    rw [beq_self_eq_true]
  have hentry : TrustStore.demo.Enables (PyStr.ofString "demo_source",
      PyStr.ofString "demo_mldsa44_key_1") .demo := ⟨by rfl, by rfl, by rfl⟩
  have hmatch : Matching .demo .demo .demo .demo :=
    Matching.of_declared _ _ hentry (by rfl) (by rfl) hpair
  exact genuine_accepted_iff .demo .demo .demo .demo .demo VerifierNode.init_demo rfl hmatch [.demo]
    [.demo] .demo 0 (by decide) (fun _ => rfl)

end PqcSecureComm
