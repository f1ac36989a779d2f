import PqcSecureComm.Signer

set_option autoImplicit false

/-! # The numbering of one lifetime

The counter is read when the canonical bytes are built and again when the message is filled in, and
counts only behind the publication. So a raise anywhere in between leaves no gap: the published
messages are numbered `0, 1, 2, ...`, each one signed under the number it carries, and at `2^64`, where
no number fits the field any more, the signer falls silent. -/

namespace PqcSecureComm

/-! ## Callbacks that publish nothing -/

/-- The callback returns in front of its `try` block. -/
def SignerNode.Refuses (self : SignerNode) : Prop :=
  self.backend = none ∨ self.privateKey = none ∨
    self.sigScheme ≠ sigSchemeMlDsa44 ∨ self.hashScheme ≠ hashSchemeSha256

/-- The `try` block up to and including the publication, as one fallible computation. -/
def SignerNode.attempt (P : Platform) (self : SignerNode) (backend : OqsMlDsa44Backend)
    (privateKey : Bytes) (input : RawTwist) : Except PyError (SigningEvent × SignedTwist) := do
  let event ← self.signTwist P backend privateKey input
  let signedMsg ← self.fillMessage input event
  Fallible.check (input.env.faults .publish)
  pure (event, signedMsg)

/-- A call inside the `try` block raises: the clock conversion, the encoding, the hash, the signature,
    an assignment or the publication. -/
def SignerNode.RaisesInTry (P : Platform) (self : SignerNode) (input : RawTwist) : Prop :=
  ∃ backend privateKey, self.backend = some backend ∧ self.privateKey = some privateKey ∧
    Fallible.Raises (self.attempt P backend privateKey input)

theorem SignerNode.handle_of_refuses {P : Platform} {self : SignerNode} (h : self.Refuses)
    (input : RawTwist) : self.handle P input = (self, ⟨.ok (), []⟩) := by
  unfold SignerNode.handle Callback.react SignerNode.onRawTwist
  rw [Callback.run_node_bind]
  cases hbackend : self.backend with
  | none => rfl
  | some backend =>
      cases hkey : self.privateKey with
      | none => rfl
      | some privateKey =>
          have hconfig : self.sigScheme ≠ sigSchemeMlDsa44 ∨ self.hashScheme ≠ hashSchemeSha256 := by
            rcases h with hnone | hnone | hscheme
            · exact absurd (hbackend.symm.trans hnone) (by simp)
            · exact absurd (hkey.symm.trans hnone) (by simp)
            · exact hscheme
          simp only [if_pos hconfig]
          rfl

/-- A raise leaves the node as it was, wherever it strikes, and what was signed is not published. -/
theorem SignerNode.handle_of_raisesInTry {P : Platform} {self : SignerNode} {input : RawTwist}
    (h : self.RaisesInTry P input) :
    (self.handle P input).1 = self ∧ publishedOf (self.handle P input).2 = [] := by
  obtain ⟨backend, privateKey, hbackend, hkey, exc, hraises⟩ := h
  unfold SignerNode.handle Callback.react SignerNode.onRawTwist
  rw [Callback.run_node_bind, hbackend, hkey]
  by_cases hconfig : self.sigScheme ≠ sigSchemeMlDsa44 ∨ self.hashScheme ≠ hashSchemeSha256
  · simp only [if_pos hconfig]
    exact ⟨rfl, rfl⟩
  · simp only [if_neg hconfig, Callback.run_tryCatch, Callback.run_call_bind]
    unfold SignerNode.attempt at hraises
    cases hsign : self.signTwist P backend privateKey input with
    | error e => exact ⟨rfl, rfl⟩
    | ok event =>
        rw [hsign, Fallible.ok_bind] at hraises
        simp only [Callback.run_publish_bind, Callback.run_call_bind]
        cases hfill : self.fillMessage input event with
        | error e => exact ⟨rfl, rfl⟩
        | ok msg =>
            rw [hfill, Fallible.ok_bind] at hraises
            simp only [Callback.run_raiseIf_bind]
            cases hfault : input.env.faults .publish with
            | some e => exact ⟨rfl, rfl⟩
            | none =>
                rw [hfault] at hraises
                exact absurd hraises (by simp [Fallible.check, pure, Except.pure, bind, Except.bind])

/-! ## The counter -/

/-- The counter is the number it started from plus the number of messages published. -/
theorem SignerNode.sequence_final (P : Platform) (self : SignerNode) (inputs : List RawTwist) :
    (Machine.final (SignerNode.handle P) self inputs).sequence =
      self.sequence + (self.signedTwists P inputs).length := by
  induction inputs generalizing self with
  | nil => rfl
  | cons input inputs ih =>
      rw [Machine.final_cons, ih, SignerNode.signedTwists_cons, List.length_append]
      rcases self.handle_published P input with ⟨hnode, hnone⟩ | ⟨event, msg, -, -, -, hnode, hone⟩
      · rw [hnode, hnone, List.length_nil, Nat.zero_add]
      · rw [hnode, hone, List.length_singleton]
        show self.sequence + 1 + _ = _
        omega

/-- A number that does not fit the field is never published. -/
theorem SignerNode.handle_of_exhausted {P : Platform} {self : SignerNode}
    (h : 2 ^ 64 ≤ self.sequence) (input : RawTwist) :
    (self.handle P input).1 = self ∧ publishedOf (self.handle P input).2 = [] := by
  rcases self.handle_published P input with hnone | ⟨event, msg, -, -, hsequence, -, -⟩
  · exact hnone
  · have hfits := msg.sequence.toNat_lt
    omega

theorem SignerNode.signedTwists_of_exhausted {P : Platform} {self : SignerNode}
    (h : 2 ^ 64 ≤ self.sequence) (inputs : List RawTwist) : self.signedTwists P inputs = [] := by
  induction inputs with
  | nil => rfl
  | cons input inputs ih =>
      obtain ⟨hnode, hnone⟩ := SignerNode.handle_of_exhausted (P := P) h input
      rw [SignerNode.signedTwists_cons, hnode, hnone, List.nil_append]
      exact ih

/-- The counter stops at `2^64` at the latest. -/
theorem SignerNode.sequence_final_le {P : Platform} {self : SignerNode}
    (h : self.sequence ≤ 2 ^ 64) (inputs : List RawTwist) :
    (Machine.final (SignerNode.handle P) self inputs).sequence ≤ 2 ^ 64 := by
  refine Machine.final_invariant (SignerNode.handle P) (P := fun node => node.sequence ≤ 2 ^ 64)
    (Q := fun _ => True) ?_ (fun _ _ => trivial) h
  intro node input _ hnode
  rcases node.handle_published P input with ⟨hsame, -⟩ | ⟨event, msg, -, -, hsequence, hnext, -⟩
  · rw [hsame]
    exact hnode
  · have hfits := msg.sequence.toNat_lt
    rw [hnext]
    show node.sequence + 1 ≤ 2 ^ 64
    omega

/-! ## What a message was signed from -/

/-- The arguments of `build_canonical_bytes` as the message carries them. -/
def SignedTwist.canonicalArgs (msg : SignedTwist) (topicName : PyStr) : CanonicalArgs :=
  { topicName := topicName
    sourceId := msg.sourceId
    keyId := msg.keyId
    sourceStampNs := msg.sourceStamp.nanoseconds
    sequence := msg.sequence.toNat
    ttlMs := msg.ttlMs.toNat }

/-- Digest and signature were computed from the fields of the message itself. -/
structure SignedTwist.SelfSigned (P : Platform) (msg : SignedTwist) (topicName : PyStr)
    (privateKey bytes tape : Bytes) : Prop where
  canonicalBytes :
    (⟨msg.payloadSchema, msg.payloadVersion.toNat⟩ : TwistAdapter).buildCanonicalBytes msg.command
      (msg.canonicalArgs topicName) = .ok bytes
  payloadDigest : msg.payloadDigest = P.sha256 bytes
  signature : P.sign privateKey msg.payloadDigest tape = .ok msg.signature

theorem SignedTwist.Carries.selfSigned {P : Platform} {node : SignerNode} {input : RawTwist}
    {event : SigningEvent} {msg : SignedTwist} (hmsg : msg.Carries event)
    (hevent : SigningEvent.Of P node input event) :
    msg.SelfSigned P node.topicName event.privateKey event.canonicalBytes input.env.tape := by
  have hadapter : (⟨msg.payloadSchema, msg.payloadVersion.toNat⟩ : TwistAdapter) = event.adapter := by
    rw [hmsg.payloadSchema, hmsg.payloadVersion]
  have hargs : msg.canonicalArgs node.topicName = event.args := by
    unfold SignedTwist.canonicalArgs
    rw [hmsg.sourceId, hmsg.keyId, hmsg.sourceStamp, hmsg.sequence, hmsg.ttlMs, hevent.args]
  exact {
    canonicalBytes := by
      rw [hadapter, hargs, hmsg.command]
      exact hevent.canonicalBytes
    payloadDigest := by rw [hmsg.payloadDigest, hevent.payloadDigest]
    signature := by
      rw [hmsg.payloadDigest, hmsg.signature]
      exact hevent.signature }

/-- **A lifetime is numbered without gap or reuse, whatever fails.** The messages published are numbered
    `0, 1, 2, ...`, and each one was signed, with the key of the file, from the fields it carries. In
    every state reached a callback that is refused or hit by a raise publishes nothing and leaves the
    node as it was. The counter is the number of messages published; it never wraps, and at `2^64`
    nothing is published any more. -/
theorem signer_numbers_messages (P : Platform) (params : SignerParams) (inputs : List RawTwist) :
    let signed := (SignerNode.init P params).signedTwists P inputs
    let node := Machine.final (SignerNode.handle P) (SignerNode.init P params) inputs
    signed.map (fun msg => msg.sequence.toNat) = List.range signed.length ∧
    (∀ msg ∈ signed, ∃ privateKey bytes tape, loadKeyBytes P params.privateKeyPath = .ok privateKey ∧
      msg.SelfSigned P params.topicName privateKey bytes tape) ∧
    (∀ input, node.Refuses ∨ node.RaisesInTry P input →
      (node.handle P input).1 = node ∧ publishedOf (node.handle P input).2 = []) ∧
    node.sequence = signed.length ∧ node.sequence ≤ 2 ^ 64 ∧
    (node.sequence = 2 ^ 64 → ∀ later, node.signedTwists P later = []) := by
  intro signed node
  refine ⟨?_, ?_, ?_, ?_, ?_, ?_⟩
  · rw [List.range_eq_range']
    exact SignerNode.sequence_signedTwists P (SignerNode.init P params) inputs
  · intro msg hmsg
    obtain ⟨input, -, sequence, event, hevent, hcarries⟩ :=
      SignerNode.exists_of_mem_signedTwists hmsg
    exact ⟨event.privateKey, event.canonicalBytes, input.env.tape,
      SignerNode.privateKey_of_init hevent.privateKey, hcarries.selfSigned hevent⟩
  · rintro input (hrefuses | hraises)
    · rw [SignerNode.handle_of_refuses hrefuses]
      exact ⟨rfl, rfl⟩
    · exact SignerNode.handle_of_raisesInTry hraises
  · have hcount := SignerNode.sequence_final P (SignerNode.init P params) inputs
    exact hcount.trans (Nat.zero_add _)
  · exact SignerNode.sequence_final_le (Nat.zero_le _) inputs
  · intro hfull later
    exact SignerNode.signedTwists_of_exhausted hfull.ge later

example :
    ((SignerNode.init .demo .demo).signedTwists .demo [.demo, .demoRestart]).map
      (fun msg => (msg.sequence, msg.command)) =
        [(0, RawTwist.demo.msg), (1, RawTwist.demoRestart.msg)] := by
  decide

end PqcSecureComm
