import PqcSecureComm.Lib.Correspondence
import PqcSecureComm.Signer
import PqcSecureComm.VerifierRuns

set_option autoImplicit false

/-! # Signers, verifier and attacker

Any number of signers, which can be started at any time and started again; one verifier with its queue;
and a network the attacker owns, so that every message on `/cmd_vel/signed`, genuine, altered or made
up, reaches the queue by the attacker's doing. Callbacks of different nodes interleave freely, those of
one node run one at a time. -/

namespace PqcSecureComm

/-! ## The system -/

structure System where
  signers : ℕ → Option SignerNode
  inbox : List SignedTwist
  verifier : VerifierNode

inductive Action
  | start (i : ℕ) (params : SignerParams)
  | rawTwist (i : ℕ) (input : RawTwist)
  /-- the attacker puts any message at all into the queue of the verifier -/
  | deliver (msg : SignedTwist)
  /-- the callback of the verifier on the oldest message of its queue -/
  | verify (env : VerifierEnv)

/-- What a node did, with the node and, for the verifier, the delivery it reacts to. -/
inductive Event
  | signer (i : ℕ) (output : SignerOutput)
  | verifier (d : Delivery) (output : VerifierOutput)

def System.withSigner (self : System) (i : ℕ) (node : SignerNode) : System :=
  { self with signers := Function.update self.signers i (some node) }

/-- A raw command reaches signer `i`; if it is not running, nothing happens. -/
def System.rawTwist (P : Platform) (self : System) (i : ℕ) (input : RawTwist) :
    System × List Event :=
  match self.signers i with
  | none => (self, [])
  | some node =>
    (self.withSigner i (node.handle P input).1, (node.handle P input).2.published.map (.signer i))

/-- The verifier takes the oldest message of its queue; if there is none, nothing happens. -/
def System.verify (P : Platform) (self : System) (env : VerifierEnv) : System × List Event :=
  match self.inbox with
  | [] => (self, [])
  | msg :: rest =>
    ({ self with inbox := rest, verifier := (self.verifier.handle P ⟨msg, env⟩).1 },
      (self.verifier.handle P ⟨msg, env⟩).2.published.map (.verifier ⟨msg, env⟩))

def System.step (P : Platform) (self : System) : Action → System × List Event
  | .start i params => (self.withSigner i (SignerNode.init P params), [])
  | .rawTwist i input => self.rawTwist P i input
  | .deliver msg => ({ self with inbox := self.inbox ++ [msg] }, [])
  | .verify env => self.verify P env

/-- Before anything happened: a started verifier, no signers, no messages. -/
def System.init (verifier : VerifierNode) : System := ⟨fun _ => none, [], verifier⟩

/-- The state after some actions. -/
def System.after (P : Platform) (self : System) (actions : List Action) : System :=
  Machine.final (System.step P) self actions

/-- All that happened in the course of some actions. -/
def System.trace (P : Platform) (self : System) (actions : List Action) : List Event :=
  Machine.trace (System.step P) self actions

theorem System.rawTwist_of_none {P : Platform} {self : System} {i : ℕ} {input : RawTwist}
    (h : self.signers i = none) : self.rawTwist P i input = (self, []) := by
  unfold System.rawTwist
  rw [h]

theorem System.rawTwist_of_some {P : Platform} {self : System} {i : ℕ} {input : RawTwist}
    {node : SignerNode} (h : self.signers i = some node) :
    self.rawTwist P i input = (self.withSigner i (node.handle P input).1,
      (node.handle P input).2.published.map (.signer i)) := by
  unfold System.rawTwist
  rw [h]

/-- A raw command does not reach the verifier. -/
theorem System.verifier_rawTwist (P : Platform) (self : System) (i : ℕ) (input : RawTwist) :
    (self.rawTwist P i input).1.verifier = self.verifier := by
  cases hnode : self.signers i with
  | none => rw [System.rawTwist_of_none hnode]
  | some node =>
      rw [System.rawTwist_of_some hnode]
      rfl

/-- All events of a raw command are those of the signer it reaches. -/
theorem System.exists_of_mem_rawTwist {P : Platform} {self : System} {i : ℕ} {input : RawTwist}
    {event : Event} (h : event ∈ (self.rawTwist P i input).2) :
    ∃ node output, self.signers i = some node ∧ output ∈ (node.handle P input).2.published ∧
      event = .signer i output := by
  cases hnode : self.signers i with
  | none =>
      rw [System.rawTwist_of_none hnode] at h
      exact absurd h List.not_mem_nil
  | some node =>
      rw [System.rawTwist_of_some hnode] at h
      obtain ⟨output, hmem, rfl⟩ := List.mem_map.1 h
      exact ⟨node, output, rfl, hmem, rfl⟩

theorem System.verify_of_nil {P : Platform} {self : System} {env : VerifierEnv}
    (h : self.inbox = []) : self.verify P env = (self, []) := by
  unfold System.verify
  rw [h]

theorem System.verify_of_cons {P : Platform} {self : System} {env : VerifierEnv}
    {msg : SignedTwist} {rest : List SignedTwist} (h : self.inbox = msg :: rest) :
    self.verify P env =
      ({ self with inbox := rest, verifier := (self.verifier.handle P ⟨msg, env⟩).1 },
        (self.verifier.handle P ⟨msg, env⟩).2.published.map (.verifier ⟨msg, env⟩)) := by
  unfold System.verify
  rw [h]

/-- All events of a callback of the verifier are about the oldest message of its queue. -/
theorem System.exists_of_mem_verify {P : Platform} {self : System} {env : VerifierEnv} {event : Event}
    (h : event ∈ (self.verify P env).2) :
    ∃ msg rest output, self.inbox = msg :: rest ∧
      output ∈ (self.verifier.handle P ⟨msg, env⟩).2.published ∧
      event = .verifier ⟨msg, env⟩ output := by
  cases hinbox : self.inbox with
  | nil =>
      rw [System.verify_of_nil hinbox] at h
      exact absurd h List.not_mem_nil
  | cons msg rest =>
      rw [System.verify_of_cons hinbox] at h
      obtain ⟨output, hmem, rfl⟩ := List.mem_map.1 h
      exact ⟨msg, rest, output, rfl, hmem, rfl⟩

/-! ## What an event says about the step -/

/-- An event of a signer is one of its own callbacks. -/
theorem System.signer_of_mem_step {P : Platform} {self : System} {action : Action} {i : ℕ}
    {output : SignerOutput} (h : .signer i output ∈ (self.step P action).2) :
    ∃ node input, self.signers i = some node ∧ output ∈ (node.handle P input).2.published := by
  cases action with
  | start j params => exact absurd h List.not_mem_nil
  | deliver msg => exact absurd h List.not_mem_nil
  | rawTwist j input =>
      obtain ⟨node, output', hnode, hmem, heq⟩ := System.exists_of_mem_rawTwist h
      obtain ⟨rfl, rfl⟩ := Event.signer.inj heq
      exact ⟨node, input, hnode, hmem⟩
  | verify env =>
      obtain ⟨msg, rest, output', -, -, heq⟩ := System.exists_of_mem_verify h
      exact absurd heq (by simp)

/-- A signing event is that of a running signer on the command it was given. -/
theorem System.signing_of_mem_step {P : Platform} {self : System} {action : Action} {i : ℕ}
    {event : SigningEvent} (h : .signer i (.signing event) ∈ (self.step P action).2) :
    ∃ node input, self.signers i = some node ∧ SigningEvent.Of P node input event := by
  obtain ⟨node, input, hnode, hmem⟩ := System.signer_of_mem_step h
  refine ⟨node, input, hnode, ?_⟩
  rcases node.handle_cases P input with hr | ⟨event', hevent, hr⟩ | ⟨event', msg, hevent, -, hr⟩
  · rw [hr] at hmem
    exact absurd hmem List.not_mem_nil
  · rw [hr] at hmem
    obtain rfl := SignerOutput.signing.inj (List.mem_singleton.1 hmem)
    exact hevent
  · rw [hr] at hmem
    rcases List.mem_cons.1 hmem with heq | hpublished
    · obtain rfl := SignerOutput.signing.inj heq
      exact hevent
    · exact absurd (List.mem_singleton.1 hpublished) (by simp)

/-- A publication on `/cmd_vel/verified` is of a message the verifier took from its queue and whose
    window accepted. -/
theorem System.verified_of_mem_step {P : Platform} {self : System} {action : Action} {d : Delivery}
    {command : Twist} (h : .verifier d (.verified command) ∈ (self.step P action).2) :
    ∃ rest, action = .verify d.env ∧ self.inbox = d.msg :: rest ∧ self.verifier.Accepts P d ∧
      command = d.msg.command := by
  cases action with
  | start j params => exact absurd h List.not_mem_nil
  | deliver msg => exact absurd h List.not_mem_nil
  | rawTwist j input =>
      obtain ⟨node, output, -, -, heq⟩ := System.exists_of_mem_rawTwist h
      exact absurd heq (by simp)
  | verify env =>
      obtain ⟨msg, rest, output, hinbox, hmem, heq⟩ := System.exists_of_mem_verify h
      obtain ⟨rfl, rfl⟩ := Event.verifier.inj heq
      obtain ⟨haccepts, hcommand⟩ := VerifierNode.accepts_of_verified_mem hmem
      exact ⟨rest, rfl, hinbox, haccepts, hcommand⟩

/-! ## Invariants -/

theorem System.config_step (P : Platform) (self : System) (action : Action) :
    (self.step P action).1.verifier.toVerifierConfig = self.verifier.toVerifierConfig := by
  cases action with
  | start j params => rfl
  | deliver msg => rfl
  | rawTwist j input =>
      show (self.rawTwist P j input).1.verifier.toVerifierConfig = _
      rw [System.verifier_rawTwist]
  | verify env =>
      show (self.verify P env).1.verifier.toVerifierConfig = _
      cases hinbox : self.inbox with
      | nil => rw [System.verify_of_nil hinbox]
      | cons msg rest =>
          rw [System.verify_of_cons hinbox]
          exact VerifierNode.toVerifierConfig_handle P self.verifier ⟨msg, env⟩

theorem System.config_after (P : Platform) (self : System) (actions : List Action) :
    (self.after P actions).verifier.toVerifierConfig = self.verifier.toVerifierConfig := by
  induction actions generalizing self with
  | nil => rfl
  | cons action actions ih => exact (ih (self.step P action).1).trans (self.config_step P action)

/-- Every signer has its private key from the file it was started with. -/
def System.KeysFrom (P : Platform) (started : List Action) (self : System) : Prop :=
  ∀ i node key, self.signers i = some node → node.privateKey = some key →
    ∃ params, .start i params ∈ started ∧ loadKeyBytes P params.privateKeyPath = .ok key

theorem System.KeysFrom.withSigner {P : Platform} {started : List Action} {self : System}
    (h : self.KeysFrom P started) {j : ℕ} {new : SignerNode}
    (hnew : ∀ key, new.privateKey = some key →
      ∃ params, .start j params ∈ started ∧ loadKeyBytes P params.privateKeyPath = .ok key) :
    (self.withSigner j new).KeysFrom P started := by
  intro i node key hnode hkey
  change Function.update self.signers j (some new) i = some node at hnode
  by_cases hij : i = j
  · subst hij
    rw [Function.update_self] at hnode
    obtain rfl := Option.some.inj hnode
    exact hnew key hkey
  · rw [Function.update_of_ne hij] at hnode
    exact h i node key hnode hkey

theorem System.KeysFrom.step {P : Platform} {started : List Action} {self : System}
    (h : self.KeysFrom P started) {action : Action} (haction : action ∈ started) :
    (self.step P action).1.KeysFrom P started := by
  cases action with
  | start j params =>
      exact h.withSigner fun key hkey => ⟨params, haction, SignerNode.privateKey_of_init hkey⟩
  | deliver msg => exact h
  | rawTwist j input =>
      show (self.rawTwist P j input).1.KeysFrom P started
      cases hnode : self.signers j with
      | none =>
          rw [System.rawTwist_of_none hnode]
          exact h
      | some node =>
          rw [System.rawTwist_of_some hnode]
          refine h.withSigner fun key hkey => h j node key hnode ?_
          rwa [SignerNode.privateKey_handle] at hkey
  | verify env =>
      show (self.verify P env).1.KeysFrom P started
      cases hinbox : self.inbox with
      | nil =>
          rw [System.verify_of_nil hinbox]
          exact h
      | cons msg rest =>
          rw [System.verify_of_cons hinbox]
          exact h

theorem System.keysFrom_after (P : Platform) (verifier : VerifierNode) (actions : List Action) :
    ((System.init verifier).after P actions).KeysFrom P actions := by
  have hstart : (System.init verifier).KeysFrom P actions := by
    intro i node key hnode
    exact absurd hnode (by simp [System.init])
  exact Machine.final_invariant (System.step P) (fun s action haction hs => hs.step haction)
    (fun action haction => haction) hstart

end PqcSecureComm
