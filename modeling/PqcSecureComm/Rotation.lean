import PqcSecureComm.Provisioning

set_option autoImplicit false

/-! # Keys that change under a running verifier

The verifier loads its trust store once, when it starts, and reads the public key file again for every
message; `generate_demo_keys --overwrite` may replace the key pair in between. So the pair a message must
name stays that of the start, the key is the one of the moment (`rotation_revokes`), and the replay window
goes on over the change (`rotated_signer_accepted_iff`). -/

namespace PqcSecureComm

open SlidingWindow

/-! ## The deployment -/

/-- The files of a machine, and the verifier that runs on it. -/
structure Deployment where
  files : Files
  verifier : VerifierNode

inductive DeploymentAction
  | generateKeys (run : KeyGenRun)
  | receive (d : Delivery)

/-- One action, with the commands it published on `/cmd_vel/verified`. -/
def Deployment.step (P : Platform) (T : Toolbox) (self : Deployment) :
    DeploymentAction → Deployment × List Twist
  | .generateKeys run => (⟨(keyGenStep P T self.files run).1, self.verifier⟩, [])
  | .receive d =>
    let (verifier, reaction) := self.verifier.handle (P.on T self.files) d
    (⟨self.files, verifier⟩, verifiedOf reaction)

/-- A first run made the key files, and the launched verifier was started on them. -/
structure Deployment.Started (P : Platform) (T : Toolbox) (keysDir root : Path) (first : KeyGenRun)
    (start : Deployment) : Prop where
  lawful : T.Lawful keysDir root
  keysDir_eq : first.args.keysDir = keysDir
  sourceId : first.args.sourceId ≠ []
  keyId : first.args.keyId ≠ []
  yaml : T.safeLoad (T.safeDump first.args.trustStore) = .ok first.args.trustStore
  mechanism : ∃ enabled, P.sigMechanisms = some enabled ∧ PyStr.ofString "ML-DSA-44" ∈ enabled
  generated : ∃ files, (keyGenStep P T files first).2.outcome = .ok () ∧
    start.files = (keyGenStep P T files first).1
  init : VerifierNode.init (P.on T start.files) (launchedVerifier T keysDir) = .ok start.verifier

/-- The public key file. -/
def Files.publicKey (T : Toolbox) (root : Path) (files : Files) : Option Bytes :=
  (files.lookup (T.resolve (T.keyPaths root).publicKey)).map File.content

section Rotation

variable {P : Platform} {T : Toolbox} {keysDir root : Path}

/-- A run leaves the public key file as it was, or with a beginning of its own public key. -/
theorem KeyGenRun.Steps.publicKey {run : KeyGenRun} {files files' : Files}
    {outcome : Except PyError Unit} (h : run.Steps T root files outcome files')
    (hdistinct : T.Distinct root) :
    files'.publicKey T root = files.publicKey T root ∨
      ∃ n, files'.publicKey T root = some (run.env.publicKey.take n) := by
  unfold Files.publicKey
  have hprivateDone : (run.privateDone T root files).lookup (T.resolve (T.keyPaths root).publicKey) =
      files.lookup (T.resolve (T.keyPaths root).publicKey) :=
    KeyGenRun.lookup_privateDone_of_ne hdistinct.private_ne_public.symm
  have hcomplete : ∀ written, ∃ n,
      ((run.tornTrustStore T root files written).lookup (T.resolve (T.keyPaths root).publicKey)).map
        File.content = some (run.env.publicKey.take n) := by
    intro written
    obtain ⟨mode, hpublic⟩ := (run.complete_tornTrustStore hdistinct files written).publicKey
    refine ⟨run.env.publicKey.length, ?_⟩
    rw [hpublic, List.take_length]
    rfl
  cases h with
  | refused exc => exact Or.inl rfl
  | tornPrivate written exc hallowed =>
      exact Or.inl (congrArg _ (Files.lookup_put_of_ne hdistinct.private_ne_public.symm))
  | privateDone exc hallowed => exact Or.inl (congrArg _ hprivateDone)
  | tornPublic written exc hallowed =>
      refine Or.inr ⟨written, ?_⟩
      unfold KeyGenRun.tornPublic
      obtain ⟨mode, hput⟩ := Files.lookup_put_self
      exact congrArg _ hput
  | tornTrustStore written exc hallowed => exact Or.inr (hcomplete written)
  | done hallowed => exact Or.inr (hcomplete _)

/-! ## What the verifier publishes -/

theorem loadKeyBytes_on_eq_ok (hlawful : T.Lawful keysDir root) {files : Files} {args : KeyGenArgs}
    {key : Bytes} (h : loadKeyBytes (P.on T files) (args.entry T root).publicKeyPath = .ok key) :
    files.publicKey T root = some key := by
  unfold loadKeyBytes at h
  have hexpand : (P.on T files).expanduser (args.entry T root).publicKeyPath =
      .ok (T.resolve (T.keyPaths root).publicKey) := hlawful.expanduser_resolve _
  have hbytes : (P.on T files).fileBytes (T.resolve (T.keyPaths root).publicKey) =
      files.publicKey T root := by
    show (files.lookup (T.resolve (T.resolve (T.keyPaths root).publicKey))).map File.content = _
    rw [hlawful.resolve_resolve]
    rfl
  rw [hexpand, Fallible.ok_bind, hbytes] at h
  cases hkey : files.publicKey T root with
  | none =>
      rw [hkey] at h
      exact absurd h (by simp)
  | some bytes =>
      rw [hkey] at h
      exact congrArg some (Except.ok.inj h)

/-- **One message.** A command is published only for the pair of the trust store that was loaded, and
    under the key that is in the file now. -/
theorem VerifierNode.key_of_published (hlawful : T.Lawful keysDir root) {args : KeyGenArgs} {files : Files}
    {node : VerifierNode} (hstore : node.trustStore = some (args.store T root)) {d : Delivery}
    (h : verifiedOf (node.handle (P.on T files) d).2 ≠ []) :
    d.msg.pair = (args.sourceId, args.keyId) ∧ ∃ key, files.publicKey T root = some key ∧
      P.verify d.msg.payloadDigest d.msg.signature key = .ok true := by
  obtain ⟨command, hcommand⟩ := List.exists_mem_of_ne_nil _ h
  obtain ⟨output, houtput, hverified⟩ := List.mem_filterMap.1 hcommand
  cases output with
  | event e => exact absurd hverified (by simp)
  | verified published =>
      obtain ⟨haccepts, -⟩ := VerifierNode.accepts_of_verified_mem houtput
      obtain ⟨store, key, bytes, hpassed⟩ := VerifierConfig.passed_of_live haccepts.1.1
      have hsame : store = args.store T root := Option.some.inj (hpassed.trustStore.symm.trans hstore)
      have hkey := hpassed.publicKey
      rw [hsame] at hkey
      obtain ⟨entry, henables, hload⟩ := (TrustStore.getPublicKey_eq_some (p := d.msg.pair)).1 hkey
      obtain ⟨hpair, rfl⟩ := (KeyGenArgs.enables_iff T root args).1 henables
      exact ⟨hpair, key, loadKeyBytes_on_eq_ok hlawful hload, hpassed.signature⟩

/-! ## Runs -/

theorem Deployment.Started.verifier {first : KeyGenRun} {self : Deployment}
    (h : self.Started P T keysDir root first) : self.verifier = .launched (first.args.store T root) := by
  obtain ⟨files, hok, hfiles⟩ := h.generated
  have hlaunched := KeyGenRun.init_of_ok h.lawful h.keysDir_eq h.sourceId h.keyId h.yaml h.mechanism hok
  rw [← hfiles] at hlaunched
  exact Except.ok.inj (h.init.symm.trans hlaunched)

theorem Deployment.config_step (P : Platform) (T : Toolbox) (self : Deployment) (action : DeploymentAction) :
    (self.step P T action).1.verifier.toVerifierConfig = self.verifier.toVerifierConfig := by
  cases action with
  | generateKeys run => rfl
  | receive d => exact VerifierNode.toVerifierConfig_handle (P.on T self.files) self.verifier d

theorem Deployment.config_final (P : Platform) (T : Toolbox) (self : Deployment)
    (actions : List DeploymentAction) :
    (Machine.final (Deployment.step P T) self actions).verifier.toVerifierConfig =
      self.verifier.toVerifierConfig := by
  refine Machine.final_invariant (Deployment.step P T) (Q := fun _ => True)
    (P := fun now => now.verifier.toVerifierConfig = self.verifier.toVerifierConfig)
    (fun now action _ hnow => ?_) (fun _ _ => trivial) rfl
  rw [Deployment.config_step, hnow]

/-- All runs of `generate_demo_keys` are for one keys directory. -/
def OneKeysDir (keysDir : Path) (actions : List DeploymentAction) : Prop :=
  ∀ run, .generateKeys run ∈ actions → run.args.keysDir = keysDir

/-- What every beginning of every public key that is written satisfies, the file goes on to satisfy. -/
theorem Deployment.publicKey_final (hlawful : T.Lawful keysDir root) {K : Bytes → Prop}
    {self : Deployment} (hnow : ∃ key, self.files.publicKey T root = some key ∧ K key)
    {actions : List DeploymentAction} (hdir : OneKeysDir keysDir actions)
    (hkeys : ∀ run, .generateKeys run ∈ actions → ∀ n, K (run.env.publicKey.take n)) :
    ∃ key, (Machine.final (Deployment.step P T) self actions).files.publicKey T root = some key ∧
      K key := by
  refine Machine.final_invariant (Deployment.step P T) (Q := fun action => action ∈ actions)
    (P := fun now => ∃ key, now.files.publicKey T root = some key ∧ K key)
    (fun now action haction hkey => ?_) (fun _ haction => haction) hnow
  cases action with
  | receive d => exact hkey
  | generateKeys run =>
      have hsteps := keyGen_steps P (hdir run haction ▸ hlawful.expanduser) now.files
      rcases hsteps.publicKey hlawful.distinct with hsame | ⟨n, hwritten⟩
      · obtain ⟨key, hkey, hK⟩ := hkey
        exact ⟨key, hsame.trans hkey, hK⟩
      · exact ⟨_, hwritten, hkeys run haction n⟩

/-- **A new key pair takes effect at once.** In every run of a started deployment, whatever is received
    and however `generate_demo_keys` is run on its keys directory in between: each published command names
    the pair of the start, and its signature verifies under the key that is in the public key file at
    that moment. So once a run returned, no message is published any more whose signature verifies under
    no key written since, though the verifier was not restarted. -/
theorem rotation_revokes {first : KeyGenRun} {start : Deployment}
    (hstart : start.Started P T keysDir root first) {actions : List DeploymentAction}
    (hdir : OneKeysDir keysDir actions) :
    (∀ st ∈ Machine.steps (Deployment.step P T) start actions, ∀ d, st.input = .receive d →
      st.output ≠ [] → d.msg.pair = (first.args.sourceId, first.args.keyId) ∧
        ∃ key, st.pre.files.publicKey T root = some key ∧
          P.verify d.msg.payloadDigest d.msg.signature key = .ok true) ∧
    ∀ before run after, actions = before ++ .generateKeys run :: after →
      let now := Machine.final (Deployment.step P T) start before
      (keyGenStep P T now.files run).2.outcome = .ok () →
      ∀ st ∈ Machine.steps (Deployment.step P T) (now.step P T (.generateKeys run)).1 after,
        ∀ d, st.input = .receive d →
          (∀ run', run' = run ∨ .generateKeys run' ∈ after → ∀ n,
            P.verify d.msg.payloadDigest d.msg.signature (run'.env.publicKey.take n) ≠ .ok true) →
          st.output = [] := by
  have hstore : ∀ past, (Machine.final (Deployment.step P T) start past).verifier.trustStore =
      some (first.args.store T root) := by
    intro past
    have hconfig := Deployment.config_final P T start past
    rw [hstart.verifier] at hconfig
    exact congrArg VerifierConfig.trustStore hconfig
  have hpublished : ∀ past d,
      ((Machine.final (Deployment.step P T) start past).step P T (.receive d)).2 ≠ [] →
      d.msg.pair = (first.args.sourceId, first.args.keyId) ∧
        ∃ key, (Machine.final (Deployment.step P T) start past).files.publicKey T root = some key ∧
          P.verify d.msg.payloadDigest d.msg.signature key = .ok true :=
    fun past d hne => VerifierNode.key_of_published hstart.lawful (hstore past) hne
  refine ⟨?_, ?_⟩
  · intro st hst d hinput hne
    obtain ⟨past, action, later, -, rfl⟩ := (Machine.mem_steps_iff _).1 hst
    obtain rfl : action = .receive d := hinput
    exact hpublished past d hne
  · rintro before run after rfl now hok st hst d hinput hforeign
    obtain ⟨past, action, later, rfl, rfl⟩ := (Machine.mem_steps_iff _).1 hst
    obtain rfl : action = .receive d := hinput
    by_contra hne
    have hfinal : Machine.final (Deployment.step P T) (now.step P T (.generateKeys run)).1 past =
        Machine.final (Deployment.step P T) start (before ++ .generateKeys run :: past) := by
      rw [Machine.final_append]
      rfl
    -- the run wrote its public key, and whatever replaced it was written later
    have hwritten : ∃ key, (now.step P T (.generateKeys run)).1.files.publicKey T root = some key ∧
        P.verify d.msg.payloadDigest d.msg.signature key ≠ .ok true := by
      have hsteps := keyGen_steps P
        (hdir run (List.mem_append_right _ List.mem_cons_self) ▸ hstart.lawful.expanduser) now.files
      rw [hok] at hsteps
      obtain ⟨mode, hpublic⟩ := (hsteps.of_ok hstart.lawful.distinct).1.publicKey
      have hkey := hforeign run (Or.inl rfl) run.env.publicKey.length
      rw [List.take_length] at hkey
      exact ⟨run.env.publicKey, congrArg _ hpublic, hkey⟩
    obtain ⟨key, hkey, hrefused⟩ := Deployment.publicKey_final hstart.lawful hwritten
      (fun run' hrun' => hdir run' (List.mem_append_right _ (List.mem_cons_of_mem _
        (List.mem_append_left _ hrun'))))
      (fun run' hrun' => hforeign run' (Or.inr (List.mem_append_left _ hrun')))
    have hpast := hpublished (before ++ .generateKeys run :: past) d
    rw [← hfinal] at hpast
    obtain ⟨-, key', hkey', hverifies⟩ := hpast hne
    rw [hkey] at hkey'
    obtain rfl := Option.some.inj hkey'
    exact hrefused hverifies

end Rotation

/-! ### A replaced key -/

/-- The defaults, and the key pair of the demo platform. -/
def KeyGenRun.first : KeyGenRun := ⟨{}, .quiet⟩

/-- The same with `--overwrite` and a new key pair. -/
def KeyGenRun.second : KeyGenRun :=
  ⟨{ overwrite := true }, { KeyGenEnv.quiet with publicKey := [4], privateKey := [3] }⟩

def Deployment.demo : Deployment :=
  ⟨(keyGenStep .demo .demo ∅ .first).1, .launched (KeyGenArgs.store .demo KeyGenRun.first.args.keysDir {})⟩

theorem Deployment.started_demo : Deployment.demo.Started .demo .demo KeyGenRun.first.args.keysDir
    KeyGenRun.first.args.keysDir .first where
  lawful := Toolbox.lawful_demo
  keysDir_eq := rfl
  sourceId := by decide
  keyId := by decide
  yaml := Toolbox.yaml_demo
  mechanism := ⟨_, rfl, List.mem_singleton_self _⟩
  generated := ⟨∅, rfl, rfl⟩
  init := KeyGenRun.init_of_ok Toolbox.lawful_demo rfl (by decide) (by decide) Toolbox.yaml_demo
    ⟨_, rfl, List.mem_singleton_self _⟩ rfl

/-- The demo message is published under the first key, and not any more under the second. -/
theorem rotation_revokes_demo :
    (Deployment.demo.step .demo .demo (.receive .demo)).2 = [SignedTwist.demo.command] ∧
      ∀ st ∈ Machine.steps (Deployment.step .demo .demo)
        (Deployment.demo.step .demo .demo (.generateKeys .second)).1 [.receive .demo], st.output = [] := by
  have hdir : OneKeysDir KeyGenRun.first.args.keysDir [.generateKeys .second, .receive .demo] := by
    intro run hrun
    obtain rfl : run = .second := by simpa using hrun
    rfl
  obtain ⟨-, hrevoked⟩ := rotation_revokes Deployment.started_demo hdir
  refine ⟨by decide, fun st hst => ?_⟩
  refine hrevoked [] .second [.receive .demo] rfl rfl st hst .demo ?_ fun run hrun n => ?_
  · rw [List.eq_of_mem_singleton hst]
  · obtain rfl : run = .second := by simpa using hrun
    cases n with
    | zero => decide
    | succ n =>
        rw [List.take_of_length_le (by simp [KeyGenRun.second])]
        decide

/-! ## What the window remembers -/

/-- The sequence of the message if it is accepted for the pair. -/
def Deployment.acceptedBy (P : Platform) (T : Toolbox) (self : Deployment) (p : Pair) :
    DeploymentAction → Option ℤ
  | .generateKeys _ => none
  | .receive d =>
    if self.verifier.Accepts (P.on T self.files) d ∧ d.msg.pair = p then some d.msg.sequence.toNat
    else none

/-- The sequences a run accepted for a pair, under whatever key. -/
def Deployment.accepted (P : Platform) (T : Toolbox) (self : Deployment) (actions : List DeploymentAction)
    (p : Pair) : Finset ℤ :=
  ((Machine.steps (Deployment.step P T) self actions).filterMap fun st =>
    st.pre.acceptedBy P T p st.input).toFinset

theorem Deployment.accepted_cons (P : Platform) (T : Toolbox) (self : Deployment)
    (action : DeploymentAction) (actions : List DeploymentAction) (p : Pair) :
    self.accepted P T (action :: actions) p =
      (self.acceptedBy P T p action).toFinset ∪ (self.step P T action).1.accepted P T actions p := by
  unfold Deployment.accepted
  rw [Machine.steps_cons, List.filterMap_cons]
  cases hby : self.acceptedBy P T p action with
  | none => simp
  | some sequence =>
      simp only [List.toFinset_cons, Option.toFinset_some, Finset.singleton_union]

theorem Deployment.tracks_step {P : Platform} {T : Toolbox} {self : Deployment} {H : Reference}
    (h : self.verifier.replayWindow.Tracks H) (action : DeploymentAction) :
    (self.step P T action).1.verifier.replayWindow.Tracks fun p =>
      H p ∪ (self.acceptedBy P T p action).toFinset := by
  cases action with
  | generateKeys run => exact h.congr fun p => (Finset.union_empty (H p)).symm
  | receive d =>
      refine (VerifierNode.tracks_handle h d).congr fun p => ?_
      simp only [Deployment.acceptedBy]
      by_cases haccepts : self.verifier.Accepts (P.on T self.files) d ∧ d.msg.pair = p
      · rw [if_pos haccepts, if_pos haccepts, Option.toFinset_some, Finset.insert_eq, Finset.union_comm]
      · rw [if_neg haccepts, if_neg haccepts, Option.toFinset_none, Finset.union_empty]

/-- The window remembers what was accepted, whatever happened to the keys. -/
theorem Deployment.tracks_final {P : Platform} {T : Toolbox} {self : Deployment} {H : Reference}
    (h : self.verifier.replayWindow.Tracks H) (actions : List DeploymentAction) :
    (Machine.final (Deployment.step P T) self actions).verifier.replayWindow.Tracks fun p =>
      H p ∪ self.accepted P T actions p := by
  induction actions generalizing self H with
  | nil => exact h.congr fun p => (Finset.union_empty (H p)).symm
  | cons action actions ih =>
      rw [Machine.final_cons]
      refine (ih (Deployment.tracks_step h action)).congr fun p => ?_
      rw [Deployment.accepted_cons, Finset.union_assoc]

theorem Deployment.windowSize_final (P : Platform) (T : Toolbox) (self : Deployment)
    (actions : List DeploymentAction) :
    (Machine.final (Deployment.step P T) self actions).verifier.replayWindow.windowSize =
      self.verifier.replayWindow.windowSize := by
  refine Machine.final_invariant (Deployment.step P T) (Q := fun _ => True)
    (P := fun now => now.verifier.replayWindow.windowSize = self.verifier.replayWindow.windowSize)
    (fun now action _ hnow => ?_) (fun _ _ => trivial) rfl
  cases action with
  | generateKeys run => exact hnow
  | receive d => exact (VerifierNode.windowSize_final (P.on T now.files) now.verifier [d]).trans hnow

theorem Deployment.files_receive (P : Platform) (T : Toolbox) (self : Deployment) (ds : List Delivery) :
    (Machine.final (Deployment.step P T) self (ds.map .receive)).files = self.files := by
  induction ds generalizing self with
  | nil => rfl
  | cons d ds ih => exact ih (self.step P T (.receive d)).1

/-! ## A signer with the new key -/

/-- The arguments name the pair of `signer.yaml`. -/
def KeyGenArgs.ForSigner (args : KeyGenArgs) : Prop :=
  args.sourceId = PyStr.ofString "demo_source" ∧ args.keyId = PyStr.ofString "demo_mldsa44_key_1"

/-- Trust stores for one pair are the same. -/
theorem KeyGenArgs.store_eq {args args' : KeyGenArgs} (T : Toolbox) (root : Path)
    (hsource : args.sourceId = args'.sourceId) (hkey : args.keyId = args'.keyId) :
    args.store T root = args'.store T root ∧ args.trustStore = args'.trustStore := by
  unfold KeyGenArgs.store KeyGenArgs.entry KeyGenArgs.trustStore
  rw [hsource, hkey]
  exact ⟨rfl, rfl⟩

theorem VerifierNode.verifiedOf_handle_eq_iff {P : Platform} {self : VerifierNode} {d : Delivery} :
    verifiedOf (self.handle P d).2 = [d.msg.command] ↔ self.resultCode P d = .ok := by
  rw [VerifierNode.handle_eq, verifiedOf_report, VerifierNode.verified_judge,
    VerifierNode.resultCode_eq]
  split
  · next hok => exact iff_of_true rfl hok
  · next hok => exact iff_of_false (by simp) hok

/-- **The window outlives the key.** A run replaced the key pair, and the signer was started again with
    the new one; the verifier was not. Its message number `i`, if nothing raises in that delivery, is
    published iff it is fresh and `i` was not accepted for the pair and is above the cutoff, where what
    was accepted under the old keys counts. -/
theorem rotated_signer_accepted_iff {P : Platform} {T : Toolbox} {keysDir root : Path}
    {first run : KeyGenRun} {start : Deployment} (hstart : start.Started P T keysDir root first)
    (hfirst : first.args.ForSigner) (hrun : run.args.ForSigner) (hdir : run.args.keysDir = keysDir)
    (hpair : P.KeyPair run.env.privateKey run.env.publicKey) (before : List DeploymentAction)
    (hok : (keyGenStep P T (Machine.final (Deployment.step P T) start before).files run).2.outcome = .ok ())
    (ds : List Delivery) :
    let actions := before ++ .generateKeys run :: ds.map .receive
    let now := Machine.final (Deployment.step P T) start actions
    let signer := launchedSigner T keysDir
    let accepted := start.accepted P T actions (signer.sourceId, signer.keyId)
    ∀ inputs (i : ℕ) (d : Delivery),
      ((SignerNode.init (P.on T now.files) signer).signedTwists (P.on T now.files) inputs)[i]? =
        some d.msg → (∀ call, d.env.faults call = none) →
      ((now.step P T (.receive d)).2 = [d.msg.command] ↔
        d.env.nowNs ≤ d.sourceStampNs + d.msg.ttlMs.toNat * 1000000 ∧ (i : ℤ) ∉ accepted ∧
          ∀ hne : accepted.Nonempty, accepted.max' hne - 64 < i) := by
  intro actions now signer accepted inputs i d hgenuine hquiet
  obtain ⟨hsame, hdocument⟩ := KeyGenArgs.store_eq T root (hrun.1.trans hfirst.1.symm)
    (hrun.2.trans hfirst.2.symm)
  -- the files are those the run left
  have hfiles : now.files =
      (keyGenStep P T (Machine.final (Deployment.step P T) start before).files run).1 := by
    unfold now actions
    rw [Machine.final_append, Machine.final_cons, Deployment.files_receive]
    rfl
  have hsteps := keyGen_steps P (hdir ▸ hstart.lawful.expanduser)
    (Machine.final (Deployment.step P T) start before).files
  rw [hok, ← hfiles] at hsteps
  obtain ⟨hcomplete, -⟩ := hsteps.of_ok hstart.lawful.distinct
  have hmatch := (hcomplete.matching_iff hstart.lawful hpair).2 hrun
  have hinit : VerifierNode.init (P.on T now.files) (launchedVerifier T keysDir) =
      .ok (.launched (run.args.store T root)) := by
    rw [hfiles]
    exact KeyGenRun.init_of_ok hstart.lawful hdir (by rw [hrun.1]; decide) (by rw [hrun.2]; decide)
      (hdocument ▸ hstart.yaml) hstart.mechanism hok
  -- the verifier that runs differs from one started now in its window only
  have hconfig : now.verifier.toVerifierConfig =
      (VerifierNode.launched (run.args.store T root)).toVerifierConfig := by
    rw [hsame, ← hstart.verifier]
    exact Deployment.config_final P T start actions
  have hmem := List.mem_of_getElem? hgenuine
  have hlive := hmatch.live_iff hinit rfl hmem hquiet
  rw [← hconfig] at hlive
  have hfresh : start.verifier.replayWindow.states = ∅ := by
    rw [hstart.verifier]
    rfl
  have hsize : now.verifier.replayWindow.windowSize = 64 := by
    rw [Deployment.windowSize_final, hstart.verifier]
    rfl
  have htracks := Deployment.tracks_final (P := P) (T := T) (ReplayWindow.tracks_empty hfresh) actions
  have hresult := VerifierNode.resultCode_eq_ok_iff htracks (P := P.on T now.files) (d := d)
  rw [hsize, SignerNode.pair_of_mem_signedTwists hmem, SignerNode.sequence_getElem? hgenuine,
    Finset.empty_union] at hresult
  have hstep : (now.step P T (.receive d)).2 = verifiedOf (now.verifier.handle (P.on T now.files) d).2 :=
    rfl
  rw [hstep, VerifierNode.verifiedOf_handle_eq_iff, hresult, ← hlive]
  refine ⟨?_, ?_⟩
  · rintro ⟨hcall, hadm, -⟩
    exact ⟨hcall.1, hadm⟩
  · rintro ⟨hlive', hadm⟩
    exact ⟨⟨hlive', hquiet .checkAndUpdate⟩, hadm, hquiet .publish⟩

/-- The first message of the demo signer under the second key. -/
def SignedTwist.demoRotated : SignedTwist := { SignedTwist.demo with signature := 3 :: demoDigest }

/-- It is signed with the new key and fresh, and refused for the message of the old key before it. -/
theorem rotated_signer_accepted_iff_demo :
    let now := Machine.final (Deployment.step .demo .demo) .demo [.receive .demo, .generateKeys .second]
    let signer := launchedSigner .demo KeyGenRun.first.args.keysDir
    (SignerNode.init (Platform.demo.on .demo now.files) signer).signedTwists
        (Platform.demo.on .demo now.files) [.demo] = [.demoRotated] ∧
      (now.step .demo .demo (.receive ⟨.demoRotated, .quiet 5000002000⟩)).2 ≠
        [SignedTwist.demoRotated.command] := by
  intro now signer
  have hsigned : (SignerNode.init (Platform.demo.on .demo now.files) signer).signedTwists
      (Platform.demo.on .demo now.files) [.demo] = [.demoRotated] := by decide
  refine ⟨hsigned, fun hpublished => ?_⟩
  have hrun : KeyGenRun.second.args.ForSigner := ⟨rfl, rfl⟩
  have hiff := rotated_signer_accepted_iff Deployment.started_demo ⟨rfl, rfl⟩ hrun rfl
    (Platform.keyPair_demo 3) [.receive .demo] rfl [] [.demo] 0 ⟨.demoRotated, .quiet 5000002000⟩
    (by decide) (fun _ => rfl)
  obtain ⟨-, hnew, -⟩ := hiff.1 hpublished
  exact hnew (by decide)

end PqcSecureComm
