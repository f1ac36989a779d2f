import PqcSecureComm.Completeness
import PqcSecureComm.TrustLoading

set_option autoImplicit false

/-! # Provisioning

`generate_demo_keys` writes a private key, protects it, writes the public key and at last the trust store
that names it; the launch files start signer and verifier on the same directory. Any of its calls may
raise, and a write that does leaves the beginning of its content behind. -/

namespace PqcSecureComm

/-! ## Files -/

/-- A regular file. -/
structure File where
  content : Bytes
  mode : ℕ
  deriving DecidableEq, Repr

/-- The files of a machine, each under its resolved path. -/
abbrev Files := Finmap fun _ : Path => File

/-- `pathlib` and PyYAML. -/
structure Toolbox where
  /-- `Path(p).expanduser()` -/
  expanduser : Path → Except PyError Path
  /-- `p.is_absolute()` -/
  isAbsolute : Path → Bool
  /-- `p.parent` -/
  parent : Path → Path
  /-- `base / name` -/
  join : Path → PyStr → Path
  /-- `p.resolve()` -/
  resolve : Path → Path
  /-- `yaml.safe_load` -/
  safeLoad : Bytes → Except PyError Yaml
  /-- `yaml.safe_dump(document, sort_keys=False)` in UTF-8 -/
  safeDump : Yaml → Bytes

/-- The platform of the nodes on a machine with these files. -/
def Platform.on (P : Platform) (T : Toolbox) (files : Files) : Platform :=
  { P with
    fileBytes := fun path => (files.lookup (T.resolve path)).map File.content
    expanduser := T.expanduser
    isAbsolute := T.isAbsolute
    parent := T.parent
    resolveUnder := fun base path => .ok (T.resolve (T.join base path))
    safeLoad := fun path =>
      match files.lookup (T.resolve path) with
      | none => .error (.mk' .osError "No such file or directory")
      | some file => T.safeLoad file.content }

/-- Open a file for writing and write to it; a file that was there keeps its permissions. -/
def Files.put (T : Toolbox) (files : Files) (path : Path) (content : Bytes) (newMode : ℕ) : Files :=
  files.insert (T.resolve path) ⟨content, ((files.lookup (T.resolve path)).map File.mode).getD newMode⟩

/-- `path.chmod(mode)`. -/
def Files.chmod (T : Toolbox) (files : Files) (path : Path) (mode : ℕ) : Files :=
  match files.lookup (T.resolve path) with
  | none => files
  | some file => files.insert (T.resolve path) { file with mode := mode }

/-- `path.exists()`. -/
def Files.has (T : Toolbox) (files : Files) (path : Path) : Bool :=
  (files.lookup (T.resolve path)).isSome

/-! ## The source -/

/-- The arguments of `generate_demo_keys`, with the defaults of its command line. -/
structure KeyGenArgs where
  keysDir : Path := PyStr.ofString "/ros2_ws/src/keys"
  sourceId : PyStr := PyStr.ofString "demo_source"
  keyId : PyStr := PyStr.ofString "demo_mldsa44_key_1"
  overwrite : Bool := false

/-- The calls of `generate_demo_keys` that may raise on their own. -/
inductive KeyGenCall
  | mkdirSigner
  | mkdirTrust
  | generateKeypair
  | writePrivate
  | chmodPrivate
  | writePublic
  | writeTrustStore
  deriving DecidableEq, Repr

/-- A call raises before it does anything, or, if it writes a file, having written so many bytes. -/
inductive CallFault
  | refused (exc : PyError)
  | torn (written : ℕ) (exc : PyError)

/-- The surroundings of a run: the key pair liboqs draws, the permissions a new file gets, and the calls
    that raise. -/
structure KeyGenEnv where
  publicKey : Bytes
  privateKey : Bytes
  newMode : ℕ
  faults : KeyGenCall → Option CallFault

/-- The exception of a call that writes nothing. -/
def KeyGenEnv.raises (env : KeyGenEnv) (call : KeyGenCall) : Option PyError :=
  match env.faults call with
  | none => none
  | some (.refused exc) => some exc
  | some (.torn _ exc) => some exc

/-- `public_key_path.name`. -/
def publicKeyName : PyStr := PyStr.ofString "demo_source_mldsa44_pub.key"

/-- The three files under `root`. -/
structure KeyPaths where
  privateKey : Path
  publicKey : Path
  trustStore : Path

def Toolbox.signerDir (T : Toolbox) (root : Path) : Path := T.join root (PyStr.ofString "signer")

def Toolbox.trustDir (T : Toolbox) (root : Path) : Path := T.join root (PyStr.ofString "trust")

def Toolbox.keyPaths (T : Toolbox) (root : Path) : KeyPaths where
  privateKey := T.join (T.signerDir root) (PyStr.ofString "mldsa44_private.key")
  publicKey := T.join (T.trustDir root) publicKeyName
  trustStore := T.join (T.trustDir root) (PyStr.ofString "trust_store.yaml")

/-- `trust_store`. -/
def KeyGenArgs.trustStore (args : KeyGenArgs) : Yaml :=
  .map [(.str (PyStr.ofString "trusted_keys"), .list [.map [
    (.str (PyStr.ofString "source_id"), .str args.sourceId),
    (.str (PyStr.ofString "key_id"), .str args.keyId),
    (.str (PyStr.ofString "sig_scheme"), .str (PyStr.ofString "ML_DSA_44")),
    (.str (PyStr.ofString "public_key_path"), .str publicKeyName),
    (.str (PyStr.ofString "enabled"), .bool true)]])]

/-- `path.write_bytes(content)`, and `path.write_text` of the text with these bytes. -/
def writeBytes (T : Toolbox) (env : KeyGenEnv) (call : KeyGenCall) (path : Path) (content : Bytes) :
    Callback Files PyStr PyError Unit :=
  match env.faults call with
  | none => Callback.modifyNode fun files => files.put T path content env.newMode
  | some (.refused exc) => throw exc
  | some (.torn written exc) => do
    Callback.modifyNode fun files => files.put T path (content.take written) env.newMode
    throw exc

/-- The file names in the text of the `FileExistsError`. -/
def joinNames : List Path → PyStr
  | [] => []
  | [path] => path
  | path :: paths => path ++ PyStr.ofString ", " ++ joinNames paths

/-- `generate_demo_keys`. What it publishes are the lines it prints. -/
def generateDemoKeys (P : Platform) (T : Toolbox) (args : KeyGenArgs) (env : KeyGenEnv) :
    Callback Files PyStr PyError Unit := do
  Callback.raiseIf (if P.sigMechanisms = none then
    some (.mk' .runtimeError "Python package \"oqs\" is required to generate ML-DSA-44 demo keys.")
    else none)
  let root ← Callback.call (T.expanduser args.keysDir)
  let paths := T.keyPaths root
  Callback.raiseIf (env.raises .mkdirSigner)
  Callback.raiseIf (env.raises .mkdirTrust)
  let files ← Callback.node
  let existing := [paths.privateKey, paths.publicKey, paths.trustStore].filter (files.has T)
  -- a `FileExistsError` is an `OSError`
  Callback.raiseIf (if args.overwrite = false ∧ existing ≠ [] then
    some ⟨.osError, PyStr.ofString "Key material already exists; pass --overwrite to replace: " ++
      joinNames existing⟩
    else none)
  Callback.raiseIf (env.raises .generateKeypair)
  writeBytes T env .writePrivate paths.privateKey env.privateKey
  Callback.raiseIf (env.raises .chmodPrivate)
  Callback.modifyNode fun files => files.chmod T paths.privateKey 0o600
  writeBytes T env .writePublic paths.publicKey env.publicKey
  writeBytes T env .writeTrustStore paths.trustStore (T.safeDump args.trustStore)
  Callback.publish (PyStr.ofString "wrote private key: " ++ paths.privateKey)
  Callback.publish (PyStr.ofString "wrote public key: " ++ paths.publicKey)
  Callback.publish (PyStr.ofString "wrote trust store: " ++ paths.trustStore)

/-- A run of the command, on the files of a machine. -/
structure KeyGenRun where
  args : KeyGenArgs
  env : KeyGenEnv

def keyGenStep (P : Platform) (T : Toolbox) (files : Files) (run : KeyGenRun) :
    Files × Callback.Reaction PyStr PyError :=
  Callback.react (generateDemoKeys P T run.args run.env) files

/-! ## What a run can leave behind -/

section Steps

variable (T : Toolbox) (root : Path) (run : KeyGenRun) (files : Files)

/-- The private key was written, as far as `written`. -/
def KeyGenRun.tornPrivate (written : ℕ) : Files :=
  files.put T (T.keyPaths root).privateKey (run.env.privateKey.take written) run.env.newMode

/-- It was written and protected. -/
def KeyGenRun.privateDone : Files :=
  (files.put T (T.keyPaths root).privateKey run.env.privateKey run.env.newMode).chmod T
    (T.keyPaths root).privateKey 0o600

def KeyGenRun.tornPublic (written : ℕ) : Files :=
  (run.privateDone T root files).put T (T.keyPaths root).publicKey (run.env.publicKey.take written)
    run.env.newMode

def KeyGenRun.tornTrustStore (written : ℕ) : Files :=
  ((run.privateDone T root files).put T (T.keyPaths root).publicKey run.env.publicKey
    run.env.newMode).put T (T.keyPaths root).trustStore
    ((T.safeDump run.args.trustStore).take written) run.env.newMode

/-- None of the three files is there. -/
def Files.Vacant : Prop :=
  files.has T (T.keyPaths root).privateKey = false ∧ files.has T (T.keyPaths root).publicKey = false ∧
    files.has T (T.keyPaths root).trustStore = false

/-- **What a run does**: nothing, or with permission the four changes up to some point; only if it
    returns all of them. -/
inductive KeyGenRun.Steps : Except PyError Unit → Files → Prop
  | refused (exc : PyError) : KeyGenRun.Steps (.error exc) files
  | tornPrivate (written : ℕ) (exc : PyError) (hallowed : run.args.overwrite = true ∨ files.Vacant T root) :
      KeyGenRun.Steps (.error exc) (run.tornPrivate T root files written)
  | tornPublic (written : ℕ) (exc : PyError) (hallowed : run.args.overwrite = true ∨ files.Vacant T root) :
      KeyGenRun.Steps (.error exc) (run.tornPublic T root files written)
  | privateDone (exc : PyError) (hallowed : run.args.overwrite = true ∨ files.Vacant T root) :
      KeyGenRun.Steps (.error exc) (run.privateDone T root files)
  | tornTrustStore (written : ℕ) (exc : PyError)
      (hallowed : run.args.overwrite = true ∨ files.Vacant T root) :
      KeyGenRun.Steps (.error exc) (run.tornTrustStore T root files written)
  | done (hallowed : run.args.overwrite = true ∨ files.Vacant T root) :
      KeyGenRun.Steps (.ok ())
        (run.tornTrustStore T root files (T.safeDump run.args.trustStore).length)

end Steps

theorem run_writeBytes_bind {β : Type} (T : Toolbox) (env : KeyGenEnv) (call : KeyGenCall) (path : Path)
    (content : Bytes) (f : Unit → Callback Files PyStr PyError β) (files : Files) (out : List PyStr) :
    Callback.run (writeBytes T env call path content >>= f) files out =
      match env.faults call with
      | none => Callback.run (f ()) (files.put T path content env.newMode) out
      | some (.refused exc) => (.error exc, files, out)
      | some (.torn written exc) =>
        (.error exc, files.put T path (content.take written) env.newMode, out) := by
  unfold writeBytes
  cases env.faults call with
  | none => exact Callback.run_modifyNode_bind _ f files out
  | some fault =>
      cases fault with
      | refused exc => rfl
      | torn written exc =>
          rw [Callback.run_bind, Callback.run_modifyNode_bind, Callback.run_throw]

theorem existing_eq_nil {T : Toolbox} {root : Path} {files : Files} :
    [(T.keyPaths root).privateKey, (T.keyPaths root).publicKey, (T.keyPaths root).trustStore].filter
      (files.has T) = [] ↔ files.Vacant T root := by
  simp [List.filter_eq_nil_iff, Files.Vacant]

theorem keyGen_steps (P : Platform) {T : Toolbox} {root : Path} {run : KeyGenRun}
    (hroot : T.expanduser run.args.keysDir = .ok root) (files : Files) :
    run.Steps T root files (keyGenStep P T files run).2.outcome (keyGenStep P T files run).1 := by
  unfold keyGenStep Callback.react generateDemoKeys
  simp only [Callback.run_raiseIf_bind, Callback.run_call_bind, Callback.run_node_bind, hroot,
    run_writeBytes_bind, Callback.run_modifyNode_bind, Callback.run_publish_bind, Callback.run_publish]
  by_cases hoqs : P.sigMechanisms = none
  · rw [if_pos hoqs]
    exact .refused _
  rw [if_neg hoqs]
  cases run.env.raises .mkdirSigner with
  | some exc => exact .refused exc
  | none =>
  cases run.env.raises .mkdirTrust with
  | some exc => exact .refused exc
  | none =>
  simp only
  by_cases hrefuse : run.args.overwrite = false ∧ [(T.keyPaths root).privateKey,
      (T.keyPaths root).publicKey, (T.keyPaths root).trustStore].filter (files.has T) ≠ []
  · rw [if_pos hrefuse]
    exact .refused _
  · rw [if_neg hrefuse]
    have hallowed : run.args.overwrite = true ∨ files.Vacant T root := by
      rw [← existing_eq_nil]
      by_cases hoverwrite : run.args.overwrite = true
      · exact Or.inl hoverwrite
      · exact Or.inr (not_not.1 fun hne => hrefuse ⟨Bool.eq_false_iff.2 hoverwrite, hne⟩)
    cases run.env.raises .generateKeypair with
    | some exc => exact .refused exc
    | none =>
    cases run.env.faults .writePrivate with
    | some fault =>
        cases fault with
        | refused exc => exact .refused exc
        | torn written exc => exact .tornPrivate written exc hallowed
    | none =>
    cases run.env.raises .chmodPrivate with
    | some exc =>
        have hfull := KeyGenRun.Steps.tornPrivate (T := T) (run.env.privateKey.length) exc hallowed
        unfold KeyGenRun.tornPrivate at hfull
        rwa [List.take_length] at hfull
    | none =>
    cases run.env.faults .writePublic with
    | some fault =>
        cases fault with
        | refused exc => exact .privateDone exc hallowed
        | torn written exc => exact .tornPublic written exc hallowed
    | none =>
    cases run.env.faults .writeTrustStore with
    | some fault =>
        cases fault with
        | refused exc =>
            have hfull := KeyGenRun.Steps.tornPublic (T := T) (run.env.publicKey.length) exc hallowed
            unfold KeyGenRun.tornPublic at hfull
            rwa [List.take_length] at hfull
        | torn written exc => exact .tornTrustStore written exc hallowed
    | none =>
        have hfull := KeyGenRun.Steps.done (T := T) hallowed
        unfold KeyGenRun.tornTrustStore at hfull
        rwa [List.take_length] at hfull

/-! ## Nothing is lost -/

section Lookup

variable {T : Toolbox} {files : Files} {path q : Path}

theorem Files.lookup_put_self {content : Bytes} {newMode : ℕ} :
    ∃ mode, (files.put T path content newMode).lookup (T.resolve path) = some ⟨content, mode⟩ :=
  ⟨_, Finmap.lookup_insert _⟩

theorem Files.lookup_put_of_ne (h : q ≠ T.resolve path) {content : Bytes} {newMode : ℕ} :
    (files.put T path content newMode).lookup q = files.lookup q :=
  Finmap.lookup_insert_of_ne _ h

theorem Files.lookup_chmod_self {mode mode' : ℕ} {content : Bytes}
    (h : files.lookup (T.resolve path) = some ⟨content, mode⟩) :
    (files.chmod T path mode').lookup (T.resolve path) = some ⟨content, mode'⟩ := by
  unfold Files.chmod
  rw [h]
  exact Finmap.lookup_insert _

theorem Files.lookup_chmod_of_ne (h : q ≠ T.resolve path) {mode : ℕ} :
    (files.chmod T path mode).lookup q = files.lookup q := by
  unfold Files.chmod
  split
  · rfl
  · exact Finmap.lookup_insert_of_ne _ h

theorem Files.ne_of_vacant {file : File} (hlookup : files.lookup q = some file)
    (hvacant : files.has T path = false) : q ≠ T.resolve path := by
  rintro rfl
  unfold Files.has at hvacant
  rw [hlookup] at hvacant
  exact absurd hvacant (by simp)

end Lookup

/-- The three paths are three files. -/
structure Toolbox.Distinct (T : Toolbox) (root : Path) : Prop where
  private_ne_public : T.resolve (T.keyPaths root).privateKey ≠ T.resolve (T.keyPaths root).publicKey
  private_ne_trustStore : T.resolve (T.keyPaths root).privateKey ≠ T.resolve (T.keyPaths root).trustStore
  public_ne_trustStore : T.resolve (T.keyPaths root).publicKey ≠ T.resolve (T.keyPaths root).trustStore

/-- Both keys are those of the run, the private key is protected, and of the trust store there is at
    least a beginning. -/
structure KeyGenRun.Complete (T : Toolbox) (root : Path) (run : KeyGenRun) (files : Files) : Prop where
  privateKey : files.lookup (T.resolve (T.keyPaths root).privateKey) =
    some ⟨run.env.privateKey, 0o600⟩
  publicKey : ∃ mode, files.lookup (T.resolve (T.keyPaths root).publicKey) =
    some ⟨run.env.publicKey, mode⟩
  trustStore : ∃ mode written, files.lookup (T.resolve (T.keyPaths root).trustStore) =
    some ⟨(T.safeDump run.args.trustStore).take written, mode⟩

section OneRun

variable {T : Toolbox} {root : Path} {run : KeyGenRun} {files files' : Files}
  {outcome : Except PyError Unit}

theorem KeyGenRun.lookup_privateDone (run : KeyGenRun) (files : Files) :
    (run.privateDone T root files).lookup (T.resolve (T.keyPaths root).privateKey) =
      some ⟨run.env.privateKey, 0o600⟩ := by
  obtain ⟨mode, hput⟩ : ∃ mode, (files.put T (T.keyPaths root).privateKey run.env.privateKey
      run.env.newMode).lookup (T.resolve (T.keyPaths root).privateKey) =
        some ⟨run.env.privateKey, mode⟩ := Files.lookup_put_self
  exact Files.lookup_chmod_self hput

theorem KeyGenRun.lookup_privateDone_of_ne {q : Path}
    (h : q ≠ T.resolve (T.keyPaths root).privateKey) :
    (run.privateDone T root files).lookup q = files.lookup q := by
  unfold KeyGenRun.privateDone
  rw [Files.lookup_chmod_of_ne h, Files.lookup_put_of_ne h]

/-- A trust store that was begun names keys that are complete. -/
theorem KeyGenRun.complete_tornTrustStore (hdistinct : T.Distinct root) (run : KeyGenRun) (files : Files)
    (written : ℕ) : run.Complete T root (run.tornTrustStore T root files written) where
  privateKey := by
    unfold KeyGenRun.tornTrustStore
    rw [Files.lookup_put_of_ne hdistinct.private_ne_trustStore,
      Files.lookup_put_of_ne hdistinct.private_ne_public, KeyGenRun.lookup_privateDone]
  publicKey := by
    unfold KeyGenRun.tornTrustStore
    rw [Files.lookup_put_of_ne hdistinct.public_ne_trustStore]
    exact Files.lookup_put_self
  trustStore := by
    obtain ⟨mode, hput⟩ := Files.lookup_put_self
    exact ⟨mode, written, hput⟩

/-- Without `overwrite` a run changes nothing that is there. -/
theorem KeyGenRun.Steps.keeps (h : run.Steps T root files outcome files')
    (hoverwrite : run.args.overwrite = false) {q : Path} {file : File} (hfile : files.lookup q = some file) :
    files'.lookup q = some file := by
  have hkeep : run.args.overwrite = true ∨ files.Vacant T root →
      q ≠ T.resolve (T.keyPaths root).privateKey ∧ q ≠ T.resolve (T.keyPaths root).publicKey ∧
        q ≠ T.resolve (T.keyPaths root).trustStore := by
    rintro (hforce | ⟨hprivate, hpublic, htrust⟩)
    · rw [hoverwrite] at hforce
      exact absurd hforce (by simp)
    · exact ⟨Files.ne_of_vacant hfile hprivate, Files.ne_of_vacant hfile hpublic,
        Files.ne_of_vacant hfile htrust⟩
  cases h with
  | refused exc => exact hfile
  | tornPrivate written exc hallowed =>
      obtain ⟨hprivate, -, -⟩ := hkeep hallowed
      exact (Files.lookup_put_of_ne hprivate).trans hfile
  | privateDone exc hallowed =>
      obtain ⟨hprivate, -, -⟩ := hkeep hallowed
      exact (KeyGenRun.lookup_privateDone_of_ne hprivate).trans hfile
  | tornPublic written exc hallowed =>
      obtain ⟨hprivate, hpublic, -⟩ := hkeep hallowed
      exact (Files.lookup_put_of_ne hpublic).trans
        ((KeyGenRun.lookup_privateDone_of_ne hprivate).trans hfile)
  | tornTrustStore written exc hallowed =>
      obtain ⟨hprivate, hpublic, htrust⟩ := hkeep hallowed
      exact (Files.lookup_put_of_ne htrust).trans ((Files.lookup_put_of_ne hpublic).trans
        ((KeyGenRun.lookup_privateDone_of_ne hprivate).trans hfile))
  | done hallowed =>
      obtain ⟨hprivate, hpublic, htrust⟩ := hkeep hallowed
      exact (Files.lookup_put_of_ne htrust).trans ((Files.lookup_put_of_ne hpublic).trans
        ((KeyGenRun.lookup_privateDone_of_ne hprivate).trans hfile))

/-- A run that leaves a trust store where there was none leaves a complete one. -/
theorem KeyGenRun.Steps.complete (h : run.Steps T root files outcome files')
    (hdistinct : T.Distinct root) (hnone : files.has T (T.keyPaths root).trustStore = false)
    (htrust : files'.has T (T.keyPaths root).trustStore = true) : run.Complete T root files' := by
  have hunchanged : ∀ {files₁ : Files}, files₁.lookup (T.resolve (T.keyPaths root).trustStore) =
      files.lookup (T.resolve (T.keyPaths root).trustStore) →
      ¬ files₁.has T (T.keyPaths root).trustStore = true := by
    intro files₁ hsame
    unfold Files.has at hnone ⊢
    rw [hsame, hnone]
    simp
  cases h with
  | refused exc => exact absurd htrust (hunchanged rfl)
  | tornPrivate written exc hallowed =>
      exact absurd htrust (hunchanged (Files.lookup_put_of_ne hdistinct.private_ne_trustStore.symm))
  | privateDone exc hallowed =>
      exact absurd htrust
        (hunchanged (KeyGenRun.lookup_privateDone_of_ne hdistinct.private_ne_trustStore.symm))
  | tornPublic written exc hallowed =>
      refine absurd htrust (hunchanged ?_)
      exact (Files.lookup_put_of_ne hdistinct.public_ne_trustStore.symm).trans
        (KeyGenRun.lookup_privateDone_of_ne hdistinct.private_ne_trustStore.symm)
  | tornTrustStore written exc hallowed => exact run.complete_tornTrustStore hdistinct files written
  | done hallowed => exact run.complete_tornTrustStore hdistinct files _

/-- What is complete stays complete. -/
theorem KeyGenRun.Complete.keep {earlier : KeyGenRun} (h : earlier.Complete T root files)
    (hkeeps : ∀ q file, files.lookup q = some file → files'.lookup q = some file) :
    earlier.Complete T root files' where
  privateKey := hkeeps _ _ h.privateKey
  publicKey := by
    obtain ⟨mode, hpublic⟩ := h.publicKey
    exact ⟨mode, hkeeps _ _ hpublic⟩
  trustStore := by
    obtain ⟨mode, written, htrust⟩ := h.trustStore
    exact ⟨mode, written, hkeeps _ _ htrust⟩

end OneRun

/-- **Key material survives.** Whatever calls fail in however many runs without `--overwrite`: no file
    that was there is changed, and once there is a trust store, however little of it was written, both
    keys are complete, of the run that wrote it, and the private key is protected. -/
theorem keyMaterial_survives (P : Platform) {T : Toolbox} {keysDir root : Path}
    (hroot : T.expanduser keysDir = .ok root) (hdistinct : T.Distinct root) {runs : List KeyGenRun}
    (hruns : ∀ run ∈ runs, run.args.keysDir = keysDir ∧ run.args.overwrite = false) (files : Files) :
    let after := Machine.final (keyGenStep P T) files runs
    (∀ path file, files.lookup path = some file → after.lookup path = some file) ∧
    (files.has T (T.keyPaths root).trustStore = false →
      after.has T (T.keyPaths root).trustStore = true → ∃ run ∈ runs, run.Complete T root after) := by
  intro after
  have hsteps : ∀ run ∈ runs, ∀ before : Files,
      run.Steps T root before (keyGenStep P T before run).2.outcome (keyGenStep P T before run).1 :=
    fun run hrun before => keyGen_steps P ((hruns run hrun).1 ▸ hroot) before
  have hkeeps : ∀ run ∈ runs, ∀ (before : Files) (path : Path) (file : File),
      before.lookup path = some file → (keyGenStep P T before run).1.lookup path = some file :=
    fun run hrun before _ _ hfile => (hsteps run hrun before).keeps (hruns run hrun).2 hfile
  refine ⟨fun path file hfile => ?_, fun hnone htrust => ?_⟩
  · exact Machine.final_invariant (keyGenStep P T) (Q := fun run => run ∈ runs)
      (P := fun fs => fs.lookup path = some file)
      (fun before run hrun hbefore => hkeeps run hrun before path file hbefore) (fun _ hrun => hrun) hfile
  · have hinv : ∀ fs : Files, (fs.has T (T.keyPaths root).trustStore = true →
        ∃ run ∈ runs, run.Complete T root fs) → ∀ run ∈ runs,
        (keyGenStep P T fs run).1.has T (T.keyPaths root).trustStore = true →
          ∃ run' ∈ runs, run'.Complete T root (keyGenStep P T fs run).1 := by
      intro before hbefore run hrun hafter
      cases hthere : before.has T (T.keyPaths root).trustStore with
      | false => exact ⟨run, hrun, (hsteps run hrun before).complete hdistinct hthere hafter⟩
      | true =>
          obtain ⟨earlier, hearlier, hcomplete⟩ := hbefore hthere
          exact ⟨earlier, hearlier, hcomplete.keep (hkeeps run hrun before)⟩
    refine Machine.final_invariant (keyGenStep P T) (Q := fun run => run ∈ runs)
      (P := fun fs => fs.has T (T.keyPaths root).trustStore = true → ∃ run ∈ runs, run.Complete T root fs)
      (fun before run hrun hbefore => hinv before hbefore run hrun) (fun _ hrun => hrun) ?_ htrust
    intro hthere
    rw [hnone] at hthere
    exact absurd hthere (by simp)

/-- The text of the trust store of a run with the default names. -/
def demoTrustStoreText : String :=
  "trusted_keys:\n- source_id: demo_source\n  key_id: demo_mldsa44_key_1\n  sig_scheme: ML_DSA_44\n" ++
    "  public_key_path: demo_source_mldsa44_pub.key\n  enabled: true\n"

/-- A machine without links and home directories, and YAML as far as it is needed here. -/
def Toolbox.demo : Toolbox where
  expanduser path := .ok path
  isAbsolute path := path.take 1 == PyStr.ofString "/"
  parent := Platform.demo.parent
  join base name := base ++ PyStr.ofString "/" ++ name
  resolve path := path
  safeLoad text :=
    if text = demoTrustStoreText.toUTF8.toList then .ok (KeyGenArgs.trustStore {})
    else .error (.mk' .valueError "while parsing a block mapping")
  safeDump _ := demoTrustStoreText.toUTF8.toList

/-- Nothing fails. -/
def KeyGenEnv.quiet : KeyGenEnv := ⟨[2], [1], 0o644, fun _ => none⟩

theorem Toolbox.distinct_demo (root : Path) : Toolbox.demo.Distinct root := by
  have hne : ∀ {x y : PyStr}, x ≠ y → root ++ x ≠ root ++ y :=
    fun hxy heq => hxy (List.append_cancel_left heq)
  refine ⟨?_, ?_, ?_⟩
  all_goals
    simp only [Toolbox.keyPaths, Toolbox.signerDir, Toolbox.trustDir, Toolbox.demo, List.append_assoc]
    exact hne (by decide)

theorem Toolbox.yaml_demo :
    Toolbox.demo.safeLoad (Toolbox.demo.safeDump (KeyGenArgs.trustStore {})) =
      .ok (KeyGenArgs.trustStore {}) := if_pos rfl

/-- The write of the trust store fails behind its tenth byte. -/
def KeyGenEnv.tornTrustStore : KeyGenEnv :=
  { KeyGenEnv.quiet with
    faults := fun call =>
      if call = .writeTrustStore then some (.torn 10 (.mk' .osError "No space left on device")) else none }

/-- A run whose last write fails, and one that would begin anew: both keys are there, as the first run
    drew them, and so is a file that has nothing to do with them. -/
theorem keyMaterial_survives_demo :
    let root := PyStr.ofString "/ros2_ws/src/keys"
    let hostname := PyStr.ofString "/etc/hostname"
    let runs : List KeyGenRun := [⟨{}, .tornTrustStore⟩,
      ⟨{ sourceId := PyStr.ofString "other" }, { KeyGenEnv.quiet with privateKey := [9] }⟩]
    let after := Machine.final (keyGenStep .demo .demo) (Finmap.singleton hostname ⟨[7], 0o644⟩) runs
    after.lookup hostname = some ⟨[7], 0o644⟩ ∧ (∃ run ∈ runs, run.Complete .demo root after) ∧
      after.lookup (Toolbox.demo.keyPaths root).privateKey = some ⟨[1], 0o600⟩ := by
  intro root hostname runs after
  have hroot : Toolbox.demo.expanduser root = .ok root := rfl
  have hruns : ∀ run ∈ runs, run.args.keysDir = root ∧ run.args.overwrite = false := by
    simp [runs, root]
  obtain ⟨hkeeps, hcomplete⟩ := keyMaterial_survives .demo hroot (Toolbox.distinct_demo _) hruns
    (Finmap.singleton hostname ⟨[7], 0o644⟩)
  exact ⟨hkeeps hostname _ Finmap.lookup_singleton_eq, hcomplete (by decide) (by decide), by decide⟩

/-! ## What the nodes are started with -/

/-- The signer of the launch files: `config/signer.yaml`, and the private key under `keys_dir`. -/
def launchedSigner (T : Toolbox) (keysDir : Path) : SignerParams where
  sourceId := PyStr.ofString "demo_source"
  keyId := PyStr.ofString "demo_mldsa44_key_1"
  privateKeyPath := T.join (T.join keysDir (PyStr.ofString "signer")) (PyStr.ofString "mldsa44_private.key")
  sigScheme := 1
  hashScheme := 1
  ttlMs := 500
  topicName := PyStr.ofString "/cmd_vel/raw"
  payloadSchema := PyStr.ofString "ros2_pqc.twist.v1"

/-- The verifier of the launch files: `config/verifier.yaml`, and the trust store under `keys_dir`. -/
def launchedVerifier (T : Toolbox) (keysDir : Path) : VerifierParams where
  trustStorePath := T.join (T.join keysDir (PyStr.ofString "trust")) (PyStr.ofString "trust_store.yaml")
  expectedPayloadSchema := PyStr.ofString "ros2_pqc.twist.v1"
  expectedPayloadVersion := 1
  replayWindowSize := 64
  topicName := PyStr.ofString "/cmd_vel/raw"

theorem launchedWindow_pos : (0 : ℤ) < 64 := by decide

/-- The node it becomes with the trust store it loads. -/
def VerifierNode.launched (store : TrustStore) : VerifierNode where
  expectedPayloadSchema := PyStr.ofString "ros2_pqc.twist.v1"
  expectedPayloadVersion := 1
  topicName := PyStr.ofString "/cmd_vel/raw"
  trustStore := some store
  backend := some ⟨PyStr.ofString "ML-DSA-44"⟩
  replayWindow := ⟨64, ∅, launchedWindow_pos⟩

/-- What the documentation of `pathlib` promises, for the paths of a keys directory. -/
structure Toolbox.Lawful (T : Toolbox) (keysDir root : Path) : Prop where
  distinct : T.Distinct root
  expanduser : T.expanduser keysDir = .ok root
  /-- only the first part of a path is expanded -/
  expanduser_privateKey : T.expanduser (T.keyPaths keysDir).privateKey = .ok (T.keyPaths root).privateKey
  expanduser_trustStore : T.expanduser (T.keyPaths keysDir).trustStore = .ok (T.keyPaths root).trustStore
  expanduser_publicKeyName : T.expanduser publicKeyName = .ok publicKeyName
  publicKeyName_relative : T.isAbsolute publicKeyName = false
  parent_trustStore : T.parent (T.keyPaths root).trustStore = T.trustDir root
  /-- a resolved path is absolute, and resolved -/
  expanduser_resolve : ∀ path, T.expanduser (T.resolve path) = .ok (T.resolve path)
  resolve_resolve : ∀ path, T.resolve (T.resolve path) = T.resolve path

theorem Toolbox.lawful_demo :
    Toolbox.demo.Lawful (PyStr.ofString "/ros2_ws/src/keys") (PyStr.ofString "/ros2_ws/src/keys") := by
  refine ⟨Toolbox.distinct_demo _, rfl, rfl, rfl, rfl, by decide, ?_, fun _ => rfl, fun _ => rfl⟩
  decide

/-- The entry of the generated trust store. -/
def KeyGenArgs.entry (T : Toolbox) (root : Path) (args : KeyGenArgs) : TrustedKey where
  sourceId := .str args.sourceId
  keyId := .str args.keyId
  sigScheme := sigSchemeMlDsa44
  publicKeyPath := T.resolve (T.keyPaths root).publicKey
  enabled := true

def KeyGenArgs.store (T : Toolbox) (root : Path) (args : KeyGenArgs) : TrustStore :=
  ⟨(∅ : Finmap fun _ : DictKey × DictKey => TrustedKey).insert (.str args.sourceId, .str args.keyId)
    (args.entry T root)⟩

section Launch

variable {P : Platform} {T : Toolbox} {keysDir root : Path} {args : KeyGenArgs} {files : Files}

/-- The generated document is loaded as it was meant. -/
theorem KeyGenArgs.fromPayload (P : Platform) (files : Files) (hlawful : T.Lawful keysDir root)
    (hsource : args.sourceId ≠ []) (hkey : args.keyId ≠ []) :
    TrustStore.fromPayload (P.on T files) (T.trustDir root) args.trustStore = .ok (args.store T root) := by
  have htruthy : ∀ {s : PyStr}, s ≠ [] → (Yaml.str s).truthy = true := by
    intro s hs
    simpa [Yaml.truthy] using hs
  have hresolve : resolveRelativePath (P.on T files) (T.trustDir root) (some (.str publicKeyName)) =
      .ok (T.resolve (T.keyPaths root).publicKey) := by
    show (do
      let candidate ← T.expanduser publicKeyName
      if T.isAbsolute candidate then pure candidate
        else .ok (T.resolve (T.join (T.trustDir root) candidate)) : Except PyError Path) = _
    rw [hlawful.expanduser_publicKeyName, Fallible.ok_bind, hlawful.publicKeyName_relative]
    rfl
  refine TrustStore.fromPayload_eq_ok.2 ⟨_, [((.str args.sourceId, .str args.keyId), args.entry T root)],
    rfl, List.Forall₂.cons ?_ List.Forall₂.nil, rfl⟩
  exact TrustStore.parseEntry_eq_ok.2 {
    mapping := ⟨_, rfl⟩
    sigScheme := rfl
    publicKeyPath := hresolve
    enabled := rfl
    sourceId := rfl
    keyId := rfl
    sourceId_truthy := htruthy hsource
    keyId_truthy := htruthy hkey
    sourceKey := rfl
    keyKey := rfl }

theorem KeyGenArgs.enables_iff (T : Toolbox) (root : Path) (args : KeyGenArgs) {p : Pair}
    {entry : TrustedKey} :
    (args.store T root).Enables p entry ↔ p = (args.sourceId, args.keyId) ∧ entry = args.entry T root := by
  unfold TrustStore.Enables KeyGenArgs.store
  by_cases hp : p = (args.sourceId, args.keyId)
  · subst hp
    rw [Finmap.lookup_insert]
    refine ⟨?_, ?_⟩
    · rintro ⟨hentry, -⟩
      exact ⟨rfl, (Option.some.inj hentry).symm⟩
    · rintro ⟨-, rfl⟩
      exact ⟨rfl, rfl, rfl⟩
  · have hne : ((.str p.1, .str p.2) : DictKey × DictKey) ≠ (.str args.sourceId, .str args.keyId) := by
      intro heq
      simp only [Prod.mk.injEq, DictKey.str.injEq] at heq
      exact hp (Prod.ext heq.1 heq.2)
    rw [Finmap.lookup_insert_of_ne _ hne, Finmap.lookup_empty]
    simp [hp]

/-- On a machine with the whole trust store the verifier loads it. -/
theorem KeyGenArgs.fromFile (P : Platform) (hlawful : T.Lawful keysDir root)
    (htrust : ∃ mode, files.lookup (T.resolve (T.keyPaths root).trustStore) =
      some ⟨T.safeDump args.trustStore, mode⟩)
    (hyaml : T.safeLoad (T.safeDump args.trustStore) = .ok args.trustStore)
    (hsource : args.sourceId ≠ []) (hkey : args.keyId ≠ []) :
    TrustStore.fromFile (P.on T files) (launchedVerifier T keysDir).trustStorePath =
      .ok (args.store T root) := by
  obtain ⟨mode, htrust⟩ := htrust
  have hparses : (P.on T files).Parses (launchedVerifier T keysDir).trustStorePath (T.trustDir root)
      args.trustStore := by
    refine ⟨_, hlawful.expanduser_trustStore, ?_, ?_, hlawful.parent_trustStore⟩
    · simp [Platform.on, htrust]
    · simp [Platform.on, htrust, hyaml]
  rw [TrustStore.fromFile_eq hparses]
  exact KeyGenArgs.fromPayload P files hlawful hsource hkey

theorem loadKeyBytes_on (P : Platform) {path resolved : Path} {content : Bytes} {mode : ℕ}
    (hpath : T.expanduser path = .ok resolved)
    (hfile : files.lookup (T.resolve resolved) = some ⟨content, mode⟩) :
    loadKeyBytes (P.on T files) path = .ok content := by
  have hexpand : (P.on T files).expanduser path = .ok resolved := hpath
  have hbytes : (P.on T files).fileBytes resolved = some content := by
    simp [Platform.on, hfile]
  unfold loadKeyBytes
  rw [hexpand, Fallible.ok_bind, hbytes]
  rfl

/-- The launched signer and verifier find the two keys of a complete run. -/
theorem KeyGenRun.Complete.loadKeys {run : KeyGenRun} (P : Platform) (h : run.Complete T root files)
    (hlawful : T.Lawful keysDir root) :
    loadKeyBytes (P.on T files) (launchedSigner T keysDir).privateKeyPath = .ok run.env.privateKey ∧
      loadKeyBytes (P.on T files) (run.args.entry T root).publicKeyPath = .ok run.env.publicKey := by
  obtain ⟨mode, hpublic⟩ := h.publicKey
  rw [← hlawful.resolve_resolve] at hpublic
  exact ⟨loadKeyBytes_on P hlawful.expanduser_privateKey h.privateKey,
    loadKeyBytes_on P (hlawful.expanduser_resolve _) hpublic⟩

/-- They match iff the trust store was made for the pair of `signer.yaml`. -/
theorem KeyGenRun.Complete.matching_iff {run : KeyGenRun} {P : Platform} (h : run.Complete T root files)
    (hlawful : T.Lawful keysDir root) (hpair : P.KeyPair run.env.privateKey run.env.publicKey) :
    Matching (P.on T files) (launchedSigner T keysDir) (launchedVerifier T keysDir)
        (run.args.store T root) ↔
      run.args.sourceId = PyStr.ofString "demo_source" ∧
        run.args.keyId = PyStr.ofString "demo_mldsa44_key_1" := by
  refine ⟨?_, ?_⟩
  · intro hmatch
    obtain ⟨entry, -, -, henables, -⟩ := hmatch.trusted
    obtain ⟨hids, -⟩ := (KeyGenArgs.enables_iff T root run.args).1 henables
    obtain ⟨hsource, hkey⟩ := Prod.mk.inj hids
    exact ⟨hsource.symm, hkey.symm⟩
  · rintro ⟨hsource, hkey⟩
    obtain ⟨hprivate, hpublic⟩ := h.loadKeys P hlawful
    exact {
      topicName := rfl
      payloadSchema := rfl
      payloadVersion := rfl
      sigScheme := rfl
      hashScheme := rfl
      ttlMs := ⟨(by decide : (0 : ℤ) ≤ 500), (by decide : (500 : ℤ) < 2 ^ 32)⟩
      trusted := ⟨_, _, _, (KeyGenArgs.enables_iff T root run.args).2
        ⟨by rw [hsource, hkey]; rfl, rfl⟩, hpublic, hprivate, hpair⟩ }

/-- The launched verifier starts with the store it loads. -/
theorem init_launchedVerifier {P : Platform} {store : TrustStore}
    (hstore : TrustStore.fromFile P (launchedVerifier T keysDir).trustStorePath = .ok store)
    {enabled : List PyStr} (henabled : P.sigMechanisms = some enabled)
    (hmem : PyStr.ofString "ML-DSA-44" ∈ enabled) :
    VerifierNode.init P (launchedVerifier T keysDir) = .ok (.launched store) := by
  have hbackend : OqsMlDsa44Backend.init P = .ok ⟨PyStr.ofString "ML-DSA-44"⟩ := by
    unfold OqsMlDsa44Backend.init
    rw [henabled]
    exact if_pos hmem
  have hwindow : ReplayWindow.init (launchedVerifier T keysDir).replayWindowSize =
      .ok ⟨64, ∅, launchedWindow_pos⟩ := rfl
  unfold VerifierNode.init
  rw [hwindow, Fallible.ok_bind, hstore, Fallible.ok_bind, hbackend]
  rfl

end Launch

/-- A run that returns wrote everything. -/
theorem KeyGenRun.Steps.of_ok {T : Toolbox} {root : Path} {run : KeyGenRun} {files files' : Files}
    (h : run.Steps T root files (.ok ()) files') (hdistinct : T.Distinct root) :
    run.Complete T root files' ∧ ∃ mode, files'.lookup (T.resolve (T.keyPaths root).trustStore) =
      some ⟨T.safeDump run.args.trustStore, mode⟩ := by
  cases h with
  | done hallowed =>
      refine ⟨run.complete_tornTrustStore hdistinct files _, ?_⟩
      unfold KeyGenRun.tornTrustStore
      rw [List.take_length]
      exact Files.lookup_put_self

/-- The launched verifier starts after it, with the trust store of the run. -/
theorem KeyGenRun.init_of_ok {P : Platform} {T : Toolbox} {keysDir root : Path} {run : KeyGenRun}
    {files : Files} (hlawful : T.Lawful keysDir root) (hdir : run.args.keysDir = keysDir)
    (hsource : run.args.sourceId ≠ []) (hkey : run.args.keyId ≠ [])
    (hyaml : T.safeLoad (T.safeDump run.args.trustStore) = .ok run.args.trustStore)
    (hmechanism : ∃ enabled, P.sigMechanisms = some enabled ∧ PyStr.ofString "ML-DSA-44" ∈ enabled)
    (hok : (keyGenStep P T files run).2.outcome = .ok ()) :
    VerifierNode.init (P.on T (keyGenStep P T files run).1) (launchedVerifier T keysDir) =
      .ok (.launched (run.args.store T root)) := by
  have hsteps := keyGen_steps P (hdir ▸ hlawful.expanduser) files
  rw [hok] at hsteps
  obtain ⟨-, htrust⟩ := hsteps.of_ok hlawful.distinct
  obtain ⟨enabled, henabled, hmem⟩ := hmechanism
  exact init_launchedVerifier (KeyGenArgs.fromFile P hlawful htrust hyaml hsource hkey) henabled hmem

/-- **A deployment that was provisioned works.** Whatever was on the machine before: after a run that
    returned, the launched verifier loads a trust store with exactly the pair of the run, the private key
    is protected, and the launched signer and verifier match iff the run was given the pair of
    `signer.yaml`. -/
theorem provisioned_matching {P : Platform} {T : Toolbox} {keysDir root : Path} {run : KeyGenRun}
    {files : Files} (hlawful : T.Lawful keysDir root) (hdir : run.args.keysDir = keysDir)
    (hsource : run.args.sourceId ≠ []) (hkey : run.args.keyId ≠ [])
    (hyaml : T.safeLoad (T.safeDump run.args.trustStore) = .ok run.args.trustStore)
    (hpair : P.KeyPair run.env.privateKey run.env.publicKey)
    (hmechanism : ∃ enabled, P.sigMechanisms = some enabled ∧ PyStr.ofString "ML-DSA-44" ∈ enabled)
    (hok : (keyGenStep P T files run).2.outcome = .ok ()) :
    let after := (keyGenStep P T files run).1
    ∃ node store, VerifierNode.init (P.on T after) (launchedVerifier T keysDir) = .ok node ∧
      node.trustStore = some store ∧ node.backend.isSome = true ∧
      store.enabledPairs = {(run.args.sourceId, run.args.keyId)} ∧
      after.lookup (T.resolve (T.keyPaths root).privateKey) = some ⟨run.env.privateKey, 0o600⟩ ∧
      (Matching (P.on T after) (launchedSigner T keysDir) (launchedVerifier T keysDir) store ↔
        run.args.sourceId = PyStr.ofString "demo_source" ∧
          run.args.keyId = PyStr.ofString "demo_mldsa44_key_1") := by
  intro after
  have hsteps := keyGen_steps P (hdir ▸ hlawful.expanduser) files
  rw [hok] at hsteps
  obtain ⟨hcomplete, -⟩ := hsteps.of_ok hlawful.distinct
  refine ⟨.launched (run.args.store T root), run.args.store T root,
    KeyGenRun.init_of_ok hlawful hdir hsource hkey hyaml hmechanism hok, rfl, rfl, ?_,
    hcomplete.privateKey, hcomplete.matching_iff hlawful hpair⟩
  ext p
  rw [TrustStore.mem_enabledPairs, Finset.mem_singleton]
  simp only [KeyGenArgs.enables_iff]
  exact exists_and_left.trans (and_iff_left ⟨_, rfl⟩)

/-- A first run with the defaults. -/
theorem provisioned_matching_demo :
    ∃ node store, VerifierNode.init (Platform.demo.on .demo (keyGenStep .demo .demo ∅ ⟨{}, .quiet⟩).1)
        (launchedVerifier .demo (PyStr.ofString "/ros2_ws/src/keys")) = .ok node ∧
      node.trustStore = some store ∧
      Matching (Platform.demo.on .demo (keyGenStep .demo .demo ∅ ⟨{}, .quiet⟩).1)
        (launchedSigner .demo (PyStr.ofString "/ros2_ws/src/keys"))
        (launchedVerifier .demo (PyStr.ofString "/ros2_ws/src/keys")) store := by
  have hok : (keyGenStep .demo .demo ∅ ⟨{}, .quiet⟩).2.outcome = .ok () := rfl
  obtain ⟨node, store, hnode, hstore, -, -, -, hmatch⟩ := provisioned_matching Toolbox.lawful_demo rfl
    (by decide) (by decide) Toolbox.yaml_demo (Platform.keyPair_demo 1)
    ⟨_, rfl, List.mem_singleton_self _⟩ hok
  exact ⟨node, store, hnode, hstore, hmatch.2 ⟨rfl, rfl⟩⟩

end PqcSecureComm
