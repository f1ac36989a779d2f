import PqcSecureComm.Messages

set_option autoImplicit false

/-! # Keys, trust store and signature backend

`Platform` is the code outside the repository: SHA-256, liboqs, the file system, the path library,
the YAML parser and what the interpreter fixes. `TrustStore.fromFile` walks an untyped YAML document,
so its translation keeps Python's truthiness, its `int`/`bool` subtyping, its equality of dictionary
keys and its `repr`, which can raise. -/

namespace PqcSecureComm

/-! ## The platform -/

/-- A `float` of a YAML document, as far as truthiness and equality go. -/
inductive PyFloat
  | finite (q : ℚ)
  | infinity (negative : Bool)
  | nan
  deriving DecidableEq, Repr

/-- A value `yaml.safe_load` returns. `other` is a date, a `bytes`, a set or a tuple: nothing but
    its truthiness, its hash and its `repr` is ever looked at. -/
inductive Yaml
  | null
  | bool (b : Bool)
  | int (n : ℤ)
  | float (x : PyFloat)
  | str (s : PyStr)
  | list (items : List Yaml)
  | map (entries : List (Yaml × Yaml))
  | other (truthy hashable : Bool) (tag : ℕ)

/-- A `pathlib.Path`, by its text. -/
abbrev Path := PyStr

structure Platform where
  /-- `hashlib.sha256(b).digest()` -/
  sha256 : Bytes → Bytes
  /-- `oqs.get_enabled_sig_mechanisms()`, or nothing if the package is missing -/
  sigMechanisms : Option (List PyStr)
  /-- liboqs signing: private key, message, and the randomness drawn for this call -/
  sign : Bytes → Bytes → Bytes → Except PyError Bytes
  /-- liboqs verification: message, signature, public key -/
  verify : Bytes → Bytes → Bytes → Except PyError Bool
  /-- the bytes of a regular file -/
  fileBytes : Path → Option Bytes
  /-- `Path(p).expanduser()` -/
  expanduser : Path → Except PyError Path
  /-- `p.is_absolute()` -/
  isAbsolute : Path → Bool
  /-- `p.parent` -/
  parent : Path → Path
  /-- `(base / p).resolve()` -/
  resolveUnder : Path → Path → Except PyError Path
  /-- `yaml.safe_load` of the text of a file -/
  safeLoad : Path → Except PyError Yaml
  /-- the nested calls of `repr` the recursion limit leaves to `_parse_sig_scheme` -/
  reprDepth : ℕ
  /-- `c.isprintable()` -/
  isPrintable : CodePoint → Bool
  /-- `repr` of a `float` -/
  reprFloat : PyFloat → PyStr
  /-- `repr` of an `other`, with so many nested calls left -/
  reprOther : ℕ → ℕ → Except ReprFault PyStr

/-- `load_key_bytes`. -/
def loadKeyBytes (P : Platform) (path : Path) : Except PyError Bytes := do
  let keyPath ← P.expanduser path
  match P.fileBytes keyPath with
  | none => .error ⟨.keyStoreError, PyStr.ofString "Key file does not exist: " ++ keyPath⟩
  | some bytes => pure bytes

/-! ## The signature backend -/

/-- An `OqsMlDsa44Backend` that was constructed. -/
structure OqsMlDsa44Backend where
  algorithmName : PyStr
  deriving DecidableEq, Repr

/-- `OqsMlDsa44Backend.__init__`. -/
def OqsMlDsa44Backend.init (P : Platform) : Except PyError OqsMlDsa44Backend :=
  match P.sigMechanisms with
  | none => .error (.mk' .backendUnavailableError
      "Python package \"oqs\" is required for ML-DSA-44 signing and verification.")
  | some enabled =>
    if PyStr.ofString "ML-DSA-44" ∈ enabled then .ok ⟨PyStr.ofString "ML-DSA-44"⟩
    else .error (.mk' .backendUnavailableError
      "ML-DSA-44 is not enabled in the installed liboqs build.")

/-- `OqsMlDsa44Backend.sign`, drawing `tape`. -/
def OqsMlDsa44Backend.sign (P : Platform) (_self : OqsMlDsa44Backend)
    (privateKey message tape : Bytes) : Except PyError Bytes :=
  P.sign privateKey message tape

/-- `OqsMlDsa44Backend.verify`. -/
def OqsMlDsa44Backend.verify (P : Platform) (_self : OqsMlDsa44Backend)
    (publicKey message signature : Bytes) : Except PyError Bool :=
  P.verify message signature publicKey

/-! ## Python's view of YAML values -/

/-- `bool(value)`. -/
def Yaml.truthy : Yaml → Bool
  | .null => false
  | .bool b => b
  | .int n => n != 0
  | .float (.finite q) => q != 0
  | .float _ => true
  | .str s => !s.isEmpty
  | .list items => !items.isEmpty
  | .map entries => !entries.isEmpty
  | .other truthy _ _ => truthy

/-- A hashable value up to `==`: `True`, `1` and `1.0` are one dictionary key. -/
inductive DictKey
  | none
  | number (q : ℚ)
  | infinity (negative : Bool)
  | nan
  | str (s : PyStr)
  | other (tag : ℕ)
  deriving DecidableEq, Repr

/-- The value as a dictionary key; lists and mappings are unhashable. -/
def Yaml.dictKey : Yaml → Except PyError DictKey
  | .null => .ok .none
  | .bool b => .ok (.number (if b then 1 else 0))
  | .int n => .ok (.number n)
  | .float (.finite q) => .ok (.number q)
  | .float (.infinity negative) => .ok (.infinity negative)
  | .float .nan => .ok .nan
  | .str s => .ok (.str s)
  | .list _ => .error (.mk' .typeError "unhashable type: 'list'")
  | .map _ => .error (.mk' .typeError "unhashable type: 'dict'")
  | .other _ true tag => .ok (.other tag)
  | .other _ false _ => .error (.mk' .typeError "unhashable type")

/-- `mapping.get(name)`; a repeated key keeps its last value. -/
def yamlGet (entries : List (Yaml × Yaml)) (name : String) : Option Yaml :=
  (entries.reverse.find? fun entry =>
    match entry.1 with
    | .str s => s == PyStr.ofString name
    | _ => false).map Prod.snd

/-- The items of the `dict` of a mapping: a repeated key keeps its place and takes its last value. -/
def dictItems (entries : List (Yaml × Yaml)) : List (Yaml × Yaml) :=
  entries.foldl (fun items entry =>
    if items.any fun item => item.1.dictKey == entry.1.dictKey then
      items.map fun item => if item.1.dictKey == entry.1.dictKey then (item.1, entry.2) else item
    else items ++ [entry]) []

/-- `repr(value)`, with so many nested calls left before the recursion limit. -/
def Yaml.repr (P : Platform) : ℕ → Yaml → Except ReprFault PyStr
  | 0, _ => .error .nesting
  | _ + 1, .null => .ok (PyStr.ofString "None")
  | _ + 1, .bool b => .ok (PyStr.ofString (if b then "True" else "False"))
  | _ + 1, .int n => pyReprInt n
  | _ + 1, .float x => .ok (P.reprFloat x)
  | _ + 1, .str s => .ok (s.repr P.isPrintable)
  | depth + 1, .list items => do
    let texts ← items.mapM (Yaml.repr P depth)
    pure (PyStr.ofString "[" ++ List.intercalate (PyStr.ofString ", ") texts ++ PyStr.ofString "]")
  | depth + 1, .map entries => do
    let texts ← (dictItems entries).mapM fun item => do
      let key ← Yaml.repr P depth item.1
      let value ← Yaml.repr P depth item.2
      pure (key ++ PyStr.ofString ": " ++ value)
    pure (PyStr.ofString "\x7b" ++ List.intercalate (PyStr.ofString ", ") texts ++
      PyStr.ofString "\x7d")
  | depth + 1, .other _ _ tag => P.reprOther depth tag

/-! ## The trust store -/

structure TrustedKey where
  sourceId : Yaml
  keyId : Yaml
  sigScheme : ℤ
  publicKeyPath : Path
  enabled : Bool

structure TrustStore where
  keys : Finmap fun _ : DictKey × DictKey => TrustedKey

/-- What `raise KeyStoreError(f'Unsupported trust-store sig_scheme: {value!r}')` raises; the text is
    put together first. -/
def unsupportedSigScheme (P : Platform) (value : Yaml) : PyError :=
  match value.repr P P.reprDepth with
  | .ok text => ⟨.keyStoreError, PyStr.ofString "Unsupported trust-store sig_scheme: " ++ text⟩
  | .error fault => fault.toError

/-- `_parse_sig_scheme`; a `bool` is an `int`. -/
def parseSigScheme (P : Platform) : Option Yaml → Except PyError ℤ
  | some (.int n) => .ok n
  | some (.bool b) => .ok (if b then 1 else 0)
  | some (.str s) =>
    match sigSchemeNameToId.lookup s with
    | some id => .ok id
    | none => .error (unsupportedSigScheme P (.str s))
  | value => .error (unsupportedSigScheme P (value.getD .null))

/-- `_resolve_relative_path`. -/
def resolveRelativePath (P : Platform) (baseDir : Path) (rawPath : Option Yaml) :
    Except PyError Path :=
  match rawPath with
  | some (.str (c :: cs)) => do
    let candidate ← P.expanduser (c :: cs)
    if P.isAbsolute candidate then pure candidate else P.resolveUnder baseDir candidate
  | _ => .error (.mk' .keyStoreError "public_key_path must be a non-empty string.")

/-- The body of the loop of `from_file` over `trusted_keys`, up to the assignment: the dictionary key
    and the value. -/
def TrustStore.parseEntry (P : Platform) (baseDir : Path) (entry : Yaml) :
    Except PyError ((DictKey × DictKey) × TrustedKey) :=
  match entry with
  | .map fields => do
    let sourceId := (yamlGet fields "source_id").getD .null
    let keyId := (yamlGet fields "key_id").getD .null
    let sigScheme ← parseSigScheme P (yamlGet fields "sig_scheme")
    let publicKeyPath ← resolveRelativePath P baseDir (yamlGet fields "public_key_path")
    -- `bool(...)`: any truthy value enables the entry
    let enabled := ((yamlGet fields "enabled").getD (.bool false)).truthy
    if !sourceId.truthy || !keyId.truthy then
      .error (.mk' .keyStoreError "Each trust store entry must define source_id and key_id.")
    else do
      let sourceKey ← sourceId.dictKey
      let keyKey ← keyId.dictKey
      pure ((sourceKey, keyKey), ⟨sourceId, keyId, sigScheme, publicKeyPath, enabled⟩)
  | _ => .error (.mk' .keyStoreError "Each trust store entry must be a mapping.")

/-- The assignment `keys[(source_id, key_id)] = TrustedKey(...)`. -/
def TrustStore.put (store : TrustStore) (kv : (DictKey × DictKey) × TrustedKey) : TrustStore :=
  ⟨store.keys.insert kv.1 kv.2⟩

/-- One pass of the loop. -/
def TrustStore.addEntry (P : Platform) (baseDir : Path) (store : TrustStore) (entry : Yaml) :
    Except PyError TrustStore :=
  store.put <$> TrustStore.parseEntry P baseDir entry

/-- `from_file` from the parsed document on. -/
def TrustStore.fromPayload (P : Platform) (baseDir : Path) (document : Yaml) :
    Except PyError TrustStore :=
  let payload := if document.truthy then document else .map []
  match payload with
  | .map entries =>
    match (yamlGet entries "trusted_keys").getD (.list []) with
    | .list trustedKeys => trustedKeys.foldlM (TrustStore.addEntry P baseDir) ⟨∅⟩
    | _ => .error (.mk' .keyStoreError "trust_store.yaml must contain a \"trusted_keys\" list.")
  | _ => .error (.mk' .attributeError "object has no attribute 'get'")

/-- `TrustStore.from_file`. -/
def TrustStore.fromFile (P : Platform) (trustStorePath : Path) : Except PyError TrustStore := do
  let storePath ← P.expanduser trustStorePath
  match P.fileBytes storePath with
  | none => .error ⟨.keyStoreError, PyStr.ofString "Trust store does not exist: " ++ storePath⟩
  | some _ => do
    let document ← P.safeLoad storePath
    TrustStore.fromPayload P (P.parent storePath) document

/-- `TrustStore.get_public_key`: `none` unless the entry of the pair is enabled and of the queried
    scheme; the key file is read on every call. -/
def TrustStore.getPublicKey (P : Platform) (self : TrustStore) (sourceId keyId : PyStr)
    (sigScheme : ℤ) : Except PyError (Option Bytes) :=
  match self.keys.lookup (.str sourceId, .str keyId) with
  | none => .ok none
  | some entry =>
    if !entry.enabled || entry.sigScheme != sigScheme then .ok none
    else do
      let bytes ← loadKeyBytes P entry.publicKeyPath
      pure (some bytes)

/-- The entry of a pair that can authenticate anything: enabled and of scheme ML-DSA-44. -/
def TrustStore.Enables (self : TrustStore) (p : Pair) (entry : TrustedKey) : Prop :=
  self.keys.lookup (.str p.1, .str p.2) = some entry ∧ entry.enabled = true ∧
    entry.sigScheme = sigSchemeMlDsa44

theorem TrustStore.getPublicKey_eq_some {P : Platform} {self : TrustStore} {p : Pair}
    {bytes : Bytes} :
    self.getPublicKey P p.1 p.2 sigSchemeMlDsa44 = .ok (some bytes) ↔
      ∃ entry, self.Enables p entry ∧ loadKeyBytes P entry.publicKeyPath = .ok bytes := by
  unfold TrustStore.getPublicKey TrustStore.Enables
  cases hentry : self.keys.lookup (.str p.1, .str p.2) with
  | none => simp
  | some entry =>
      by_cases husable : entry.enabled = true ∧ entry.sigScheme = sigSchemeMlDsa44
      · simp [husable.1, husable.2, Fallible.map_eq_ok]
      · have hrefuse : (!entry.enabled || entry.sigScheme != sigSchemeMlDsa44) = true := by
          by_cases henabled : entry.enabled = true
          · simpa [henabled] using husable
          · simp [henabled]
        simp only [hrefuse, if_true, Except.ok.injEq, reduceCtorEq, Option.some.injEq, false_iff]
        rintro ⟨entry', ⟨rfl, henabled, hscheme⟩, -⟩
        exact husable ⟨henabled, hscheme⟩

/-! ## The pairs of a trust store -/

/-- The pair a dictionary key can be queried as. -/
def toPair : DictKey × DictKey → Option Pair
  | (.str sourceId, .str keyId) => some (sourceId, keyId)
  | _ => none

theorem toPair_eq_some {key : DictKey × DictKey} {p : Pair} :
    toPair key = some p ↔ key = (.str p.1, .str p.2) := by
  obtain ⟨sourceKey, keyKey⟩ := key
  cases sourceKey <;> cases keyKey <;> simp [toPair, Prod.ext_iff]

/-- All pairs with an enabled entry of scheme ML-DSA-44. -/
def TrustStore.enabledPairs (self : TrustStore) : Finset Pair :=
  (self.keys.keys.filter fun key =>
      ∃ entry ∈ self.keys.lookup key, entry.enabled = true ∧ entry.sigScheme = sigSchemeMlDsa44).filterMap
    toPair fun _ _ _ h₁ h₂ =>
      (toPair_eq_some.1 h₁).trans (toPair_eq_some.1 h₂).symm

theorem TrustStore.mem_enabledPairs {self : TrustStore} {p : Pair} :
    p ∈ self.enabledPairs ↔ ∃ entry, self.Enables p entry := by
  simp only [TrustStore.enabledPairs, Finset.mem_filterMap, Finset.mem_filter, toPair_eq_some]
  refine ⟨?_, ?_⟩
  · rintro ⟨key, ⟨-, entry, hentry, husable⟩, rfl⟩
    exact ⟨entry, hentry, husable⟩
  · rintro ⟨entry, hentry, husable⟩
    refine ⟨_, ⟨?_, entry, hentry, husable⟩, rfl⟩
    exact Finmap.mem_keys.2 (Finmap.mem_of_lookup_eq_some hentry)

/-! ## A demo platform -/

/-- SHA-256 of the canonical bytes of `SignedTwist.demo`. -/
def demoDigest : Bytes :=
  [200, 157, 172, 231, 39, 86, 233, 39, 95, 208, 0, 54, 195, 110, 34, 78, 50, 29, 244, 10, 12, 244,
    8, 84, 18, 45, 221, 127, 164, 167, 88, 45]

/-- SHA-256 of the canonical bytes of the first message after a restart of the demo signer. -/
def demoRestartDigest : Bytes :=
  [70, 76, 179, 118, 236, 252, 0, 242, 135, 4, 13, 48, 17, 88, 52, 2, 177, 208, 68, 213, 108, 65,
    217, 2, 138, 20, 75, 65, 127, 200, 218, 140]

/-- A trust store with one enabled key; SHA-256 on the two demo messages, which differ in a byte of the
    stamp; and a signature that is the private key next to what it signs. -/
def Platform.demo : Platform where
  sha256 bytes := if bytes[76]? = some 242 then demoDigest else demoRestartDigest
  sigMechanisms := some [PyStr.ofString "ML-DSA-44"]
  sign privateKey message _ := .ok (privateKey ++ message)
  verify message signature publicKey := .ok (signature == publicKey.map (· - 1) ++ message)
  fileBytes path :=
    if path = PyStr.ofString "/keys/trust_store.yaml" then some "trusted_keys:".toUTF8.toList
    else if path = PyStr.ofString "/keys/private.key" then some [1]
    else if path = PyStr.ofString "/keys/public.key" then some [2]
    else none
  expanduser path := .ok path
  isAbsolute path := path.take 1 == PyStr.ofString "/"
  parent path := (path.reverse.dropWhile fun c => [c] != PyStr.ofString "/").tail.reverse
  resolveUnder base path := .ok (base ++ PyStr.ofString "/" ++ path)
  safeLoad _ := .ok (.map [(.str (PyStr.ofString "trusted_keys"), .list [.map [
    (.str (PyStr.ofString "source_id"), .str (PyStr.ofString "demo_source")),
    (.str (PyStr.ofString "key_id"), .str (PyStr.ofString "demo_mldsa44_key_1")),
    (.str (PyStr.ofString "sig_scheme"), .str (PyStr.ofString "ML_DSA_44")),
    (.str (PyStr.ofString "public_key_path"), .str (PyStr.ofString "public.key")),
    (.str (PyStr.ofString "enabled"), .bool true)]])])
  reprDepth := 900
  isPrintable c := c.val < 127
  reprFloat _ := PyStr.ofString "1.5"
  reprOther _ _ := .ok (PyStr.ofString "datetime.date(2026, 1, 1)")

/-- The entry of the demo trust store. -/
def TrustedKey.demo : TrustedKey where
  sourceId := .str (PyStr.ofString "demo_source")
  keyId := .str (PyStr.ofString "demo_mldsa44_key_1")
  sigScheme := sigSchemeMlDsa44
  publicKeyPath := PyStr.ofString "/keys/public.key"
  enabled := true

def TrustStore.demo : TrustStore :=
  ⟨Finmap.singleton (.str (PyStr.ofString "demo_source"), .str (PyStr.ofString "demo_mldsa44_key_1"))
    .demo⟩

example :
    TrustStore.fromFile .demo (PyStr.ofString "/keys/trust_store.yaml") = .ok .demo := by rfl

end PqcSecureComm
