import PqcSecureComm.Lib.LastWins
import PqcSecureComm.KeyStore

set_option autoImplicit false

/-! # Loading the trust store

`TrustStore.from_file` writes one dictionary entry for every entry of the document, so that of several
entries for a pair the last one stands: it alone decides what `get_public_key` answers
(`trust_decided_by_last_entry`). The entries are untyped YAML values. What makes one usable is the
truthiness of its `enabled` field and an `isinstance` check that takes a `bool` for an `int`, so a store
can trust a key its document does not enable (`failsClosed_iff`). -/

namespace PqcSecureComm

open LastWins

/-! ## Documents -/

/-- The file at `path` is there, lies in `baseDir` and parses to `document`. -/
def Platform.Parses (P : Platform) (path baseDir : Path) (document : Yaml) : Prop :=
  ∃ storePath, P.expanduser path = .ok storePath ∧ (P.fileBytes storePath).isSome ∧
    P.safeLoad storePath = .ok document ∧ P.parent storePath = baseDir

theorem TrustStore.fromFile_eq {P : Platform} {path baseDir : Path} {document : Yaml}
    (h : P.Parses path baseDir document) :
    TrustStore.fromFile P path = TrustStore.fromPayload P baseDir document := by
  obtain ⟨storePath, hpath, hfile, hdocument, rfl⟩ := h
  obtain ⟨bytes, hbytes⟩ := Option.isSome_iff_exists.1 hfile
  unfold TrustStore.fromFile
  rw [hpath, Fallible.ok_bind, hbytes]
  simp only [hdocument, Fallible.ok_bind]

/-- `yaml.safe_load(handle) or {}`. -/
def Yaml.payload (document : Yaml) : Yaml := if document.truthy then document else .map []

/-- The list of entries `from_file` walks, if the document has one; a missing list is empty. -/
def Yaml.trustedKeys? (document : Yaml) : Option (List Yaml) :=
  match document.payload with
  | .map fields =>
    match (yamlGet fields "trusted_keys").getD (.list []) with
    | .list trustedKeys => some trustedKeys
    | _ => none
  | _ => none

/-- `entry.get(name)` of an entry that is a mapping. -/
def Yaml.field (entry : Yaml) (name : String) : Option Yaml :=
  match entry with
  | .map fields => yamlGet fields name
  | _ => none

/-- The entry names the pair. -/
def Yaml.isFor (p : Pair) (entry : Yaml) : Bool :=
  match entry.field "source_id", entry.field "key_id" with
  | some (.str sourceId), some (.str keyId) => sourceId == p.1 && keyId == p.2
  | _, _ => false

/-- The last entry of the document for the pair. -/
def Yaml.lastFor? (document : Yaml) (p : Pair) : Option Yaml :=
  document.trustedKeys?.bind fun trustedKeys => (trustedKeys.filter (Yaml.isFor p)).getLast?

theorem Yaml.isFor_iff {p : Pair} {entry : Yaml} :
    entry.isFor p = true ↔
      entry.field "source_id" = some (.str p.1) ∧ entry.field "key_id" = some (.str p.2) := by
  unfold Yaml.isFor
  split
  · next sourceId keyId hsource hkey =>
      rw [hsource, hkey, Bool.and_eq_true, beq_iff_eq, beq_iff_eq]
      simp
  · next hother =>
      refine iff_of_false (by simp) ?_
      rintro ⟨hsource, hkey⟩
      exact hother _ _ hsource hkey

/-! ## The loop -/

theorem TrustStore.foldl_put (store : TrustStore) (kvs : List ((DictKey × DictKey) × TrustedKey)) :
    kvs.foldl TrustStore.put store = ⟨kvs.foldl (fun m kv => m.insert kv.1 kv.2) store.keys⟩ := by
  induction kvs generalizing store with
  | nil => rfl
  | cons kv kvs ih => exact ih (store.put kv)

theorem TrustStore.fromPayload_of_trustedKeys {P : Platform} {baseDir : Path} {document : Yaml}
    {trustedKeys : List Yaml} (h : document.trustedKeys? = some trustedKeys) :
    TrustStore.fromPayload P baseDir document =
      trustedKeys.foldlM (fun store entry => store.put <$> TrustStore.parseEntry P baseDir entry)
        ⟨∅⟩ := by
  unfold Yaml.trustedKeys? Yaml.payload at h
  unfold TrustStore.fromPayload
  generalize (if document.truthy then document else Yaml.map []) = payload at h ⊢
  cases payload with
  | map fields =>
      simp only at h ⊢
      generalize (yamlGet fields "trusted_keys").getD (.list []) = value at h ⊢
      cases value with
      | list trustedKeys' =>
          obtain rfl := Option.some.inj h
          rfl
      | _ => exact absurd h (by simp)
  | _ => exact absurd h (by simp)

/-- Without such a list the document is refused; one that is not even a mapping has no `get`. -/
theorem TrustStore.fromPayload_of_no_trustedKeys (P : Platform) (baseDir : Path) {document : Yaml}
    (h : document.trustedKeys? = none) :
    ∃ exc, TrustStore.fromPayload P baseDir document = .error exc ∧
      (exc.exc = .keyStoreError ↔ ∃ fields, document.payload = .map fields) := by
  unfold Yaml.trustedKeys? at h
  unfold TrustStore.fromPayload
  change ∃ exc, (match document.payload with
    | .map entries =>
      match (yamlGet entries "trusted_keys").getD (.list []) with
      | .list trustedKeys => trustedKeys.foldlM (TrustStore.addEntry P baseDir) ⟨∅⟩
      | _ => .error (.mk' .keyStoreError "trust_store.yaml must contain a \"trusted_keys\" list.")
    | _ => .error (.mk' .attributeError "object has no attribute 'get'")) = .error exc ∧ _
  generalize document.payload = payload at h ⊢
  cases payload with
  | map fields =>
      simp only at h ⊢
      generalize (yamlGet fields "trusted_keys").getD (.list []) = value at h ⊢
      cases value with
      | list trustedKeys => exact absurd h (by simp)
      | _ => exact ⟨_, rfl, iff_of_true rfl ⟨fields, rfl⟩⟩
  | _ => exact ⟨_, rfl, iff_of_false (by simp [PyError.mk']) (by simp)⟩

/-- **What loading does.** It succeeds iff the document has a list of entries and every entry parses, and
    the store is what the entries, written in order, leave. -/
theorem TrustStore.fromPayload_eq_ok {P : Platform} {baseDir : Path} {document : Yaml}
    {store : TrustStore} :
    TrustStore.fromPayload P baseDir document = .ok store ↔
      ∃ trustedKeys kvs, document.trustedKeys? = some trustedKeys ∧
        List.Forall₂ (fun entry kv => TrustStore.parseEntry P baseDir entry = .ok kv) trustedKeys kvs ∧
        store = ⟨overwrite ∅ kvs⟩ := by
  cases hkeys : document.trustedKeys? with
  | some trustedKeys =>
      rw [TrustStore.fromPayload_of_trustedKeys hkeys, Fallible.foldlM_eq_ok]
      refine ⟨?_, ?_⟩
      · rintro ⟨kvs, hkvs, rfl⟩
        exact ⟨trustedKeys, kvs, rfl, hkvs, TrustStore.foldl_put ⟨∅⟩ kvs⟩
      · rintro ⟨trustedKeys', kvs, heq, hkvs, rfl⟩
        obtain rfl := Option.some.inj heq
        exact ⟨kvs, hkvs, TrustStore.foldl_put ⟨∅⟩ kvs⟩
  | none =>
      obtain ⟨exc, hraise, -⟩ := TrustStore.fromPayload_of_no_trustedKeys P baseDir hkeys
      rw [hraise]
      simp

/-! ## One entry -/

theorem Yaml.dictKey_eq_str {value : Yaml} {s : PyStr} :
    value.dictKey = .ok (.str s) ↔ value = .str s := by
  cases value with
  | str s' => simp [Yaml.dictKey]
  | other truthy hashable tag => cases hashable <;> simp [Yaml.dictKey]
  | float x => cases x <;> simp [Yaml.dictKey]
  | _ => simp [Yaml.dictKey]

/-- What an entry that parses has in its fields. -/
structure Yaml.ParsesTo (P : Platform) (baseDir : Path) (entry : Yaml)
    (kv : (DictKey × DictKey) × TrustedKey) : Prop where
  mapping : ∃ fields, entry = .map fields
  sigScheme : parseSigScheme P (entry.field "sig_scheme") = .ok kv.2.sigScheme
  publicKeyPath : resolveRelativePath P baseDir (entry.field "public_key_path") =
    .ok kv.2.publicKeyPath
  enabled : ((entry.field "enabled").getD (.bool false)).truthy = kv.2.enabled
  sourceId : (entry.field "source_id").getD .null = kv.2.sourceId
  keyId : (entry.field "key_id").getD .null = kv.2.keyId
  sourceId_truthy : kv.2.sourceId.truthy = true
  keyId_truthy : kv.2.keyId.truthy = true
  sourceKey : kv.2.sourceId.dictKey = .ok kv.1.1
  keyKey : kv.2.keyId.dictKey = .ok kv.1.2

theorem TrustStore.parseEntry_eq_ok {P : Platform} {baseDir : Path} {entry : Yaml}
    {kv : (DictKey × DictKey) × TrustedKey} :
    TrustStore.parseEntry P baseDir entry = .ok kv ↔ entry.ParsesTo P baseDir kv := by
  cases entry with
  | map fields =>
      unfold TrustStore.parseEntry
      simp only [Fallible.bind_eq_ok]
      refine ⟨?_, ?_⟩
      · rintro ⟨sigScheme, hscheme, publicKeyPath, hpath, h⟩
        split at h
        · exact absurd h (by simp)
        · next htruthy =>
            simp only [Fallible.bind_eq_ok, Fallible.pure_eq_ok] at h
            obtain ⟨sourceKey, hsource, keyKey, hkey, rfl⟩ := h
            rw [Bool.or_eq_true, Bool.not_eq_true', Bool.not_eq_true', not_or,
              Bool.not_eq_false, Bool.not_eq_false] at htruthy
            exact {
              mapping := ⟨fields, rfl⟩
              sigScheme := hscheme
              publicKeyPath := hpath
              enabled := rfl
              sourceId := rfl
              keyId := rfl
              sourceId_truthy := htruthy.1
              keyId_truthy := htruthy.2
              sourceKey := hsource
              keyKey := hkey }
      · intro h
        obtain ⟨⟨sourceKey, keyKey⟩, ⟨sourceId, keyId, sigScheme, publicKeyPath, enabled⟩⟩ := kv
        obtain ⟨-, hscheme, hpath, rfl, rfl, rfl, hsourceTruthy, hkeyTruthy, hsource, hkey⟩ := h
        refine ⟨sigScheme, hscheme, publicKeyPath, hpath, ?_⟩
        have htruthy : ¬ (!((yamlGet fields "source_id").getD .null).truthy ||
            !((yamlGet fields "key_id").getD .null).truthy) = true := by
          change Yaml.truthy ((yamlGet fields "source_id").getD .null) = true at hsourceTruthy
          change Yaml.truthy ((yamlGet fields "key_id").getD .null) = true at hkeyTruthy
          simp [hsourceTruthy, hkeyTruthy]
        rw [if_neg htruthy]
        simp only [Fallible.bind_eq_ok, Fallible.pure_eq_ok]
        exact ⟨sourceKey, hsource, keyKey, hkey, rfl⟩
  | _ =>
      refine iff_of_false (by simp [TrustStore.parseEntry]) ?_
      rintro ⟨⟨fields, hfields⟩, -⟩
      exact absurd hfields (by simp)

/-- An entry names a pair iff its dictionary key is the one the pair is looked up with. -/
theorem Yaml.ParsesTo.isFor_iff {P : Platform} {baseDir : Path} {entry : Yaml}
    {kv : (DictKey × DictKey) × TrustedKey} (h : entry.ParsesTo P baseDir kv) (p : Pair) :
    entry.isFor p = true ↔ kv.1 = (.str p.1, .str p.2) := by
  rw [Yaml.isFor_iff]
  have hfield : ∀ {field : Option Yaml} {value : Yaml} {key : DictKey} (s : PyStr),
      field.getD .null = value → value.dictKey = .ok key →
      (field = some (.str s) ↔ key = .str s) := by
    intro field value key s hvalue hdict
    refine ⟨?_, ?_⟩
    · rintro rfl
      obtain rfl : Yaml.str s = value := hvalue
      exact (Except.ok.inj hdict).symm
    · rintro rfl
      obtain rfl := Yaml.dictKey_eq_str.1 hdict
      cases field with
      | none => exact absurd hvalue (by simp)
      | some value' =>
          rw [Option.getD_some] at hvalue
          rw [hvalue]
  rw [hfield p.1 h.sourceId h.sourceKey, hfield p.2 h.keyId h.keyKey, Prod.ext_iff]

/-- **The last entry of a pair decides.** The dictionary entry a pair is looked up with is that of the
    last entry of the document for the pair, if there is one. -/
theorem TrustStore.lookup_fromPayload {P : Platform} {baseDir : Path} {document : Yaml}
    {store : TrustStore} (h : TrustStore.fromPayload P baseDir document = .ok store) (p : Pair) :
    (document.lastFor? p = none ∧ store.keys.lookup (.str p.1, .str p.2) = none) ∨
      ∃ entry kv, document.lastFor? p = some entry ∧ entry.ParsesTo P baseDir kv ∧
        store.keys.lookup (.str p.1, .str p.2) = some kv.2 := by
  obtain ⟨trustedKeys, kvs, hkeys, hparse, rfl⟩ := TrustStore.fromPayload_eq_ok.1 h
  have hrelated : List.Forall₂ (fun entry kv => entry.ParsesTo P baseDir kv) trustedKeys kvs :=
    hparse.imp fun entry kv => TrustStore.parseEntry_eq_ok.1
  have hfilter : List.Forall₂ (fun entry kv => entry.ParsesTo P baseDir kv)
      (trustedKeys.filter (Yaml.isFor p))
      (kvs.filter fun kv => kv.1 = (DictKey.str p.1, DictKey.str p.2)) := by
    refine List.rel_filter ?_ hrelated
    intro entry kv hkv
    simpa using hkv.isFor_iff p
  have hlast : document.lastFor? p = (trustedKeys.filter (Yaml.isFor p)).getLast? := by
    unfold Yaml.lastFor?
    rw [hkeys]
    rfl
  rw [hlast, lookup_overwrite]
  rcases getLast?_of_forall₂ hfilter with ⟨hnone, hnone'⟩ | ⟨entry, kv, hentry, hkv, hparses⟩
  · rw [hnone, hnone']
    exact Or.inl ⟨rfl, rfl⟩
  · rw [hentry, hkv]
    exact Or.inr ⟨entry, kv, rfl, hparses, rfl⟩

/-! ## Well-formed entries -/

/-- An entry as an operator is meant to write it. Every scheme the trust store can name is ML-DSA-44. -/
structure WellFormedEntry (P : Platform) (baseDir : Path) where
  fields : List (Yaml × Yaml)
  sourceId : PyStr
  keyId : PyStr
  sigScheme : Yaml
  rawPath : PyStr
  publicKeyPath : Path
  enabled : Bool
  hasSourceId : yamlGet fields "source_id" = some (.str sourceId)
  hasKeyId : yamlGet fields "key_id" = some (.str keyId)
  hasSigScheme : yamlGet fields "sig_scheme" = some sigScheme
  hasPath : yamlGet fields "public_key_path" = some (.str rawPath)
  hasEnabled : yamlGet fields "enabled" = some (.bool enabled)
  sourceId_ne : sourceId ≠ []
  keyId_ne : keyId ≠ []
  supported : sigScheme = .int sigSchemeMlDsa44 ∨ sigScheme = .str (PyStr.ofString "ML_DSA_44") ∨
    sigScheme = .str (PyStr.ofString "ML-DSA-44")
  resolves : resolveRelativePath P baseDir (some (.str rawPath)) = .ok publicKeyPath

namespace WellFormedEntry

variable {P : Platform} {baseDir : Path}

/-- The entry as a value of the document. -/
def toYaml (entry : WellFormedEntry P baseDir) : Yaml := .map entry.fields

def pair (entry : WellFormedEntry P baseDir) : Pair := (entry.sourceId, entry.keyId)

/-- What the loop puts into the dictionary for the entry. -/
def toKey (entry : WellFormedEntry P baseDir) : (DictKey × DictKey) × TrustedKey :=
  ((.str entry.sourceId, .str entry.keyId), {
    sourceId := .str entry.sourceId
    keyId := .str entry.keyId
    sigScheme := sigSchemeMlDsa44
    publicKeyPath := entry.publicKeyPath
    enabled := entry.enabled })

theorem parsesTo (entry : WellFormedEntry P baseDir) : entry.toYaml.ParsesTo P baseDir entry.toKey := by
  have hscheme : parseSigScheme P (some entry.sigScheme) = .ok sigSchemeMlDsa44 := by
    rcases entry.supported with hid | hname | hname
    · rw [hid]
      rfl
    · rw [hname]
      rfl
    · rw [hname]
      rfl
  have htruthy : ∀ {s : PyStr}, s ≠ [] → (Yaml.str s).truthy = true := by
    intro s hs
    simpa [Yaml.truthy] using hs
  exact {
    mapping := ⟨entry.fields, rfl⟩
    sigScheme := (congrArg (parseSigScheme P) entry.hasSigScheme).trans hscheme
    publicKeyPath := (congrArg (resolveRelativePath P baseDir) entry.hasPath).trans entry.resolves
    enabled := by
      change Yaml.truthy ((yamlGet entry.fields "enabled").getD (.bool false)) = entry.enabled
      rw [entry.hasEnabled]
      rfl
    sourceId := congrArg (fun field : Option Yaml => field.getD .null) entry.hasSourceId
    keyId := congrArg (fun field : Option Yaml => field.getD .null) entry.hasKeyId
    sourceId_truthy := htruthy entry.sourceId_ne
    keyId_truthy := htruthy entry.keyId_ne
    sourceKey := rfl
    keyKey := rfl }

/-- The answer the last entry of the pair gives to a query. -/
def answer (entries : List (WellFormedEntry P baseDir)) (p : Pair) (scheme : ℤ) :
    Except PyError (Option Bytes) :=
  match (entries.filter fun entry => entry.pair = p).getLast? with
  | none => .ok none
  | some entry =>
    if entry.enabled = true ∧ scheme = sigSchemeMlDsa44 then some <$> loadKeyBytes P entry.publicKeyPath
    else .ok none

end WellFormedEntry

theorem TrustStore.getPublicKey_of_lookup {P : Platform} {self : TrustStore} {p : Pair}
    {entry : TrustedKey} (h : self.keys.lookup (.str p.1, .str p.2) = some entry) (scheme : ℤ) :
    self.getPublicKey P p.1 p.2 scheme =
      if entry.enabled = true ∧ scheme = entry.sigScheme then some <$> loadKeyBytes P entry.publicKeyPath
      else .ok none := by
  unfold TrustStore.getPublicKey
  rw [h]
  by_cases husable : entry.enabled = true ∧ scheme = entry.sigScheme
  · obtain ⟨henabled, rfl⟩ := husable
    simp only [henabled, Bool.not_true, bne_self_eq_false, Bool.or_self, Bool.false_eq_true, if_false,
      and_self, if_true]
    cases loadKeyBytes P entry.publicKeyPath <;> rfl
  · rw [if_neg husable]
    have hrefuse : (!entry.enabled || entry.sigScheme != scheme) = true := by
      by_cases henabled : entry.enabled = true
      · have hscheme : entry.sigScheme ≠ scheme := fun heq => husable ⟨henabled, heq.symm⟩
        simp [henabled, hscheme]
      · simp [henabled]
    simp only [hrefuse, if_true]

/-- A document of well-formed entries loads, and every query is answered by the last entry of its pair. -/
theorem WellFormedEntry.fromPayload {P : Platform} {baseDir : Path} {document : Yaml}
    (entries : List (WellFormedEntry P baseDir))
    (h : document.trustedKeys? = some (entries.map WellFormedEntry.toYaml)) :
    ∃ store, TrustStore.fromPayload P baseDir document = .ok store ∧
      ∀ p scheme, store.getPublicKey P p.1 p.2 scheme = WellFormedEntry.answer entries p scheme := by
  refine ⟨⟨overwrite ∅ (entries.map WellFormedEntry.toKey)⟩, ?_, ?_⟩
  · refine TrustStore.fromPayload_eq_ok.2 ⟨_, entries.map WellFormedEntry.toKey, h, ?_, rfl⟩
    rw [List.forall₂_map_left_iff, List.forall₂_map_right_iff, List.forall₂_same]
    intro entry _
    exact TrustStore.parseEntry_eq_ok.2 entry.parsesTo
  · intro p scheme
    have hpair : ∀ entry : WellFormedEntry P baseDir,
        (entry.toKey.1 = (DictKey.str p.1, DictKey.str p.2) ↔ entry.pair = p) := by
      intro entry
      simp [WellFormedEntry.toKey, WellFormedEntry.pair, Prod.ext_iff]
    have hlookup : (overwrite ∅ (entries.map WellFormedEntry.toKey)).lookup
          (DictKey.str p.1, DictKey.str p.2) =
        ((entries.filter fun entry => entry.pair = p).getLast?).map fun entry => entry.toKey.2 := by
      rw [lookup_overwrite, List.filter_map, List.getLast?_map, Option.map_map]
      simp only [Function.comp_def, hpair]
    unfold WellFormedEntry.answer
    cases hlast : (entries.filter fun entry => entry.pair = p).getLast? with
    | none =>
        rw [hlast] at hlookup
        unfold TrustStore.getPublicKey
        rw [hlookup]
        rfl
    | some entry =>
        rw [hlast] at hlookup
        exact TrustStore.getPublicKey_of_lookup hlookup scheme

/-- **Trust is decided by the last entry of the pair.** A document of well-formed entries loads, and every
    query is answered by the last entry of its pair: its key file is read if it is enabled and of the
    queried scheme. Hence a disabled entry at the end revokes its pair, and documents that have the same
    entries for a pair answer its queries alike, whatever else was inserted, deleted or moved. -/
theorem trust_decided_by_last_entry {P : Platform} {path baseDir : Path} {document : Yaml}
    (entries : List (WellFormedEntry P baseDir)) (hparses : P.Parses path baseDir document)
    (hentries : document.trustedKeys? = some (entries.map WellFormedEntry.toYaml)) :
    ∃ store, TrustStore.fromFile P path = .ok store ∧
      (∀ p scheme, store.getPublicKey P p.1 p.2 scheme = WellFormedEntry.answer entries p scheme) ∧
      ∀ (path' : Path) (document' : Yaml) (entries' : List (WellFormedEntry P baseDir)),
        P.Parses path' baseDir document' →
        document'.trustedKeys? = some (entries'.map WellFormedEntry.toYaml) →
        ∃ store', TrustStore.fromFile P path' = .ok store' ∧
          (∀ entry, entries' = entries ++ [entry] → entry.enabled = false →
            ∀ scheme, store'.getPublicKey P entry.sourceId entry.keyId scheme = .ok none) ∧
          ∀ p : Pair, (entries.filter fun entry => entry.pair = p) =
              (entries'.filter fun entry => entry.pair = p) →
            ∀ scheme, store'.getPublicKey P p.1 p.2 scheme = store.getPublicKey P p.1 p.2 scheme := by
  obtain ⟨store, hload, hanswer⟩ := WellFormedEntry.fromPayload entries hentries
  refine ⟨store, (TrustStore.fromFile_eq hparses).trans hload, hanswer, ?_⟩
  intro path' document' entries' hparses' hentries'
  obtain ⟨store', hload', hanswer'⟩ := WellFormedEntry.fromPayload entries' hentries'
  refine ⟨store', (TrustStore.fromFile_eq hparses').trans hload', ?_, ?_⟩
  · rintro entry rfl hdisabled scheme
    have hquery : store'.getPublicKey P entry.sourceId entry.keyId scheme =
        WellFormedEntry.answer (entries ++ [entry]) entry.pair scheme := hanswer' entry.pair scheme
    unfold WellFormedEntry.answer at hquery
    rw [List.filter_append, List.filter_cons_of_pos (by simp), List.filter_nil, List.getLast?_concat]
      at hquery
    simpa [hdisabled] using hquery
  · intro p hsame scheme
    rw [hanswer' p scheme, hanswer p scheme]
    unfold WellFormedEntry.answer
    rw [hsame]

/-- The fields of an entry of the demo trust store, with a name for the key and a value for `enabled`. -/
def Yaml.demoFields (keyId : PyStr) (enabled : Yaml) : List (Yaml × Yaml) := [
  (.str (PyStr.ofString "source_id"), .str (PyStr.ofString "demo_source")),
  (.str (PyStr.ofString "key_id"), .str keyId),
  (.str (PyStr.ofString "sig_scheme"), .str (PyStr.ofString "ML_DSA_44")),
  (.str (PyStr.ofString "public_key_path"), .str (PyStr.ofString "public.key")),
  (.str (PyStr.ofString "enabled"), enabled)]

/-- A document with a list of entries. -/
def Yaml.trusting (entries : List Yaml) : Yaml :=
  .map [(.str (PyStr.ofString "trusted_keys"), .list entries)]

/-- The document of the demo trust store, with a value for `enabled`. -/
def Yaml.demo (enabled : Yaml) : Yaml :=
  .trusting [.map (Yaml.demoFields (PyStr.ofString "demo_mldsa44_key_1") enabled)]

/-- The demo platform with another document in its trust store. -/
def Platform.demoWith (document : Yaml) : Platform := { Platform.demo with safeLoad _ := .ok document }

theorem Platform.demoWith_parses (document : Yaml) :
    (Platform.demoWith document).Parses (PyStr.ofString "/keys/trust_store.yaml")
      (PyStr.ofString "/keys") document :=
  ⟨_, rfl, rfl, rfl, rfl⟩

/-- The demo platform with another document in its trust store, and a revised one next to it. -/
def Platform.demoRevised (document revised : Yaml) : Platform :=
  { Platform.demo with
    fileBytes path :=
      if path = PyStr.ofString "/keys/revised.yaml" then some [] else Platform.demo.fileBytes path
    safeLoad path := .ok (if path = PyStr.ofString "/keys/revised.yaml" then revised else document) }

theorem Platform.demoRevised_parses (document revised : Yaml) :
    (Platform.demoRevised document revised).Parses (PyStr.ofString "/keys/trust_store.yaml")
      (PyStr.ofString "/keys") document :=
  ⟨_, rfl, rfl, rfl, rfl⟩

theorem Platform.demoRevised_parses_revised (document revised : Yaml) :
    (Platform.demoRevised document revised).Parses (PyStr.ofString "/keys/revised.yaml")
      (PyStr.ofString "/keys") revised :=
  ⟨_, rfl, rfl, rfl, rfl⟩

def Pair.demo : Pair := (PyStr.ofString "demo_source", PyStr.ofString "demo_mldsa44_key_1")

/-- A second key of the demo source. -/
def Pair.demoOther : Pair := (PyStr.ofString "demo_source", PyStr.ofString "demo_mldsa44_key_2")

/-- An entry of the demo trust store, switched on or off. -/
def WellFormedEntry.demo (P : Platform)
    (hresolves : resolveRelativePath P (PyStr.ofString "/keys")
      (some (.str (PyStr.ofString "public.key"))) = .ok (PyStr.ofString "/keys/public.key"))
    (keyId : PyStr) (hkeyId : keyId ≠ []) (enabled : Bool) :
    WellFormedEntry P (PyStr.ofString "/keys") where
  fields := Yaml.demoFields keyId (.bool enabled)
  sourceId := PyStr.ofString "demo_source"
  keyId := keyId
  sigScheme := .str (PyStr.ofString "ML_DSA_44")
  rawPath := PyStr.ofString "public.key"
  publicKeyPath := PyStr.ofString "/keys/public.key"
  enabled := enabled
  hasSourceId := rfl
  hasKeyId := rfl
  hasSigScheme := rfl
  hasPath := rfl
  hasEnabled := rfl
  sourceId_ne := by decide
  keyId_ne := hkeyId
  supported := Or.inr (Or.inl rfl)
  resolves := hresolves

/-- A pair with a second, disabled entry after the entry of another pair: its key was trusted before and
    no longer is, and the other one still is. -/
theorem trust_decided_by_last_entry_demo :
    let trusted := [Yaml.map (Yaml.demoFields Pair.demo.2 (.bool true)),
      Yaml.map (Yaml.demoFields Pair.demoOther.2 (.bool true))]
    let revoked := [Yaml.map (Yaml.demoFields Pair.demo.2 (.bool false))]
    let P := Platform.demoRevised (.trusting trusted) (.trusting (trusted ++ revoked))
    ∃ store store', TrustStore.fromFile P (PyStr.ofString "/keys/trust_store.yaml") = .ok store ∧
      TrustStore.fromFile P (PyStr.ofString "/keys/revised.yaml") = .ok store' ∧
      store.getPublicKey P Pair.demo.1 Pair.demo.2 sigSchemeMlDsa44 = .ok (some [2]) ∧
      store.getPublicKey P Pair.demo.1 Pair.demo.2 2 = .ok none ∧
      (∀ scheme, store'.getPublicKey P Pair.demo.1 Pair.demo.2 scheme = .ok none) ∧
      (∀ scheme, store'.getPublicKey P Pair.demoOther.1 Pair.demoOther.2 scheme =
        store.getPublicKey P Pair.demoOther.1 Pair.demoOther.2 scheme) ∧
      store.getPublicKey P Pair.demoOther.1 Pair.demoOther.2 sigSchemeMlDsa44 = .ok (some [2]) := by
  intro trusted revoked P
  have hkey : Pair.demo.2 ≠ [] := by decide
  have hother : Pair.demoOther.2 ≠ [] := by decide
  let entries := [WellFormedEntry.demo P rfl Pair.demo.2 hkey true,
    WellFormedEntry.demo P rfl Pair.demoOther.2 hother true]
  let last := WellFormedEntry.demo P rfl Pair.demo.2 hkey false
  obtain ⟨store, hload, hanswer, hrevised⟩ := trust_decided_by_last_entry entries
    (Platform.demoRevised_parses (.trusting trusted) (.trusting (trusted ++ revoked))) rfl
  obtain ⟨store', hload', hrevoked, hsame⟩ := hrevised (PyStr.ofString "/keys/revised.yaml")
    (.trusting (trusted ++ revoked)) (entries ++ [last]) (Platform.demoRevised_parses_revised _ _) rfl
  refine ⟨store, store', hload, hload', hanswer Pair.demo sigSchemeMlDsa44, hanswer Pair.demo 2, ?_, ?_,
    hanswer Pair.demoOther sigSchemeMlDsa44⟩
  · exact hrevoked last rfl rfl
  · exact hsame Pair.demoOther rfl

/-! ## Coerced entries -/

theorem Yaml.isFor_of_lastFor? {document entry : Yaml} {p : Pair}
    (h : document.lastFor? p = some entry) : entry.isFor p = true := by
  obtain ⟨trustedKeys, -, hlast⟩ := Option.bind_eq_some_iff.1 h
  exact (List.mem_filter.1 (List.mem_of_getLast? hlast)).2

/-- The queried pair reaches the key file: `get_public_key` does not return `None` before. -/
def TrustStore.ReadsKey (P : Platform) (self : TrustStore) (p : Pair) : Prop :=
  self.getPublicKey P p.1 p.2 sigSchemeMlDsa44 ≠ .ok none

theorem TrustStore.readsKey_of_lookup {P : Platform} {self : TrustStore} {p : Pair} {entry : TrustedKey}
    (h : self.keys.lookup (.str p.1, .str p.2) = some entry) :
    self.ReadsKey P p ↔ entry.enabled = true ∧ entry.sigScheme = sigSchemeMlDsa44 := by
  unfold TrustStore.ReadsKey
  rw [TrustStore.getPublicKey_of_lookup h]
  by_cases husable : entry.enabled = true ∧ sigSchemeMlDsa44 = entry.sigScheme
  · rw [if_pos husable]
    refine iff_of_true ?_ ⟨husable.1, husable.2.symm⟩
    cases loadKeyBytes P entry.publicKeyPath with
    | error e => exact fun hnone => absurd hnone (by simp [Functor.map, Except.map])
    | ok bytes => exact fun hnone => absurd hnone (by simp [Functor.map, Except.map])
  · rw [if_neg husable]
    exact iff_of_false (by simp) fun h => husable ⟨h.1, h.2.symm⟩

theorem lookup_sigSchemeNameToId {s : PyStr} {id : ℤ} :
    sigSchemeNameToId.lookup s = some id ↔
      (s = PyStr.ofString "ML_DSA_44" ∨ s = PyStr.ofString "ML-DSA-44") ∧ id = sigSchemeMlDsa44 := by
  unfold sigSchemeNameToId
  rw [List.lookup_cons]
  by_cases hunderscore : s = PyStr.ofString "ML_DSA_44"
  · simp [hunderscore, eq_comm]
  · rw [beq_false_of_ne hunderscore, List.lookup_cons]
    by_cases hdash : s = PyStr.ofString "ML-DSA-44"
    · simp [hdash, eq_comm]
    · rw [beq_false_of_ne hdash]
      simp [hunderscore, hdash]

/-- The values of `sig_scheme` that are read as ML-DSA-44. `true` passes the `isinstance` check, as the
    number 1. -/
def ReadsMlDsa44 (value : Option Yaml) : Prop :=
  (value = some (.int sigSchemeMlDsa44) ∨ value = some (.str (PyStr.ofString "ML_DSA_44")) ∨
    value = some (.str (PyStr.ofString "ML-DSA-44"))) ∨ value = some (.bool true)

theorem parseSigScheme_eq_mlDsa44 {P : Platform} {value : Option Yaml} :
    parseSigScheme P value = .ok sigSchemeMlDsa44 ↔ ReadsMlDsa44 value := by
  unfold ReadsMlDsa44
  refine ⟨?_, ?_⟩
  · intro h
    unfold parseSigScheme at h
    split at h
    · next n =>
        rw [Except.ok.inj h]
        simp
    · next b =>
        cases b with
        | true => simp
        | false => exact absurd (Except.ok.inj h) (by decide)
    · next s =>
        split at h
        · next id hid =>
            rcases (lookup_sigSchemeNameToId.1 hid).1 with rfl | rfl
            · simp
            · simp
        · exact absurd h (by simp)
    · exact absurd h (by simp)
  · rintro ((rfl | rfl | rfl) | rfl) <;> rfl

/-- The entry enables the key of the pair and says so. -/
structure Yaml.EnablesKey (entry : Yaml) (p : Pair) : Prop where
  sourceId : entry.field "source_id" = some (.str p.1)
  keyId : entry.field "key_id" = some (.str p.2)
  sigScheme : entry.field "sig_scheme" = some (.int sigSchemeMlDsa44) ∨
    entry.field "sig_scheme" = some (.str (PyStr.ofString "ML_DSA_44")) ∨
    entry.field "sig_scheme" = some (.str (PyStr.ofString "ML-DSA-44"))
  enabled : entry.field "enabled" = some (.bool true)

/-- A key file is read for the pair only if the last entry of the document for it enables the key. -/
def TrustStore.FailsClosed (P : Platform) (self : TrustStore) (document : Yaml) (p : Pair) : Prop :=
  self.ReadsKey P p → ∃ entry, document.lastFor? p = some entry ∧ entry.EnablesKey p

/-- The entry is usable by coercion alone: its `enabled` is a truthy value that is not `true`, or its
    `sig_scheme` is the boolean `true`. -/
def Yaml.Coerced (entry : Yaml) : Prop :=
  ((entry.field "enabled").getD (.bool false)).truthy = true ∧
    ReadsMlDsa44 (entry.field "sig_scheme") ∧
    (entry.field "enabled" ≠ some (.bool true) ∨ entry.field "sig_scheme" = some (.bool true))

theorem Yaml.enablesKey_iff {entry : Yaml} {p : Pair} (hfor : entry.isFor p = true)
    (henabled : ((entry.field "enabled").getD (.bool false)).truthy = true)
    (hscheme : ReadsMlDsa44 (entry.field "sig_scheme")) :
    entry.EnablesKey p ↔ ¬ entry.Coerced := by
  obtain ⟨hsource, hkey⟩ := Yaml.isFor_iff.1 hfor
  refine ⟨?_, ?_⟩
  · rintro ⟨-, -, hexplicit, htrue⟩ ⟨-, -, hneither | hbool⟩
    · exact hneither htrue
    · rw [hbool] at hexplicit
      simp at hexplicit
  · intro hcoerced
    have hplain : ¬ (entry.field "enabled" ≠ some (.bool true) ∨
        entry.field "sig_scheme" = some (.bool true)) := fun h => hcoerced ⟨henabled, hscheme, h⟩
    obtain ⟨htrue, hnotBool⟩ := not_or.1 hplain
    exact {
      sourceId := hsource
      keyId := hkey
      sigScheme := hscheme.resolve_right hnotBool
      enabled := not_not.1 htrue }

/-- **When the trust store fails closed.** It reads keys for enabling entries only, exactly where the last
    entry of the pair is not usable by coercion alone. -/
theorem failsClosed_iff {P : Platform} {path baseDir : Path} {document : Yaml} {store : TrustStore}
    (hparses : P.Parses path baseDir document) (hload : TrustStore.fromFile P path = .ok store)
    (p : Pair) :
    store.FailsClosed P document p ↔ ∀ entry, document.lastFor? p = some entry → ¬ entry.Coerced := by
  rw [TrustStore.fromFile_eq hparses] at hload
  rcases TrustStore.lookup_fromPayload hload p with ⟨hlast, hlookup⟩ | ⟨entry, kv, hlast, hkv, hlookup⟩
  · refine iff_of_true ?_ ?_
    · intro hreads
      refine absurd ?_ hreads
      unfold TrustStore.getPublicKey
      rw [hlookup]
    · intro entry hentry
      exact absurd (hlast.symm.trans hentry) (by simp)
  · have hfor := Yaml.isFor_of_lastFor? hlast
    have hreads : store.ReadsKey P p ↔ ((entry.field "enabled").getD (.bool false)).truthy = true ∧
        ReadsMlDsa44 (entry.field "sig_scheme") := by
      rw [TrustStore.readsKey_of_lookup hlookup, hkv.enabled, ← parseSigScheme_eq_mlDsa44,
        hkv.sigScheme, Except.ok.injEq]
    unfold TrustStore.FailsClosed
    rw [hreads, hlast]
    refine ⟨?_, ?_⟩
    · rintro hclosed entry' hentry' hcoerced
      obtain rfl := Option.some.inj hentry'
      obtain ⟨entry'', hentry'', henables⟩ := hclosed ⟨hcoerced.1, hcoerced.2.1⟩
      obtain rfl := Option.some.inj hentry''
      exact (Yaml.enablesKey_iff hfor hcoerced.1 hcoerced.2.1).1 henables hcoerced
    · rintro hplain ⟨henabled, hscheme⟩
      exact ⟨entry, rfl, (Yaml.enablesKey_iff hfor henabled hscheme).2 (hplain entry rfl)⟩

/-- The demo store, whose entry enables its key. -/
theorem failsClosed_iff_demo :
    TrustStore.demo.FailsClosed (.demoWith (.demo (.bool true))) (.demo (.bool true)) Pair.demo := by
  refine (failsClosed_iff (Platform.demoWith_parses (.demo (.bool true))) rfl Pair.demo).2 ?_
  intro entry hentry hcoerced
  have hlast : Yaml.lastFor? (.demo (.bool true)) Pair.demo =
      some (.map (Yaml.demoFields Pair.demo.2 (.bool true))) := rfl
  obtain rfl := Option.some.inj (hlast.symm.trans hentry)
  obtain ⟨-, -, henabled | hscheme⟩ := hcoerced
  · exact henabled rfl
  · have hstr : some (Yaml.str (PyStr.ofString "ML_DSA_44")) = some (.bool true) := hscheme
    exact absurd hstr (by simp)

/-- **It fails open.** `enabled: 'false'` is a non-empty string: the key is read. -/
theorem failsOpen_demo :
    let P := Platform.demoWith (.demo (.str (PyStr.ofString "false")))
    ∃ store, P.Parses (PyStr.ofString "/keys/trust_store.yaml") (PyStr.ofString "/keys")
        (.demo (.str (PyStr.ofString "false"))) ∧
      TrustStore.fromFile P (PyStr.ofString "/keys/trust_store.yaml") = .ok store ∧
      store.getPublicKey P Pair.demo.1 Pair.demo.2 sigSchemeMlDsa44 = .ok (some [2]) ∧
      ¬ store.FailsClosed P (.demo (.str (PyStr.ofString "false"))) Pair.demo := by
  refine ⟨TrustStore.demo, Platform.demoWith_parses _, rfl, rfl, ?_⟩
  intro hclosed
  have hreads : TrustStore.demo.ReadsKey
      (.demoWith (.demo (.str (PyStr.ofString "false")))) Pair.demo := by
    intro hnone
    have hsome : (Except.ok (some [2]) : Except PyError (Option Bytes)) = .ok none := hnone
    exact absurd hsome (by simp)
  obtain ⟨entry, hentry, henables⟩ := hclosed hreads
  have hfalse : entry.field "enabled" = some (.str (PyStr.ofString "false")) := by
    obtain rfl := Option.some.inj hentry
    rfl
  exact absurd (hfalse.symm.trans henables.enabled) (by simp)

end PqcSecureComm
