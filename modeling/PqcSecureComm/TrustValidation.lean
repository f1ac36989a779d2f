import PqcSecureComm.TrustLoading

set_option autoImplicit false

/-! # What loading validates

`KeyStoreError` is raised "when key or trust-store files are invalid". `TrustStore.from_file` checks some
fields by type, some by truthiness and some not at all: a document can raise another exception, and an
entry can load that no message selects. `validates_iff` says for which documents loading does validate. -/

namespace PqcSecureComm

open LastWins

/-! ## A valid store -/

/-- The message reaches the entry: it names the entry's pair and its scheme. -/
def SignedTwist.Selects (msg : SignedTwist) (store : TrustStore) (entry : TrustedKey) : Prop :=
  store.keys.lookup (.str msg.sourceId, .str msg.keyId) = some entry ∧
    entry.sigScheme = msg.sigScheme.toNat

/-- A message that names the pair, and nothing else of note. -/
def SignedTwist.naming (p : Pair) : SignedTwist where
  headerStamp := ⟨0, 0⟩
  command := ⟨⟨0, 0, 0⟩, ⟨0, 0, 0⟩⟩
  payloadVersion := 1
  payloadSchema := payloadSchemaTwistV1
  sourceStamp := ⟨0, 0⟩
  sequence := 0
  ttlMs := 0
  sourceId := p.1
  keyId := p.2
  sigScheme := 1
  hashScheme := 1
  payloadDigest := []
  signature := []

/-- The entry stands where it belongs, and a message can select it. -/
structure TrustedKey.Valid (store : TrustStore) (key : DictKey × DictKey) (entry : TrustedKey) : Prop where
  ids : ∃ sourceId keyId : PyStr, sourceId ≠ [] ∧ keyId ≠ [] ∧ key = (.str sourceId, .str keyId) ∧
    entry.sourceId = .str sourceId ∧ entry.keyId = .str keyId
  sigScheme : entry.sigScheme = sigSchemeMlDsa44
  selectable : ∃ msg : SignedTwist, msg.Selects store entry

def TrustStore.Valid (self : TrustStore) : Prop :=
  ∀ key entry, self.keys.lookup key = some entry → entry.Valid self key

/-- Loading returns a valid store or raises `KeyStoreError`. -/
def TrustStore.Validates : Except PyError TrustStore → Prop
  | .error exc => exc.exc = .keyStoreError
  | .ok store => store.Valid

/-! ## Values without a text -/

/-- `repr(value)` raises, with so many nested calls left: somewhere in the value there is an integer of
    more digits than the interpreter converts, or it is nested too deep. -/
inductive Yaml.Unprintable (P : Platform) : ℕ → Yaml → Prop
  | nesting (value : Yaml) : Unprintable P 0 value
  | digits (depth : ℕ) (n : ℤ) : 10 ^ maxStrDigits ≤ n.natAbs → Unprintable P (depth + 1) (.int n)
  | item (depth : ℕ) (items : List Yaml) (item : Yaml) :
      item ∈ items → Unprintable P depth item → Unprintable P (depth + 1) (.list items)
  | key (depth : ℕ) (entries : List (Yaml × Yaml)) (entry : Yaml × Yaml) :
      entry ∈ dictItems entries → Unprintable P depth entry.1 → Unprintable P (depth + 1) (.map entries)
  | value (depth : ℕ) (entries : List (Yaml × Yaml)) (entry : Yaml × Yaml) :
      entry ∈ dictItems entries → Unprintable P depth entry.2 → Unprintable P (depth + 1) (.map entries)
  | other (depth : ℕ) (truthy hashable : Bool) (tag : ℕ) :
      Fallible.Raises (P.reprOther depth tag) → Unprintable P (depth + 1) (.other truthy hashable tag)

theorem pyReprInt_raises_iff {n : ℤ} : Fallible.Raises (pyReprInt n) ↔ 10 ^ maxStrDigits ≤ n.natAbs := by
  unfold pyReprInt Fallible.Raises
  split
  · next hshort => exact iff_of_false (by simp) (not_le.2 hshort)
  · next hlong => exact iff_of_true ⟨_, rfl⟩ (not_lt.1 hlong)

/-- A text is put together from the texts of the items, so that it is there iff theirs are. -/
theorem Yaml.repr_raises_iff {P : Platform} {depth : ℕ} {value : Yaml} :
    Fallible.Raises (value.repr P depth) ↔ value.Unprintable P depth := by
  induction depth generalizing value with
  | zero => exact iff_of_true ⟨_, rfl⟩ (.nesting value)
  | succ depth ih =>
      cases value with
      | int n =>
          unfold Yaml.repr
          rw [pyReprInt_raises_iff]
          refine ⟨.digits depth n, ?_⟩
          intro h
          cases h with
          | digits _ _ hlong => exact hlong
      | list items =>
          unfold Yaml.repr
          rw [Fallible.bind_pure_raises_iff, Fallible.mapM_raises_iff]
          refine ⟨?_, ?_⟩
          · rintro ⟨item, hitem, hraises⟩
            exact .item depth items item hitem (ih.1 hraises)
          · intro h
            cases h with
            | item _ _ item hitem hunprintable => exact ⟨item, hitem, ih.2 hunprintable⟩
      | map entries =>
          unfold Yaml.repr
          rw [Fallible.bind_pure_raises_iff, Fallible.mapM_raises_iff]
          simp only [Fallible.bind_raises_iff, Fallible.not_raises_pure, and_false, exists_false, or_false]
          refine ⟨?_, ?_⟩
          · rintro ⟨entry, hentry, hkey | ⟨_, -, hvalue⟩⟩
            · exact .key depth entries entry hentry (ih.1 hkey)
            · exact .value depth entries entry hentry (ih.1 hvalue)
          · intro h
            cases h with
            | key _ _ entry hentry hunprintable => exact ⟨entry, hentry, Or.inl (ih.2 hunprintable)⟩
            | value _ _ entry hentry hunprintable =>
                refine ⟨entry, hentry, ?_⟩
                cases entry.1.repr P depth with
                | error fault => exact Or.inl ⟨fault, rfl⟩
                | ok text => exact Or.inr ⟨text, rfl, ih.2 hunprintable⟩
      | other truthy hashable tag =>
          unfold Yaml.repr
          refine ⟨.other depth truthy hashable tag, ?_⟩
          intro h
          cases h with
          | other _ _ _ _ hraises => exact hraises
      | _ => exact iff_of_false (by rintro ⟨_, ⟨⟩⟩) (by rintro ⟨⟩)

theorem ReprFault.toError_exc (fault : ReprFault) : fault.toError.exc ≠ .keyStoreError := by
  cases fault with
  | digits => exact fun h => by cases h
  | nesting => exact fun h => by cases h

/-- The error about a scheme is the declared one iff the scheme has a text. -/
theorem unsupportedSigScheme_exc {P : Platform} {value : Yaml} :
    (unsupportedSigScheme P value).exc = .keyStoreError ↔ ¬ value.Unprintable P P.reprDepth := by
  rw [← Yaml.repr_raises_iff]
  unfold unsupportedSigScheme Fallible.Raises
  cases value.repr P P.reprDepth with
  | ok text => exact iff_of_true rfl (by simp)
  | error fault => exact iff_of_false fault.toError_exc (by simp)

/-- A list around a number of 3600 hexadecimal digits. -/
example : (unsupportedSigScheme .demo (.list [.int (16 ^ 3600)])).exc = .valueError := by decide +kernel

/-! ## The checks of an entry -/

/-- The values of `sig_scheme` that are read as a number. -/
def ReadsScheme (value : Option Yaml) : Prop :=
  (∃ n, value = some (.int n)) ∨ (∃ b, value = some (.bool b)) ∨
    value = some (.str (PyStr.ofString "ML_DSA_44")) ∨ value = some (.str (PyStr.ofString "ML-DSA-44"))

theorem parseSigScheme_of_reads {P : Platform} {value : Option Yaml} (h : ReadsScheme value) :
    ∃ id, parseSigScheme P value = .ok id := by
  rcases h with ⟨n, rfl⟩ | ⟨b, rfl⟩ | rfl | rfl
  · exact ⟨_, rfl⟩
  · exact ⟨_, rfl⟩
  · exact ⟨_, rfl⟩
  · exact ⟨_, rfl⟩

theorem parseSigScheme_of_not_reads {P : Platform} {value : Option Yaml} (h : ¬ ReadsScheme value) :
    parseSigScheme P value = .error (unsupportedSigScheme P (value.getD .null)) := by
  unfold parseSigScheme
  split
  · exact absurd (Or.inl ⟨_, rfl⟩) h
  · exact absurd (Or.inr (Or.inl ⟨_, rfl⟩)) h
  · next s =>
      split
      · next id hid =>
          obtain ⟨rfl | rfl, -⟩ := lookup_sigSchemeNameToId.1 hid
          · exact absurd (Or.inr (Or.inr (Or.inl rfl))) h
          · exact absurd (Or.inr (Or.inr (Or.inr rfl))) h
      · rfl
  · rfl

theorem parseSigScheme_ok_iff {P : Platform} {value : Option Yaml} :
    (∃ id, parseSigScheme P value = .ok id) ↔ ReadsScheme value := by
  refine ⟨?_, parseSigScheme_of_reads⟩
  rintro ⟨id, hid⟩
  by_contra h
  exact absurd ((parseSigScheme_of_not_reads h).symm.trans hid) (by simp)

/-- The key path is a non-empty string that the path library resolves against the directory. -/
def PathResolves (P : Platform) (baseDir : Path) (raw : Option Yaml) : Prop :=
  ∃ s candidate, s ≠ [] ∧ raw = some (.str s) ∧ P.expanduser s = .ok candidate ∧
    (P.isAbsolute candidate = true ∨ ∃ path, P.resolveUnder baseDir candidate = .ok path)

/-- The key path is a non-empty string on which the path library raises. -/
def PathRaises (P : Platform) (baseDir : Path) (raw : Option Yaml) : Prop :=
  ∃ s exc, s ≠ [] ∧ raw = some (.str s) ∧ exc.exc ≠ .keyStoreError ∧
    (P.expanduser s = .error exc ∨ ∃ candidate, P.expanduser s = .ok candidate ∧
      P.isAbsolute candidate = false ∧ P.resolveUnder baseDir candidate = .error exc)

theorem resolveRelativePath_str {P : Platform} {baseDir : Path} {s : PyStr} (h : s ≠ []) :
    resolveRelativePath P baseDir (some (.str s)) = (do
      let candidate ← P.expanduser s
      if P.isAbsolute candidate then pure candidate else P.resolveUnder baseDir candidate) := by
  cases s with
  | nil => exact absurd rfl h
  | cons c cs => rfl

theorem resolveRelativePath_ok_iff {P : Platform} {baseDir : Path} {raw : Option Yaml} :
    (∃ path, resolveRelativePath P baseDir raw = .ok path) ↔ PathResolves P baseDir raw := by
  refine ⟨?_, ?_⟩
  · rintro ⟨path, h⟩
    unfold resolveRelativePath at h
    split at h
    · next c cs =>
        obtain ⟨candidate, hcandidate, hpath⟩ := Fallible.bind_eq_ok.1 h
        refine ⟨c :: cs, candidate, by simp, rfl, hcandidate, ?_⟩
        split at hpath
        · next habsolute => exact Or.inl habsolute
        · exact Or.inr ⟨path, hpath⟩
    · exact absurd h (by simp)
  · rintro ⟨s, candidate, hne, rfl, hcandidate, hresolves⟩
    rw [resolveRelativePath_str hne, hcandidate, Fallible.ok_bind]
    split
    · exact ⟨candidate, rfl⟩
    · next hrelative => exact hresolves.resolve_left hrelative

/-- Whatever else the check of the path raises is what the path library raised. -/
theorem resolveRelativePath_raises_iff {P : Platform} {baseDir : Path} {raw : Option Yaml} :
    (∃ exc, resolveRelativePath P baseDir raw = .error exc ∧ exc.exc ≠ .keyStoreError) ↔
      PathRaises P baseDir raw := by
  refine ⟨?_, ?_⟩
  · rintro ⟨exc, h, hother⟩
    unfold resolveRelativePath at h
    split at h
    · next c cs =>
        refine ⟨c :: cs, exc, by simp, rfl, hother, ?_⟩
        rcases Fallible.bind_eq_error.1 h with hexpand | ⟨candidate, hcandidate, hresolve⟩
        · exact Or.inl hexpand
        · split at hresolve
          · exact absurd hresolve (by simp [pure, Except.pure])
          · next hrelative =>
              exact Or.inr ⟨candidate, hcandidate, Bool.not_eq_true _ ▸ hrelative, hresolve⟩
    · obtain rfl := Except.error.inj h
      exact absurd rfl hother
  · rintro ⟨s, exc, hne, rfl, hother, hexpand | ⟨candidate, hcandidate, hrelative, hresolve⟩⟩
    · refine ⟨exc, ?_, hother⟩
      rw [resolveRelativePath_str hne, hexpand]
      rfl
    · refine ⟨exc, ?_, hother⟩
      rw [resolveRelativePath_str hne, hcandidate, Fallible.ok_bind, hrelative]
      exact hresolve

/-- `hash(value)` raises. -/
def Yaml.unhashable : Yaml → Bool
  | .list _ => true
  | .map _ => true
  | .other _ hashable _ => !hashable
  | _ => false

theorem Yaml.dictKey_raises {value : Yaml} (h : value.unhashable = true) :
    ∃ exc, value.dictKey = .error exc ∧ exc.exc ≠ .keyStoreError := by
  cases value with
  | list items => exact ⟨_, rfl, by simp [PyError.mk']⟩
  | map entries => exact ⟨_, rfl, by simp [PyError.mk']⟩
  | other truthy hashable tag =>
      cases hashable with
      | true => exact absurd h (by simp [Yaml.unhashable])
      | false => exact ⟨_, rfl, by simp [PyError.mk']⟩
  | _ => exact absurd h (by simp [Yaml.unhashable])

theorem Yaml.dictKey_ok {value : Yaml} (h : value.unhashable = false) :
    ∃ key, value.dictKey = .ok key := by
  cases value with
  | list items => exact absurd h (by simp [Yaml.unhashable])
  | map entries => exact absurd h (by simp [Yaml.unhashable])
  | float x => cases x <;> exact ⟨_, rfl⟩
  | other truthy hashable tag =>
      cases hashable with
      | true => exact ⟨_, rfl⟩
      | false => exact absurd h (by simp [Yaml.unhashable])
  | _ => exact ⟨_, rfl⟩

/-- Only values without a hash raise as dictionary keys, and never a `KeyStoreError`. -/
theorem Yaml.dictKey_error {value : Yaml} {exc : PyError} (h : value.dictKey = .error exc) :
    value.unhashable = true ∧ exc.exc ≠ .keyStoreError := by
  cases hvalue : value.unhashable with
  | true =>
      obtain ⟨exc', hexc', hother⟩ := Yaml.dictKey_raises hvalue
      obtain rfl := Except.error.inj (h.symm.trans hexc')
      exact ⟨rfl, hother⟩
  | false =>
      obtain ⟨key, hkey⟩ := Yaml.dictKey_ok hvalue
      exact absurd (h.symm.trans hkey) (by simp)

theorem Yaml.dictKey_ok_iff {value : Yaml} :
    (∃ key, value.dictKey = .ok key) ↔ value.unhashable = false := by
  refine ⟨?_, Yaml.dictKey_ok⟩
  rintro ⟨key, hkey⟩
  by_contra hunhashable
  obtain ⟨exc, hexc, -⟩ := Yaml.dictKey_raises (Bool.not_eq_false _ ▸ hunhashable)
  exact absurd (hexc.symm.trans hkey) (by simp)

/-- `entry.get(name)`, `None` if the entry has no such field. -/
def Yaml.fieldOrNone (entry : Yaml) (name : String) : Yaml := (entry.field name).getD .null

/-! ## Entries that load and entries that escape -/

/-- The loop passes the entry: its scheme is readable, its key path resolves, and its ids are truthy and
    can be hashed. -/
structure Yaml.Loads (P : Platform) (baseDir : Path) (entry : Yaml) : Prop where
  mapping : ∃ fields, entry = .map fields
  sigScheme : ReadsScheme (entry.field "sig_scheme")
  publicKeyPath : PathResolves P baseDir (entry.field "public_key_path")
  sourceId_truthy : (entry.fieldOrNone "source_id").truthy = true
  keyId_truthy : (entry.fieldOrNone "key_id").truthy = true
  sourceId_hashable : (entry.fieldOrNone "source_id").unhashable = false
  keyId_hashable : (entry.fieldOrNone "key_id").unhashable = false

/-- The loop stops at the entry with something else than a `KeyStoreError`. In the order of the checks:
    the scheme is not one, and the message about it cannot be written; the path library raises on the key
    path; an id is a list, a mapping or another value without a hash. -/
structure Yaml.Escapes (P : Platform) (baseDir : Path) (entry : Yaml) : Prop where
  mapping : ∃ fields, entry = .map fields
  raises :
    (¬ ReadsScheme (entry.field "sig_scheme") ∧
      (entry.fieldOrNone "sig_scheme").Unprintable P P.reprDepth) ∨
    (ReadsScheme (entry.field "sig_scheme") ∧ PathRaises P baseDir (entry.field "public_key_path")) ∨
    (ReadsScheme (entry.field "sig_scheme") ∧ PathResolves P baseDir (entry.field "public_key_path") ∧
      (entry.fieldOrNone "source_id").truthy = true ∧ (entry.fieldOrNone "key_id").truthy = true ∧
      ((entry.fieldOrNone "source_id").unhashable = true ∨
        (entry.fieldOrNone "key_id").unhashable = true))

theorem Yaml.loads_iff {P : Platform} {baseDir : Path} {entry : Yaml} :
    entry.Loads P baseDir ↔ ∃ kv, entry.ParsesTo P baseDir kv := by
  refine ⟨?_, ?_⟩
  · intro h
    obtain ⟨sigScheme, hscheme⟩ := parseSigScheme_ok_iff.2 h.sigScheme
    obtain ⟨publicKeyPath, hpath⟩ := resolveRelativePath_ok_iff.2 h.publicKeyPath
    obtain ⟨sourceKey, hsource⟩ := Yaml.dictKey_ok h.sourceId_hashable
    obtain ⟨keyKey, hkey⟩ := Yaml.dictKey_ok h.keyId_hashable
    exact ⟨((sourceKey, keyKey), ⟨_, _, sigScheme, publicKeyPath, _⟩), {
      mapping := h.mapping
      sigScheme := hscheme
      publicKeyPath := hpath
      enabled := rfl
      sourceId := rfl
      keyId := rfl
      sourceId_truthy := h.sourceId_truthy
      keyId_truthy := h.keyId_truthy
      sourceKey := hsource
      keyKey := hkey }⟩
  · rintro ⟨kv, hkv⟩
    have hsource : entry.fieldOrNone "source_id" = kv.2.sourceId := hkv.sourceId
    have hkey : entry.fieldOrNone "key_id" = kv.2.keyId := hkv.keyId
    exact {
      mapping := hkv.mapping
      sigScheme := parseSigScheme_ok_iff.1 ⟨_, hkv.sigScheme⟩
      publicKeyPath := resolveRelativePath_ok_iff.1 ⟨_, hkv.publicKeyPath⟩
      sourceId_truthy := hsource ▸ hkv.sourceId_truthy
      keyId_truthy := hkey ▸ hkv.keyId_truthy
      sourceId_hashable := Yaml.dictKey_ok_iff.1 ⟨_, hsource ▸ hkv.sourceKey⟩
      keyId_hashable := Yaml.dictKey_ok_iff.1 ⟨_, hkey ▸ hkv.keyKey⟩ }

theorem PathResolves.not_raises {P : Platform} {baseDir : Path} {raw : Option Yaml}
    (h : PathResolves P baseDir raw) : ¬ PathRaises P baseDir raw := by
  intro hraises
  obtain ⟨path, hpath⟩ := resolveRelativePath_ok_iff.2 h
  obtain ⟨exc, hexc, -⟩ := resolveRelativePath_raises_iff.2 hraises
  exact absurd (hexc.symm.trans hpath) (by simp)

theorem Yaml.Escapes.not_loads {P : Platform} {baseDir : Path} {entry : Yaml}
    (h : entry.Escapes P baseDir) : ¬ entry.Loads P baseDir := by
  intro hloads
  rcases h.raises with ⟨hscheme, -⟩ | ⟨-, hpath⟩ | ⟨-, -, -, -, hsource | hkey⟩
  · exact hscheme hloads.sigScheme
  · exact hloads.publicKeyPath.not_raises hpath
  · exact absurd (hsource.symm.trans hloads.sourceId_hashable) (by simp)
  · exact absurd (hkey.symm.trans hloads.keyId_hashable) (by simp)

theorem TrustStore.parseEntry_of_mapping {P : Platform} {baseDir : Path} {entry : Yaml}
    (h : ∃ fields, entry = .map fields) :
    TrustStore.parseEntry P baseDir entry = (do
      let sigScheme ← parseSigScheme P (entry.field "sig_scheme")
      let publicKeyPath ← resolveRelativePath P baseDir (entry.field "public_key_path")
      if !(entry.fieldOrNone "source_id").truthy || !(entry.fieldOrNone "key_id").truthy then
        .error (.mk' .keyStoreError "Each trust store entry must define source_id and key_id.")
      else do
        let sourceKey ← (entry.fieldOrNone "source_id").dictKey
        let keyKey ← (entry.fieldOrNone "key_id").dictKey
        pure ((sourceKey, keyKey), ⟨entry.fieldOrNone "source_id", entry.fieldOrNone "key_id", sigScheme,
          publicKeyPath, ((entry.field "enabled").getD (.bool false)).truthy⟩)) := by
  obtain ⟨fields, rfl⟩ := h
  rfl

/-- What the checks after the path raise. -/
theorem TrustStore.ids_error {P : Platform} {baseDir : Path} {entry : Yaml} {exc : PyError}
    (hmapping : ∃ fields, entry = .map fields) (hscheme : ReadsScheme (entry.field "sig_scheme"))
    (hpath : PathResolves P baseDir (entry.field "public_key_path"))
    (h : TrustStore.parseEntry P baseDir entry = .error exc) :
    exc.exc = .keyStoreError ↔ ¬ ((entry.fieldOrNone "source_id").truthy = true ∧
      (entry.fieldOrNone "key_id").truthy = true ∧ ((entry.fieldOrNone "source_id").unhashable = true ∨
        (entry.fieldOrNone "key_id").unhashable = true)) := by
  obtain ⟨id, hid⟩ := parseSigScheme_ok_iff.2 hscheme
  obtain ⟨path, hok⟩ := resolveRelativePath_ok_iff.2 hpath
  rw [TrustStore.parseEntry_of_mapping hmapping, hid, Fallible.ok_bind, hok, Fallible.ok_bind] at h
  by_cases hids : (entry.fieldOrNone "source_id").truthy = true ∧
      (entry.fieldOrNone "key_id").truthy = true
  · rw [if_neg (by simp [hids.1, hids.2])] at h
    rcases Fallible.bind_eq_error.1 h with hsource | ⟨_, -, hrest⟩
    · obtain ⟨hunhashable, hother⟩ := Yaml.dictKey_error hsource
      exact iff_of_false hother fun hno => hno ⟨hids.1, hids.2, Or.inl hunhashable⟩
    · rcases Fallible.bind_eq_error.1 hrest with hkey | ⟨_, -, hdone⟩
      · obtain ⟨hunhashable, hother⟩ := Yaml.dictKey_error hkey
        exact iff_of_false hother fun hno => hno ⟨hids.1, hids.2, Or.inr hunhashable⟩
      · exact absurd hdone (by simp [pure, Except.pure])
  · have hfalsy : (!(entry.fieldOrNone "source_id").truthy || !(entry.fieldOrNone "key_id").truthy) =
        true := by
      rw [not_and_or] at hids
      simpa using hids
    rw [if_pos hfalsy] at h
    rw [← Except.error.inj h]
    exact iff_of_true rfl fun hescapes => hids ⟨hescapes.1, hescapes.2.1⟩

/-- What an entry that does not parse raises. The cases are the checks of the loop, in its order. -/
theorem TrustStore.parseEntry_error {P : Platform} {baseDir : Path} {entry : Yaml} {exc : PyError}
    (h : TrustStore.parseEntry P baseDir entry = .error exc) :
    exc.exc = .keyStoreError ↔ ¬ entry.Escapes P baseDir := by
  by_cases hmapping : ∃ fields, entry = .map fields
  · by_cases hscheme : ReadsScheme (entry.field "sig_scheme")
    · by_cases hpath : PathResolves P baseDir (entry.field "public_key_path")
      · rw [TrustStore.ids_error hmapping hscheme hpath h, not_iff_not]
        refine ⟨fun hids => ⟨hmapping, Or.inr (Or.inr ⟨hscheme, hpath, hids⟩)⟩, ?_⟩
        rintro ⟨-, ⟨hno, -⟩ | ⟨-, hraises⟩ | ⟨-, -, hids⟩⟩
        · exact absurd hscheme hno
        · exact absurd hraises hpath.not_raises
        · exact hids
      · obtain ⟨id, hid⟩ := parseSigScheme_ok_iff.2 hscheme
        rw [TrustStore.parseEntry_of_mapping hmapping, hid, Fallible.ok_bind] at h
        rcases Fallible.bind_eq_error.1 h with hraise | ⟨path, hok, -⟩
        · refine ⟨?_, ?_⟩
          · rintro hkse ⟨-, ⟨hno, -⟩ | ⟨-, hraises⟩ | ⟨-, hresolves, -⟩⟩
            · exact hno hscheme
            · obtain ⟨exc', hexc', hother⟩ := resolveRelativePath_raises_iff.2 hraises
              obtain rfl := Except.error.inj (hraise.symm.trans hexc')
              exact hother hkse
            · exact hpath hresolves
          · intro hescapes
            by_contra hother
            exact hescapes ⟨hmapping, Or.inr (Or.inl
              ⟨hscheme, resolveRelativePath_raises_iff.1 ⟨exc, hraise, hother⟩⟩)⟩
        · exact absurd (resolveRelativePath_ok_iff.1 ⟨path, hok⟩) hpath
    · rw [TrustStore.parseEntry_of_mapping hmapping, parseSigScheme_of_not_reads hscheme] at h
      obtain rfl : unsupportedSigScheme P (entry.fieldOrNone "sig_scheme") = exc := Except.error.inj h
      rw [unsupportedSigScheme_exc, not_iff_not]
      refine ⟨fun hunprintable => ⟨hmapping, Or.inl ⟨hscheme, hunprintable⟩⟩, ?_⟩
      rintro ⟨-, ⟨-, hunprintable⟩ | ⟨hreads, -⟩ | ⟨hreads, -⟩⟩
      · exact hunprintable
      · exact absurd hreads hscheme
      · exact absurd hreads hscheme
  · refine iff_of_true ?_ fun hescapes => hmapping hescapes.mapping
    unfold TrustStore.parseEntry at h
    split at h
    · exact absurd ⟨_, rfl⟩ hmapping
    · rw [← Except.error.inj h]
      rfl

/-! ## Which documents are validated -/

/-- The document is empty or a mapping; the loop over its entries meets none that escapes; and if all of
    them parse, each names a pair of strings and the last one of each pair names a scheme that exists. -/
structure Yaml.Checkable (P : Platform) (baseDir : Path) (document : Yaml) : Prop where
  mapping : document.truthy = true → ∃ fields, document = .map fields
  entries : ∀ before entry after, document.trustedKeys? = some (before ++ entry :: after) →
    (∀ entry' ∈ before, entry'.Loads P baseDir) → ¬ entry.Escapes P baseDir
  identified : ∀ trustedKeys, document.trustedKeys? = some trustedKeys →
    (∀ entry ∈ trustedKeys, entry.Loads P baseDir) →
    ∀ entry ∈ trustedKeys, ∃ p, entry.isFor p = true
  supported : ∀ trustedKeys, document.trustedKeys? = some trustedKeys →
    (∀ entry ∈ trustedKeys, entry.Loads P baseDir) →
    ∀ p entry, document.lastFor? p = some entry →
      ReadsMlDsa44 (entry.field "sig_scheme")

theorem Yaml.payload_map_iff {document : Yaml} :
    (∃ fields, document.payload = .map fields) ↔
      (document.truthy = true → ∃ fields, document = .map fields) := by
  unfold Yaml.payload
  by_cases htruthy : document.truthy = true
  · simp [htruthy]
  · simp [htruthy]

theorem Yaml.payload_of_trustedKeys {document : Yaml} {trustedKeys : List Yaml}
    (h : document.trustedKeys? = some trustedKeys) : ∃ fields, document.payload = .map fields := by
  unfold Yaml.trustedKeys? at h
  generalize document.payload = payload at h ⊢
  cases payload with
  | map fields => exact ⟨fields, rfl⟩
  | _ => exact absurd h (by simp)

/-- A store that loaded is valid iff every entry names a pair of strings and the last one of each pair
    names a scheme that exists. -/
theorem TrustStore.valid_iff {P : Platform} {baseDir : Path} {document : Yaml} {store : TrustStore}
    {trustedKeys : List Yaml} (hload : TrustStore.fromPayload P baseDir document = .ok store)
    (hkeys : document.trustedKeys? = some trustedKeys) :
    store.Valid ↔ (∀ entry ∈ trustedKeys, ∃ p, entry.isFor p = true) ∧
      ∀ p entry, document.lastFor? p = some entry →
        ReadsMlDsa44 (entry.field "sig_scheme") := by
  obtain ⟨trustedKeys', kvs, hkeys', hparse, rfl⟩ := TrustStore.fromPayload_eq_ok.1 hload
  obtain rfl := Option.some.inj (hkeys.symm.trans hkeys')
  refine ⟨?_, ?_⟩
  · intro hvalid
    refine ⟨?_, ?_⟩
    · intro entry hentry
      obtain ⟨kv, hkv, hparses⟩ := exists_of_mem_of_forall₂ hparse hentry
      obtain ⟨value, hvalue⟩ := exists_lookup_overwrite hkv
      obtain ⟨sourceId, keyId, -, -, hkey, -⟩ := (hvalid kv.1 value hvalue).ids
      exact ⟨(sourceId, keyId), ((TrustStore.parseEntry_eq_ok.1 hparses).isFor_iff _).2 hkey⟩
    · intro p entry hlast
      rcases TrustStore.lookup_fromPayload hload p with ⟨hnone, -⟩ | ⟨entry', kv, hentry', hkv, hlookup⟩
      · exact absurd (hnone.symm.trans hlast) (by simp)
      · obtain rfl := Option.some.inj (hentry'.symm.trans hlast)
        refine parseSigScheme_eq_mlDsa44.1 (hkv.sigScheme.trans ?_)
        rw [(hvalid _ _ hlookup).sigScheme]
  · rintro ⟨hids, hschemes⟩ key entry hlookup
    obtain ⟨p, rfl⟩ : ∃ p : Pair, key = (.str p.1, .str p.2) := by
      obtain ⟨entry', hentry', hparses⟩ :=
        exists_of_mem_of_forall₂ hparse.flip (lookup_overwrite_eq_some hlookup)
      obtain ⟨p, hp⟩ := hids entry' hentry'
      exact ⟨p, ((TrustStore.parseEntry_eq_ok.1 hparses).isFor_iff p).1 hp⟩
    rcases TrustStore.lookup_fromPayload hload p with ⟨-, hnone⟩ | ⟨entry', kv, hlast, hkv, hlookup'⟩
    · exact absurd (hnone.symm.trans hlookup) (by simp)
    · obtain rfl := Option.some.inj (hlookup'.symm.trans hlookup)
      obtain ⟨hsource, hkey⟩ := Yaml.isFor_iff.1 (Yaml.isFor_of_lastFor? hlast)
      have hsourceId : kv.2.sourceId = .str p.1 := by
        rw [← hkv.sourceId, hsource]
        rfl
      have hkeyId : kv.2.keyId = .str p.2 := by
        rw [← hkv.keyId, hkey]
        rfl
      have hscheme : kv.2.sigScheme = sigSchemeMlDsa44 :=
        Except.ok.inj (hkv.sigScheme.symm.trans (parseSigScheme_eq_mlDsa44.2 (hschemes p entry' hlast)))
      have hne : ∀ {value : Yaml} {s : PyStr}, value = .str s → value.truthy = true → s ≠ [] := by
        rintro value s rfl htruthy rfl
        exact absurd htruthy (by simp [Yaml.truthy])
      exact {
        ids := ⟨p.1, p.2, hne hsourceId hkv.sourceId_truthy, hne hkeyId hkv.keyId_truthy, rfl,
          hsourceId, hkeyId⟩
        sigScheme := hscheme
        selectable := ⟨SignedTwist.naming p, hlookup, hscheme⟩ }

theorem Yaml.checkable_iff_of_no_trustedKeys {P : Platform} {baseDir : Path} {document : Yaml}
    (hkeys : document.trustedKeys? = none) :
    document.Checkable P baseDir ↔ ∃ fields, document.payload = .map fields := by
  rw [Yaml.payload_map_iff]
  refine ⟨fun hcheckable => hcheckable.mapping, ?_⟩
  intro hmapping
  exact {
    mapping := hmapping
    entries := by simp [hkeys]
    identified := by simp [hkeys]
    supported := by simp [hkeys] }

/-- Where an entry stops the loop, the document is checkable iff the entry does not escape. -/
theorem Yaml.checkable_iff_of_raises {P : Platform} {baseDir : Path} {document entry : Yaml}
    {before after : List Yaml} {exc : PyError}
    (hkeys : document.trustedKeys? = some (before ++ entry :: after))
    (hbefore : ∀ entry' ∈ before, entry'.Loads P baseDir)
    (hraise : TrustStore.parseEntry P baseDir entry = .error exc) :
    document.Checkable P baseDir ↔ ¬ entry.Escapes P baseDir := by
  have hnotLoads : ¬ entry.Loads P baseDir := by
    intro hloads
    obtain ⟨kv, hkv⟩ := Yaml.loads_iff.1 hloads
    exact absurd (hraise.symm.trans (TrustStore.parseEntry_eq_ok.2 hkv)) (by simp)
  refine ⟨fun hcheckable => hcheckable.entries before entry after hkeys hbefore, ?_⟩
  intro hnotEscapes
  have hfails : ∀ trustedKeys, document.trustedKeys? = some trustedKeys →
      ¬ ∀ entry' ∈ trustedKeys, entry'.Loads P baseDir := by
    intro trustedKeys hkeys' hall
    obtain rfl := Option.some.inj (hkeys.symm.trans hkeys')
    exact hnotLoads (hall entry (by simp))
  refine ⟨Yaml.payload_map_iff.1 (Yaml.payload_of_trustedKeys hkeys), ?_, ?_, ?_⟩
  · -- the entry before which all parse and that does not is the same one
    intro before' entry' after' hkeys' hbefore' hescapes
    have hsplit := Option.some.inj (hkeys.symm.trans hkeys')
    rcases List.append_eq_append_iff.1 hsplit with ⟨mid, rfl, hmid⟩ | ⟨mid, rfl, hmid⟩
    · cases mid with
      | nil =>
          obtain ⟨rfl, -⟩ := List.cons.inj hmid
          exact hnotEscapes hescapes
      | cons first rest =>
          obtain ⟨rfl, -⟩ := List.cons.inj hmid
          exact hnotLoads (hbefore' entry (by simp))
    · cases mid with
      | nil =>
          obtain ⟨rfl, -⟩ := List.cons.inj hmid
          exact hnotEscapes hescapes
      | cons first rest =>
          obtain ⟨rfl, -⟩ := List.cons.inj hmid
          exact hescapes.not_loads (hbefore entry' (by simp))
  · intro trustedKeys hkeys' hall
    exact absurd hall (hfails trustedKeys hkeys')
  · intro trustedKeys hkeys' hall
    exact absurd hall (hfails trustedKeys hkeys')

/-- Where all entries parse, what is left is what the loop does not look at. -/
theorem Yaml.checkable_iff_of_parses {P : Platform} {baseDir : Path} {document : Yaml}
    {trustedKeys : List Yaml} (hkeys : document.trustedKeys? = some trustedKeys)
    (hall : ∀ entry ∈ trustedKeys, entry.Loads P baseDir) :
    document.Checkable P baseDir ↔ (∀ entry ∈ trustedKeys, ∃ p, entry.isFor p = true) ∧
      ∀ p entry, document.lastFor? p = some entry →
        ReadsMlDsa44 (entry.field "sig_scheme") := by
  refine ⟨?_, ?_⟩
  · intro hcheckable
    exact ⟨hcheckable.identified trustedKeys hkeys hall, hcheckable.supported trustedKeys hkeys hall⟩
  · rintro ⟨hids, hschemes⟩
    refine ⟨Yaml.payload_map_iff.1 (Yaml.payload_of_trustedKeys hkeys), ?_, ?_, ?_⟩
    · intro before entry after hkeys' _ hescapes
      obtain rfl := Option.some.inj (hkeys.symm.trans hkeys')
      exact hescapes.not_loads (hall entry (by simp))
    · intro trustedKeys' hkeys' _
      obtain rfl := Option.some.inj (hkeys.symm.trans hkeys')
      exact hids
    · intro trustedKeys' hkeys' _
      exact hschemes

/-- **When loading validates.** Loading raises `KeyStoreError` or returns a valid store exactly for the
    checkable documents. -/
theorem validates_iff {P : Platform} {path baseDir : Path} {document : Yaml}
    (hparses : P.Parses path baseDir document) :
    TrustStore.Validates (TrustStore.fromFile P path) ↔ document.Checkable P baseDir := by
  rw [TrustStore.fromFile_eq hparses]
  cases hkeys : document.trustedKeys? with
  | none =>
      -- no list of entries: what matters is whether there is a mapping to look for it in
      obtain ⟨exc, hraise, hexc⟩ := TrustStore.fromPayload_of_no_trustedKeys P baseDir hkeys
      rw [hraise, Yaml.checkable_iff_of_no_trustedKeys hkeys]
      exact hexc
  | some trustedKeys =>
      cases hload : TrustStore.fromPayload P baseDir document with
      | error exc =>
          rw [TrustStore.fromPayload_of_trustedKeys hkeys] at hload
          obtain ⟨before, entry, after, rfl, hbefore, hraise⟩ := Fallible.foldlM_eq_error.1 hload
          have hbefore' : ∀ entry' ∈ before, entry'.Loads P baseDir := by
            intro entry' hentry'
            obtain ⟨kv, hkv⟩ := hbefore entry' hentry'
            exact Yaml.loads_iff.2 ⟨kv, TrustStore.parseEntry_eq_ok.1 hkv⟩
          rw [Yaml.checkable_iff_of_raises hkeys hbefore' hraise]
          exact TrustStore.parseEntry_error hraise
      | ok store =>
          obtain ⟨trustedKeys', kvs, hkeys', hparse, -⟩ := TrustStore.fromPayload_eq_ok.1 hload
          obtain rfl := Option.some.inj (hkeys.symm.trans hkeys')
          have hall : ∀ entry ∈ trustedKeys, entry.Loads P baseDir := by
            intro entry hentry
            obtain ⟨kv, -, hkv⟩ := exists_of_mem_of_forall₂ hparse hentry
            exact Yaml.loads_iff.2 ⟨kv, TrustStore.parseEntry_eq_ok.1 hkv⟩
          rw [Yaml.checkable_iff_of_parses hkeys hall]
          exact TrustStore.valid_iff hload hkeys

/-- Documents of well-formed entries are checkable. -/
theorem WellFormedEntry.checkable {P : Platform} {baseDir : Path} {document : Yaml}
    (entries : List (WellFormedEntry P baseDir))
    (h : document.trustedKeys? = some (entries.map WellFormedEntry.toYaml)) :
    document.Checkable P baseDir := by
  have hmem : ∀ value ∈ entries.map WellFormedEntry.toYaml, ∃ entry : WellFormedEntry P baseDir,
      value = entry.toYaml := by
    intro value hvalue
    obtain ⟨entry, -, rfl⟩ := List.mem_map.1 hvalue
    exact ⟨entry, rfl⟩
  refine ⟨Yaml.payload_map_iff.1 (Yaml.payload_of_trustedKeys h), ?_, ?_, ?_⟩
  · intro before value after hkeys _ hescapes
    obtain ⟨entry, rfl⟩ := hmem value (by
      rw [Option.some.inj (h.symm.trans hkeys)]
      simp)
    exact hescapes.not_loads (Yaml.loads_iff.2 ⟨_, entry.parsesTo⟩)
  · intro trustedKeys hkeys _ value hvalue
    obtain rfl := Option.some.inj (h.symm.trans hkeys)
    obtain ⟨entry, rfl⟩ := hmem value hvalue
    exact ⟨entry.pair, (entry.parsesTo.isFor_iff entry.pair).2 rfl⟩
  · intro trustedKeys hkeys _ p value hlast
    obtain rfl := Option.some.inj (h.symm.trans hkeys)
    obtain ⟨trustedKeys', hkeys', hlast'⟩ := Option.bind_eq_some_iff.1 hlast
    obtain rfl := Option.some.inj (hkeys.symm.trans hkeys')
    obtain ⟨entry, rfl⟩ := hmem value (List.mem_filter.1 (List.mem_of_getLast? hlast')).1
    exact parseSigScheme_eq_mlDsa44.1 entry.parsesTo.sigScheme

/-- The demo document is validated. -/
theorem validates_iff_demo :
    TrustStore.Validates (TrustStore.fromFile (.demoWith (.demo (.bool true)))
      (PyStr.ofString "/keys/trust_store.yaml")) :=
  (validates_iff (Platform.demoWith_parses (.demo (.bool true)))).2
    (WellFormedEntry.checkable [WellFormedEntry.demo _ rfl Pair.demo.2 (by decide) true] rfl)

/-- **A document can escape.** A list at the top level has no `get`. -/
theorem notValidated_demo :
    let P := Platform.demoWith (.list [.null])
    P.Parses (PyStr.ofString "/keys/trust_store.yaml") (PyStr.ofString "/keys") (.list [.null]) ∧
      (∃ exc, TrustStore.fromFile P (PyStr.ofString "/keys/trust_store.yaml") = .error exc ∧
        exc.exc = .attributeError) ∧
      ¬ TrustStore.Validates (TrustStore.fromFile P (PyStr.ofString "/keys/trust_store.yaml")) := by
  refine ⟨Platform.demoWith_parses _, ⟨_, rfl, rfl⟩, ?_⟩
  intro hvalidates
  have hexc : PyExc.attributeError = PyExc.keyStoreError := hvalidates
  exact absurd hexc (by decide)

end PqcSecureComm
