import PqcSecureComm.Messages

set_option autoImplicit false

/-! # The canonical payload

`TwistAdapter.build_canonical_bytes`: fourteen fields one after the other, fixed-width little-endian
integers and doubles, and strings behind a `uint32` length. Signer and verifier hash these bytes, so
everything a signature protects is what the encoding determines. -/

namespace PqcSecureComm

/-- The adapter of one node. -/
structure TwistAdapter where
  payloadSchema : PyStr := payloadSchemaTwistV1
  payloadVersion : ℤ := payloadVersionV1
  deriving DecidableEq, Repr

/-- The keyword arguments of `build_canonical_bytes`, next to the command. -/
structure CanonicalArgs where
  topicName : PyStr
  sourceId : PyStr
  keyId : PyStr
  sourceStampNs : ℤ
  sequence : ℤ
  ttlMs : ℤ
  deriving DecidableEq, Repr

/-- `_pack_string`: the length of the UTF-8 bytes as `<I`, then the bytes. -/
def packString (value : PyStr) : Except PyError Bytes := do
  let encoded ← value.encode
  let length ← structPack 4 encoded.length
  pure (length ++ encoded)

/-- `TwistAdapter.build_canonical_bytes`; a field that does not fit raises. -/
def TwistAdapter.buildCanonicalBytes (self : TwistAdapter) (command : Twist)
    (args : CanonicalArgs) : Except PyError Bytes := do
  let version ← structPack 1 self.payloadVersion
  let schema ← packString self.payloadSchema
  let topic ← packString args.topicName
  let source ← packString args.sourceId
  let key ← packString args.keyId
  let stamp ← structPack 8 args.sourceStampNs
  let sequence ← structPack 8 args.sequence
  let ttl ← structPack 4 args.ttlMs
  let lx ← structPackDouble command.linear.x
  let ly ← structPackDouble command.linear.y
  let lz ← structPackDouble command.linear.z
  let ax ← structPackDouble command.angular.x
  let ay ← structPackDouble command.angular.y
  let az ← structPackDouble command.angular.z
  pure [version, schema, topic, source, key, stamp, sequence, ttl, lx, ly, lz, ax, ay, az].flatten

/-! ## Reading the fields back -/

theorem packString_eq_lengthPrefixed :
    packString = PrefixCode.lengthPrefixed (fun n => structPack 4 n) PyStr.encode := rfl

theorem packString_selfDelimiting : PrefixCode.SelfDelimiting packString := by
  rw [packString_eq_lengthPrefixed]
  exact ((structPack_selfDelimiting 4).comap Nat.cast_injective).lengthPrefixed
    PyStr.encode_unambiguous

/-- Everything the canonical bytes are made of, in the order of the encoding. -/
abbrev CanonicalFields :=
  ℤ × PyStr × PyStr × PyStr × PyStr × ℤ × ℤ × ℤ × UInt64 × UInt64 × UInt64 × UInt64 × UInt64 × UInt64

def TwistAdapter.canonicalFields (self : TwistAdapter) (command : Twist) (args : CanonicalArgs) :
    CanonicalFields :=
  (self.payloadVersion, self.payloadSchema, args.topicName, args.sourceId, args.keyId,
    args.sourceStampNs, args.sequence, args.ttlMs, command.linear.x, command.linear.y,
    command.linear.z, command.angular.x, command.angular.y, command.angular.z)

/-- The encoder of the fields as a sequence of field encoders. -/
def encodeFields : CanonicalFields → Except PyError Bytes :=
  PrefixCode.seq (structPack 1) <| PrefixCode.seq packString <| PrefixCode.seq packString <|
  PrefixCode.seq packString <| PrefixCode.seq packString <| PrefixCode.seq (structPack 8) <|
  PrefixCode.seq (structPack 8) <| PrefixCode.seq (structPack 4) <|
  PrefixCode.seq structPackDouble <| PrefixCode.seq structPackDouble <|
  PrefixCode.seq structPackDouble <| PrefixCode.seq structPackDouble <|
  PrefixCode.seq structPackDouble structPackDouble

theorem encodeFields_selfDelimiting : PrefixCode.SelfDelimiting encodeFields := by
  -- from the last field back to the first, each one in front of what follows it
  have hdouble := structPackDouble_selfDelimiting
  have hcommand := hdouble.seq <| hdouble.seq <| hdouble.seq <| hdouble.seq <| hdouble.seq hdouble
  have hnumbers := (structPack_selfDelimiting 8).seq <| (structPack_selfDelimiting 8).seq <|
    (structPack_selfDelimiting 4).seq hcommand
  have hstring := packString_selfDelimiting
  exact (structPack_selfDelimiting 1).seq <| hstring.seq <| hstring.seq <| hstring.seq <|
    hstring.seq hnumbers

/-- The source writes the fields one by one and joins them; that is the sequence of their
    encoders. -/
theorem TwistAdapter.buildCanonicalBytes_eq (self : TwistAdapter) (command : Twist)
    (args : CanonicalArgs) :
    self.buildCanonicalBytes command args = encodeFields (self.canonicalFields command args) := by
  simp only [TwistAdapter.buildCanonicalBytes, encodeFields, TwistAdapter.canonicalFields,
    PrefixCode.seq, bind_assoc, pure_bind, List.flatten_cons, List.flatten_nil, List.append_nil]

theorem canonicalFields_injective {self₁ self₂ : TwistAdapter} {command₁ command₂ : Twist}
    {args₁ args₂ : CanonicalArgs}
    (h : self₁.canonicalFields command₁ args₁ = self₂.canonicalFields command₂ args₂) :
    self₁ = self₂ ∧ command₁ = command₂ ∧ args₁ = args₂ := by
  obtain ⟨schema₁, version₁⟩ := self₁
  obtain ⟨schema₂, version₂⟩ := self₂
  obtain ⟨⟨lx₁, ly₁, lz₁⟩, ⟨ax₁, ay₁, az₁⟩⟩ := command₁
  obtain ⟨⟨lx₂, ly₂, lz₂⟩, ⟨ax₂, ay₂, az₂⟩⟩ := command₂
  obtain ⟨topic₁, source₁, key₁, stamp₁, sequence₁, ttl₁⟩ := args₁
  obtain ⟨topic₂, source₂, key₂, stamp₂, sequence₂, ttl₂⟩ := args₂
  simp only [TwistAdapter.canonicalFields, Prod.mk.injEq] at h
  obtain ⟨rfl, rfl, rfl, rfl, rfl, rfl, rfl, rfl, rfl, rfl, rfl, rfl, rfl, rfl⟩ := h
  exact ⟨rfl, rfl, rfl⟩

/-- Two calls one of whose outputs starts with the other were made with the same arguments. -/
theorem TwistAdapter.eq_of_buildCanonicalBytes_prefix {self₁ self₂ : TwistAdapter}
    {command₁ command₂ : Twist} {args₁ args₂ : CanonicalArgs} {x y : Bytes}
    (hx : self₁.buildCanonicalBytes command₁ args₁ = .ok x)
    (hy : self₂.buildCanonicalBytes command₂ args₂ = .ok y) (hxy : x <+: y) :
    self₁ = self₂ ∧ command₁ = command₂ ∧ args₁ = args₂ := by
  rw [TwistAdapter.buildCanonicalBytes_eq] at hx hy
  exact canonicalFields_injective (encodeFields_selfDelimiting.eq_of_prefix hx hy hxy)

/-! ## When the encoding raises -/

/-- The string has UTF-8 bytes, and few enough of them for a `uint32` length. -/
def PyStr.Packable (value : PyStr) : Prop := ∃ b, value.encode = .ok b ∧ b.length < 2 ^ 32

theorem packString_ok_iff {value : PyStr} : (∃ b, packString value = .ok b) ↔ value.Packable := by
  simp only [packString, Fallible.bind_eq_ok, Fallible.pure_eq_ok, structPack_eq_ok]
  constructor
  · rintro ⟨-, encoded, hencoded, -, ⟨⟨-, hlength⟩, -⟩, -⟩
    exact ⟨encoded, hencoded, by omega⟩
  · rintro ⟨encoded, hencoded, hlength⟩
    exact ⟨_, encoded, hencoded, _, ⟨⟨by omega, by omega⟩, rfl⟩, rfl⟩

/-- The arguments `build_canonical_bytes` can represent: version in `uint8`, strings with a UTF-8
    length below 2^32, stamp and sequence in `uint64`, `ttl_ms` in `uint32`. -/
structure TwistAdapter.InRange (adapter : TwistAdapter) (args : CanonicalArgs) : Prop where
  payloadVersion : 0 ≤ adapter.payloadVersion ∧ adapter.payloadVersion < 2 ^ 8
  payloadSchema : adapter.payloadSchema.Packable
  topicName : args.topicName.Packable
  sourceId : args.sourceId.Packable
  keyId : args.keyId.Packable
  sourceStampNs : 0 ≤ args.sourceStampNs ∧ args.sourceStampNs < 2 ^ 64
  sequence : 0 ≤ args.sequence ∧ args.sequence < 2 ^ 64
  ttlMs : 0 ≤ args.ttlMs ∧ args.ttlMs < 2 ^ 32

theorem TwistAdapter.buildCanonicalBytes_ok_iff (self : TwistAdapter) (command : Twist)
    (args : CanonicalArgs) :
    (∃ b, self.buildCanonicalBytes command args = .ok b) ↔ self.InRange args := by
  simp only [TwistAdapter.buildCanonicalBytes, Fallible.bind_eq_ok]
  constructor
  · rintro ⟨-, version, hversion, schema, hschema, topic, htopic, source, hsource, key, hkey, stamp,
      hstamp, sequence, hsequence, ttl, httl, -⟩
    exact {
      payloadVersion := (structPack_eq_ok.1 hversion).1
      payloadSchema := packString_ok_iff.1 ⟨schema, hschema⟩
      topicName := packString_ok_iff.1 ⟨topic, htopic⟩
      sourceId := packString_ok_iff.1 ⟨source, hsource⟩
      keyId := packString_ok_iff.1 ⟨key, hkey⟩
      sourceStampNs := (structPack_eq_ok.1 hstamp).1
      sequence := (structPack_eq_ok.1 hsequence).1
      ttlMs := (structPack_eq_ok.1 httl).1 }
  · intro h
    obtain ⟨schema, hschema⟩ := packString_ok_iff.2 h.payloadSchema
    obtain ⟨topic, htopic⟩ := packString_ok_iff.2 h.topicName
    obtain ⟨source, hsource⟩ := packString_ok_iff.2 h.sourceId
    obtain ⟨key, hkey⟩ := packString_ok_iff.2 h.keyId
    exact ⟨_, _, structPack_eq_ok.2 ⟨h.payloadVersion, rfl⟩, schema, hschema, topic, htopic, source,
      hsource, key, hkey, _, structPack_eq_ok.2 ⟨h.sourceStampNs, rfl⟩,
      _, structPack_eq_ok.2 ⟨h.sequence, rfl⟩, _, structPack_eq_ok.2 ⟨h.ttlMs, rfl⟩,
      _, rfl, _, rfl, _, rfl, _, rfl, _, rfl, _, rfl, rfl⟩

/-- **The canonical encoding is unambiguous.** Over all adapters, commands and arguments, an output
    that is a prefix of another output (equal ones in particular) comes from the same version,
    schema and arguments and a bit-for-bit equal command; and a call raises exactly when an
    argument is outside its range. -/
theorem canonicalBytes_unambiguous :
    (∀ (self₁ self₂ : TwistAdapter) (command₁ command₂ : Twist) (args₁ args₂ : CanonicalArgs)
        (x y : Bytes), self₁.buildCanonicalBytes command₁ args₁ = .ok x →
        self₂.buildCanonicalBytes command₂ args₂ = .ok y → x <+: y →
        self₁.payloadVersion = self₂.payloadVersion ∧ self₁.payloadSchema = self₂.payloadSchema ∧
        args₁ = args₂ ∧ command₁ = command₂) ∧
    (∀ (self : TwistAdapter) (command : Twist) (args : CanonicalArgs),
        Fallible.Raises (self.buildCanonicalBytes command args) ↔ ¬ self.InRange args) := by
  refine ⟨?_, ?_⟩
  · intro self₁ self₂ command₁ command₂ args₁ args₂ x y hx hy hxy
    obtain ⟨rfl, rfl, rfl⟩ := TwistAdapter.eq_of_buildCanonicalBytes_prefix hx hy hxy
    exact ⟨rfl, rfl, rfl, rfl⟩
  · intro self command args
    rw [Fallible.raises_iff_not_ok, TwistAdapter.buildCanonicalBytes_ok_iff]

/-- The outputs for `linear.x` 0.0 and -0.0, which compare equal as floats, are no prefixes of each
    other; a negative stamp, as the verifier computes it from a negative `sec`, raises. -/
theorem canonicalBytes_unambiguous_demo :
    let adapter : TwistAdapter := ⟨payloadSchemaTwistV1, payloadVersionV1⟩
    let args : CanonicalArgs := ⟨PyStr.ofString "/cmd_vel/raw", [], [], 0, 0, 500⟩
    let command (x : UInt64) : Twist := ⟨⟨x, 0, 0⟩, ⟨0, 0, 0⟩⟩
    (∃ x y, adapter.buildCanonicalBytes (command 0) args = .ok x ∧
      adapter.buildCanonicalBytes (command 0x8000000000000000) args = .ok y ∧ ¬ x <+: y ∧ ¬ y <+: x) ∧
    Fallible.Raises (adapter.buildCanonicalBytes (command 0) { args with sourceStampNs := -1 }) := by
  intro adapter args command
  refine ⟨?_, ?_⟩
  · have hrange : adapter.InRange args := {
      payloadVersion := by decide
      payloadSchema := ⟨_, rfl, by decide⟩
      topicName := ⟨_, rfl, by decide⟩
      sourceId := ⟨_, rfl, by decide⟩
      keyId := ⟨_, rfl, by decide⟩
      sourceStampNs := by decide
      sequence := by decide
      ttlMs := by decide }
    obtain ⟨x, hx⟩ := (adapter.buildCanonicalBytes_ok_iff (command 0) args).2 hrange
    obtain ⟨y, hy⟩ := (adapter.buildCanonicalBytes_ok_iff (command 0x8000000000000000) args).2 hrange
    have hne : command 0 ≠ command 0x8000000000000000 := by decide
    refine ⟨x, y, hx, hy, fun hxy => ?_, fun hyx => ?_⟩
    · exact hne (canonicalBytes_unambiguous.1 _ _ _ _ _ _ x y hx hy hxy).2.2.2
    · exact hne.symm (canonicalBytes_unambiguous.1 _ _ _ _ _ _ y x hy hx hyx).2.2.2
  · refine (canonicalBytes_unambiguous.2 _ _ _).2 fun hrange => ?_
    exact absurd hrange.sourceStampNs.1 (by decide)

end PqcSecureComm
