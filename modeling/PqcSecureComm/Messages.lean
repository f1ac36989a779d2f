import PqcSecureComm.Python

set_option autoImplicit false

/-! # Messages and constants

The ROS messages the nodes exchange, with the wire types of their `.msg` files, and the constants
of `constants.py`. A double is given by its 64 bits, so that equality of commands is bit-for-bit.
Strings are Python strings. -/

namespace PqcSecureComm

/-! ## `geometry_msgs/Twist` and `builtin_interfaces/Time` -/

/-- `geometry_msgs/Vector3`, each component an IEEE-754 double by its bits. -/
structure Vector3 where
  x : UInt64
  y : UInt64
  z : UInt64
  deriving DecidableEq, Repr

/-- `geometry_msgs/Twist`. -/
structure Twist where
  linear : Vector3
  angular : Vector3
  deriving DecidableEq, Repr

/-- `builtin_interfaces/Time`. -/
structure Time where
  sec : Int32
  nanosec : UInt32
  deriving DecidableEq, Repr

/-- `Time.to_msg()` of a clock reading in nanoseconds: seconds and nanoseconds, each checked
    against its field. -/
def Time.ofNanoseconds (ns : ℤ) : Except PyError Time := do
  let sec ← int32Field (ns / 1000000000)
  let nanosec ← uint32Field (ns % 1000000000)
  pure ⟨sec, nanosec⟩

/-- The stamp recombined: `sec * 1_000_000_000 + nanosec`. -/
def Time.nanoseconds (t : Time) : ℤ := t.sec.toInt * 1000000000 + t.nanosec.toNat

theorem Time.nanoseconds_ofNanoseconds {ns : ℤ} {t : Time} (h : Time.ofNanoseconds ns = .ok t) :
    t.nanoseconds = ns := by
  simp only [Time.ofNanoseconds, Fallible.bind_eq_ok, Fallible.pure_eq_ok] at h
  obtain ⟨sec, hsec, nanosec, hnanosec, rfl⟩ := h
  rw [Time.nanoseconds, int32Field_eq_ok hsec, uint32Field_eq_ok hnanosec]
  omega

/-- Every clock reading of the years an `int32` counts seconds in converts. -/
theorem Time.ofNanoseconds_ok {ns : ℤ} (h0 : 0 ≤ ns) (h : ns < 2 ^ 31 * 1000000000) :
    ∃ t, Time.ofNanoseconds ns = .ok t := by
  refine ⟨⟨Int32.ofInt (ns / 1000000000), UInt32.ofNat (ns % 1000000000).toNat⟩, ?_⟩
  simp only [Time.ofNanoseconds, Fallible.bind_eq_ok, Fallible.pure_eq_ok]
  refine ⟨_, ?_, _, ?_, rfl⟩
  · unfold int32Field
    rw [if_pos (by omega)]
  · exact unsignedField_eq_ok.2 ⟨by omega, rfl⟩

/-- What a stamp off the wire can be, whoever wrote it. -/
theorem Time.nanoseconds_bounds (t : Time) :
    -(2 ^ 31 * 1000000000) ≤ t.nanoseconds ∧ t.nanoseconds < 2 ^ 31 * 1000000000 + 2 ^ 32 := by
  have hlo := t.sec.le_toInt
  have hhi := t.sec.toInt_lt
  have hnano := t.nanosec.toNat_lt
  unfold Time.nanoseconds
  omega

/-! ## Constants -/

def payloadVersionV1 : ℤ := 1
def payloadSchemaTwistV1 : PyStr := PyStr.ofString "ros2_pqc.twist.v1"

def sigSchemeMlDsa44 : ℤ := 1
def hashSchemeSha256 : ℤ := 1

/-- `SIG_SCHEME_NAME_TO_ID`. -/
def sigSchemeNameToId : List (PyStr × ℤ) :=
  [(PyStr.ofString "ML_DSA_44", sigSchemeMlDsa44), (PyStr.ofString "ML-DSA-44", sigSchemeMlDsa44)]

/-- The `RESULT_*` codes. -/
inductive ResultCode
  | ok
  | schemaError
  | algUnsupported
  | digestMismatch
  | sigInvalid
  | replay
  | expired
  | keyNotTrusted
  | internalError
  deriving DecidableEq, Repr

def ResultCode.toUInt8 : ResultCode → UInt8
  | .ok => 0
  | .schemaError => 1
  | .algUnsupported => 2
  | .digestMismatch => 3
  | .sigInvalid => 4
  | .replay => 5
  | .expired => 6
  | .keyNotTrusted => 7
  | .internalError => 8

theorem ResultCode.toUInt8_injective : Function.Injective ResultCode.toUInt8 := by
  intro a b h
  cases a <;> cases b <;> first | rfl | exact absurd h (by decide)

/-! ## `ros2_pqc_interfaces` -/

/-- `ros2_pqc_interfaces/msg/SignedTwist`. -/
structure SignedTwist where
  headerStamp : Time
  command : Twist
  payloadVersion : UInt8
  payloadSchema : PyStr
  sourceStamp : Time
  sequence : UInt64
  ttlMs : UInt32
  sourceId : PyStr
  keyId : PyStr
  sigScheme : UInt8
  hashScheme : UInt8
  payloadDigest : Bytes
  signature : Bytes
  deriving DecidableEq, Repr

/-- The identity a message names. -/
abbrev Pair := PyStr × PyStr

def SignedTwist.pair (msg : SignedTwist) : Pair := (msg.sourceId, msg.keyId)

/-- `ros2_pqc_interfaces/msg/VerificationEvent`. -/
structure VerificationEvent where
  headerStamp : Time
  ok : Bool
  resultCode : UInt8
  reason : PyStr
  sourceId : PyStr
  keyId : PyStr
  sequence : UInt64
  verifyNs : UInt64
  ageNs : UInt64
  deriving DecidableEq, Repr

end PqcSecureComm
