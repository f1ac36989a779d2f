import PqcSecureComm.Lib.Binary64
import PqcSecureComm.Lib.PrefixCode

set_option autoImplicit false

/-! # The Python runtime under the nodes

Strings, exceptions, `str.encode`, `struct.pack` and the range checks of ROS message fields, as far
as the nodes use them. A Python `str` is a sequence of code points, lone surrogates included, so
that it has a UTF-8 encoding only if it contains none. Integers are unbounded; a value that does not
fit where it is put raises and is never wrapped. -/

namespace PqcSecureComm

/-! ## Strings and exceptions -/

abbrev Bytes := List UInt8

/-- A Unicode code point. -/
abbrev CodePoint := Fin 0x110000

/-- A Python `str`. -/
abbrev PyStr := List CodePoint

/-- A string literal of the source. -/
def PyStr.ofString (s : String) : PyStr := s.toList.map fun c => Fin.ofNat _ c.toNat

/-- The text of an `int` in an f-string. -/
def PyStr.ofInt (n : ℤ) : PyStr := PyStr.ofString (toString n)

/-- The exception classes the sources raise or let through. -/
inductive PyExc
  | keyStoreError
  | backendUnavailableError
  | valueError
  | typeError
  | attributeError
  | assertionError
  | structError
  | unicodeEncodeError
  | runtimeError
  | osError
  | overflowError
  | recursionError
  deriving DecidableEq, Repr

/-- An exception with its text, `str(exc)`. -/
structure PyError where
  exc : PyExc
  text : PyStr
  deriving DecidableEq, Repr

def PyError.mk' (exc : PyExc) (text : String) : PyError := ⟨exc, PyStr.ofString text⟩

/-! ## `repr` -/

/-- Why `repr` of a value of built-in types raises. -/
inductive ReprFault
  /-- an `int` of more decimal digits than the interpreter converts -/
  | digits
  /-- more levels of nesting than the recursion limit leaves -/
  | nesting
  deriving DecidableEq, Repr

def ReprFault.toError : ReprFault → PyError
  | .digits => .mk' .valueError <| "Exceeds the limit (4300 digits) for integer string conversion; " ++
      "use sys.set_int_max_str_digits() to increase the limit"
  | .nesting => .mk' .recursionError
      "maximum recursion depth exceeded while getting the repr of an object"

/-- `sys.int_info.default_max_str_digits`. -/
def maxStrDigits : ℕ := 4300

/-- `repr(n)` of an `int`. -/
def pyReprInt (n : ℤ) : Except ReprFault PyStr :=
  if n.natAbs < 10 ^ maxStrDigits then .ok (PyStr.ofInt n) else .error .digits

/-- A backslash, the letter, and the code point in so many hexadecimal digits. -/
def CodePoint.escape (letter : String) (width : ℕ) (c : CodePoint) : PyStr :=
  PyStr.ofString ("\\" ++ letter ++ String.ofList ((Nat.toDigits 16 c.val).leftpad width '0'))

/-- A character of `repr(s)` between quotes of the given kind. -/
def CodePoint.repr (isPrintable : CodePoint → Bool) (quote c : CodePoint) : PyStr :=
  -- 92 is the backslash
  if c = quote ∨ c = 92 then [92, c]
  else if c = 9 then PyStr.ofString "\\t"
  else if c = 10 then PyStr.ofString "\\n"
  else if c = 13 then PyStr.ofString "\\r"
  else if c < 32 ∨ c = 127 then c.escape "x" 2
  else if c < 127 ∨ isPrintable c then [c]
  else if c ≤ 0xff then c.escape "x" 2
  else if c ≤ 0xffff then c.escape "u" 4
  else c.escape "U" 8

/-- `repr(s)` of a `str`: in double quotes if it has single ones (39) and no double ones (34). -/
def PyStr.repr (isPrintable : CodePoint → Bool) (s : PyStr) : PyStr :=
  let quote : CodePoint := if 39 ∈ s ∧ 34 ∉ s then 34 else 39
  [quote] ++ s.flatMap (CodePoint.repr isPrintable quote) ++ [quote]

example : PyStr.repr (fun _ => true) (PyStr.ofString "it's\n") = PyStr.ofString "\"it's\\n\"" := by
  decide

/-! ## `str.encode('utf-8')` -/

/-- One code point in UTF-8; a surrogate has no encoding. -/
def CodePoint.encode (c : CodePoint) : Except PyError Bytes :=
  if h : c.val.isValidChar then .ok (String.utf8EncodeChar (Char.ofNatAux c.val h))
  else .error (.mk' .unicodeEncodeError "surrogates not allowed")

/-- `value.encode('utf-8')`. -/
def PyStr.encode : PyStr → Except PyError Bytes := PrefixCode.concat CodePoint.encode

theorem utf8EncodeChar_split {c d : Char} {s t : Bytes}
    (h : String.utf8EncodeChar c ++ s = String.utf8EncodeChar d ++ t) : c = d ∧ s = t := by
  have hbytes := congrArg List.toByteArray h
  rw [List.toByteArray_append, List.toByteArray_append] at hbytes
  have hdecode : some c = some d :=
    calc
      some c = ByteArray.utf8DecodeChar? ((String.utf8EncodeChar c).toByteArray ++ s.toByteArray) 0 :=
          ByteArray.utf8DecodeChar?_utf8EncodeChar_append.symm
      _ = ByteArray.utf8DecodeChar? ((String.utf8EncodeChar d).toByteArray ++ t.toByteArray) 0 := by
          rw [hbytes]
      _ = some d := ByteArray.utf8DecodeChar?_utf8EncodeChar_append
  obtain rfl := Option.some.inj hdecode
  exact ⟨rfl, List.append_cancel_left h⟩

theorem CodePoint.encode_eq_ok {c : CodePoint} {x : Bytes} :
    c.encode = .ok x ↔
      ∃ h : c.val.isValidChar, String.utf8EncodeChar (Char.ofNatAux c.val h) = x := by
  unfold CodePoint.encode
  split
  · next h => simp [h]
  · next h => simp [h]

theorem CodePoint.encode_selfDelimiting : PrefixCode.SelfDelimiting CodePoint.encode := by
  intro c d x y s t hc hd hxy
  obtain ⟨hvc, rfl⟩ := CodePoint.encode_eq_ok.1 hc
  obtain ⟨hvd, rfl⟩ := CodePoint.encode_eq_ok.1 hd
  obtain ⟨hchar, hst⟩ := utf8EncodeChar_split hxy
  have hval : c.val = d.val := by
    have := congrArg Char.toNat hchar
    simpa [Char.ofNatAux, Char.toNat] using this
  exact ⟨Fin.ext hval, hst⟩

theorem PyStr.encode_unambiguous : PrefixCode.Unambiguous PyStr.encode := by
  refine CodePoint.encode_selfDelimiting.concat ?_
  intro c x hc
  obtain ⟨h, rfl⟩ := CodePoint.encode_eq_ok.1 hc
  exact String.utf8EncodeChar_ne_nil

/-! ## `struct.pack` -/

/-- `struct.pack` of an unsigned format of `w` bytes, little-endian (`<B`, `<I` and `<Q` are the
    widths 1, 4 and 8). -/
def structPack (w : ℕ) (v : ℤ) : Except PyError Bytes :=
  if 0 ≤ v ∧ v < 256 ^ w then .ok (PrefixCode.littleEndian w v.toNat)
  else .error (.mk' .structError "argument out of range")

/-- `struct.pack('<d', float(x))` of a double given by its IEEE-754 bits; every double packs. -/
def structPackDouble (bits : UInt64) : Except PyError Bytes :=
  .ok (PrefixCode.littleEndian 8 bits.toNat)

theorem structPack_eq_ok {w : ℕ} {v : ℤ} {x : Bytes} :
    structPack w v = .ok x ↔ (0 ≤ v ∧ v < 256 ^ w) ∧ PrefixCode.littleEndian w v.toNat = x := by
  unfold structPack
  split
  · next h => simp [h]
  · next h => simp [h]

theorem structPack_unambiguous (w : ℕ) : PrefixCode.Unambiguous (structPack w) := by
  intro a b x ha hb
  obtain ⟨⟨ha0, haw⟩, hax⟩ := structPack_eq_ok.1 ha
  obtain ⟨⟨hb0, hbw⟩, hbx⟩ := structPack_eq_ok.1 hb
  have hwidth : ∀ v : ℤ, 0 ≤ v → v < 256 ^ w → v.toNat < 256 ^ w := by
    intro v hv0 hvw
    have hcast : (v.toNat : ℤ) < ((256 ^ w : ℕ) : ℤ) := by
      rw [Int.toNat_of_nonneg hv0]
      exact_mod_cast hvw
    exact_mod_cast hcast
  have hnat : a.toNat = b.toNat :=
    PrefixCode.littleEndian_injective w (hwidth a ha0 haw) (hwidth b hb0 hbw) (hax.trans hbx.symm)
  omega

theorem structPack_selfDelimiting (w : ℕ) : PrefixCode.SelfDelimiting (structPack w) := by
  refine PrefixCode.SelfDelimiting.of_length w ?_ (structPack_unambiguous w)
  intro v x hv
  obtain ⟨-, rfl⟩ := structPack_eq_ok.1 hv
  exact PrefixCode.length_littleEndian w _

theorem structPackDouble_selfDelimiting : PrefixCode.SelfDelimiting structPackDouble := by
  refine PrefixCode.SelfDelimiting.of_length 8 ?_ ?_
  · intro v x hv
    simp only [structPackDouble, Except.ok.injEq] at hv
    rw [← hv, PrefixCode.length_littleEndian]
  · intro a b x ha hb
    simp only [structPackDouble, Except.ok.injEq] at ha hb
    have hnat : a.toNat = b.toNat :=
      PrefixCode.littleEndian_injective 8 a.toNat_lt b.toNat_lt (ha.trans hb.symm)
    exact UInt64.toNat_inj.1 hnat

/-! ## `float` and `int` -/

/-- `float(n)` of a counter. -/
def pyFloat (n : ℕ) : Except PyError UInt64 :=
  match Binary64.ofNat n with
  | some x => .ok x
  | none => .error (.mk' .overflowError "int too large to convert to float")

/-- `int(x)` of a double. -/
def pyInt (x : UInt64) : Except PyError ℤ :=
  match Binary64.truncate x with
  | some n => .ok n
  | none =>
    if Binary64.fraction x = 0 then
      .error (.mk' .overflowError "cannot convert float infinity to integer")
    else .error (.mk' .valueError "cannot convert float NaN to integer")

/-- A 64-bit counter has a double. -/
theorem exists_pyFloat {n : ℕ} (h : n < 2 ^ 64) : ∃ x, pyFloat n = .ok x := by
  have hlog : Nat.log 2 n < 64 := Nat.log_lt_of_lt_pow' (by decide) h
  obtain ⟨x, hx⟩ : ∃ x, Binary64.ofNat n = some x := by
    refine Binary64.exists_ofNat ?_
    rw [Nat.log2_eq_log_two]
    omega
  refine ⟨x, ?_⟩
  unfold pyFloat
  rw [hx]

/-- Below `2^53`, a counter survives the way through a double. -/
theorem pyInt_pyFloat {n : ℕ} (hexact : n < 2 ^ 53) {x : UInt64} (hx : pyFloat n = .ok x) :
    pyInt x = .ok n := by
  obtain ⟨x', hx', htruncate⟩ := Binary64.truncate_ofNat hexact
  unfold pyFloat at hx
  rw [hx'] at hx
  obtain rfl := Except.ok.inj hx
  unfold pyInt
  rw [htruncate]

/-! ## Fields of ROS messages -/

/-- Assign `v` to an unsigned message field of the given width; an out-of-range value raises. -/
def unsignedField {α : Type} (bits : ℕ) (ofNat : ℕ → α) (v : ℤ) : Except PyError α :=
  if 0 ≤ v ∧ v < 2 ^ bits then .ok (ofNat v.toNat)
  else .error (.mk' .assertionError "field must be an unsigned integer in range")

def uint8Field : ℤ → Except PyError UInt8 := unsignedField 8 UInt8.ofNat
def uint32Field : ℤ → Except PyError UInt32 := unsignedField 32 UInt32.ofNat
def uint64Field : ℤ → Except PyError UInt64 := unsignedField 64 UInt64.ofNat

/-- Assign `v` to an `int32` message field. -/
def int32Field (v : ℤ) : Except PyError Int32 :=
  if -2 ^ 31 ≤ v ∧ v < 2 ^ 31 then .ok (Int32.ofInt v)
  else .error (.mk' .assertionError "field must be an integer in range")

theorem unsignedField_eq_ok {α : Type} {bits : ℕ} {ofNat : ℕ → α} {v : ℤ} {x : α} :
    unsignedField bits ofNat v = .ok x ↔ (0 ≤ v ∧ v < 2 ^ bits) ∧ ofNat v.toNat = x := by
  unfold unsignedField
  split
  · next h => simp [h]
  · next h => simp [h]

theorem uint8Field_eq_ok {v : ℤ} {x : UInt8} (h : uint8Field v = .ok x) : (x.toNat : ℤ) = v := by
  obtain ⟨⟨hv0, hv⟩, rfl⟩ := unsignedField_eq_ok.1 h
  rw [UInt8.toNat_ofNat']
  omega

theorem uint32Field_eq_ok {v : ℤ} {x : UInt32} (h : uint32Field v = .ok x) :
    (x.toNat : ℤ) = v := by
  obtain ⟨⟨hv0, hv⟩, rfl⟩ := unsignedField_eq_ok.1 h
  rw [UInt32.toNat_ofNat']
  omega

theorem uint64Field_eq_ok {v : ℤ} {x : UInt64} (h : uint64Field v = .ok x) :
    (x.toNat : ℤ) = v := by
  obtain ⟨⟨hv0, hv⟩, rfl⟩ := unsignedField_eq_ok.1 h
  rw [UInt64.toNat_ofNat']
  omega

theorem int32Field_eq_ok {v : ℤ} {x : Int32} (h : int32Field v = .ok x) : x.toInt = v := by
  unfold int32Field at h
  split at h
  · next hv =>
      simp only [Except.ok.injEq] at h
      rw [← h, Int32.toInt_ofInt_of_le hv.1 hv.2]
  · exact absurd h (by simp)

end PqcSecureComm
