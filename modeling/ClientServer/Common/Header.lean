import ClientServer.Common.Fault
import ClientServer.Library.Numeral

/-!
# The message header

The header of `common/Header.h`: eight fields at fixed offsets in 44 bytes.
`serialize` writes it and `deserialize` reads it from the front of a string.
Sizes are decimal, padded with zero bytes to ten characters.

`deserialize` takes a pointer and no length.  The string the pointer comes from
is the argument here, and every byte is read through `charAt`, so a read past
the end of a short string is a fault of the call.  Printing the header, which
an option turns on, is left out.
-/

namespace ClientServer

def HEADERTYPE_SIZE := 1
def FIELD1_SIZE := 10
def FIELD2_SIZE := 10
def COMPRESSOR_SIZE := 1
def DIAGNOSTICS_SIZE := 1
def STATUS_SIZE := 1
def FIELD3_SIZE := 10
def FIELD4_SIZE := 10
def HEADER_SIZE :=
  HEADERTYPE_SIZE + FIELD1_SIZE + FIELD2_SIZE + COMPRESSOR_SIZE +
  DIAGNOSTICS_SIZE + STATUS_SIZE + FIELD3_SIZE + FIELD4_SIZE

theorem HEADER_SIZE_eq : HEADER_SIZE = 44 := rfl

/-! ## Enumerations over `char` -/

/-- An enumeration whose underlying type is `char`.  `unset` is the value 0 of
a value-initialised variable, which no enumerator names. -/
class CharEnum (ε : Type) where
  toUnderlying : ε → UInt8
  ofUnderlying : UInt8 → ε
  INVALIDLOW : ε
  INVALIDHIGH : ε
  ofUnderlying_toUnderlying : ∀ e, ofUnderlying (toUnderlying e) = e

inductive HEADERTYPE where
  | unset
  | INVALIDLOW | NONE | AUTHENTICATE | DH_HANDSHAKE | HEARTBEAT | SESSION | ERROR | INVALIDHIGH
deriving DecidableEq, Repr, Inhabited

inductive COMPRESSORS where
  | unset
  | INVALIDLOW | NONE | LZ4 | SNAPPY | ZSTD | INVALIDHIGH
deriving DecidableEq, Repr, Inhabited

inductive DIAGNOSTICS where
  | unset
  | INVALIDLOW | NONE | ENABLED | INVALIDHIGH
deriving DecidableEq, Repr, Inhabited

inductive STATUS where
  | unset
  | INVALIDLOW | NONE | SUBTASK_DONE | TASK_DONE | BAD_HEADER | COMPRESSION_PROBLEM
  | ENCRYPTION_PROBLEM | DECRYPTION_PROBLEM | DECOMPRESSION_PROBLEM | FIFO_PROBLEM | TCP_PROBLEM
  | TCP_TIMEOUT | HEARTBEAT_PROBLEM | HEARTBEAT_TIMEOUT | MAX_TOTAL_OBJECTS | MAX_OBJECTS_OF_TYPE
  | SESSION_STOPPED | STOPPED | ERROR | INVALIDHIGH
deriving DecidableEq, Repr, Inhabited

instance : CharEnum HEADERTYPE where
  toUnderlying
    | .unset => 0
    | .INVALIDLOW => 64
    | .NONE => 65
    | .AUTHENTICATE => 66
    | .DH_HANDSHAKE => 67
    | .HEARTBEAT => 68
    | .SESSION => 69
    | .ERROR => 70
    | .INVALIDHIGH => 71
  ofUnderlying c :=
    match c.toNat with
    | 64 => .INVALIDLOW
    | 65 => .NONE
    | 66 => .AUTHENTICATE
    | 67 => .DH_HANDSHAKE
    | 68 => .HEARTBEAT
    | 69 => .SESSION
    | 70 => .ERROR
    | 71 => .INVALIDHIGH
    | _ => .unset
  INVALIDLOW := .INVALIDLOW
  INVALIDHIGH := .INVALIDHIGH
  ofUnderlying_toUnderlying e := by cases e <;> rfl

instance : CharEnum COMPRESSORS where
  toUnderlying
    | .unset => 0
    | .INVALIDLOW => 64
    | .NONE => 65
    | .LZ4 => 66
    | .SNAPPY => 67
    | .ZSTD => 68
    | .INVALIDHIGH => 69
  ofUnderlying c :=
    match c.toNat with
    | 64 => .INVALIDLOW
    | 65 => .NONE
    | 66 => .LZ4
    | 67 => .SNAPPY
    | 68 => .ZSTD
    | 69 => .INVALIDHIGH
    | _ => .unset
  INVALIDLOW := .INVALIDLOW
  INVALIDHIGH := .INVALIDHIGH
  ofUnderlying_toUnderlying e := by cases e <;> rfl

instance : CharEnum DIAGNOSTICS where
  toUnderlying
    | .unset => 0
    | .INVALIDLOW => 64
    | .NONE => 65
    | .ENABLED => 66
    | .INVALIDHIGH => 67
  ofUnderlying c :=
    match c.toNat with
    | 64 => .INVALIDLOW
    | 65 => .NONE
    | 66 => .ENABLED
    | 67 => .INVALIDHIGH
    | _ => .unset
  INVALIDLOW := .INVALIDLOW
  INVALIDHIGH := .INVALIDHIGH
  ofUnderlying_toUnderlying e := by cases e <;> rfl

instance : CharEnum STATUS where
  toUnderlying
    | .unset => 0
    | .INVALIDLOW => 64
    | .NONE => 65
    | .SUBTASK_DONE => 66
    | .TASK_DONE => 67
    | .BAD_HEADER => 68
    | .COMPRESSION_PROBLEM => 69
    | .ENCRYPTION_PROBLEM => 70
    | .DECRYPTION_PROBLEM => 71
    | .DECOMPRESSION_PROBLEM => 72
    | .FIFO_PROBLEM => 73
    | .TCP_PROBLEM => 74
    | .TCP_TIMEOUT => 75
    | .HEARTBEAT_PROBLEM => 76
    | .HEARTBEAT_TIMEOUT => 77
    | .MAX_TOTAL_OBJECTS => 78
    | .MAX_OBJECTS_OF_TYPE => 79
    | .SESSION_STOPPED => 80
    | .STOPPED => 81
    | .ERROR => 82
    | .INVALIDHIGH => 83
  ofUnderlying c :=
    match c.toNat with
    | 64 => .INVALIDLOW
    | 65 => .NONE
    | 66 => .SUBTASK_DONE
    | 67 => .TASK_DONE
    | 68 => .BAD_HEADER
    | 69 => .COMPRESSION_PROBLEM
    | 70 => .ENCRYPTION_PROBLEM
    | 71 => .DECRYPTION_PROBLEM
    | 72 => .DECOMPRESSION_PROBLEM
    | 73 => .FIFO_PROBLEM
    | 74 => .TCP_PROBLEM
    | 75 => .TCP_TIMEOUT
    | 76 => .HEARTBEAT_PROBLEM
    | 77 => .HEARTBEAT_TIMEOUT
    | 78 => .MAX_TOTAL_OBJECTS
    | 79 => .MAX_OBJECTS_OF_TYPE
    | 80 => .SESSION_STOPPED
    | 81 => .STOPPED
    | 82 => .ERROR
    | 83 => .INVALIDHIGH
    | _ => .unset
  INVALIDLOW := .INVALIDLOW
  INVALIDHIGH := .INVALIDHIGH
  ofUnderlying_toUnderlying e := by cases e <;> rfl

namespace CharEnum

variable {ε : Type} [CharEnum ε]

/-- A code strictly between the two guard enumerators. -/
def Between (ε : Type) [CharEnum ε] (code : UInt8) : Prop :=
  toUnderlying (INVALIDLOW : ε) < code ∧ code < toUnderlying (INVALIDHIGH : ε)

instance (code : UInt8) : Decidable (Between ε code) := inferInstanceAs (Decidable (_ ∧ _))

/-- An enumerator strictly between the two guards. -/
def Valid (e : ε) : Prop := Between ε (toUnderlying e)

instance (e : ε) : Decidable (Valid e) := inferInstanceAs (Decidable (Between ε _))

end CharEnum

open CharEnum

/-- `deserializeEnumeration`: `none` where it returns false and leaves the
element as it was.  Codes from 128 on are negative in the source and above
every guard here; both tests refuse them. -/
def deserializeEnumeration (ε : Type) [CharEnum ε] (code : UInt8) : Option ε :=
  if code ≤ toUnderlying (INVALIDLOW : ε) ∨ toUnderlying (INVALIDHIGH : ε) ≤ code then none
  else some (ofUnderlying code)

theorem deserializeEnumeration_isSome {ε : Type} [CharEnum ε] {code : UInt8} :
    (deserializeEnumeration ε code).isSome ↔ Between ε code := by
  unfold deserializeEnumeration Between
  split
  · next h => simp only [Option.isSome_none, Bool.false_eq_true, false_iff, not_and]; grind
  · next h => simp only [Option.isSome_some, true_iff]; grind

theorem deserializeEnumeration_eq_none {ε : Type} [CharEnum ε] {code : UInt8}
    (h : ¬ Between ε code) : deserializeEnumeration ε code = none := by
  rw [← Option.not_isSome_iff_eq_none, deserializeEnumeration_isSome]
  exact h

theorem deserializeEnumeration_toUnderlying {ε : Type} [CharEnum ε] {e : ε} (h : Valid e) :
    deserializeEnumeration ε (toUnderlying e) = some e := by
  unfold deserializeEnumeration
  rw [if_neg, ofUnderlying_toUnderlying]
  unfold Valid Between at h
  grind

/-- The terminating zero byte is no enumerator. -/
theorem not_between_zero {ε : Type} [CharEnum ε] : ¬ Between ε 0 := by
  intro h
  exact absurd h.1 (by simp)

/-! ## The header -/

/-- The tuple `HEADER`. -/
structure HEADER where
  headerType : HEADERTYPE
  field1Size : Nat
  field2Size : Nat
  compressor : COMPRESSORS
  diagnostics : DIAGNOSTICS
  status : STATUS
  field3Size : Nat
  field4Size : Nat
deriving DecidableEq, Repr, Inhabited

def isCompressed (header : HEADER) : Bool :=
  match header.compressor with
  | .LZ4 | .SNAPPY | .ZSTD => true
  | _ => false

def isDiagnosticsEnabled (header : HEADER) : Bool := header.diagnostics == .ENABLED

def isOk (header : HEADER) : Bool :=
  match header.status with
  | .NONE | .MAX_TOTAL_OBJECTS | .MAX_OBJECTS_OF_TYPE => true
  | _ => false

/-- The enumerations of a header are all valid. -/
structure HEADER.Valid (header : HEADER) : Prop where
  headerType : CharEnum.Valid header.headerType
  compressor : CharEnum.Valid header.compressor
  diagnostics : CharEnum.Valid header.diagnostics
  status : CharEnum.Valid header.status

instance (header : HEADER) : Decidable header.Valid :=
  decidable_of_iff
    (CharEnum.Valid header.headerType ∧ CharEnum.Valid header.compressor ∧
      CharEnum.Valid header.diagnostics ∧ CharEnum.Valid header.status)
    ⟨fun ⟨h1, h2, h3, h4⟩ => ⟨h1, h2, h3, h4⟩, fun ⟨h1, h2, h3, h4⟩ => ⟨h1, h2, h3, h4⟩⟩

/-- The size fields have at most ten decimal digits. -/
structure HEADER.SizesFit (header : HEADER) : Prop where
  field1Size : header.field1Size < 10 ^ FIELD1_SIZE
  field2Size : header.field2Size < 10 ^ FIELD2_SIZE
  field3Size : header.field3Size < 10 ^ FIELD3_SIZE
  field4Size : header.field4Size < 10 ^ FIELD4_SIZE

instance (header : HEADER) : Decidable header.SizesFit :=
  decidable_of_iff
    (header.field1Size < 10 ^ FIELD1_SIZE ∧ header.field2Size < 10 ^ FIELD2_SIZE ∧
      header.field3Size < 10 ^ FIELD3_SIZE ∧ header.field4Size < 10 ^ FIELD4_SIZE)
    ⟨fun ⟨h1, h2, h3, h4⟩ => ⟨h1, h2, h3, h4⟩, fun ⟨h1, h2, h3, h4⟩ => ⟨h1, h2, h3, h4⟩⟩

/-! ## Number conversion -/

def CONV_BUFFER_SIZE := 32
def DEFAULT_NUMSTRING_SIZE := 10

/-- The largest `std::size_t`. -/
def SIZE_MAX := 2 ^ 64 - 1

/-- `toCharsBoost`: the buffer is zeroed, so a fixed size pads with zero bytes
and cuts a longer numeral.  A `std::size_t` never overruns the buffer. -/
def toCharsBoost (value : Nat) (fixedSize : Bool) : Bytes :=
  let digits := Numeral.encode value
  let buffer := digits ++ List.replicate (CONV_BUFFER_SIZE - digits.length) 0
  buffer.take (if fixedSize then DEFAULT_NUMSTRING_SIZE else digits.length)

/-- `from_chars` into an unsigned integer: the longest prefix of digits, with
what follows it.  A sign or a blank in front is no digit. -/
def fromChars (max : Nat) (str : Bytes) : Except Errc (Nat × Bytes) :=
  let digits := str.takeWhile Numeral.isDigit
  if digits = [] then .error .invalid_argument
  else if max < Numeral.value digits then .error .result_out_of_range
  else .ok (Numeral.value digits, str.dropWhile Numeral.isDigit)

/-- `fromCharsBoost` into an unsigned integer. -/
def fromCharsBoost (max : Nat) (str : Bytes) : Call Nat :=
  match fromChars max str with
  | .ok (value, _) => .ok value
  | .error _ => .error (.runtimeError "conversion failed")

/-- The bytes `from_chars` looks at in the view `(buffer + offset, size)`, up to
the first that is no digit; only the digits are returned. -/
def readDigits (buffer : Bytes) : (offset size : Nat) → Call Bytes
  | _, 0 => .ok []
  | offset, size + 1 => do
      let c ← charAt buffer offset
      if Numeral.isDigit c then
        let digits ← readDigits buffer (offset + 1) size
        return c :: digits
      else
        return []

/-! ## Serialization -/

def serialize (header : HEADER) : Bytes :=
  [toUnderlying header.headerType] ++
  toCharsBoost header.field1Size true ++
  toCharsBoost header.field2Size true ++
  [toUnderlying header.compressor] ++
  [toUnderlying header.diagnostics] ++
  [toUnderlying header.status] ++
  toCharsBoost header.field3Size true ++
  toCharsBoost header.field4Size true

/-- The result of `deserialize` is its return value and the header it filled,
which keeps its old fields from the place on where it returned false. -/
def deserialize (header : HEADER) (buffer : Bytes) : Call (Bool × HEADER) := do
  let offset := 0
  let some headerType := deserializeEnumeration HEADERTYPE (← charAt buffer offset)
    | return (false, header)
  let header := { header with headerType }
  let offset := offset + HEADERTYPE_SIZE
  let strz ← readDigits buffer offset FIELD1_SIZE
  let header := { header with field1Size := ← fromCharsBoost SIZE_MAX strz }
  let offset := offset + FIELD1_SIZE
  let stru ← readDigits buffer offset FIELD2_SIZE
  let header := { header with field2Size := ← fromCharsBoost SIZE_MAX stru }
  let offset := offset + FIELD2_SIZE
  let some compressor := deserializeEnumeration COMPRESSORS (← charAt buffer offset)
    | return (false, header)
  let header := { header with compressor }
  let offset := offset + COMPRESSOR_SIZE
  let some diagnostics := deserializeEnumeration DIAGNOSTICS (← charAt buffer offset)
    | return (false, header)
  let header := { header with diagnostics }
  let offset := offset + DIAGNOSTICS_SIZE
  let some status := deserializeEnumeration STATUS (← charAt buffer offset)
    | return (false, header)
  let header := { header with status }
  let offset := offset + STATUS_SIZE
  let strp ← readDigits buffer offset FIELD3_SIZE
  let header := { header with field3Size := ← fromCharsBoost SIZE_MAX strp }
  -- the view `strq` of the fourth field is built and not used: `strp` is read again
  let strp ← readDigits buffer offset FIELD3_SIZE
  let header := { header with field4Size := ← fromCharsBoost SIZE_MAX strp }
  return (true, header)

end ClientServer
