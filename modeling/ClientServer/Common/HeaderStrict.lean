import ClientServer.Common.HeaderBounds

/-!
# Headers that no `serialize` has written

`deserialize` converts the digits at the front of a slice and looks at nothing
behind them, and takes leading zeros.  `serialize_deserialize_iff` says which of
the strings it accepts `serialize` would write for the header it read.
-/

namespace ClientServer

open CharEnum

/-! ## Enumerations -/

/-- Every code between the guards is the one of its enumerator. -/
class FullEnum (ε : Type) [CharEnum ε] : Prop where
  toUnderlying_ofUnderlying : ∀ code, Between ε code →
    toUnderlying (ofUnderlying code : ε) = code

/-- A property of all bytes is checked on their 256 values. -/
theorem forall_byte {P : UInt8 → Prop} (h : ∀ i : Fin 256, P ⟨⟨i⟩⟩) (code : UInt8) : P code :=
  h code.toFin

instance : FullEnum HEADERTYPE := ⟨forall_byte (by decide +kernel)⟩
instance : FullEnum COMPRESSORS := ⟨forall_byte (by decide +kernel)⟩
instance : FullEnum DIAGNOSTICS := ⟨forall_byte (by decide +kernel)⟩
instance : FullEnum STATUS := ⟨forall_byte (by decide +kernel)⟩

/-! ## Slices -/

/-- The slice of a size. -/
def sizeSlice (buffer : Bytes) (offset : Nat) : Bytes :=
  (buffer.drop offset).take DEFAULT_NUMSTRING_SIZE

/-- Digits without leading zeros, and zero bytes only behind them. -/
structure Padded (slice : Bytes) : Prop where
  digits : Numeral.NoLeadingZero (slice.takeWhile Numeral.isDigit)
  zeros : ∀ c ∈ slice.dropWhile Numeral.isDigit, c = 0

instance (slice : Bytes) : Decidable (Padded slice) :=
  decidable_of_iff
    (Numeral.NoLeadingZero (slice.takeWhile Numeral.isDigit) ∧
      (slice.dropWhile Numeral.isDigit).all (· == 0) = true) <| by
    rw [List.all_eq_true]
    simp only [beq_iff_eq]
    exact ⟨fun h => ⟨h.1, h.2⟩, fun h => ⟨h.digits, h.zeros⟩⟩

theorem sizeSlice_digits {buffer : Bytes} {offset : Nat} :
    ∀ c ∈ (sizeSlice buffer offset).takeWhile Numeral.isDigit, Numeral.isDigit c = true :=
  fun _ hc => List.mem_takeWhile_imp hc

theorem sizeAt_lt (buffer : Bytes) (offset : Nat) :
    sizeAt buffer offset < 10 ^ DEFAULT_NUMSTRING_SIZE := by
  refine Nat.lt_of_lt_of_le (Numeral.value_lt sizeSlice_digits) ?_
  refine Nat.pow_le_pow_right (by decide) ?_
  exact Nat.le_trans (List.takeWhile_prefix _).length_le (List.length_take_le _ _)

/-- A size is written as it was read exactly if its slice is padded. -/
theorem toCharsBoost_sizeAt_iff {buffer : Bytes} {offset : Nat}
    (hdigit : digitAt buffer offset = true)
    (hlength : (sizeSlice buffer offset).length = DEFAULT_NUMSTRING_SIZE) :
    toCharsBoost (sizeAt buffer offset) true = sizeSlice buffer offset ↔
      Padded (sizeSlice buffer offset) := by
  have hne : (sizeSlice buffer offset).takeWhile Numeral.isDigit ≠ [] := by
    rw [sizeSlice, DEFAULT_NUMSTRING_SIZE, ne_eq, takeWhile_isDigit_eq_nil_iff, hdigit]
    exact Bool.noConfusion
  have hvalue : sizeAt buffer offset =
      Numeral.value ((sizeSlice buffer offset).takeWhile Numeral.isDigit) := rfl
  have hlt := sizeAt_lt buffer offset
  constructor
  · intro hsame
    have hencode := takeWhile_toCharsBoost hlt
    rw [hsame] at hencode
    constructor
    · rw [hencode]
      exact Numeral.noLeadingZero_encode _
    · -- behind the numeral stands what `toCharsBoost` padded it with
      have hsplit := List.takeWhile_append_dropWhile (p := Numeral.isDigit)
        (l := sizeSlice buffer offset)
      rw [toCharsBoost_fixed hlt, ← hencode] at hsame
      have hzeros := List.append_cancel_left (hsame.trans hsplit.symm)
      intro c hc
      rw [← hzeros] at hc
      exact (List.mem_replicate.mp hc).2
  · intro hpadded
    have hencode : Numeral.encode (sizeAt buffer offset) =
        (sizeSlice buffer offset).takeWhile Numeral.isDigit := by
      rw [hvalue]
      exact Numeral.encode_value hne sizeSlice_digits hpadded.digits
    have hzeros := List.eq_replicate_iff.mpr ⟨rfl, hpadded.zeros⟩
    have hsplit := List.takeWhile_append_dropWhile (p := Numeral.isDigit)
      (l := sizeSlice buffer offset)
    have hcount := congrArg List.length hsplit
    rw [List.length_append, hlength] at hcount
    rw [toCharsBoost_fixed hlt, hencode]
    conv_rhs => rw [← hsplit, hzeros]
    congr 2
    omega

/-! ## The header -/

theorem drop_eq_byteAt {buffer : Bytes} {i : Nat} (h : i < buffer.length) :
    buffer.drop i = [byteAt buffer i] ++ buffer.drop (i + 1) := by
  have hbyte : byteAt buffer i = buffer[i] := by simp [byteAt, h]
  rw [List.drop_eq_getElem_cons h, hbyte, List.singleton_append]

theorem drop_eq_sizeSlice (buffer : Bytes) (offset : Nat) :
    buffer.drop offset = sizeSlice buffer offset ++ buffer.drop (offset + 10) := by
  rw [sizeSlice, DEFAULT_NUMSTRING_SIZE, ← List.drop_drop, List.take_append_drop]

theorem length_sizeSlice {buffer : Bytes} {offset : Nat} (h : offset + 10 ≤ buffer.length) :
    (sizeSlice buffer offset).length = DEFAULT_NUMSTRING_SIZE := by
  rw [sizeSlice, DEFAULT_NUMSTRING_SIZE, List.length_take, List.length_drop]
  omega

/-- The bytes in front of the fourth size. -/
def frontSlices (buffer : Bytes) : Bytes :=
  [byteAt buffer 0] ++ (sizeSlice buffer 1 ++ (sizeSlice buffer 11 ++ ([byteAt buffer 21] ++
    ([byteAt buffer 22] ++ ([byteAt buffer 23] ++ sizeSlice buffer 24)))))

theorem eq_slices {buffer : Bytes} (h : buffer.length = HEADER_SIZE) :
    buffer = frontSlices buffer ++ sizeSlice buffer 34 := by
  rw [HEADER_SIZE_eq] at h
  have hend : buffer.drop 44 = [] := List.drop_of_length_le (Nat.le_of_eq h)
  simp only [frontSlices, List.append_assoc]
  conv_lhs =>
    rw [← buffer.drop_zero, drop_eq_byteAt (by omega), drop_eq_sizeSlice, drop_eq_sizeSlice,
      drop_eq_byteAt (by omega), drop_eq_byteAt (by omega), drop_eq_byteAt (by omega),
      drop_eq_sizeSlice, drop_eq_sizeSlice, hend, List.append_nil]

/-- What `serialize` writes in front of the fourth size for a header that was
read. -/
def frontWritten (buffer : Bytes) : Bytes :=
  [byteAt buffer 0] ++ (toCharsBoost (sizeAt buffer 1) true ++
    (toCharsBoost (sizeAt buffer 11) true ++ ([byteAt buffer 21] ++ ([byteAt buffer 22] ++
      ([byteAt buffer 23] ++ toCharsBoost (sizeAt buffer 24) true)))))

theorem serialize_headerAt {buffer : Bytes} (h : HeaderAccepted buffer) :
    serialize (headerAt buffer) = frontWritten buffer ++ toCharsBoost (sizeAt buffer 24) true := by
  simp only [serialize, headerAt, frontWritten, FullEnum.toUnderlying_ofUnderlying _ h.headerType,
    FullEnum.toUnderlying_ofUnderlying _ h.compressor,
    FullEnum.toUnderlying_ofUnderlying _ h.diagnostics,
    FullEnum.toUnderlying_ofUnderlying _ h.status, List.append_assoc]

theorem append_eq_append_iff_of_length {a b c d : Bytes} (h : a.length = b.length) :
    a ++ c = b ++ d ↔ a = b ∧ c = d := by
  constructor
  · exact fun heq => List.append_inj heq h
  · rintro ⟨rfl, rfl⟩
    rfl

/-- The sizes that `deserialize` reads stand in their slices as `serialize`
writes them. -/
structure Strict (buffer : Bytes) : Prop where
  field1Size : Padded (sizeSlice buffer 1)
  field2Size : Padded (sizeSlice buffer 11)
  field3Size : Padded (sizeSlice buffer 24)

section Accepted

variable {buffer : Bytes}

theorem frontWritten_eq_iff (hlength : buffer.length = HEADER_SIZE) (h : HeaderAccepted buffer) :
    frontWritten buffer = frontSlices buffer ↔ Strict buffer := by
  rw [HEADER_SIZE_eq] at hlength
  have h1 := toCharsBoost_sizeAt_iff h.field1Size (length_sizeSlice (by omega))
  have h11 := toCharsBoost_sizeAt_iff h.field2Size (length_sizeSlice (by omega))
  have h24 := toCharsBoost_sizeAt_iff h.field3Size (length_sizeSlice (by omega))
  have hwidth : ∀ offset, offset + 10 ≤ 44 →
      ∀ size, (toCharsBoost size true).length = (sizeSlice buffer offset).length := by
    intro offset hoffset size
    rw [length_toCharsBoost_fixed, length_sizeSlice (by omega)]
  rw [frontWritten, frontSlices, List.append_cancel_left_eq,
    append_eq_append_iff_of_length (hwidth 1 (by omega) _),
    append_eq_append_iff_of_length (hwidth 11 (by omega) _), List.append_cancel_left_eq,
    List.append_cancel_left_eq, List.append_cancel_left_eq, h1, h11, h24]
  constructor
  · rintro ⟨hp1, hp11, hp24⟩
    exact ⟨hp1, hp11, hp24⟩
  · intro hstrict
    exact ⟨hstrict.field1Size, hstrict.field2Size, hstrict.field3Size⟩

theorem length_front (hlength : buffer.length = HEADER_SIZE) :
    (frontSlices buffer).length = 34 ∧ (frontWritten buffer).length = 34 := by
  rw [HEADER_SIZE_eq] at hlength
  simp [frontSlices, frontWritten, length_toCharsBoost_fixed, length_sizeSlice, hlength,
    DEFAULT_NUMSTRING_SIZE]

/-- The strings of 44 bytes that `deserialize` accepts and `serialize` would
write, up to the fourth size, for the header it read. -/
theorem serialize_deserialize_iff (hlength : buffer.length = HEADER_SIZE)
    {target header : HEADER} (h : deserialize target buffer = .ok (true, header)) :
    (serialize header).take 34 = buffer.take 34 ↔ Strict buffer := by
  obtain ⟨haccepted, rfl⟩ := (deserialize_true_iff target header buffer).mp h
  have hlengths := length_front hlength
  have hwritten : (serialize (headerAt buffer)).take 34 = frontWritten buffer := by
    rw [serialize_headerAt haccepted, List.take_left' hlengths.2]
  have hread : buffer.take 34 = frontSlices buffer := by
    conv_lhs => rw [eq_slices hlength, List.take_left' hlengths.1]
  rw [hwritten, hread]
  exact frontWritten_eq_iff hlength haccepted

end Accepted

/-- Of the image of a header, and of a buffer with letters behind its first size. -/
theorem serialize_deserialize_sample :
    ((serialize (sampleHeader 65 65)).take 34 = (serialize (sampleHeader 65 65)).take 34 ↔
      Strict (serialize (sampleHeader 65 65))) ∧
    ((serialize (sampleHeader 65 65)).take 34 =
        (bytes "B96rubbish" ++ [0] ++ (serialize (sampleHeader 65 65)).drop 11).take 34 ↔
      Strict (bytes "B96rubbish" ++ [0] ++ (serialize (sampleHeader 65 65)).drop 11)) ∧
    ¬ Strict (bytes "B96rubbish" ++ [0] ++ (serialize (sampleHeader 65 65)).drop 11) := by
  have hrubbish := @serialize_deserialize_iff
    (bytes "B96rubbish" ++ [0] ++ (serialize (sampleHeader 65 65)).drop 11) (by decide +kernel)
    default (sampleHeader 65 65) (by decide +kernel)
  exact ⟨@serialize_deserialize_iff (serialize (sampleHeader 65 65)) (length_serialize _) default
      (sampleHeader 65 65) (by decide +kernel), hrubbish,
    fun hstrict => absurd (hrubbish.mpr hstrict) (by decide +kernel)⟩

/-- Letters behind the first size are accepted, and not written back. -/
theorem serialize_deserialize_fails :
    ∃ buffer header, buffer.length = HEADER_SIZE ∧
      buffer = bytes "B96rubbish" ++ [0] ++ (serialize (sampleHeader 65 65)).drop 11 ∧
      deserialize default buffer = .ok (true, header) ∧ serialize header ≠ buffer := by
  refine ⟨_, sampleHeader 65 65, ?_, rfl, ?_, ?_⟩
  all_goals decide +kernel

end ClientServer
