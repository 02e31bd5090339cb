import ClientServer.Common.HeaderCodec

/-!
# The three compressors

`compress` and `uncompress` of `compressionLZ4`, `compressionSnappy` and
`compressionZSTD` over a work buffer that keeps what earlier calls left in it.
The library calls are parameters; `Lossless` is what each of them is documented to
do with one string.

LZ4 keeps no size of its own: the size of the data stands as a decimal in the
last 32 bytes.  Its calls count with an `int`, and the sizes of the strings are
passed for it as they are.  ZSTD trusts the frame for the size and looks at no
result of the decompression itself.
-/

namespace ClientServer

/-! ## Sizes -/

/-- `buffer.resize(size)`, for a size that a string can have. -/
def resize (buffer : Bytes) (size : Nat) : Bytes :=
  buffer.take size ++ List.replicate (size - buffer.length) 0

theorem length_resize (buffer : Bytes) (size : Nat) : (resize buffer size).length = size := by
  simp [resize]
  omega

/-- A `std::size_t` passed for an `int`. -/
def intOfSize (size : Nat) : Int := Int.bmod size (2 ^ 32)

/-- An `int` added to a `std::size_t`. -/
def addInt (size : Nat) (n : Int) : Nat := ((size + n) % 2 ^ 64).toNat

theorem intOfSize_of_lt {size : Nat} (h : size < 2 ^ 31) : intOfSize size = size := by
  unfold intOfSize
  rw [Int.bmod_eq_of_le]
  · omega
  · omega

theorem intOfSize_le (size : Nat) : intOfSize size ≤ size := by
  have := Int.bmod_def size (2 ^ 32)
  unfold intOfSize
  omega

theorem intOfSize_lt (size : Nat) : intOfSize size < 2 ^ 31 := by
  have := Int.bmod_lt (x := size) (m := 2 ^ 32) (by decide)
  unfold intOfSize
  omega

/-- A size below `2 ^ 32` stays as it is or becomes negative. -/
theorem intOfSize_of_nonneg {size : Nat} (hsize : size < 2 ^ 32) (h : 0 ≤ intOfSize size) :
    intOfSize size = size := by
  have := Int.bmod_def size (2 ^ 32)
  unfold intOfSize at *
  omega

/-- `std::string`.  An implementation has a largest size; above it `resize` and
`reserve` throw.  A string that has to grow gets the capacity `grow` of the one it had
and of the size that it needs. -/
structure StdString where
  max_size : Nat
  grow (capacity size : Nat) : Nat
  /-- It is a `std::size_t`. -/
  le_SIZE_MAX : max_size ≤ SIZE_MAX
  /-- A string can have any size that an `int` counts. -/
  two_pow_le : 2 ^ 32 ≤ max_size
  le_grow : ∀ {capacity size : Nat}, size ≤ max_size → size ≤ grow capacity size

namespace StdString

/-- That of a library of 64 bits, where a string at least doubles its capacity. -/
def wide : StdString where
  max_size := 2 ^ 62 - 1
  grow capacity size := min (max (2 * capacity) size) (2 ^ 62 - 1)
  le_SIZE_MAX := by decide
  two_pow_le := by decide
  le_grow h := le_min (le_max_right _ _) h

variable (string : StdString)

/-- `buffer.capacity()` behind `buffer.resize(size)`. -/
def capacityFor (capacity size : Nat) : Nat :=
  if size ≤ capacity then capacity else string.grow capacity size

/-- What `reserve` and `resize` check. -/
def checkLength (size : Nat) : Call Unit :=
  if string.max_size < size then .error .lengthError else .ok ()

def resize (buffer : Bytes) (size : Nat) : Call Bytes := do
  string.checkLength size
  return ClientServer.resize buffer size

variable {string}

theorem le_capacityFor (capacity : Nat) {size : Nat} (h : size ≤ string.max_size) :
    size ≤ string.capacityFor capacity size := by
  rw [capacityFor]
  split
  next hle => exact hle
  next => exact string.le_grow h

theorem checkLength_of_le {size : Nat} (h : size ≤ string.max_size) :
    string.checkLength size = .ok () := if_neg (Nat.not_lt.mpr h)

theorem checkLength_of_lt {size : Nat} (h : string.max_size < size) :
    string.checkLength size = .error .lengthError := if_pos h

theorem checkLength_eq_ok {size : Nat} (h : string.checkLength size = .ok ()) :
    size ≤ string.max_size := by
  rw [checkLength] at h
  split at h
  next => cases h
  next hle => exact Nat.not_lt.mp hle

theorem resize_of_le {buffer : Bytes} {size : Nat} (h : size ≤ string.max_size) :
    string.resize buffer size = .ok (ClientServer.resize buffer size) := by
  rw [resize, checkLength_of_le h]
  rfl

theorem resize_of_lt {buffer : Bytes} {size : Nat} (h : string.max_size < size) :
    string.resize buffer size = .error .lengthError := by
  rw [resize, checkLength_of_lt h]
  rfl

end StdString

/-- Bytes written over the front of a string that keeps its size. -/
def overwrite (buffer bytes : Bytes) : Bytes :=
  bytes.take buffer.length ++ buffer.drop bytes.length

/-! ## The libraries -/

/-- LZ4.  An empty result of `LZ4_compress_default` is its return value 0, no
result of `LZ4_decompress_safe` a negative one. -/
structure LZ4 where
  LZ4_compressBound (inputSize : Int) : Int
  LZ4_compress_default (src : Bytes) (srcSize dstCapacity : Int) : Bytes
  LZ4_decompress_safe (src : Bytes) (compressedSize dstCapacity : Int) : Option Bytes

/-- Snappy.  `Uncompress` may leave anything in the string it could not fill. -/
structure Snappy where
  Compress (input : Bytes) : Bytes
  IsValidCompressedBuffer (compressed : Bytes) : Bool
  Uncompress (compressed uncompressed : Bytes) : Bool × Bytes

/-- ZSTD, with the name of the error where a result is one.  `ZSTD_decompress`
returns its result and what it leaves in the destination. -/
structure ZSTD where
  ZSTD_compressBound (srcSize : Nat) : Nat
  ZSTD_compress (dstCapacity : Nat) (src : Bytes) (compressionLevel : Int) : Except String Bytes
  ZSTD_getFrameContentSize (src : Bytes) : Except String Nat
  ZSTD_decompress (dst src : Bytes) : Except String Nat × Bytes

/-! ## compressionLZ4 -/

/-- `LZ4_MAX_INPUT_SIZE`. -/
def LZ4_MAX_INPUT_SIZE : Nat := 0x7E000000

namespace compressionLZ4

/-- What `memset` and `toCharsBoost` write behind the compressed bytes. -/
def trailer (uncompressedSize : Nat) : Bytes :=
  overwrite (List.replicate CONV_BUFFER_SIZE 0) (toCharsBoost uncompressedSize false)

section

variable (string : StdString) (lib : LZ4)

def requiredCapacity (uncompressedSize : Nat) : Nat :=
  addInt CONV_BUFFER_SIZE (lib.LZ4_compressBound (intOfSize uncompressedSize))

/-- The result is the buffer and the data.  The destination is offered with the
capacity of the buffer behind its `resize`. -/
def compress (capacity : Nat) (data : Bytes) : Call (Bytes × Bytes) := do
  let uncompressedSize := data.length
  let requiredCapacity := requiredCapacity lib uncompressedSize
  string.checkLength requiredCapacity
  let compressed := lib.LZ4_compress_default data (intOfSize data.length)
    (intOfSize (string.capacityFor capacity requiredCapacity))
  if compressed.length = 0 then
    throw (.runtimeError "compress failed")
  string.checkLength (compressed.length + CONV_BUFFER_SIZE)
  return (data, compressed ++ trailer uncompressedSize)

def uncompress (buffer data : Bytes) : Call (Bytes × Bytes) :=
  -- the position wraps around where the data is shorter than the trailer
  if data.length < CONV_BUFFER_SIZE then .error .outOfRange
  else
    let metadata := data.drop (data.length - CONV_BUFFER_SIZE)
    match fromChars SIZE_MAX metadata with
    | .error ec => .error (.errorString ec)
    | .ok (uncomprSize, _) => do
        let data := data.take (data.length - metadata.length)
        -- no capacity is above `max_size`, so a size for which `reserve` throws is above it
        string.checkLength uncomprSize
        match lib.LZ4_decompress_safe data (intOfSize data.length) (intOfSize uncomprSize) with
        | none => .error (.runtimeError "uncompress failed")
        | some decompressed => .ok (overwrite buffer decompressed, decompressed)

end

/-- What LZ4 is documented to do with the front of a string.  `room` is the smallest
destination it takes for a string. -/
structure Lossless (lib : LZ4) (room : Bytes → Int) (data : Bytes) : Prop where
  bound : ∀ inputSize : Int, lib.LZ4_compressBound inputSize =
    if 0 ≤ inputSize ∧ inputSize ≤ LZ4_MAX_INPUT_SIZE then inputSize + inputSize / 255 + 16 else 0
  accepts : ∀ {srcSize dstCapacity : Int}, srcSize ≤ data.length →
    (lib.LZ4_compress_default data srcSize dstCapacity ≠ [] ↔
      0 ≤ srcSize ∧ srcSize ≤ LZ4_MAX_INPUT_SIZE ∧ room (data.take srcSize.toNat) ≤ dstCapacity)
  room_le : ∀ {srcSize : Int}, srcSize ≤ data.length → 0 ≤ srcSize →
    srcSize ≤ LZ4_MAX_INPUT_SIZE →
    room (data.take srcSize.toNat) ≤ lib.LZ4_compressBound srcSize
  length_le : ∀ {srcSize : Int} (dstCapacity : Int), srcSize ≤ data.length →
    ((lib.LZ4_compress_default data srcSize dstCapacity).length : Int) ≤
      lib.LZ4_compressBound srcSize
  decodes : ∀ {srcSize dstCapacity : Int}, srcSize ≤ data.length →
    lib.LZ4_compress_default data srcSize dstCapacity ≠ [] →
    lib.LZ4_decompress_safe (lib.LZ4_compress_default data srcSize dstCapacity)
      (lib.LZ4_compress_default data srcSize dstCapacity).length srcSize =
        some (data.take srcSize.toNat)

/-- The string is no longer than LZ4 takes, and the capacity that the work buffer has
or grows to is still enough when it is passed for an `int`. -/
def Offered (string : StdString) (lib : LZ4) (room : Bytes → Int) (capacity : Nat)
    (data : Bytes) : Prop :=
  data.length ≤ LZ4_MAX_INPUT_SIZE ∧
    (string.capacityFor capacity (requiredCapacity lib data.length) < 2 ^ 31 ∨
      room data ≤ intOfSize (string.capacityFor capacity (requiredCapacity lib data.length)))

theorem trailer_eq {size : Nat} (h : size ≤ SIZE_MAX) :
    trailer size = Numeral.encode size ++
      List.replicate (CONV_BUFFER_SIZE - (Numeral.encode size).length) 0 ∧
    (Numeral.encode size).length ≤ CONV_BUFFER_SIZE := by
  have hlength : (Numeral.encode size).length ≤ CONV_BUFFER_SIZE := by
    rw [CONV_BUFFER_SIZE, Numeral.length_encode_le_iff (by decide)]
    exact Nat.lt_of_le_of_lt h (by decide)
  refine ⟨?_, hlength⟩
  rw [trailer, toCharsBoost_variable, overwrite, List.length_replicate,
    List.take_of_length_le hlength, List.drop_replicate]

theorem length_trailer {size : Nat} (h : size ≤ SIZE_MAX) :
    (trailer size).length = CONV_BUFFER_SIZE := by
  obtain ⟨heq, hlength⟩ := trailer_eq h
  rw [heq, List.length_append, List.length_replicate]
  exact Nat.add_sub_cancel' hlength

theorem fromChars_trailer {size : Nat} (h : size ≤ SIZE_MAX) :
    ∃ rest, fromChars SIZE_MAX (trailer size) = .ok (size, rest) := by
  obtain ⟨heq, -⟩ := trailer_eq h
  have hdigits : (trailer size).takeWhile Numeral.isDigit = Numeral.encode size := by
    rw [heq]
    refine Numeral.takeWhile_encode size ?_
    intro c hc
    have : c = 0 := (List.mem_replicate.mp (List.mem_of_mem_head? hc)).2
    rw [this]
    exact Numeral.isDigit_zero
  refine ⟨(trailer size).dropWhile Numeral.isDigit, ?_⟩
  simp only [fromChars, hdigits, Numeral.encode_ne_nil, if_false, Numeral.value_encode,
    Nat.not_lt.mpr h]

variable {string : StdString} {lib : LZ4} {room : Bytes → Int} {data : Bytes} {capacity : Nat}

/-- The size behind the compressed bytes is the one the decoder is given. -/
theorem uncompress_append_trailer {compressed decompressed : Bytes} {size : Nat}
    (h : size ≤ SIZE_MAX) (hsize : size ≤ string.max_size)
    (hdecode : lib.LZ4_decompress_safe compressed (intOfSize compressed.length) (intOfSize size) =
      some decompressed) (buffer : Bytes) :
    uncompress string lib buffer (compressed ++ trailer size) =
      .ok (overwrite buffer decompressed, decompressed) := by
  have hcut : (compressed ++ trailer size).length - CONV_BUFFER_SIZE = compressed.length := by
    rw [List.length_append, length_trailer h]
    exact Nat.add_sub_cancel ..
  have hlong : ¬ (compressed ++ trailer size).length < CONV_BUFFER_SIZE := by
    rw [List.length_append, length_trailer h]
    exact Nat.not_lt.mpr (Nat.le_add_left ..)
  obtain ⟨rest, hnumber⟩ := fromChars_trailer h
  simp only [uncompress, if_neg hlong, hcut, List.drop_left, hnumber, length_trailer h,
    List.take_left, StdString.checkLength_of_le hsize, Outcome.ok_bind, hdecode]

/-! ### One string -/

theorem Lossless.bound_le (h : Lossless lib room data) (inputSize : Int) :
    lib.LZ4_compressBound inputSize < 2 ^ 31 - CONV_BUFFER_SIZE := by
  rw [h.bound, CONV_BUFFER_SIZE, LZ4_MAX_INPUT_SIZE]
  split <;> omega

theorem Lossless.requiredCapacity_eq (h : Lossless lib room data) (size : Nat) :
    (requiredCapacity lib size : Int) =
      CONV_BUFFER_SIZE + lib.LZ4_compressBound (intOfSize size) := by
  have hlt := h.bound_le (intOfSize size)
  have hpos : 0 ≤ lib.LZ4_compressBound (intOfSize size) := by
    rw [h.bound]
    split <;> omega
  rw [requiredCapacity, addInt, CONV_BUFFER_SIZE] at *
  omega

theorem Lossless.requiredCapacity_le (h : Lossless lib room data) (string : StdString)
    (size : Nat) :
    requiredCapacity lib size ≤ string.max_size := by
  have heq := h.requiredCapacity_eq size
  have hlt := h.bound_le (intOfSize size)
  have hlarge := string.two_pow_le
  omega

/-- The call of `LZ4_compress_default` succeeds where the size as an `int` is one
that LZ4 takes and the capacity as an `int` has room. -/
theorem Lossless.compress_iff (h : Lossless lib room data) {result : Bytes × Bytes} :
    compress string lib capacity data = .ok result ↔
      (0 ≤ intOfSize data.length ∧ intOfSize data.length ≤ LZ4_MAX_INPUT_SIZE ∧
        room (data.take (intOfSize data.length).toNat) ≤
          intOfSize (string.capacityFor capacity (requiredCapacity lib data.length))) ∧
      result = (data, lib.LZ4_compress_default data (intOfSize data.length)
        (intOfSize (string.capacityFor capacity (requiredCapacity lib data.length))) ++ trailer data.length) := by
  have hlarge := string.two_pow_le
  have hbound := h.bound_le (intOfSize data.length)
  have hfirst := h.requiredCapacity_le string data.length
  have hlength := h.length_le (intOfSize (string.capacityFor capacity (requiredCapacity lib data.length)))
    (intOfSize_le data.length)
  rw [← h.accepts (intOfSize_le data.length), compress]
  simp only [StdString.checkLength_of_le hfirst, Outcome.ok_bind]
  generalize lib.LZ4_compress_default data (intOfSize data.length) _ = compressed at *
  have hsecond : compressed.length + CONV_BUFFER_SIZE ≤ string.max_size := by
    omega
  cases compressed with
  | nil => simp [throw, throwThe, MonadExceptOf.throw]
  | cons byte rest =>
      rw [if_neg (by simp), StdString.checkLength_of_le hsecond]
      simp [eq_comm]

/-- What comes back is as much of the data as its size says when it is passed for an
`int`. -/
theorem Lossless.uncompress_of_compress (h : Lossless lib room data)
    (hsize : data.length ≤ string.max_size) {result : Bytes × Bytes}
    (hcompress : compress string lib capacity data = .ok result) (buffer : Bytes) :
    ∃ buffer', uncompress string lib buffer result.2 =
      .ok (buffer', data.take (intOfSize data.length).toNat) := by
  obtain ⟨hfits, rfl⟩ := h.compress_iff.mp hcompress
  have haccepted := (h.accepts (intOfSize_le data.length)).mpr hfits
  have hdecode := h.decodes (intOfSize_le data.length) haccepted
  have hlength := h.length_le (intOfSize (string.capacityFor capacity (requiredCapacity lib data.length)))
    (intOfSize_le data.length)
  have hbound := h.bound_le (intOfSize data.length)
  dsimp only
  generalize lib.LZ4_compress_default data (intOfSize data.length) _ = compressed at *
  have hint : intOfSize compressed.length = compressed.length := intOfSize_of_lt (by omega)
  rw [← hint] at hdecode
  exact ⟨_, uncompress_append_trailer (hsize.trans string.le_SIZE_MAX) hsize hdecode buffer⟩

/-- The conditions of both calls in one. -/
theorem Lossless.offered_iff (h : Lossless lib room data) :
    Offered string lib room capacity data ↔
      data.length < 2 ^ 32 ∧ 0 ≤ intOfSize data.length ∧
        intOfSize data.length ≤ LZ4_MAX_INPUT_SIZE ∧
        room (data.take (intOfSize data.length).toNat) ≤
          intOfSize (string.capacityFor capacity (requiredCapacity lib data.length)) := by
  have hmax : (LZ4_MAX_INPUT_SIZE : Int) = 0x7E000000 := rfl
  have hgrown := string.le_capacityFor capacity (h.requiredCapacity_le string data.length)
  rw [Offered]
  generalize string.capacityFor capacity (requiredCapacity lib data.length) = grown at *
  have hoffer : data.length ≤ LZ4_MAX_INPUT_SIZE →
      (room (data.take (intOfSize data.length).toNat) ≤ intOfSize grown ↔
        grown < 2 ^ 31 ∨ room data ≤ intOfSize grown) := by
    intro hle
    have hint : intOfSize data.length = data.length := intOfSize_of_lt (by omega)
    have hroom := h.room_le (Int.le_refl data.length) (by omega) (by omega)
    have heq := h.requiredCapacity_eq data.length
    rw [hint, Int.toNat_natCast, List.take_length] at *
    cases Nat.lt_or_ge grown (2 ^ 31) with
    | inl hlt =>
        refine iff_of_true ?_ (.inl hlt)
        rw [intOfSize_of_lt hlt]
        omega
    | inr hge => exact (or_iff_right (by omega)).symm
  constructor
  · intro ⟨hle, hcapacity⟩
    have hint : intOfSize data.length = data.length := intOfSize_of_lt (by omega)
    exact ⟨by omega, by omega, by omega, (hoffer hle).mpr hcapacity⟩
  · intro ⟨hlt, hpos, hle, hcapacity⟩
    have hint := intOfSize_of_nonneg hlt hpos
    have hle' : data.length ≤ LZ4_MAX_INPUT_SIZE := by omega
    exact ⟨hle', (hoffer hle').mp hcapacity⟩

/-- What LZ4 was offered is compressed. -/
theorem Lossless.compress_of_offered (h : Lossless lib room data)
    (hoffered : Offered string lib room capacity data) :
    ∃ packed, compress string lib capacity data = .ok (data, packed) :=
  ⟨_, h.compress_iff.mpr ⟨(h.offered_iff.mp hoffered).2, rfl⟩⟩

/-- What an `unsigned int` counts comes back whole, if it could be compressed. -/
theorem Lossless.restores (h : Lossless lib room data) (hlt : data.length < 2 ^ 32)
    {result : Bytes × Bytes} (hcompress : compress string lib capacity data = .ok result)
    (buffer : Bytes) :
    ∃ buffer', uncompress string lib buffer result.2 = .ok (buffer', data) := by
  obtain ⟨buffer', huncompress⟩ :=
    h.uncompress_of_compress (hlt.le.trans string.two_pow_le) hcompress buffer
  obtain ⟨⟨hpos, -, -⟩, -⟩ := h.compress_iff.mp hcompress
  rw [intOfSize_of_nonneg hlt hpos, Int.toNat_natCast, List.take_length] at huncompress
  exact ⟨buffer', huncompress⟩

theorem Lossless.offered_of_restores (h : Lossless lib room data)
    (hsize : data.length ≤ string.max_size) {result : Bytes × Bytes}
    (hcompress : compress string lib capacity data = .ok result) {buffer buffer' : Bytes}
    (huncompress : uncompress string lib buffer result.2 = .ok (buffer', data)) :
    Offered string lib room capacity data := by
  refine h.offered_iff.mpr ⟨?_, (h.compress_iff.mp hcompress).1⟩
  obtain ⟨buffer'', hfront⟩ := h.uncompress_of_compress hsize hcompress buffer
  obtain ⟨-, htake⟩ := Prod.mk.inj (Except.ok.inj (hfront.symm.trans huncompress))
  have hlength := congrArg List.length htake
  have hlt := intOfSize_lt data.length
  rw [List.length_take] at hlength
  omega

end compressionLZ4

/-! ## compressionSnappy -/

namespace compressionSnappy

variable (lib : Snappy)

/-- The result is the return value, the buffer and the data. -/
def compress (data : Bytes) : Bool × Bytes × Bytes :=
  let buffer := lib.Compress data
  if buffer.length ≠ 0 then (true, buffer, buffer) else (false, buffer, data)

def uncompress (buffer data : Bytes) : Call (Bool × Bytes × Bytes) :=
  if lib.IsValidCompressedBuffer data then
    match lib.Uncompress data buffer with
    | (true, buffer) => .ok (true, data, buffer)
    | (false, buffer) => .ok (false, buffer, data)
  else .error (.runtimeError "data is not valid.")

/-- Snappy brings a string back, whatever stood in the string it fills. -/
def Lossless (lib : Snappy) (data : Bytes) : Prop :=
  lib.Compress data ≠ [] ∧ lib.IsValidCompressedBuffer (lib.Compress data) = true ∧
    ∀ buffer, lib.Uncompress (lib.Compress data) buffer = (true, data)

theorem uncompress_compress {data : Bytes} (h : Lossless lib data) :
    ∃ compressed, compress lib data = (true, compressed, compressed) ∧
      ∀ buffer, ∃ buffer', uncompress lib buffer compressed = .ok (true, buffer', data) := by
  obtain ⟨hne, hvalid, hdecode⟩ := h
  refine ⟨lib.Compress data, ?_, fun buffer => ⟨lib.Compress data, ?_⟩⟩
  · rw [compress, if_pos]
    exact fun hzero => hne (List.eq_nil_of_length_eq_zero hzero)
  · rw [uncompress, if_pos hvalid, hdecode]

end compressionSnappy

/-! ## compressionZSTD -/

namespace compressionZSTD

section

variable (string : StdString) (lib : ZSTD)

/-- The result is the buffer and the data. -/
def compress (buffer data : Bytes) (compressionLevel : Int) : Call (Bytes × Bytes) := do
  let dstSize := lib.ZSTD_compressBound data.length
  let buffer ← string.resize buffer dstSize
  match lib.ZSTD_compress dstSize data compressionLevel with
  | .error name => throw (.runtimeError name)
  | .ok compressed => return (overwrite buffer compressed, compressed)

def uncompress (buffer data : Bytes) : Call (Bytes × Bytes) := do
  match lib.ZSTD_getFrameContentSize data with
  | .error name => throw (.runtimeError name)
  | .ok decompressedSize =>
      let buffer ← string.resize buffer decompressedSize
      -- the result of the decompression is not looked at
      let (_, buffer) := lib.ZSTD_decompress buffer data
      return (data, buffer)

end

/-- ZSTD brings a string back into any destination of its size. -/
structure Lossless (lib : ZSTD) (data : Bytes) (compressionLevel : Int) : Prop where
  le_bound : data.length ≤ lib.ZSTD_compressBound data.length
  decodes : ∃ compressed,
    lib.ZSTD_compress (lib.ZSTD_compressBound data.length) data compressionLevel = .ok compressed ∧
    lib.ZSTD_getFrameContentSize compressed = .ok data.length ∧
    ∀ dst, dst.length = data.length →
      lib.ZSTD_decompress dst compressed = (.ok data.length, data)

variable {string : StdString} {lib : ZSTD} {data : Bytes} {compressionLevel : Int}

/-- Compression succeeds where a string can have the size that ZSTD asks for. -/
theorem Lossless.compress_iff (h : Lossless lib data compressionLevel) (buffer : Bytes) :
    (∃ result, compress string lib buffer data compressionLevel = .ok result) ↔
      lib.ZSTD_compressBound data.length ≤ string.max_size := by
  obtain ⟨compressed, hencode, -⟩ := h.decodes
  constructor
  · intro ⟨result, hresult⟩
    by_contra hlt
    rw [compress, StdString.resize_of_lt (Nat.not_le.mp hlt)] at hresult
    cases hresult
  · intro hle
    rw [compress, StdString.resize_of_le hle, Outcome.ok_bind, hencode]
    exact ⟨_, rfl⟩

theorem Lossless.restores (h : Lossless lib data compressionLevel) {buffer : Bytes}
    {result : Bytes × Bytes}
    (hcompress : compress string lib buffer data compressionLevel = .ok result)
    (buffer : Bytes) :
    ∃ buffer', uncompress string lib buffer result.2 = .ok (buffer', data) := by
  have hle := (h.compress_iff _).mp ⟨result, hcompress⟩
  obtain ⟨compressed, hencode, hframe, hdecode⟩ := h.decodes
  rw [compress, StdString.resize_of_le hle, Outcome.ok_bind, hencode] at hcompress
  obtain rfl := Except.ok.inj hcompress
  refine ⟨compressed, ?_⟩
  simp only [uncompress, hframe, StdString.resize_of_le (h.le_bound.trans hle), Outcome.ok_bind,
    hdecode _ (length_resize buffer data.length), Outcome.pure_eq_ok]

end compressionZSTD

end ClientServer
