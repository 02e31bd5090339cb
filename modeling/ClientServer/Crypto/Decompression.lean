import ClientServer.Crypto.Pipeline

/-!
# What decompression passes on

A decoder of a library is a partial function on byte strings.  An `uncompress`
is faithful on a string if it reports success with decoded content only and does
not let the buffer it works in show.  Snappy is faithful on every string, and LZ4
on every string that it is given whole: the size of the block is passed for an
`int`, and from 4 GiB on that is the size of a front of it.  ZSTD is faithful where
the frame is one the decoder accepts, with as much content as its header says: the
result of `ZSTD_decompress` is looked at by nobody, and where it is an error, the
buffer with what an earlier message left in it is returned as data.
-/

namespace ClientServer

/-- An `uncompress` as a function of the work buffer: its return value and the
data it leaves. -/
structure Faithful (content : Option Bytes) (uncompress : Bytes → Call (Bool × Bytes)) : Prop where
  decoded : ∀ buffer data, uncompress buffer = .ok (true, data) → content = some data
  indep : ∀ buffer buffer', uncompress buffer = uncompress buffer'

/-- What throws on every buffer passes nothing on. -/
theorem Faithful.of_throws {content : Option Bytes} {uncompress : Bytes → Call (Bool × Bytes)}
    {fault : Fault} (h : ∀ buffer, uncompress buffer = .error fault) :
    Faithful content uncompress := by
  refine ⟨fun buffer data hok => ?_, fun buffer buffer' => ?_⟩
  · rw [h] at hok
    cases hok
  · rw [h, h]

/-! ## compressionLZ4 -/

namespace compressionLZ4

/-- The library decodes the front of `src` into a destination that has room for its
content; a negative size is an error. -/
def Decodes (lib : LZ4) (decode : Bytes → Option Bytes) : Prop :=
  ∀ src (compressedSize dstCapacity : Int),
    lib.LZ4_decompress_safe src compressedSize dstCapacity =
      if compressedSize < 0 then none
      else (decode (src.take compressedSize.toNat)).filter fun content =>
        (content.length : Int) ≤ dstCapacity

/-- The return value, which a void function has not, and the data. -/
def uncompressed (string : StdString) (lib : LZ4) (data buffer : Bytes) : Call (Bool × Bytes) :=
  (uncompress string lib buffer data).map fun result => (true, result.2)

/-- The block in front of the decimal trailer. -/
def block (data : Bytes) : Bytes := data.take (data.length - CONV_BUFFER_SIZE)

/-- The last bytes begin with this decimal. -/
def Announces (data : Bytes) (uncomprSize : Nat) : Prop :=
  ∃ digits rest, data = block data ++ (digits ++ rest) ∧
    (digits ++ rest).length = CONV_BUFFER_SIZE ∧ digits ≠ [] ∧
    (∀ c ∈ digits, Numeral.isDigit c = true) ∧ (∀ c ∈ rest.head?, Numeral.isDigit c = false) ∧
    Numeral.value digits = uncomprSize

/-- The `int` is the size of the block, or what the decoder makes of so many bytes of
it is what the block decodes to. -/
def Whole (string : StdString) (decode : Bytes → Option Bytes) (data : Bytes) : Prop :=
  (block data).length < 2 ^ 31 ∨
    ∀ uncomprSize content, Announces data uncomprSize → uncomprSize ≤ string.max_size →
      0 ≤ intOfSize (block data).length →
      decode ((block data).take (intOfSize (block data).length).toNat) = some content →
      (content.length : Int) ≤ intOfSize uncomprSize → decode (block data) = some content

/-- What `fromChars` reads of the trailer is the number that it begins with. -/
theorem announces_iff {data : Bytes} (hlong : CONV_BUFFER_SIZE ≤ data.length) {n : Nat} :
    Announces data n ∧ n ≤ SIZE_MAX ↔
      ∃ rest, fromChars SIZE_MAX (data.drop (data.length - CONV_BUFFER_SIZE)) = .ok (n, rest) := by
  constructor
  · rintro ⟨⟨digits, rest, hdata, -, hne, hdigits, hrest, rfl⟩, hle⟩
    have hdrop : data.drop (data.length - CONV_BUFFER_SIZE) = digits ++ rest :=
      List.append_cancel_left ((List.take_append_drop _ _).trans hdata)
    refine ⟨(digits ++ rest).dropWhile Numeral.isDigit, ?_⟩
    rw [hdrop, fromChars, Numeral.takeWhile_digits hdigits hrest]
    simp only [if_neg hne, if_neg (Nat.not_lt.mpr hle)]
  · rintro ⟨rest, hread⟩
    simp only [fromChars] at hread
    split at hread
    next => cases hread
    next hne =>
      split at hread
      next => cases hread
      next hle =>
        obtain ⟨hvalue, -⟩ := Prod.mk.inj (Except.ok.inj hread)
        refine ⟨⟨_, (data.drop (data.length - CONV_BUFFER_SIZE)).dropWhile Numeral.isDigit, ?_, ?_,
          hne, ?_, ?_, hvalue⟩, hvalue ▸ Nat.not_lt.mp hle⟩
        · rw [List.takeWhile_append_dropWhile, block, List.take_append_drop]
        · rw [List.takeWhile_append_dropWhile, List.length_drop]
          omega
        · exact fun c hc => List.mem_takeWhile_imp hc
        · intro c hc
          have hnot := List.head?_dropWhile_not Numeral.isDigit
            (data.drop (data.length - CONV_BUFFER_SIZE))
          rw [Option.mem_def.mp hc] at hnot
          simpa using hnot

theorem Announces.length_le {data : Bytes} {n : Nat} (h : Announces data n) :
    CONV_BUFFER_SIZE ≤ data.length := by
  obtain ⟨digits, rest, hdata, hlength, -⟩ := h
  rw [hdata, List.length_append, hlength]
  exact Nat.le_add_left ..

theorem uncompress_eq (string : StdString) (lib : LZ4) (buffer data : Bytes) :
    uncompress string lib buffer data =
      if data.length < CONV_BUFFER_SIZE then .error .outOfRange
      else
        match fromChars SIZE_MAX (data.drop (data.length - CONV_BUFFER_SIZE)) with
        | .error ec => .error (.errorString ec)
        | .ok (uncomprSize, _) => string.checkLength uncomprSize >>= fun _ =>
            match lib.LZ4_decompress_safe (block data) (intOfSize (block data).length)
              (intOfSize uncomprSize) with
            | none => .error (.runtimeError "uncompress failed")
            | some decompressed => .ok (overwrite buffer decompressed, decompressed) := by
  rw [uncompress]
  split
  · rfl
  · next hlong =>
      have hmetadata : (data.drop (data.length - CONV_BUFFER_SIZE)).length = CONV_BUFFER_SIZE := by
        rw [List.length_drop]
        omega
      dsimp only
      rw [hmetadata]
      rfl

variable {string : StdString} {lib : LZ4} {decode : Bytes → Option Bytes}

/-- What is returned is what the library makes of as many bytes as the `int` says,
where the trailer announces room for it. -/
theorem uncompressed_eq_ok_iff (hlib : Decodes lib decode) {data buffer content : Bytes} :
    uncompressed string lib data buffer = .ok (true, content) ↔
      ∃ uncomprSize, Announces data uncomprSize ∧ uncomprSize ≤ string.max_size ∧
        0 ≤ intOfSize (block data).length ∧
        decode ((block data).take (intOfSize (block data).length).toNat) = some content ∧
        (content.length : Int) ≤ intOfSize uncomprSize := by
  have hdecompress (uncomprSize : Nat) (decompressed : Bytes) :
      lib.LZ4_decompress_safe (block data) (intOfSize (block data).length)
          (intOfSize uncomprSize) = some decompressed ↔
        0 ≤ intOfSize (block data).length ∧
        decode ((block data).take (intOfSize (block data).length).toNat) = some decompressed ∧
        (decompressed.length : Int) ≤ intOfSize uncomprSize := by
    rw [hlib]
    split
    next hneg => exact iff_of_false nofun fun h => Int.not_le.mpr hneg h.1
    next hpos =>
      rw [Option.filter_eq_some_iff, decide_eq_true_iff]
      exact (and_iff_right (Int.not_lt.mp hpos)).symm
  rw [uncompressed, uncompress_eq]
  constructor
  · intro hresult
    split at hresult
    next => cases hresult
    next hlong =>
      split at hresult
      next => cases hresult
      next uncomprSize rest hread =>
        obtain ⟨hannounces, -⟩ := (announces_iff (Nat.not_lt.mp hlong)).mpr ⟨rest, hread⟩
        obtain ⟨result, hresult, hcontent⟩ := Outcome.map_eq_ok.mp hresult
        obtain ⟨⟨⟩, hcheck, hresult⟩ := Outcome.bind_eq_ok.mp hresult
        refine ⟨uncomprSize, hannounces, StdString.checkLength_eq_ok hcheck, ?_⟩
        split at hresult
        next => cases hresult
        next decompressed hdecompressed =>
          obtain rfl := Except.ok.inj hresult
          obtain ⟨-, rfl⟩ := Prod.mk.inj hcontent
          exact (hdecompress _ _).mp hdecompressed
  · intro ⟨uncomprSize, hannounces, hmax, hdecoded⟩
    obtain ⟨rest, hread⟩ :=
      (announces_iff hannounces.length_le).mp ⟨hannounces, hmax.trans string.le_SIZE_MAX⟩
    rw [if_neg (Nat.not_lt.mpr hannounces.length_le), hread]
    simp only [StdString.checkLength_of_le hmax, Outcome.ok_bind,
      (hdecompress _ _).mpr hdecoded]
    rfl

/-- Whatever the buffer holds, the result is the same. -/
theorem uncompressed_indep (data buffer buffer' : Bytes) :
    uncompressed string lib data buffer = uncompressed string lib data buffer' := by
  rw [uncompressed, uncompressed, uncompress_eq, uncompress_eq]
  split
  next => rfl
  next =>
    split
    next => rfl
    next uncomprSize rest _ =>
      cases string.checkLength uncomprSize with
      | error fault => rfl
      | ok _ =>
          simp only [Outcome.ok_bind]
          split
          next => rfl
          next => rfl

theorem faithful_iff (hlib : Decodes lib decode) (data : Bytes) :
    Faithful (decode (block data)) (uncompressed string lib data) ↔ Whole string decode data := by
  constructor
  · intro h
    refine .inr fun uncomprSize content hannounces hmax hpos hdecode hroom => ?_
    exact h.decoded [] content
      ((uncompressed_eq_ok_iff hlib).mpr ⟨uncomprSize, hannounces, hmax, hpos, hdecode, hroom⟩)
  · intro h
    refine ⟨fun buffer content hresult => ?_, uncompressed_indep data⟩
    obtain ⟨uncomprSize, hannounces, hmax, hpos, hdecode, hroom⟩ :=
      (uncompressed_eq_ok_iff hlib).mp hresult
    cases h with
    | inl hlt =>
        rwa [intOfSize_of_lt hlt, Int.toNat_natCast, List.take_length] at hdecode
    | inr h => exact h uncomprSize content hannounces hmax hpos hdecode hroom

end compressionLZ4

/-! ## compressionSnappy -/

namespace compressionSnappy

/-- The library accepts what it can decode, and decodes it into any string. -/
structure Decodes (lib : Snappy) (decode : Bytes → Option Bytes) : Prop where
  valid : ∀ compressed, lib.IsValidCompressedBuffer compressed = (decode compressed).isSome
  content : ∀ {compressed content}, decode compressed = some content →
    ∀ uncompressed, lib.Uncompress compressed uncompressed = (true, content)

/-- The return value and the data. -/
def uncompressed (lib : Snappy) (data buffer : Bytes) : Call (Bool × Bytes) :=
  (uncompress lib buffer data).map fun result => (result.1, result.2.2)

theorem uncompressed_eq {lib : Snappy} {decode : Bytes → Option Bytes} (hlib : Decodes lib decode)
    (data buffer : Bytes) :
    uncompressed lib data buffer =
      match decode data with
      | none => .error (.runtimeError "data is not valid.")
      | some content => .ok (true, content) := by
  rw [uncompressed, uncompress, hlib.valid]
  cases hdecode : decode data with
  | none => rfl
  | some content =>
      rw [Option.isSome_some, if_pos rfl, hlib.content hdecode]
      rfl

theorem faithful {lib : Snappy} {decode : Bytes → Option Bytes} (hlib : Decodes lib decode)
    (data : Bytes) : Faithful (decode data) (uncompressed lib data) := by
  constructor
  · intro buffer content hresult
    rw [uncompressed_eq hlib] at hresult
    cases hdecode : decode data with
    | none =>
        rw [hdecode] at hresult
        cases hresult
    | some decoded =>
        rw [hdecode] at hresult
        cases hresult
        rfl
  · intro buffer buffer'
    rw [uncompressed_eq hlib, uncompressed_eq hlib]

end compressionSnappy

/-! ## compressionZSTD -/

namespace compressionZSTD

/-- The library decodes into a destination with room for the content, and it
writes inside the destination. -/
structure Decodes (lib : ZSTD) (decode : Bytes → Option Bytes) : Prop where
  content : ∀ {src content}, decode src = some content →
    ∀ dst, content.length ≤ dst.length →
      lib.ZSTD_decompress dst src = (.ok content.length, overwrite dst content)
  inside : ∀ src dst, (lib.ZSTD_decompress dst src).2.length = dst.length

/-- The return value and the data. -/
def uncompressed (string : StdString) (lib : ZSTD) (data buffer : Bytes) : Call (Bool × Bytes) :=
  (uncompress string lib buffer data).map fun result => (true, result.2)

theorem overwrite_of_length {buffer content : Bytes} (h : content.length = buffer.length) :
    overwrite buffer content = content := by
  rw [overwrite, ← h, List.take_length, h, List.drop_length, List.append_nil]

section Frame

variable {string : StdString} {lib : ZSTD} {data : Bytes}

theorem uncompressed_of_error {name : String}
    (hframe : lib.ZSTD_getFrameContentSize data = .error name) (buffer : Bytes) :
    uncompressed string lib data buffer = .error (.runtimeError name) := by
  rw [uncompressed, uncompress, hframe]
  rfl

variable {decompressedSize : Nat}

theorem uncompressed_of_lt (hframe : lib.ZSTD_getFrameContentSize data = .ok decompressedSize)
    (hlarge : string.max_size < decompressedSize) (buffer : Bytes) :
    uncompressed string lib data buffer = .error .lengthError := by
  rw [uncompressed, uncompress, hframe]
  simp only [StdString.resize_of_lt hlarge]
  rfl

/-- What the library leaves in the buffer is returned, whatever its result was. -/
theorem uncompressed_of_le (hframe : lib.ZSTD_getFrameContentSize data = .ok decompressedSize)
    (hle : decompressedSize ≤ string.max_size) (buffer : Bytes) :
    uncompressed string lib data buffer =
      .ok (true, (lib.ZSTD_decompress (resize buffer decompressedSize) data).2) := by
  rw [uncompressed, uncompress, hframe]
  simp only [StdString.resize_of_le hle]
  rfl

variable {decode : Bytes → Option Bytes}

theorem faithful_of_decodes (hlib : Decodes lib decode)
    (hframe : lib.ZSTD_getFrameContentSize data = .ok decompressedSize)
    (hle : decompressedSize ≤ string.max_size) {content : Bytes}
    (hdecode : decode data = some content) (hlength : content.length = decompressedSize) :
    Faithful (decode data) (uncompressed string lib data) := by
  have hdecompress : ∀ buffer, uncompressed string lib data buffer = .ok (true, content) := by
    intro buffer
    have hroom : content.length = (resize buffer decompressedSize).length := by
      rw [hlength, length_resize]
    rw [uncompressed_of_le hframe hle, hlib.content hdecode _ (Nat.le_of_eq hroom),
      overwrite_of_length hroom]
  refine ⟨fun buffer data' hok => ?_, fun buffer buffer' => ?_⟩
  · rw [hdecompress] at hok
    cases hok
    exact hdecode
  · rw [hdecompress, hdecompress]

/-- Faithful on the strings without a frame header, on those whose header has a size
that no string can have, and on those that decode to as many bytes as it says. -/
theorem faithful_iff (hlib : Decodes lib decode) (data : Bytes) :
    Faithful (decode data) (uncompressed string lib data) ↔
      ∀ decompressedSize, lib.ZSTD_getFrameContentSize data = .ok decompressedSize →
        decompressedSize ≤ string.max_size →
        ∃ content, decode data = some content ∧ content.length = decompressedSize := by
  constructor
  · -- the call returns, so it returns the content in the buffer it has made
    intro hfaithful decompressedSize hframe hle
    refine ⟨_, hfaithful.decoded [] _ (uncompressed_of_le hframe hle []), ?_⟩
    rw [hlib.inside, length_resize]
  · intro hcontent
    cases hframe : lib.ZSTD_getFrameContentSize data with
    | error name => exact .of_throws (uncompressed_of_error hframe)
    | ok decompressedSize =>
        cases Nat.lt_or_ge string.max_size decompressedSize with
        | inl hlarge => exact .of_throws (uncompressed_of_lt hframe hlarge)
        | inr hle =>
            obtain ⟨content, hdecode, hlength⟩ := hcontent decompressedSize hframe hle
            exact faithful_of_decodes hlib hframe hle hdecode hlength

end Frame

end compressionZSTD

/-- Decompression reports success with decoded content only, whatever the buffer
held: LZ4 exactly on the strings that its decoder is given whole, Snappy on every
string, ZSTD exactly on those without a frame header, with one of a size that no
string can have, and those that decode to as many bytes as the header says. -/
theorem decompression_faithful_iff {string : StdString} {lz4 : LZ4} {snappy : Snappy} {zstd : ZSTD}
    {lz4Decode snappyDecode zstdDecode : Bytes → Option Bytes}
    (hlz4 : compressionLZ4.Decodes lz4 lz4Decode)
    (hsnappy : compressionSnappy.Decodes snappy snappyDecode)
    (hzstd : compressionZSTD.Decodes zstd zstdDecode) (data : Bytes) :
    (Faithful (lz4Decode (compressionLZ4.block data))
        (compressionLZ4.uncompressed string lz4 data) ↔
      compressionLZ4.Whole string lz4Decode data) ∧
    Faithful (snappyDecode data) (compressionSnappy.uncompressed snappy data) ∧
    (Faithful (zstdDecode data) (compressionZSTD.uncompressed string zstd data) ↔
      ∀ decompressedSize, zstd.ZSTD_getFrameContentSize data = .ok decompressedSize →
        decompressedSize ≤ string.max_size →
        ∃ content, zstdDecode data = some content ∧ content.length = decompressedSize) :=
  ⟨compressionLZ4.faithful_iff hlz4 data, compressionSnappy.faithful hsnappy data,
    compressionZSTD.faithful_iff hzstd data⟩

/-! ### Three bytes

What the three libraries make of "abc", and a ZSTD frame that is cut short: its
header is whole, and `ZSTD_decompress` gives up before it writes anything. -/

namespace ThreeBytes

def abc : Bytes := bytes "abc"

def lz4Block : Bytes := 48 :: abc

def snappyString : Bytes := [3, 8] ++ abc

def zstdFrame : Bytes := [40, 181, 47, 253, 32, 3, 25, 0, 0] ++ abc

def cutFrame : Bytes := zstdFrame.take 11

/-- The one string of a library and its content. -/
def decode (compressed src : Bytes) : Option Bytes := if src = compressed then some abc else none

def lz4 : LZ4 where
  LZ4_compressBound inputSize :=
    if 0 ≤ inputSize ∧ inputSize ≤ LZ4_MAX_INPUT_SIZE then inputSize + inputSize / 255 + 16 else 0
  LZ4_compress_default _ _ _ := []
  LZ4_decompress_safe src compressedSize dstCapacity :=
    if compressedSize < 0 then none
    else (decode lz4Block (src.take compressedSize.toNat)).filter fun content =>
      (content.length : Int) ≤ dstCapacity

def snappy : Snappy where
  Compress _ := []
  IsValidCompressedBuffer compressed := (decode snappyString compressed).isSome
  Uncompress compressed uncompressed :=
    match decode snappyString compressed with
    | some content => (true, content)
    | none => (false, uncompressed)

def zstd : ZSTD where
  ZSTD_compressBound srcSize := srcSize + srcSize / 256 + 64
  ZSTD_compress _ _ _ := .error "not tabulated"
  ZSTD_getFrameContentSize src :=
    if src = zstdFrame ∨ src = cutFrame then .ok 3 else .error "not tabulated"
  ZSTD_decompress dst src :=
    match decode zstdFrame src with
    | some content =>
        if content.length ≤ dst.length then (.ok content.length, overwrite dst content)
        else (.error "Destination buffer is too small", dst)
    | none => (.error "Src size is incorrect", dst)

theorem lz4_decodes : compressionLZ4.Decodes lz4 (decode lz4Block) := fun _ _ _ => rfl

theorem snappy_decodes : compressionSnappy.Decodes snappy (decode snappyString) where
  valid _ := rfl
  content := by
    intro compressed content hdecode uncompressed
    simp only [snappy, hdecode]

theorem zstd_decodes : compressionZSTD.Decodes zstd (decode zstdFrame) where
  content := by
    intro src content hdecode dst hroom
    simp only [zstd, hdecode, hroom, if_true]
  inside := by
    intro src dst
    simp only [zstd]
    split
    · split
      · next content _ hroom =>
          simp only [overwrite, List.length_append, List.length_take, List.length_drop]
          omega
      · rfl
    · rfl

end ThreeBytes

open ThreeBytes in
theorem decompression_faithful_zstdFrame :
    (Faithful (decode lz4Block (compressionLZ4.block zstdFrame))
        (compressionLZ4.uncompressed .wide lz4 zstdFrame) ↔
      compressionLZ4.Whole .wide (decode lz4Block) zstdFrame) ∧
    Faithful (decode snappyString zstdFrame) (compressionSnappy.uncompressed snappy zstdFrame) ∧
    (Faithful (decode zstdFrame zstdFrame) (compressionZSTD.uncompressed .wide zstd zstdFrame) ↔
      ∀ decompressedSize, zstd.ZSTD_getFrameContentSize zstdFrame = .ok decompressedSize →
        decompressedSize ≤ StdString.wide.max_size →
        ∃ content, decode zstdFrame zstdFrame = some content ∧
          content.length = decompressedSize) :=
  decompression_faithful_iff lz4_decodes snappy_decodes zstd_decodes zstdFrame

open ThreeBytes in
/-- The cut frame is no frame, and what an earlier message left in the buffer is
returned with success. -/
theorem decompression_faithful_fails :
    decode zstdFrame cutFrame = none ∧
    compressionZSTD.uncompressed .wide zstd cutFrame (bytes "old") = .ok (true, bytes "old") ∧
    compressionZSTD.uncompressed .wide zstd cutFrame (bytes "new") = .ok (true, bytes "new") ∧
    ¬ Faithful (decode zstdFrame cutFrame) (compressionZSTD.uncompressed .wide zstd cutFrame) := by
  have hdecode : decode zstdFrame cutFrame = none := by decide +kernel
  have hold : compressionZSTD.uncompressed .wide zstd cutFrame (bytes "old") =
      .ok (true, bytes "old") := by decide +kernel
  have hnew : compressionZSTD.uncompressed .wide zstd cutFrame (bytes "new") =
      .ok (true, bytes "new") := by decide +kernel
  refine ⟨hdecode, hold, hnew, fun hfaithful => ?_⟩
  have hsome := hfaithful.decoded _ _ hold
  rw [hdecode] at hsome
  cases hsome

end ClientServer
