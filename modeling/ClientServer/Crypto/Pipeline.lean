import ClientServer.Crypto.Operations

/-!
# The pipelines bring a payload back

A receiver is told neither whether a payload is encrypted nor how it was
compressed: the first it infers from whether a header can be read, at each
layer, the second from the header it ends up with.  The proof follows the
receiver.  Each layer is passed through or taken off (`decrypt_of_accepted`,
`decrypt_of_not_accepted`), what remains begins with the header of the sender,
and the compressor that header names restores the data.
-/

namespace ClientServer

open cryptooperations

/-! ## What the libraries are relied on for -/

/-- A header as `buildReply` and `TaskBuilder` build it: four compressors are
valid, the last two sizes are zero. -/
structure HEADER.OfPayload (header : HEADER) : Prop where
  valid : header.Valid
  sizesFit : header.SizesFit
  field3Size : header.field3Size = 0
  field4Size : header.field4Size = 0

/-- What the compressor the header names is documented to do with the data; `room` is
the smallest destination that LZ4 takes. -/
def Lossless (lib : Libraries) (room : Bytes → Int) (header : HEADER) (data : Bytes)
    (compressionLevel : Int) : Prop :=
  match header.compressor with
  | .LZ4 => compressionLZ4.Lossless lib.lz4 room data
  | .SNAPPY => compressionSnappy.Lossless lib.snappy data
  | .ZSTD => compressionZSTD.Lossless lib.zstd data compressionLevel
  | _ => True

/-- The compressor the header names gets sizes that it takes. -/
def Offered (lib : Libraries) (room : Bytes → Int) (capacity : Nat) (header : HEADER)
    (data : Bytes) : Prop :=
  match header.compressor with
  | .LZ4 => compressionLZ4.Offered lib.string lib.lz4 room capacity data
  | .ZSTD => lib.zstd.ZSTD_compressBound data.length ≤ lib.string.max_size
  | _ => True

/-- LZ4 is told the whole size, or a negative one. -/
def SizeKept (compressor : COMPRESSORS) (data : Bytes) : Prop :=
  compressor = .LZ4 → data.length < 2 ^ 32

/-- One end of a connection with both of its encryptors. -/
structure End where
  terminal : Terminal
  sodium : CryptoSodium
  plpl : CryptoPlPl

def End.party (this : End) : Party := ⟨this.terminal, ⟨some this.sodium, some this.plpl⟩⟩

/-- Both encryptors of an end may be used. -/
structure End.Access (this : End) : Prop where
  sodium : checkAccess this.terminal this.sodium.toCryptoBase = .ok true
  plpl : checkAccess this.terminal this.plpl.toCryptoBase = .ok true

/-- Each encryptor of the receiver decrypts what its peer encrypted.  AES-GCM
appends a tag, AES-CBC pads. -/
structure Peers (lib : Libraries) (sender receiver : End) : Prop where
  senderAccess : sender.Access
  receiverAccess : receiver.Access
  sodiumLength : ∀ {message nonce ciphertext : Bytes},
    lib.sodium.crypto_aead_aes256gcm_encrypt message nonce sender.sodium._key = some ciphertext →
    ciphertext.length = message.length + crypto_aead_aes256gcm_ABYTES
  sodiumDecrypts : ∀ {message nonce ciphertext : Bytes},
    lib.sodium.crypto_aead_aes256gcm_encrypt message nonce sender.sodium._key = some ciphertext →
    lib.sodium.crypto_aead_aes256gcm_decrypt ciphertext nonce receiver.sodium._key = some message
  plplLength : ∀ {message iv ciphertext : Bytes},
    lib.cryptopp.cbcEncryption message iv sender.plpl._key = .ok ciphertext →
    message.length ≤ ciphertext.length
  plplDecrypts : ∀ {message iv ciphertext : Bytes},
    lib.cryptopp.cbcEncryption message iv sender.plpl._key = .ok ciphertext →
    lib.cryptopp.cbcDecryption ciphertext iv receiver.plpl._key = .ok message

/-- `CryptoSodium` turns a message into a string that begins with no header. -/
def SodiumSeals (lib : Libraries) (sender : End) (nonce : Nonce) (message encrypted : Bytes) :
    Prop :=
  ∃ ciphertext, encrypted = ciphertext ++ nonce.val ∧
    lib.sodium.crypto_aead_aes256gcm_encrypt message nonce.val sender.sodium._key =
      some ciphertext ∧
    ¬ HeaderAccepted encrypted

/-- `CryptoPlPl` turns a message into a string that begins with no header. -/
def PlPlSeals (lib : Libraries) (sender : End) (iv : IV) (message encrypted : Bytes) : Prop :=
  ∃ ciphertext, encrypted = ciphertext ++ iv.val ∧
    lib.cryptopp.cbcEncryption message iv.val sender.plpl._key = .ok ciphertext ∧
    ¬ HeaderAccepted encrypted

/-- The library carries out the encryptions of a payload, and no ciphertext
happens to begin with a header. -/
structure Seals (lib : Libraries) (sender : End) (drawn : Drawn) (message : Bytes) : Prop where
  sodium : ∃ encrypted, SodiumSeals lib sender drawn.nonce message encrypted
  plpl : ∃ encrypted, PlPlSeals lib sender drawn.iv message encrypted
  double : ∀ inner, SodiumSeals lib sender drawn.nonce message inner →
    ∃ encrypted, PlPlSeals lib sender drawn.iv inner encrypted

/-! ## Compression -/

variable {lib : Libraries}

namespace Lossless

variable {room : Bytes → Int} {header : HEADER} {data : Bytes} {compressionLevel : Int}
  {capacity : Nat}

theorem compress_of_offered (h : Lossless lib room header data compressionLevel)
    (hoffered : Offered lib room capacity header data) (buffer : Bytes) :
    ∃ result, compress lib capacity buffer header data compressionLevel = .ok result := by
  unfold Lossless at h
  unfold Offered at hoffered
  unfold compress isCompressed
  cases hc : header.compressor with
  | LZ4 =>
      rw [hc] at h hoffered
      obtain ⟨packed, hcompress⟩ := h.compress_of_offered hoffered
      exact ⟨_, hcompress⟩
  | SNAPPY => exact ⟨_, rfl⟩
  | ZSTD =>
      rw [hc] at h hoffered
      exact (h.compress_iff buffer).mpr hoffered
  | unset => exact ⟨_, rfl⟩
  | INVALIDLOW => exact ⟨_, rfl⟩
  | NONE => exact ⟨_, rfl⟩
  | INVALIDHIGH => exact ⟨_, rfl⟩

/-- What could be compressed comes back. -/
theorem restores (h : Lossless lib room header data compressionLevel)
    (hcounted : SizeKept header.compressor data) {buffer : Bytes} {result : Bytes × Bytes}
    (hcompress : compress lib capacity buffer header data compressionLevel = .ok result)
    (buffer : Bytes) :
    ∃ buffer', uncompress lib buffer header result.2 = .ok (buffer', data) := by
  unfold Lossless at h
  unfold compress isCompressed at hcompress
  unfold uncompress isCompressed
  cases hc : header.compressor with
  | LZ4 =>
      rw [hc] at h hcompress
      exact h.restores (hcounted hc) hcompress buffer
  | SNAPPY =>
      rw [hc] at h hcompress
      obtain ⟨packed, hpacked, huncompress⟩ :=
        compressionSnappy.uncompress_compress lib.snappy h
      obtain ⟨buffer', hdata⟩ := huncompress buffer
      simp only [if_true, hpacked] at hcompress
      obtain rfl := Except.ok.inj hcompress
      exact ⟨buffer', by simp only [if_true, hdata, Outcome.ok_bind, Outcome.pure_eq_ok]⟩
  | ZSTD =>
      rw [hc] at h hcompress
      exact h.restores hcompress buffer
  | unset | INVALIDLOW | NONE | INVALIDHIGH =>
      rw [hc] at hcompress
      obtain rfl := Except.ok.inj hcompress
      exact ⟨buffer, rfl⟩

/-- A round trip that succeeds was offered sizes that the compressor takes. -/
theorem offered_of_restores (h : Lossless lib room header data compressionLevel)
    (hsize : data.length ≤ lib.string.max_size) {buffer buffer' buffer'' : Bytes}
    {result : Bytes × Bytes}
    (hcompress : compress lib capacity buffer header data compressionLevel = .ok result)
    (huncompress : uncompress lib buffer' header result.2 = .ok (buffer'', data)) :
    Offered lib room capacity header data := by
  unfold Lossless at h
  unfold compress isCompressed at hcompress
  unfold uncompress isCompressed at huncompress
  unfold Offered
  cases hc : header.compressor with
  | LZ4 =>
      rw [hc] at h hcompress huncompress
      exact h.offered_of_restores hsize hcompress huncompress
  | ZSTD =>
      rw [hc] at h hcompress
      exact (h.compress_iff buffer).mp ⟨result, hcompress⟩
  | SNAPPY | unset | INVALIDLOW | NONE | INVALIDHIGH => trivial

end Lossless

theorem SizeKept.mono {compressor : COMPRESSORS} {data data' : Bytes} (h : SizeKept compressor data)
    (hle : data'.length ≤ data.length) : SizeKept compressor data' :=
  fun hc => Nat.lt_of_le_of_lt hle (h hc)

theorem Offered.counted {room : Bytes → Int} {header : HEADER} {data : Bytes} {capacity : Nat}
    (h : Offered lib room capacity header data) : SizeKept header.compressor data := by
  intro hc
  rw [Offered, hc] at h
  exact Nat.lt_of_le_of_lt h.1 (by decide)

/-! ## The layers -/

/-- A header of a payload is read back as it was. -/
theorem deserialize_ofPayload {header : HEADER} (h : header.OfPayload) (target : HEADER)
    (data : Bytes) : deserialize target (serialize header ++ data) = .ok (true, header) := by
  have hsame : { header with field4Size := header.field3Size } = header :=
    congrArg (fun size => { header with field4Size := size }) (h.field3Size.trans h.field4Size.symm)
  rw [deserialize_serialize h.valid h.sizesFit target data, hsame]

theorem header_size_le (header : HEADER) (data : Bytes) :
    HEADER_SIZE ≤ (serialize header ++ data).length := by
  rw [List.length_append, length_serialize]
  exact Nat.le_add_right ..

theorem HEADER.OfPayload.accepted {header : HEADER} (h : header.OfPayload) (data : Bytes) :
    HeaderAccepted (serialize header ++ data) :=
  headerAccepted_serialize h.valid h.sizesFit data

section Layers

variable {sender receiver : End} (hpeers : Peers lib sender receiver)
include hpeers

/-- What `CryptoSodium` sealed is no shorter than the message, and its peer
takes the seal off. -/
theorem SodiumSeals.decrypt {nonce : Nonce} {message encrypted : Bytes}
    (h : SodiumSeals lib sender nonce message encrypted) (hlength : HEADER_SIZE ≤ message.length) :
    HEADER_SIZE ≤ encrypted.length ∧
    receiver.sodium.decrypt lib.sodium receiver.terminal encrypted = .ok (message, message) := by
  obtain ⟨ciphertext, rfl, hencrypt, hrefused⟩ := h
  have hlong : HEADER_SIZE ≤ (ciphertext ++ nonce.val).length := by
    have := hpeers.sodiumLength hencrypt
    rw [List.length_append]
    omega
  exact ⟨hlong, CryptoSodium.decrypt_of_not_accepted hpeers.receiverAccess.sodium hrefused hlong
    (hpeers.sodiumDecrypts hencrypt)⟩

theorem PlPlSeals.decrypt {iv : IV} {message encrypted : Bytes}
    (h : PlPlSeals lib sender iv message encrypted) (hlength : HEADER_SIZE ≤ message.length)
    (buffer : Bytes) :
    receiver.plpl.decrypt lib.cryptopp receiver.terminal buffer encrypted =
      .ok (message, message) := by
  obtain ⟨ciphertext, rfl, hencrypt, hrefused⟩ := h
  have hlong : HEADER_SIZE ≤ (ciphertext ++ iv.val).length := by
    have := hpeers.plplLength hencrypt
    rw [List.length_append]
    omega
  exact CryptoPlPl.decrypt_of_not_accepted hpeers.receiverAccess.plpl hrefused hlong
    (hpeers.plplDecrypts hencrypt)

/-- The sender's side of a `CryptoSodium` layer. -/
theorem SodiumSeals.encrypt {nonce : Nonce} {header : HEADER} {data encrypted : Bytes}
    (h : SodiumSeals lib sender nonce (serialize header ++ data) encrypted) (input : Bytes) :
    (sender.sodium.encrypt lib.sodium sender.terminal nonce input (some header) data).1 =
      .ok encrypted := by
  obtain ⟨ciphertext, rfl, hencrypt, -⟩ := h
  exact CryptoSodium.encrypt_of_some hpeers.senderAccess.sodium hencrypt

theorem PlPlSeals.encrypt {iv : IV} (header : Option HEADER) {data encrypted : Bytes}
    (h : PlPlSeals lib sender iv (header.elim [] serialize ++ data) encrypted) :
    sender.plpl.encrypt lib.cryptopp sender.terminal iv header data = .ok encrypted := by
  obtain ⟨ciphertext, rfl, hencrypt, -⟩ := h
  exact CryptoPlPl.encrypt_of_ok hpeers.senderAccess.plpl hencrypt

end Layers

/-! ## The receivers -/

/-- Once the layers are off, `doubleDecrypt` finds the header it was sent. -/
theorem doubleDecrypt_of_layers {receiver : End} {header : HEADER} (hheader : header.OfPayload)
    {encrypted middle data buffer1 buffer2 : Bytes}
    (hplpl : receiver.plpl.decrypt lib.cryptopp receiver.terminal [] encrypted =
      .ok (buffer1, middle))
    (hsodium : receiver.sodium.decrypt lib.sodium receiver.terminal middle =
      .ok (buffer2, serialize header ++ data))
    (buffer : Bytes) (target : HEADER) :
    doubleDecrypt lib receiver.party buffer target encrypted =
      .ok (buffer2, header, serialize header ++ data) := by
  simp only [doubleDecrypt, End.party, hplpl, hsodium, Outcome.ok_bind,
    deserialize_ofPayload hheader, Bool.not_true, Bool.false_eq_true, if_false,
    Outcome.pure_eq_ok]

theorem singleDecrypt_of_sodium {receiver : End} {header : HEADER} (hheader : header.OfPayload)
    {encrypted data buffer' : Bytes}
    (hsodium : receiver.sodium.decrypt lib.sodium receiver.terminal encrypted =
      .ok (buffer', serialize header ++ data))
    (buffer : Bytes) (target : HEADER) :
    singleDecrypt lib receiver.party .CRYPTOSODIUM buffer target encrypted =
      .ok (buffer', header, data) := by
  simp only [singleDecrypt, singleDecryptSwitch, End.party, hsodium, Outcome.ok_bind,
    deserialize_ofPayload hheader, Bool.not_true, Bool.false_eq_true, if_false,
    Outcome.pure_eq_ok]
  rw [← length_serialize header, List.drop_left]

theorem singleDecrypt_of_plpl {receiver : End} {header : HEADER} (hheader : header.OfPayload)
    {encrypted data buffer buffer' : Bytes}
    (hplpl : receiver.plpl.decrypt lib.cryptopp receiver.terminal buffer encrypted =
      .ok (buffer', serialize header ++ data)) (target : HEADER) :
    singleDecrypt lib receiver.party .CRYPTOPP buffer target encrypted =
      .ok (buffer', header, data) := by
  simp only [singleDecrypt, singleDecryptSwitch, End.party, hplpl, Outcome.ok_bind,
    deserialize_ofPayload hheader, Bool.not_true, Bool.false_eq_true, if_false,
    Outcome.pure_eq_ok]
  rw [← length_serialize header, List.drop_left]

/-! ## The round trip -/

section Encryption

variable {sender receiver : End} (hpeers : Peers lib sender receiver) {header : HEADER}
  (hheader : header.OfPayload) {drawn : Drawn} {packed : Bytes} {doEncrypt : Bool}
  (hseals : doEncrypt = true → Seals lib sender drawn (serialize header ++ packed))
include hpeers hheader hseals

/-- Both layers, or none, come off again. -/
theorem doubleDecrypt_doubleEncrypt (input : Bytes) :
    ∃ encrypted,
      (if doEncrypt then doubleEncrypt lib sender.party drawn input header packed
        else .ok (serialize header ++ packed)) = .ok encrypted ∧
      ∀ buffer target, ∃ buffer',
        doubleDecrypt lib receiver.party buffer target encrypted =
          .ok (buffer', header, serialize header ++ packed) := by
  have hlength := header_size_le header packed
  cases doEncrypt with
  | false =>
      have haccepted := hheader.accepted packed
      refine ⟨serialize header ++ packed, rfl, fun buffer target => ⟨[], ?_⟩⟩
      exact doubleDecrypt_of_layers hheader
        (CryptoPlPl.decrypt_of_accepted hpeers.receiverAccess.plpl haccepted hlength)
        (CryptoSodium.decrypt_of_accepted hpeers.receiverAccess.sodium haccepted hlength)
        buffer target
  | true =>
      obtain ⟨inner, hinner⟩ := (hseals rfl).sodium
      obtain ⟨encrypted, houter⟩ := (hseals rfl).double inner hinner
      obtain ⟨hlong, hsodium⟩ := hinner.decrypt hpeers hlength
      refine ⟨encrypted, ?_, fun buffer target => ⟨serialize header ++ packed, ?_⟩⟩
      · simp only [if_true, doubleEncrypt, End.party, hinner.encrypt hpeers input, Outcome.ok_bind]
        exact PlPlSeals.encrypt hpeers none houter
      · exact doubleDecrypt_of_layers hheader (houter.decrypt hpeers hlong []) hsodium buffer target

/-- The layer of the chosen encryptor, or none, comes off again. -/
theorem singleDecrypt_singleEncrypt {crypto : CRYPTO}
    (hcrypto : crypto = .CRYPTOSODIUM ∨ crypto = .CRYPTOPP) (input : Bytes) :
    ∃ encrypted,
      (if doEncrypt then singleEncrypt lib sender.party crypto drawn input header packed
        else .ok (serialize header ++ packed)) = .ok encrypted ∧
      ∀ buffer target, ∃ buffer',
        singleDecrypt lib receiver.party crypto buffer target encrypted =
          .ok (buffer', header, packed) := by
  have hlength := header_size_le header packed
  have haccepted := hheader.accepted packed
  rcases hcrypto with rfl | rfl
  · cases doEncrypt with
    | false =>
        refine ⟨serialize header ++ packed, rfl, fun buffer target => ⟨[], ?_⟩⟩
        exact singleDecrypt_of_sodium hheader
          (CryptoSodium.decrypt_of_accepted hpeers.receiverAccess.sodium haccepted hlength)
          buffer target
    | true =>
        obtain ⟨encrypted, hsealed⟩ := (hseals rfl).sodium
        refine ⟨encrypted, hsealed.encrypt hpeers input,
          fun buffer target => ⟨serialize header ++ packed, ?_⟩⟩
        exact singleDecrypt_of_sodium hheader (hsealed.decrypt hpeers hlength).2 buffer target
  · cases doEncrypt with
    | false =>
        refine ⟨serialize header ++ packed, rfl, fun buffer target => ⟨buffer, ?_⟩⟩
        exact singleDecrypt_of_plpl hheader
          (CryptoPlPl.decrypt_of_accepted hpeers.receiverAccess.plpl haccepted hlength) target
    | true =>
        obtain ⟨encrypted, hsealed⟩ := (hseals rfl).plpl
        refine ⟨encrypted, PlPlSeals.encrypt hpeers (some header) hsealed,
          fun buffer target => ⟨serialize header ++ packed, ?_⟩⟩
        exact singleDecrypt_of_plpl hheader (hsealed.decrypt hpeers hlength buffer) target

end Encryption

/-- Behind its layers a payload is decompressed. -/
theorem doubleDecryptDecompress_of_layers {receiver : End} {header : HEADER}
    {encrypted packed buffer buffer' : Bytes} {target : HEADER}
    (h : doubleDecrypt lib receiver.party buffer target encrypted =
      .ok (buffer', header, serialize header ++ packed)) :
    doubleDecryptDecompress lib receiver.party buffer target encrypted =
      (uncompress lib buffer' header packed >>= fun (buffer, data) =>
        .ok (buffer, header, data)) := by
  simp only [doubleDecryptDecompress, h, Outcome.ok_bind]
  rw [← length_serialize header, List.drop_left]
  rfl

theorem singleDecryptDecompress_of_layer {receiver : End} {crypto : CRYPTO} {header : HEADER}
    {encrypted packed buffer buffer' : Bytes} {target : HEADER}
    (h : singleDecrypt lib receiver.party crypto buffer target encrypted =
      .ok (buffer', header, packed)) :
    singleDecryptDecompress lib receiver.party crypto buffer target encrypted =
      (uncompress lib buffer' header packed >>= fun (buffer, data) =>
        .ok (buffer, header, data)) := by
  simp only [singleDecryptDecompress, h, Outcome.ok_bind]
  rfl

/-- A receiver that runs the pipeline backwards gets the data and the header of the
sender. -/
structure RoundTrip (lib : Libraries) (sender receiver : End) (drawn : Drawn)
    (work : SenderBuffers) (header : HEADER) (data : Bytes) (doEncrypt : Bool)
    (compressionLevel : Int) : Prop where
  double : ∃ encrypted,
    compressDoubleEncrypt lib sender.party drawn work header data doEncrypt compressionLevel =
      .ok encrypted ∧
    ∀ buffer target, ∃ buffer',
      doubleDecryptDecompress lib receiver.party buffer target encrypted =
        .ok (buffer', header, data)
  single : ∀ crypto, crypto = .CRYPTOSODIUM ∨ crypto = .CRYPTOPP → ∃ encrypted,
    compressSingleEncrypt lib sender.party crypto drawn work header data doEncrypt
      compressionLevel = .ok encrypted ∧
    ∀ buffer target, ∃ buffer',
      singleDecryptDecompress lib receiver.party crypto buffer target encrypted =
        .ok (buffer', header, data)

section RoundTrip

variable {sender receiver : End} (hpeers : Peers lib sender receiver) {header : HEADER}
  (hheader : header.OfPayload) {data : Bytes} {compressionLevel : Int} {drawn : Drawn}
  {work : SenderBuffers} {doEncrypt : Bool}
  (hseals : ∀ buffer packed,
    compress lib work.buffer.capacity work.buffer.bytes header data compressionLevel =
      .ok (buffer, packed) →
    doEncrypt = true → Seals lib sender drawn (serialize header ++ packed))
include hpeers hheader hseals

/-- What is restored of the compressed data goes through both pipelines. -/
theorem RoundTrip.of_restores {result : Bytes × Bytes}
    (hcompress : compress lib work.buffer.capacity work.buffer.bytes header data
      compressionLevel = .ok result)
    (hrestores : ∀ buffer, ∃ buffer', uncompress lib buffer header result.2 = .ok (buffer', data)) :
    RoundTrip lib sender receiver drawn work header data doEncrypt compressionLevel := by
  have hsealed := hseals result.1 result.2 hcompress
  constructor
  · obtain ⟨encrypted, hencrypt, hdecrypt⟩ :=
      doubleDecrypt_doubleEncrypt hpeers hheader hsealed work.input
    refine ⟨encrypted, ?_, fun buffer target => ?_⟩
    · rw [compressDoubleEncrypt, hcompress]
      exact hencrypt
    · obtain ⟨buffer2, hmessage⟩ := hdecrypt buffer target
      obtain ⟨buffer3, hdata⟩ := hrestores buffer2
      exact ⟨buffer3, by rw [doubleDecryptDecompress_of_layers hmessage, hdata]; rfl⟩
  · intro crypto hcrypto
    obtain ⟨encrypted, hencrypt, hdecrypt⟩ :=
      singleDecrypt_singleEncrypt hpeers hheader hsealed hcrypto work.input
    refine ⟨encrypted, ?_, fun buffer target => ?_⟩
    · rw [compressSingleEncrypt, hcompress]
      exact hencrypt
    · obtain ⟨buffer2, hmessage⟩ := hdecrypt buffer target
      obtain ⟨buffer3, hdata⟩ := hrestores buffer2
      exact ⟨buffer3, by rw [singleDecryptDecompress_of_layer hmessage, hdata]; rfl⟩

/-- What goes through a pipeline was compressed and restored. -/
theorem RoundTrip.exists_restores
    (h : RoundTrip lib sender receiver drawn work header data doEncrypt compressionLevel) :
    ∃ result buffer buffer',
      compress lib work.buffer.capacity work.buffer.bytes header data compressionLevel =
        .ok result ∧
      uncompress lib buffer header result.2 = .ok (buffer', data) := by
  obtain ⟨encrypted, hencrypted, hreceived⟩ := h.double
  rw [compressDoubleEncrypt, Outcome.bind_eq_ok] at hencrypted
  obtain ⟨⟨buffer1, packed⟩, hcompress, hencrypted⟩ := hencrypted
  obtain ⟨encrypted', hencrypt, hdecrypt⟩ :=
    doubleDecrypt_doubleEncrypt hpeers hheader (hseals buffer1 packed hcompress) work.input
  obtain rfl : encrypted' = encrypted := Except.ok.inj (hencrypt.symm.trans hencrypted)
  obtain ⟨buffer2, hmessage⟩ := hdecrypt [] header
  obtain ⟨buffer', hdata⟩ := hreceived [] header
  rw [doubleDecryptDecompress_of_layers hmessage, Outcome.bind_eq_ok] at hdata
  obtain ⟨⟨buffer3, data'⟩, huncompress, hdata⟩ := hdata
  obtain ⟨-, -, rfl⟩ := by simpa using hdata
  exact ⟨_, buffer2, buffer3, hcompress, huncompress⟩

/-- For every configuration, the data and the header come back where the compressor
gets sizes that it takes. -/
theorem payload_roundTrip_iff (hsize : data.length ≤ lib.string.max_size) {room : Bytes → Int}
    (hlossless : Lossless lib room header data compressionLevel) :
    RoundTrip lib sender receiver drawn work header data doEncrypt compressionLevel ↔
      Offered lib room work.buffer.capacity header data := by
  constructor
  · intro h
    obtain ⟨result, buffer, buffer', hcompress, huncompress⟩ :=
      h.exists_restores hpeers hheader hseals
    exact hlossless.offered_of_restores hsize hcompress huncompress
  · intro hoffered
    obtain ⟨result, hcompress⟩ := hlossless.compress_of_offered hoffered work.buffer.bytes
    exact .of_restores hpeers hheader hseals hcompress
      (hlossless.restores hoffered.counted hcompress)

end RoundTrip

/-! ### One short request

LZ4 stores up to twelve bytes as one run of literals.  The ciphertexts are those
of AES-256 under the keys and nonces given here. -/

namespace ShortRequest

def header : HEADER :=
  { headerType := .SESSION, field1Size := 3, field2Size := 0, compressor := .LZ4,
    diagnostics := .NONE, status := .NONE, field3Size := 0, field4Size := 0 }

def data : Bytes := bytes "abc"

def packed : Bytes := 48 :: data ++ compressionLZ4.trailer 3

def drawn : Drawn where
  nonce := ⟨[0, 1, 2, 3, 4, 5, 6, 7, 8, 9, 10, 11], rfl⟩
  iv := ⟨[0, 1, 2, 3, 4, 5, 6, 7, 8, 9, 10, 11, 12, 13, 14, 15], rfl⟩

def sodiumKey : Bytes := (List.range 32).map Nat.toUInt8
def plplKey : Bytes := (List.range 32).map fun i => (100 + i).toUInt8

def gcm : Bytes :=
  [2, 49, 214, 27, 197, 229, 194, 27, 141, 65, 151, 187, 177, 233, 120, 109, 131, 214, 135, 52,
   240, 57, 30, 61, 8, 103, 229, 133, 29, 105, 0, 178, 1, 16, 158, 252, 175, 193, 18, 152, 116,
   164, 127, 237, 184, 230, 74, 91, 221, 89, 96, 141, 90, 214, 163, 218, 63, 151, 42, 25, 24, 227,
   245, 238, 240, 60, 198, 122, 211, 209, 38, 97, 28, 84, 170, 110, 239, 143, 14, 232, 64, 34, 78,
   239, 223, 143, 191, 40, 40, 233, 126, 48, 218, 132, 63, 200]

/-- The CBC ciphertext of the GCM ciphertext with its nonce. -/
def cbcOfGcm : Bytes :=
  [193, 47, 62, 47, 137, 237, 113, 6, 226, 157, 72, 163, 108, 92, 2, 219, 4, 254, 165, 181, 250,
   169, 211, 121, 211, 147, 35, 36, 122, 208, 182, 217, 79, 210, 108, 245, 178, 119, 100, 177, 83,
   56, 90, 101, 232, 121, 157, 97, 60, 10, 232, 172, 105, 231, 228, 165, 111, 149, 248, 92, 13,
   122, 55, 220, 29, 106, 62, 122, 104, 229, 171, 69, 226, 61, 255, 236, 202, 89, 122, 127, 252,
   81, 15, 164, 64, 59, 152, 74, 153, 168, 201, 36, 148, 154, 251, 242, 140, 212, 84, 200, 175,
   215, 140, 44, 25, 4, 254, 162, 188, 231, 183, 74]

/-- The CBC ciphertext of the message itself. -/
def cbc : Bytes :=
  [116, 224, 45, 220, 85, 41, 38, 134, 187, 190, 80, 14, 116, 83, 246, 132, 136, 161, 183, 100,
   150, 241, 227, 250, 64, 24, 89, 223, 90, 104, 32, 113, 29, 170, 72, 118, 121, 43, 102, 192,
   108, 141, 245, 237, 247, 168, 122, 5, 100, 243, 215, 169, 108, 203, 195, 158, 127, 84, 226,
   143, 201, 134, 35, 137, 153, 57, 149, 199, 170, 49, 217, 245, 149, 209, 3, 248, 201, 201, 130,
   63, 63, 71, 152, 131, 134, 244, 232, 103, 16, 195, 109, 88, 173, 114, 89, 141]

/-- The token of a block and its literals. -/
def room (src : Bytes) : Int := src.length + 1

def lz4 : LZ4 where
  LZ4_compressBound inputSize :=
    if 0 ≤ inputSize ∧ inputSize ≤ LZ4_MAX_INPUT_SIZE then inputSize + inputSize / 255 + 16 else 0
  LZ4_compress_default src srcSize dstCapacity :=
    let content := src.take srcSize.toNat
    if 0 ≤ srcSize ∧ srcSize < 13 ∧ room content ≤ dstCapacity then
      (16 * content.length).toUInt8 :: content
    else []
  LZ4_decompress_safe src compressedSize dstCapacity :=
    match src.take compressedSize.toNat with
    | [] => none
    | token :: literals =>
        if token = (16 * literals.length).toUInt8 ∧ literals.length ≤ dstCapacity then
          some literals
        else none

def sodium : Sodium where
  crypto_aead_aes256gcm_encrypt message nonce key :=
    if message = serialize header ++ packed ∧ nonce = drawn.nonce.val ∧ key = sodiumKey then
      some gcm
    else none
  crypto_aead_aes256gcm_decrypt ciphertext nonce key :=
    if ciphertext = gcm ∧ nonce = drawn.nonce.val ∧ key = sodiumKey then
      some (serialize header ++ packed)
    else none

def cryptopp : CryptoPP where
  cbcEncryption message iv key :=
    if iv ≠ drawn.iv.val ∨ key ≠ plplKey then .error "not tabulated"
    else if message = serialize header ++ packed then .ok cbc
    else if message = gcm ++ drawn.nonce.val then .ok cbcOfGcm
    else .error "not tabulated"
  cbcDecryption ciphertext iv key :=
    if iv ≠ drawn.iv.val ∨ key ≠ plplKey then .error "not tabulated"
    else if ciphertext = cbc then .ok (serialize header ++ packed)
    else if ciphertext = cbcOfGcm then .ok (gcm ++ drawn.nonce.val)
    else .error "not tabulated"

def libraries : Libraries where
  string := .wide
  sodium := sodium
  cryptopp := cryptopp
  lz4 := lz4
  snappy :=
    { Compress := fun _ => []
      IsValidCompressedBuffer := fun _ => false
      Uncompress := fun _ uncompressed => (false, uncompressed) }
  zstd :=
    { ZSTD_compressBound := id
      ZSTD_compress := fun _ _ _ => .error "not tabulated"
      ZSTD_getFrameContentSize := fun _ => .error "not tabulated"
      ZSTD_decompress := fun dst _ => (.error "not tabulated", dst) }

/-- The client has sent its signatures, the server has verified them. -/
def client : End where
  terminal := ⟨some (bytes "/t/2"), bytes "/t/1", bytes "/t/2", []⟩
  sodium := { _verifiedSignature := false, _signatureSent := true, _key := sodiumKey }
  plpl := { _verifiedSignature := false, _signatureSent := true, _key := plplKey }

def server : End where
  terminal := ⟨some (bytes "/t/1"), bytes "/t/1", [], []⟩
  sodium := { _verifiedSignature := true, _signatureSent := false, _key := sodiumKey }
  plpl := { _verifiedSignature := true, _signatureSent := false, _key := plplKey }

def work : SenderBuffers := ⟨⟨15, bytes "old"⟩, bytes "older"⟩

theorem eq_of_sodium_eq_some {message nonce key ciphertext : Bytes}
    (h : sodium.crypto_aead_aes256gcm_encrypt message nonce key = some ciphertext) :
    message = serialize header ++ packed ∧ nonce = drawn.nonce.val ∧ ciphertext = gcm := by
  simp only [sodium] at h
  split_ifs at h with hargs
  exact ⟨hargs.1, hargs.2.1, (Option.some.inj h).symm⟩

theorem peers : Peers libraries client server where
  senderAccess := ⟨by decide, by decide⟩
  receiverAccess := ⟨by decide, by decide⟩
  sodiumLength := by
    intro message nonce ciphertext h
    obtain ⟨rfl, -, rfl⟩ := eq_of_sodium_eq_some h
    decide +kernel
  sodiumDecrypts := by
    intro message nonce ciphertext h
    obtain ⟨rfl, rfl, rfl⟩ := eq_of_sodium_eq_some h
    decide +kernel
  plplLength := by
    intro message iv ciphertext h
    change cryptopp.cbcEncryption message iv plplKey = .ok ciphertext at h
    simp only [cryptopp] at h
    split_ifs at h with _ h1 h2
    · obtain rfl := Except.ok.inj h
      subst h1
      decide +kernel
    · obtain rfl := Except.ok.inj h
      subst h2
      decide +kernel
  plplDecrypts := by
    intro message iv ciphertext h
    change cryptopp.cbcEncryption message iv plplKey = .ok ciphertext at h
    change cryptopp.cbcDecryption ciphertext iv plplKey = .ok message
    simp only [cryptopp] at h
    split_ifs at h with h0 h1 h2
    · obtain rfl := Except.ok.inj h
      obtain rfl : iv = drawn.iv.val := by simpa using h0
      subst h1
      decide +kernel
    · obtain rfl := Except.ok.inj h
      obtain rfl : iv = drawn.iv.val := by simpa using h0
      subst h2
      decide +kernel

/-- The calls with any front of the data. -/
theorem lossless : Lossless libraries room header data 3 where
  bound _ := rfl
  accepts {srcSize dstCapacity} hsize := by
    have hle : srcSize ≤ 3 := hsize
    have hmax : (LZ4_MAX_INPUT_SIZE : Int) = 0x7E000000 := rfl
    simp only [libraries, lz4]
    split
    next h => exact iff_of_true (List.cons_ne_nil _ _) ⟨h.1, by omega, h.2.2⟩
    next h =>
      refine iff_of_false (fun hne => hne rfl) fun haccepts => ?_
      exact h ⟨haccepts.1, by omega, haccepts.2.2⟩
  room_le {srcSize} hsize hpos hmax := by
    have hlength : (data.take srcSize.toNat).length = srcSize.toNat :=
      List.length_take_of_le (Int.toNat_le.mpr hsize)
    simp only [libraries, lz4, room, hlength, if_pos (And.intro hpos hmax)]
    omega
  length_le {srcSize} dstCapacity hsize := by
    simp only [libraries, lz4]
    split
    next h =>
      have hmax : srcSize ≤ LZ4_MAX_INPUT_SIZE := by
        have : (LZ4_MAX_INPUT_SIZE : Int) = 0x7E000000 := rfl
        omega
      have hlength : (data.take srcSize.toNat).length = srcSize.toNat :=
        List.length_take_of_le (Int.toNat_le.mpr hsize)
      rw [if_pos ⟨h.1, hmax⟩, List.length_cons, hlength]
      omega
    next =>
      split <;> simp only [List.length_nil] <;> omega
  decodes {srcSize dstCapacity} hsize hne := by
    have hlength : (data.take srcSize.toNat).length = srcSize.toNat :=
      List.length_take_of_le (Int.toNat_le.mpr hsize)
    simp only [libraries, lz4] at hne ⊢
    split at hne
    next h =>
      rw [if_pos h, Int.toNat_natCast, List.take_length]
      dsimp only
      rw [if_pos ⟨rfl, by rw [hlength]; omega⟩]
    next => exact absurd rfl hne

theorem seals : Seals libraries client drawn (serialize header ++ packed) where
  sodium := ⟨gcm ++ drawn.nonce.val, gcm, rfl, by decide +kernel, by decide +kernel⟩
  plpl := ⟨cbc ++ drawn.iv.val, cbc, rfl, by decide +kernel, by decide +kernel⟩
  double := by
    rintro inner ⟨ciphertext, rfl, hencrypt, -⟩
    obtain ⟨-, -, rfl⟩ := eq_of_sodium_eq_some hencrypt
    exact ⟨cbcOfGcm ++ drawn.iv.val, cbcOfGcm, rfl, by decide +kernel, by decide +kernel⟩

end ShortRequest

open ShortRequest in
theorem payload_roundTrip_shortRequest :
    (RoundTrip libraries client server drawn work header data true 3 ↔
      Offered libraries room 15 header data) ∧ Offered libraries room 15 header data := by
  refine ⟨payload_roundTrip_iff peers ⟨by decide, by decide, rfl, rfl⟩ ?_ (by decide) lossless,
    by decide, .inl (by decide)⟩
  intro buffer packed' hcompress _
  have hpacked : compress libraries 15 (bytes "old") header data 3 = .ok (data, packed) := by
    decide +kernel
  obtain ⟨-, rfl⟩ : data = buffer ∧ packed = packed' := by
    simpa using hpacked.symm.trans hcompress
  exact seals

open ShortRequest in
/-- A work buffer that has grown to two gigabytes is offered to LZ4 as one of a
negative size. -/
theorem payload_roundTrip_fails :
    Peers libraries client server ∧ Lossless libraries room header data 3 ∧
    compressDoubleEncrypt libraries client.party drawn ⟨⟨2 ^ 31, bytes "old"⟩, []⟩ header data
      true 3 = .error (.runtimeError "compress failed") ∧
    ¬ RoundTrip libraries client server drawn ⟨⟨2 ^ 31, bytes "old"⟩, []⟩ header data true 3 := by
  have hfails : compressDoubleEncrypt libraries client.party drawn
      ⟨⟨2 ^ 31, bytes "old"⟩, []⟩ header data true 3 =
        .error (.runtimeError "compress failed") := by decide +kernel
  refine ⟨peers, lossless, hfails, fun h => ?_⟩
  obtain ⟨encrypted, hencrypted, -⟩ := h.double
  cases hfails.symm.trans hencrypted

end ClientServer
