import ClientServer.Crypto.Compression
import ClientServer.Crypto.Encryptors

/-!
# The payload pipelines

`cryptooperations`: a payload is compressed, put behind its header and encrypted
once or twice; the receiver undoes this on what it gets.  Work buffers and the
thread-local plaintext of `CryptoSodium::encrypt` go in with whatever earlier
calls left in them.
-/

namespace ClientServer

inductive CRYPTO where
  | CRYPTOSODIUM | CRYPTOPP | NONE | ERROR
deriving DecidableEq, Repr

/-- The two weak pointers, as `lock` finds them. -/
structure CryptoTuple where
  sodium : Option CryptoSodium
  plpl : Option CryptoPlPl

/-- The libraries the pipelines call, the standard library among them. -/
structure Libraries where
  string : StdString
  sodium : Sodium
  cryptopp : CryptoPP
  lz4 : LZ4
  snappy : Snappy
  zstd : ZSTD

/-- One end of a connection. -/
structure Party where
  terminal : Terminal
  encryptors : CryptoTuple

/-- What the generators draw during one call. -/
structure Drawn where
  nonce : Nonce
  iv : IV

namespace cryptooperations

variable (lib : Libraries) (party : Party)

/-! ## Encryption -/

def singleEncrypt (crypto : CRYPTO) (drawn : Drawn) (input : Bytes) (header : HEADER)
    (source : Bytes) : Call Bytes :=
  match crypto with
  | .CRYPTOSODIUM =>
      match party.encryptors.sodium with
      | some encryptor =>
          (encryptor.encrypt lib.sodium party.terminal drawn.nonce input (some header) source).1
      | none => .ok []
  | .CRYPTOPP =>
      match party.encryptors.plpl with
      | some encryptor =>
          encryptor.encrypt lib.cryptopp party.terminal drawn.iv (some header) source
      | none => .ok []
  | .NONE | .ERROR => .ok []

def doubleEncrypt (drawn : Drawn) (input : Bytes) (header : HEADER) (source : Bytes) :
    Call Bytes := do
  let encrypted := []
  let encrypted ← match party.encryptors.sodium with
    | some encryptor =>
        (encryptor.encrypt lib.sodium party.terminal drawn.nonce input (some header) source).1
    | none => .ok encrypted
  match party.encryptors.plpl with
  | some encryptor => encryptor.encrypt lib.cryptopp party.terminal drawn.iv none encrypted
  | none => .ok encrypted

/-! ## Decryption -/

/-- The switch of `singleDecrypt` over the encryptor. -/
def singleDecryptSwitch (crypto : CRYPTO) (buffer data : Bytes) : Call (Bytes × Bytes) :=
  match crypto with
  | .CRYPTOSODIUM =>
      match party.encryptors.sodium with
      | some encryptor => encryptor.decrypt lib.sodium party.terminal data
      | none => .ok (buffer, data)
  | .CRYPTOPP =>
      match party.encryptors.plpl with
      | some encryptor => encryptor.decrypt lib.cryptopp party.terminal buffer data
      | none => .ok (buffer, data)
  | .NONE | .ERROR => .ok (buffer, data)

/-- The result is the buffer, the header and the data. -/
def singleDecrypt (crypto : CRYPTO) (buffer : Bytes) (header : HEADER) (data : Bytes) :
    Call (Bytes × HEADER × Bytes) := do
  let (buffer, data) ← singleDecryptSwitch lib party crypto buffer data
  let (ok, header) ← deserialize header data
  if !ok then
    throw (.runtimeError "deserialize failed")
  return (buffer, header, data.drop HEADER_SIZE)

def doubleDecrypt (buffer : Bytes) (header : HEADER) (data : Bytes) :
    Call (Bytes × HEADER × Bytes) := do
  let (buffer, data) ← match party.encryptors.plpl with
    | some encryptor => encryptor.decrypt lib.cryptopp party.terminal [] data
    | none => .ok (buffer, data)
  let (buffer, data) ← match party.encryptors.sodium with
    | some encryptor => encryptor.decrypt lib.sodium party.terminal data
    | none => .ok (buffer, data)
  let (ok, header) ← deserialize header data
  if !ok then
    throw (.runtimeError "doubleDecrypt failure.")
  return (buffer, header, data)

/-! ## Compression -/

/-- The switch over the compressor in front of both encryptions.  A failure
that Snappy reports is not looked at. -/
def compress (capacity : Nat) (buffer : Bytes) (header : HEADER) (data : Bytes)
    (compressionLevel : Int) : Call (Bytes × Bytes) :=
  if isCompressed header then
    match header.compressor with
    | .LZ4 => compressionLZ4.compress lib.string lib.lz4 capacity data
    | .SNAPPY => .ok (compressionSnappy.compress lib.snappy data).2
    | .ZSTD => compressionZSTD.compress lib.string lib.zstd buffer data compressionLevel
    | _ => .ok (buffer, data)
  else .ok (buffer, data)

/-- The switch over the compressor behind both decryptions. -/
def uncompress (buffer : Bytes) (header : HEADER) (data : Bytes) : Call (Bytes × Bytes) :=
  if isCompressed header then
    match header.compressor with
    | .LZ4 => compressionLZ4.uncompress lib.string lib.lz4 buffer data
    | .SNAPPY => do
        let (_, buffer, data) ← compressionSnappy.uncompress lib.snappy buffer data
        return (buffer, data)
    | .ZSTD => compressionZSTD.uncompress lib.string lib.zstd buffer data
    | _ => .ok (buffer, data)
  else .ok (buffer, data)

/-! ## The pipelines -/

/-- The work buffer of a sender: its bytes, and the capacity that it has, whatever it
grew to before. -/
structure WorkBuffer where
  capacity : Nat
  bytes : Bytes

/-- The work buffers of a sender: `buffer` and the thread-local plaintext. -/
structure SenderBuffers where
  buffer : WorkBuffer
  input : Bytes

def compressSingleEncrypt (crypto : CRYPTO) (drawn : Drawn) (work : SenderBuffers)
    (header : HEADER) (data : Bytes) (doEncrypt : Bool) (compressionLevel : Int) :
    Call Bytes := do
  let (_, data) ←
    compress lib work.buffer.capacity work.buffer.bytes header data compressionLevel
  if doEncrypt then
    singleEncrypt lib party crypto drawn work.input header data
  else
    return serialize header ++ data

def compressDoubleEncrypt (drawn : Drawn) (work : SenderBuffers) (header : HEADER)
    (data : Bytes) (doEncrypt : Bool) (compressionLevel : Int) : Call Bytes := do
  let (_, data) ←
    compress lib work.buffer.capacity work.buffer.bytes header data compressionLevel
  if doEncrypt then
    doubleEncrypt lib party drawn work.input header data
  else
    return serialize header ++ data

def singleDecryptDecompress (crypto : CRYPTO) (buffer : Bytes) (header : HEADER) (data : Bytes) :
    Call (Bytes × HEADER × Bytes) := do
  let (buffer, header, data) ← singleDecrypt lib party crypto buffer header data
  let (buffer, data) ← uncompress lib buffer header data
  return (buffer, header, data)

def doubleDecryptDecompress (buffer : Bytes) (header : HEADER) (data : Bytes) :
    Call (Bytes × HEADER × Bytes) := do
  let (buffer, header, data) ← doubleDecrypt lib party buffer header data
  let data := data.drop HEADER_SIZE
  let (buffer, data) ← uncompress lib buffer header data
  return (buffer, header, data)

end cryptooperations

end ClientServer
