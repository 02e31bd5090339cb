import ClientServer.Common.HeaderBounds

/-!
# The two encryptors

`CryptoSodium` (AES-GCM of libsodium) and `CryptoPlPl` (AES-CBC of Crypto++) as
the pipelines use them: an access check, `encrypt` and `decrypt`.  The ciphers
are parameters.  A receiver is not told whether a string is encrypted:
`isEncrypted` tries to read a header off its front.

An encryptor is given by its access flags and by the session key that
`setAESKey` and `setAESmodule` hand out.  A fresh nonce or initialisation vector
is an argument of the call that draws it.  Allocations never fail.
-/

namespace ClientServer

/-! ## The libraries -/

def crypto_aead_aes256gcm_NPUBBYTES := 12
def crypto_aead_aes256gcm_ABYTES := 16
def AES_BLOCKSIZE := 16

/-- AES-GCM of libsodium; `none` where the call returns -1. -/
structure Sodium where
  crypto_aead_aes256gcm_encrypt (message nonce key : Bytes) : Option Bytes
  crypto_aead_aes256gcm_decrypt (ciphertext nonce key : Bytes) : Option Bytes

/-- AES-CBC of Crypto++ through a `StreamTransformationFilter`, which pads the
plaintext and throws on a ciphertext that does not unpad. -/
structure CryptoPP where
  cbcEncryption (message iv key : Bytes) : Except String Bytes
  cbcDecryption (ciphertext iv key : Bytes) : Except String Bytes

/-- What a generator drew for one nonce. -/
def Nonce := { bytes : Bytes // bytes.length = crypto_aead_aes256gcm_NPUBBYTES }

/-- What a generator drew for one initialisation vector. -/
def IV := { bytes : Bytes // bytes.length = AES_BLOCKSIZE }

/-! ## Access -/

/-- The terminal of the process and the ones `utility` remembers; a variable
that is not set has no string. -/
structure Terminal where
  current : Option Bytes
  serverTerminal : Bytes
  clientTerminal : Bytes
  testbinTerminal : Bytes
deriving DecidableEq

/-- `isServerTerminal`, `isClientTerminal` and `isTestbinTerminal`. -/
def isTerminal (terminal : Terminal) (name : Terminal → Bytes) : Call Bool :=
  match terminal.current with
  | some currentTerminal => .ok (currentTerminal == name terminal)
  | none => .error .logicError

/-- The flags of `CryptoBase` that `checkAccess` looks at. -/
structure CryptoBase where
  _verifiedSignature : Bool
  _signatureSent : Bool
deriving DecidableEq

def checkAccess (terminal : Terminal) (base : CryptoBase) : Call Bool := do
  if ← isTerminal terminal Terminal.serverTerminal then
    return base._verifiedSignature
  else if ← isTerminal terminal Terminal.clientTerminal then
    return base._signatureSent
  else if ← isTerminal terminal Terminal.testbinTerminal then
    return true
  else
    return false

structure CryptoSodium extends CryptoBase where
  _key : Bytes
deriving DecidableEq

structure CryptoPlPl extends CryptoBase where
  _key : Bytes
deriving DecidableEq

/-! ## Telling plaintext from ciphertext -/

/-- `CryptoBase::isEncrypted`. -/
def isEncrypted (input : Bytes) : Call Bool :=
  if input = [] then .ok false
  else if input.length < HEADER_SIZE then .error (.assertion "input.size() >= HEADER_SIZE")
  else
    match deserialize default input with
    | .ok (true, _) => .ok false
    | .ok (false, _) => .ok true
    | .error fault => if fault.isRuntimeError then .ok true else .error fault

/-- A string of at least the size of a header counts as encrypted exactly where
no header can be read off it. -/
theorem isEncrypted_eq (input : Bytes) :
    isEncrypted input =
      if input = [] then .ok false
      else if input.length < HEADER_SIZE then .error (.assertion "input.size() >= HEADER_SIZE")
      else .ok (decide (¬ HeaderAccepted input)) := by
  unfold isEncrypted
  split
  · rfl
  split
  · rfl
  next hlength =>
    have hreadable : HeaderReadable input :=
      headerReadable_of_length (by rw [HEADER_SIZE_eq] at hlength; omega)
    have hreading := deserialize_reading default input
    generalize deserialize default input = result at hreading
    cases hreading with
    | unreadable hnot => exact absurd hreadable hnot
    | malformed _ hmalformed =>
        have hrefused : ¬ HeaderAccepted input := fun h => h.not_malformed hmalformed
        simp [Fault.isRuntimeError, hrefused]
    | rejected _ _ _ hrefused => simp [hrefused]
    | accepted haccepted => simp [haccepted]

theorem isEncrypted_of_accepted {input : Bytes} (h : HeaderAccepted input)
    (hlength : HEADER_SIZE ≤ input.length) : isEncrypted input = .ok false := by
  have hne : input ≠ [] := List.ne_nil_of_length_pos (Nat.lt_of_lt_of_le (by decide) hlength)
  rw [isEncrypted_eq, if_neg hne, if_neg (Nat.not_lt.mpr hlength)]
  simp [h]

theorem isEncrypted_of_not_accepted {input : Bytes} (h : ¬ HeaderAccepted input)
    (hlength : HEADER_SIZE ≤ input.length) : isEncrypted input = .ok true := by
  have hne : input ≠ [] := List.ne_nil_of_length_pos (Nat.lt_of_lt_of_le (by decide) hlength)
  rw [isEncrypted_eq, if_neg hne, if_neg (Nat.not_lt.mpr hlength)]
  simp [h]

/-! ## CryptoSodium -/

namespace CryptoSodium

variable (lib : Sodium) (terminal : Terminal) (self : CryptoSodium)

/-- `CryptoSodium::encrypt`.  `input` is the thread-local string the plaintext is
put together in; it is returned beside the outcome as the call leaves it. -/
def encrypt (nonce : Nonce) (input : Bytes) (header : Option HEADER) (data : Bytes) :
    Call Bytes × Bytes :=
  match checkAccess terminal self.toCryptoBase with
  | .error fault => (.error fault, input)
  | .ok false => (.error (.runtimeError "access denied"), input)
  | .ok true =>
      let input := match header with
        | some header => serialize header
        | none => input
      let input := input ++ data
      match lib.crypto_aead_aes256gcm_encrypt input nonce.val self._key with
      | none => (.error (.runtimeError "encrypt failed"), List.replicate input.length 0)
      | some buffer => (.ok (buffer ++ nonce.val), input)

/-- `CryptoSodium::decrypt`; the result is the buffer and the data. -/
def decrypt (data : Bytes) : Call (Bytes × Bytes) := do
  if !(← checkAccess terminal self.toCryptoBase) then
    throw (.runtimeError "access denied")
  let buffer := []
  if ← isEncrypted data then
    let ciphertext_len := data.length - crypto_aead_aes256gcm_NPUBBYTES
    let recoveredNonce := data.drop ciphertext_len
    let data := data.take ciphertext_len
    match lib.crypto_aead_aes256gcm_decrypt data recoveredNonce self._key with
    | none => throw (.runtimeError "decrypt failed")
    | some buffer => return (buffer, buffer)
  else
    return (buffer, data)

variable {lib terminal self}

/-- What `decrypt` does once access is granted, on every string. -/
theorem decrypt_eq (haccess : checkAccess terminal self.toCryptoBase = .ok true) (data : Bytes) :
    decrypt lib terminal self data =
      isEncrypted data >>= fun encrypted =>
        if encrypted then
          match lib.crypto_aead_aes256gcm_decrypt
              (data.take (data.length - crypto_aead_aes256gcm_NPUBBYTES))
              (data.drop (data.length - crypto_aead_aes256gcm_NPUBBYTES)) self._key with
          | none => .error (.runtimeError "decrypt failed")
          | some buffer => .ok (buffer, buffer)
        else .ok ([], data) := by
  simp only [decrypt, haccess, Outcome.ok_bind, Bool.not_true, Bool.false_eq_true, if_false]
  rfl

/-- A message that begins with a readable header passes through. -/
theorem decrypt_of_accepted (haccess : checkAccess terminal self.toCryptoBase = .ok true)
    {data : Bytes} (h : HeaderAccepted data) (hlength : HEADER_SIZE ≤ data.length) :
    decrypt lib terminal self data = .ok ([], data) := by
  rw [decrypt_eq haccess, isEncrypted_of_accepted h hlength, Outcome.ok_bind]
  rfl

/-- A ciphertext with its nonce behind it is taken apart again. -/
theorem decrypt_of_not_accepted (haccess : checkAccess terminal self.toCryptoBase = .ok true)
    {ciphertext message : Bytes} {nonce : Nonce}
    (h : ¬ HeaderAccepted (ciphertext ++ nonce.val))
    (hlength : HEADER_SIZE ≤ (ciphertext ++ nonce.val).length)
    (hdecrypt : lib.crypto_aead_aes256gcm_decrypt ciphertext nonce.val self._key = some message) :
    decrypt lib terminal self (ciphertext ++ nonce.val) = .ok (message, message) := by
  have hcut : (ciphertext ++ nonce.val).length - crypto_aead_aes256gcm_NPUBBYTES =
      ciphertext.length := by
    rw [List.length_append, nonce.property]
    exact Nat.add_sub_cancel ..
  rw [decrypt_eq haccess, isEncrypted_of_not_accepted h hlength, Outcome.ok_bind, hcut,
    List.take_left, List.drop_left, hdecrypt]
  rfl

/-- A call that the library carries out encrypts its own header and data,
whatever an earlier call left in `input`. -/
theorem encrypt_of_some (haccess : checkAccess terminal self.toCryptoBase = .ok true)
    {nonce : Nonce} {input data ciphertext : Bytes} {header : HEADER}
    (hencrypt : lib.crypto_aead_aes256gcm_encrypt (serialize header ++ data) nonce.val self._key =
      some ciphertext) :
    (encrypt lib terminal self nonce input (some header) data).1 =
      .ok (ciphertext ++ nonce.val) := by
  simp only [encrypt, haccess, hencrypt]

end CryptoSodium

/-! ## CryptoPlPl -/

namespace CryptoPlPl

variable (lib : CryptoPP) (terminal : Terminal) (self : CryptoPlPl)

/-- `CryptoPlPl::encrypt`. -/
def encrypt (iv : IV) (header : Option HEADER) (data : Bytes) : Call Bytes := do
  if !(← checkAccess terminal self.toCryptoBase) then
    throw (.runtimeError "access denied")
  let input := match header with
    | some header => serialize header
    | none => []
  match lib.cbcEncryption (input ++ data) iv.val self._key with
  | .error what => throw (.library what)
  | .ok buffer => return buffer ++ iv.val

/-- `CryptoPlPl::decrypt`; the result is the buffer and the data. -/
def decrypt (buffer data : Bytes) : Call (Bytes × Bytes) := do
  if !(← checkAccess terminal self.toCryptoBase) then
    throw (.runtimeError "access denied")
  if ← isEncrypted data then
    let iv := data.drop (data.length - AES_BLOCKSIZE)
    match lib.cbcDecryption (data.take (data.length - AES_BLOCKSIZE)) iv self._key with
    | .error what => throw (.library what)
    | .ok buffer => return (buffer, buffer)
  else
    return (buffer, data)

variable {lib terminal self}

theorem decrypt_eq (haccess : checkAccess terminal self.toCryptoBase = .ok true)
    (buffer data : Bytes) :
    decrypt lib terminal self buffer data =
      isEncrypted data >>= fun encrypted =>
        if encrypted then
          match lib.cbcDecryption (data.take (data.length - AES_BLOCKSIZE))
              (data.drop (data.length - AES_BLOCKSIZE)) self._key with
          | .error what => .error (.library what)
          | .ok buffer => .ok (buffer, buffer)
        else .ok (buffer, data) := by
  simp only [decrypt, haccess, Outcome.ok_bind, Bool.not_true, Bool.false_eq_true, if_false]
  rfl

theorem decrypt_of_accepted (haccess : checkAccess terminal self.toCryptoBase = .ok true)
    {buffer data : Bytes} (h : HeaderAccepted data) (hlength : HEADER_SIZE ≤ data.length) :
    decrypt lib terminal self buffer data = .ok (buffer, data) := by
  rw [decrypt_eq haccess, isEncrypted_of_accepted h hlength, Outcome.ok_bind]
  rfl

theorem decrypt_of_not_accepted (haccess : checkAccess terminal self.toCryptoBase = .ok true)
    {buffer ciphertext message : Bytes} {iv : IV} (h : ¬ HeaderAccepted (ciphertext ++ iv.val))
    (hlength : HEADER_SIZE ≤ (ciphertext ++ iv.val).length)
    (hdecrypt : lib.cbcDecryption ciphertext iv.val self._key = .ok message) :
    decrypt lib terminal self buffer (ciphertext ++ iv.val) = .ok (message, message) := by
  have hcut : (ciphertext ++ iv.val).length - AES_BLOCKSIZE = ciphertext.length := by
    rw [List.length_append, iv.property]
    exact Nat.add_sub_cancel ..
  rw [decrypt_eq haccess, isEncrypted_of_not_accepted h hlength, Outcome.ok_bind, hcut,
    List.take_left, List.drop_left, hdecrypt]
  rfl

theorem encrypt_of_ok (haccess : checkAccess terminal self.toCryptoBase = .ok true) {iv : IV}
    {header : Option HEADER} {data ciphertext : Bytes}
    (hencrypt : lib.cbcEncryption (header.elim [] serialize ++ data) iv.val self._key =
      .ok ciphertext) :
    encrypt lib terminal self iv header data = .ok (ciphertext ++ iv.val) := by
  simp only [encrypt, haccess, Outcome.ok_bind, Bool.not_true, Bool.false_eq_true, if_false]
  cases header with
  | none => simp only [Option.elim_none] at hencrypt; rw [hencrypt]; rfl
  | some header => simp only [Option.elim_some] at hencrypt; rw [hencrypt]; rfl

end CryptoPlPl

end ClientServer
