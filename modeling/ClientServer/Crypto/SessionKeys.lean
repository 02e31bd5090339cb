import ClientServer.Common.Message
import ClientServer.Crypto.Encryptors

/-!
# The keys of a session

The constructors a session builds its two encryptors with, from the strings of
an `AUTHENTICATE` message: the peer's public key of the exchange and a signature
with the key that verifies it.  What is signed is the hash of a message fixed at
build time.

The strings come from a peer that is not authenticated yet.  `session_ok_iff`
says for each encryptor which of them it accepts.
-/

namespace ClientServer

def crypto_kx_PUBLICKEYBYTES := 32
def crypto_sign_BYTES := 64
def crypto_sign_PUBLICKEYBYTES := 32
def RSA_KEY_SIZE := 2048

/-- The length of an uncompressed point of `secp256r1`. -/
def PublicKeyLength := 65

/-- What the constructors call; `none` and `false` where a call reports failure. -/
structure KeyLibraries where
  sodium_base642bin (encoded : Bytes) : Option Bytes
  sodium_bin2base64 (input : Bytes) : Bytes
  crypto_sign_verify_detached (signature message publicKey : Bytes) : Bool
  crypto_kx_server_session_keys (server_pk server_sk client_pk : Bytes) : Option Bytes
  /-- `hashMessage` of the authentication message. -/
  sodiumMsgHash : Bytes
  Agree (privateKey otherPublicKey : Bytes) : Option Bytes
  RSAPublicKey : Type
  Load (serialized : Bytes) : Option RSAPublicKey
  /-- The verifier throws on a key it cannot use. -/
  VerifyMessage (key : RSAPublicKey) (message signature : Bytes) : Except String Bool
  /-- `sha256_hash` of the authentication message. -/
  plplMsgHash : Bytes

/-- The key pairs drawn for one session, and what its array for the peer's key
holds before it is written. -/
structure KeysDrawn where
  sodiumPubKeyAes : Bytes
  sodiumPrivKeyAes : Bytes
  plplPubKeyAes : Bytes
  plplPrivKeyAes : Bytes
  peerPubKeyAes : { array : Bytes // array.length = crypto_kx_PUBLICKEYBYTES }

/-- `std::copy` of bytes to the front of an array. -/
def copyTo (array source : Bytes) : Call Bytes :=
  if source.length ≤ array.length then .ok (source ++ array.drop source.length)
  else .error .outOfBounds

/-- `std::copy` of the first bytes of a view.  The terminating zero byte does not count:
behind a view that is one byte short the copy of the rest would begin behind its end. -/
def copyFront (view : Bytes) (size : Nat) : Call Bytes :=
  if size ≤ view.length then .ok (view.take size) else .error .outOfBounds

/-- The first bytes behind `data()`: the terminating zero byte can be read,
nothing after it can. -/
def readData (view : Bytes) (size : Nat) : Call Bytes :=
  if size ≤ view.length + 1 then .ok ((view ++ [0]).take size) else .error .outOfBounds

theorem copyTo_eq_ok {array source result : Bytes} :
    copyTo array source = .ok result ↔
      source.length ≤ array.length ∧ source ++ array.drop source.length = result := by
  unfold copyTo
  split <;> simp_all

theorem copyFront_eq_ok {view result : Bytes} {size : Nat} :
    copyFront view size = .ok result ↔ size ≤ view.length ∧ view.take size = result := by
  unfold copyFront
  split <;> simp_all

theorem readData_eq_ok {view result : Bytes} {size : Nat} :
    readData view size = .ok result ↔
      size ≤ view.length + 1 ∧ (view ++ [0]).take size = result := by
  unfold readData
  split <;> simp_all

/-- `view.substr(pos)`. -/
theorem substr_length_eq_ok {view result : Bytes} {pos : Nat} :
    substr view pos view.length = .ok result ↔ pos ≤ view.length ∧ view.drop pos = result := by
  have htake : (view.drop pos).take view.length = view.drop pos :=
    List.take_of_length_le (by rw [List.length_drop]; exact Nat.sub_le _ _)
  rw [substr, htake]
  split
  · next h => simp [Nat.not_le.mpr h]
  · next h => simp [Nat.not_lt.mp h]

variable (lib : KeyLibraries) (drawn : KeysDrawn)

/-! ## CryptoSodium -/

namespace CryptoSodium

def base64_decode (encoded : Bytes) : Call Bytes :=
  Outcome.orThrow (lib.sodium_base642bin encoded) (.runtimeError "sodium_base642bin failed")

/-- The constructor of a session; with the encryptor, the public key it sends. -/
def session (encodedPeerAesPubKey signatureWithPubKeySign : Bytes) :
    Call (CryptoSodium × Bytes) := do
  let peerAesPubKeyV ← base64_decode lib encodedPeerAesPubKey
  let _peerPubKeyAes ← copyTo drawn.peerPubKeyAes.val peerAesPubKeyV
  let _encodedPubKeyAes := lib.sodium_bin2base64 drawn.sodiumPubKeyAes
  let signature ← copyFront signatureWithPubKeySign crypto_sign_BYTES
  let peerPubcicKeySign ← copyTo (List.replicate crypto_sign_PUBLICKEYBYTES 0)
    (signatureWithPubKeySign.drop crypto_sign_BYTES)
  Outcome.require
    (lib.crypto_sign_verify_detached signature lib.sodiumMsgHash peerPubcicKeySign)
    (.runtimeError "authentication failed")
  -- Server-side key exchange
  let _key ← Outcome.orThrow
    (lib.crypto_kx_server_session_keys drawn.sodiumPubKeyAes drawn.sodiumPrivKeyAes
      _peerPubKeyAes)
    (.runtimeError "Server-side key exchange failed")
  return ({ _verifiedSignature := true, _signatureSent := false, _key }, _encodedPubKeyAes)

/-- A peer's key that fits its array and that the exchange takes. -/
def ExchangesWith (encodedPeerAesPubKey : Bytes) : Prop :=
  ∃ peerAesPubKeyV, lib.sodium_base642bin encodedPeerAesPubKey = some peerAesPubKeyV ∧
    peerAesPubKeyV.length ≤ crypto_kx_PUBLICKEYBYTES ∧
    (lib.crypto_kx_server_session_keys drawn.sodiumPubKeyAes drawn.sodiumPrivKeyAes
      (peerAesPubKeyV ++ drawn.peerPubKeyAes.val.drop peerAesPubKeyV.length)).isSome

/-- A signature that verifies with the key behind it, which may be cut short. -/
structure Verifies (signatureWithPubKeySign : Bytes) : Prop where
  long : crypto_sign_BYTES ≤ signatureWithPubKeySign.length
  short : signatureWithPubKeySign.length ≤ crypto_sign_BYTES + crypto_sign_PUBLICKEYBYTES
  verified : lib.crypto_sign_verify_detached (signatureWithPubKeySign.take crypto_sign_BYTES)
    lib.sodiumMsgHash
    (signatureWithPubKeySign.drop crypto_sign_BYTES ++
      List.replicate
        (crypto_sign_PUBLICKEYBYTES - (signatureWithPubKeySign.length - crypto_sign_BYTES)) 0) = true

variable {lib drawn}

/-- The strings a session accepts. -/
theorem session_ok_iff {encodedPeerAesPubKey signatureWithPubKeySign : Bytes} :
    (∃ encryptor, session lib drawn encodedPeerAesPubKey signatureWithPubKeySign = .ok encryptor) ↔
      ExchangesWith lib drawn encodedPeerAesPubKey ∧ Verifies lib signatureWithPubKeySign := by
  simp only [session, base64_decode, Outcome.bind_eq_ok, Outcome.orThrow_eq_ok,
    Outcome.require_eq_ok, copyTo_eq_ok, copyFront_eq_ok, Outcome.pure_eq_ok,
    drawn.peerPubKeyAes.property, List.length_replicate, List.length_drop]
  constructor
  · rintro ⟨_, peer, hdecode, _, ⟨hfits, rfl⟩, _, ⟨hlong, rfl⟩, _, ⟨hshort, rfl⟩, _, hverified,
      key, hexchanged, -⟩
    refine ⟨⟨peer, hdecode, hfits, by simp [hexchanged]⟩, hlong, by omega, ?_⟩
    simpa using hverified
  · rintro ⟨⟨peer, hdecode, hfits, hexchanged⟩, hlong, hshort, hverified⟩
    obtain ⟨key, hkey⟩ := Option.isSome_iff_exists.mp hexchanged
    refine ⟨_, peer, hdecode, _, ⟨hfits, rfl⟩, _, ⟨hlong, rfl⟩, _, ⟨by omega, rfl⟩, (), ?_,
      key, hkey, rfl⟩
    simpa using hverified

end CryptoSodium

/-! ## CryptoPlPl -/

namespace CryptoPlPl

def decodePeerRsaPublicKey (rsaPubBserialized : Bytes) : Call lib.RSAPublicKey :=
  Outcome.orThrow (lib.Load rsaPubBserialized) (.runtimeError "rsa key decode failed")

def verifySignature (_peerRsaPubKey : lib.RSAPublicKey) (signature : Bytes) : Call Unit :=
  match lib.VerifyMessage _peerRsaPubKey lib.plplMsgHash signature with
  | .error what => .error (.library what)
  | .ok _verifiedSignature =>
      Outcome.require _verifiedSignature (.runtimeError "Failed to verify signature")

/-- The constructor of a session; with the encryptor, the public key it sends. -/
def session (encodedPeerAesPubKey signatureWithPubKey : Bytes) : Call (CryptoPlPl × Bytes) := do
  let _signatureWithPubKeySign := signatureWithPubKey
  let peerAesPubKey ← readData encodedPeerAesPubKey PublicKeyLength
  let _key ← Outcome.orThrow (lib.Agree drawn.plplPrivKeyAes peerAesPubKey)
    (.runtimeError "Server-side DiffieHellman Failed")
  let _encodedPubKeyAes := drawn.plplPubKeyAes
  let signature ← readData _signatureWithPubKeySign (RSA_KEY_SIZE >>> 3)
  let rsaPubKeySerialized ←
    substr _signatureWithPubKeySign (RSA_KEY_SIZE >>> 3) _signatureWithPubKeySign.length
  let _peerRsaPubKey ← decodePeerRsaPublicKey lib rsaPubKeySerialized
  verifySignature lib _peerRsaPubKey signature
  return ({ _verifiedSignature := true, _signatureSent := false, _key }, _encodedPubKeyAes)

/-- A peer's key of which the exchange takes the first bytes. -/
structure ExchangesWith (encodedPeerAesPubKey : Bytes) : Prop where
  long : PublicKeyLength ≤ encodedPeerAesPubKey.length + 1
  agreed : (lib.Agree drawn.plplPrivKeyAes
    ((encodedPeerAesPubKey ++ [0]).take PublicKeyLength)).isSome = true

/-- A signature that verifies with the key behind it. -/
def Verifies (signatureWithPubKey : Bytes) : Prop :=
  RSA_KEY_SIZE >>> 3 ≤ signatureWithPubKey.length ∧
  ∃ key, lib.Load (signatureWithPubKey.drop (RSA_KEY_SIZE >>> 3)) = some key ∧
    lib.VerifyMessage key lib.plplMsgHash (signatureWithPubKey.take (RSA_KEY_SIZE >>> 3)) = .ok true

variable {lib drawn}

theorem verifySignature_eq_ok {key : lib.RSAPublicKey} {signature : Bytes} {u : Unit} :
    verifySignature lib key signature = .ok u ↔
      lib.VerifyMessage key lib.plplMsgHash signature = .ok true := by
  unfold verifySignature
  split
  · next h => simp [h]
  · next h => simp [h, Outcome.require_eq_ok]

/-- The strings a session accepts. -/
theorem session_ok_iff {encodedPeerAesPubKey signatureWithPubKey : Bytes} :
    (∃ encryptor, session lib drawn encodedPeerAesPubKey signatureWithPubKey = .ok encryptor) ↔
      ExchangesWith lib drawn encodedPeerAesPubKey ∧ Verifies lib signatureWithPubKey := by
  simp only [session, decodePeerRsaPublicKey, Outcome.bind_eq_ok, Outcome.orThrow_eq_ok,
    readData_eq_ok, substr_length_eq_ok, verifySignature_eq_ok, Outcome.pure_eq_ok]
  constructor
  · rintro ⟨_, _, ⟨hlong, rfl⟩, key, hagreed, _, ⟨-, rfl⟩, _, ⟨hle, rfl⟩, rsa, hload, _, hverify, -⟩
    rw [List.take_append_of_le_length hle] at hverify
    exact ⟨⟨hlong, by simp [hagreed]⟩, hle, rsa, hload, hverify⟩
  · rintro ⟨⟨hlong, hagreed⟩, hle, rsa, hload, hverify⟩
    obtain ⟨key, hkey⟩ := Option.isSome_iff_exists.mp hagreed
    refine ⟨_, _, ⟨hlong, rfl⟩, key, hkey, _, ⟨Nat.le_succ_of_le hle, rfl⟩, _, ⟨hle, rfl⟩, rsa,
      hload, (), ?_, rfl⟩
    rwa [List.take_append_of_le_length hle]

end CryptoPlPl

end ClientServer
