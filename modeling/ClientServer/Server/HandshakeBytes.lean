import ClientServer.Crypto.HandshakeKeys
import ClientServer.Crypto.KeyObfuscation
import ClientServer.Server.Acceptor

/-!
# The terms of a handshake and their bytes

Where the libraries compute on bytes what is computed on the terms, the constructor
of a session accepts the bytes just when it accepts the terms, and its keys are the
bytes of the keys.
-/

namespace ClientServer.Handshake

open Attacker (verify)

section Bytes

variable (lib : KeyLibraries) (drawn : KeysDrawn) (bytesOf : Message → Bytes)

/-- libsodium computes on the bytes of a public key and of a signature with its key
what is computed on the terms. -/
structure Sodium.Interprets (sk : Scalar) (scalars : Multiset Scalar) (k k' : Signer)
    (signed : Message) (raw : Bytes) : Prop where
  signature_length : (bytesOf (.sign k signed)).length = crypto_sign_BYTES
  verifyKey_length : (bytesOf (.verifyKey k')).length = crypto_sign_PUBLICKEYBYTES
  verifies : lib.crypto_sign_verify_detached (bytesOf (.sign k signed)) lib.sodiumMsgHash
    (bytesOf (.verifyKey k')) = verify (.sign k signed) _msgHash (.verifyKey k')
  decodes : lib.sodium_base642bin (bytesOf (.point .curve25519 scalars)) = some raw
  raw_length : raw.length = crypto_kx_PUBLICKEYBYTES
  exchanges : lib.crypto_kx_server_session_keys drawn.sodiumPubKeyAes drawn.sodiumPrivKeyAes raw =
    (crypto_kx_server_session_keys (publicKey .curve25519 sk) sk (.point .curve25519 scalars)).map
      bytesOf

/-- The constructor of a session accepts the bytes just when it accepts the terms,
with the bytes of the key. -/
theorem Sodium.session_bytes {sk : Scalar} {scalars : Multiset Scalar} {k k' : Signer}
    {signed : Message} {raw : Bytes}
    (h : Sodium.Interprets lib drawn bytesOf sk scalars k k' signed raw) :
    CryptoSodium.session lib drawn (bytesOf (.point .curve25519 scalars))
        (bytesOf (.sign k signed) ++ bytesOf (.verifyKey k')) =
      (Sodium.session sk (.point .curve25519 scalars)
          (.pair (.sign k signed) (.verifyKey k'))).map fun key =>
        ({ _verifiedSignature := true, _signatureSent := false, _key := bytesOf key },
          lib.sodium_bin2base64 drawn.sodiumPubKeyAes) := by
  have hpeer : copyTo drawn.peerPubKeyAes.val raw = .ok raw := by
    refine copyTo_eq_ok.mpr ⟨?_, ?_⟩
    · rw [h.raw_length, drawn.peerPubKeyAes.property]
    · have hall : drawn.peerPubKeyAes.val.drop raw.length = [] := by
        rw [List.drop_eq_nil_iff, h.raw_length, drawn.peerPubKeyAes.property]
      rw [hall, List.append_nil]
  have hsignature : copyFront (bytesOf (.sign k signed) ++ bytesOf (.verifyKey k'))
      crypto_sign_BYTES = .ok (bytesOf (.sign k signed)) := by
    rw [← h.signature_length]
    refine copyFront_eq_ok.mpr ⟨?_, List.take_left⟩
    rw [List.length_append]
    exact Nat.le_add_right _ _
  have hkey : copyTo (List.replicate crypto_sign_PUBLICKEYBYTES 0)
      ((bytesOf (.sign k signed) ++ bytesOf (.verifyKey k')).drop crypto_sign_BYTES) =
        .ok (bytesOf (.verifyKey k')) := by
    rw [← h.signature_length, List.drop_left]
    refine copyTo_eq_ok.mpr ⟨?_, ?_⟩
    · rw [h.verifyKey_length, List.length_replicate]
    · rw [h.verifyKey_length, List.drop_of_length_le (by rw [List.length_replicate]),
        List.append_nil]
  rw [CryptoSodium.session, CryptoSodium.base64_decode, h.decodes, Sodium.session]
  show (copyTo _ raw >>= _) = _
  rw [hpeer]
  show (copyFront _ _ >>= _) = _
  rw [hsignature]
  show (copyTo _ _ >>= _) = _
  rw [hkey]
  show (Outcome.require (lib.crypto_sign_verify_detached _ _ _) _ >>= _) = _
  rw [h.verifies]
  cases verify (.sign k signed) _msgHash (.verifyKey k') with
  | false => rfl
  | true =>
      rw [h.exchanges]
      cases crypto_kx_server_session_keys (publicKey .curve25519 sk) sk
          (.point .curve25519 scalars) with
      | none => rfl
      | some key => rfl

/-- Crypto++ computes on the bytes what is computed on the terms. -/
structure PlPl.Interprets (sk : Scalar) (scalars : Multiset Scalar) (k k' : Signer)
    (signed : Message) (rsaPubKey : lib.RSAPublicKey) : Prop where
  point_length : (bytesOf (.point .secp256r1 scalars)).length = PublicKeyLength
  signature_length : (bytesOf (.sign k signed)).length = RSA_KEY_SIZE >>> 3
  agrees : lib.Agree drawn.plplPrivKeyAes (bytesOf (.point .secp256r1 scalars)) =
    (Agree sk (.point .secp256r1 scalars)).map bytesOf
  loads : lib.Load (bytesOf (.verifyKey k')) = some rsaPubKey
  verifies : lib.VerifyMessage rsaPubKey lib.plplMsgHash (bytesOf (.sign k signed)) =
    .ok (verify (.sign k signed) _msgHash (.verifyKey k'))

theorem readData_of_length {view : Bytes} {size : Nat} (rest : Bytes) (h : view.length = size) :
    readData (view ++ rest) size = .ok view := by
  refine readData_eq_ok.mpr ⟨?_, ?_⟩
  · rw [List.length_append]
    omega
  · rw [← h, List.append_assoc, List.take_left]

theorem PlPl.session_bytes {sk : Scalar} {scalars : Multiset Scalar} {k k' : Signer}
    {signed : Message} {rsaPubKey : lib.RSAPublicKey}
    (h : PlPl.Interprets lib drawn bytesOf sk scalars k k' signed rsaPubKey) :
    CryptoPlPl.session lib drawn (bytesOf (.point .secp256r1 scalars))
        (bytesOf (.sign k signed) ++ bytesOf (.verifyKey k')) =
      (PlPl.session sk (.point .secp256r1 scalars)
          (.pair (.sign k signed) (.verifyKey k'))).map fun key =>
        ({ _verifiedSignature := true, _signatureSent := false, _key := bytesOf key },
          drawn.plplPubKeyAes) := by
  have hpeer : readData (bytesOf (.point .secp256r1 scalars)) PublicKeyLength =
      .ok (bytesOf (.point .secp256r1 scalars)) := by
    have hread := readData_of_length [] h.point_length
    rw [List.append_nil] at hread
    exact hread
  have hsignature := readData_of_length (bytesOf (.verifyKey k')) h.signature_length
  have hkey : substr (bytesOf (.sign k signed) ++ bytesOf (.verifyKey k')) (RSA_KEY_SIZE >>> 3)
      (bytesOf (.sign k signed) ++ bytesOf (.verifyKey k')).length =
        .ok (bytesOf (.verifyKey k')) := by
    refine substr_length_eq_ok.mpr ⟨?_, ?_⟩
    · rw [List.length_append, h.signature_length]
      exact Nat.le_add_right _ _
    · rw [← h.signature_length, List.drop_left]
  rw [CryptoPlPl.session, hpeer, Outcome.ok_bind, h.agrees, PlPl.session]
  cases Agree sk (.point .secp256r1 scalars) with
  | none => rfl
  | some key =>
      show (readData _ _ >>= _) = _
      rw [hsignature]
      show (substr _ _ _ >>= _) = _
      rw [hkey]
      show (CryptoPlPl.decodePeerRsaPublicKey lib _ >>= _) = _
      rw [CryptoPlPl.decodePeerRsaPublicKey, h.loads]
      show (CryptoPlPl.verifySignature lib rsaPubKey _ >>= _) = _
      rw [CryptoPlPl.verifySignature, h.verifies]
      show (Outcome.require (verify _ _ _) _ >>= _) =
        (Outcome.require (verify _ _ _) _ >>= fun _ => pure key).map _
      cases verify (.sign k signed) _msgHash (.verifyKey k') with
      | false => rfl
      | true => rfl

/-- `Session::Session` on the bytes and on the terms. -/
theorem session_bytes (lib : KeyLibraries) (drawn : SessionDrawn) (bytesOf : Message → Bytes)
    {primary secondary : Multiset Scalar} {k k' l l' : Signer} {signed signed' : Message}
    {raw : Bytes} {rsaPubKey : lib.RSAPublicKey}
    (hsodium : Sodium.Interprets lib drawn.toKeysDrawn bytesOf (.server .primary) primary k k'
      signed raw)
    (hplpl : PlPl.Interprets lib drawn.toKeysDrawn bytesOf (.server .secondary) secondary l l'
      signed' rsaPubKey) :
    Session.new lib drawn (bytesOf (.sign k signed) ++ bytesOf (.verifyKey k'))
        (bytesOf (.point .curve25519 primary))
        (bytesOf (.sign l signed') ++ bytesOf (.verifyKey l'))
        (bytesOf (.point .secp256r1 secondary)) =
      (session (.pair (.sign k signed) (.verifyKey k')) (.point .curve25519 primary)
          (.pair (.sign l signed') (.verifyKey l')) (.point .secp256r1 secondary)).map
        fun exchange =>
          { _clientId := drawn.clientId
            _primarySodiumEncryptor := ⟨⟨true, false⟩, bytesOf exchange.primaryKey⟩
            _secondaryCryptoppEncryptor := ⟨⟨true, false⟩, bytesOf exchange.secondaryKey⟩
            _primaryPubKeyAes := lib.sodium_bin2base64 drawn.sodiumPubKeyAes
            _secondaryPubKeyAes := drawn.plplPubKeyAes } := by
  rw [Session.new, Session.primary_eq, Sodium.session_bytes lib drawn.toKeysDrawn bytesOf hsodium,
    PlPl.session_bytes lib drawn.toKeysDrawn bytesOf hplpl, session]
  cases Sodium.session (.server .primary) (.point .curve25519 primary)
      (.pair (.sign k signed) (.verifyKey k')) with
  | error fault => rfl
  | ok primaryKey =>
      cases PlPl.session (.server .secondary) (.point .secp256r1 secondary)
          (.pair (.sign l signed') (.verifyKey l')) with
      | error fault => rfl
      | ok secondaryKey => rfl

end Bytes

end ClientServer.Handshake

namespace ClientServer

/-! ### One handshake

The pairs of keys of `OneExchange`, and signatures that Ed25519 and RSA give for two
hashes. -/

namespace OneHandshake

open OneExchange

def serverPrivKey : Bytes := (List.range 32).map fun i => (i + 101).toUInt8

def encodedClientPubKey : Bytes := bytes "B6N8vBQgk8i3VdwbEOhstCY3StFqqFPtC9/AsrhtHHw="

def clientPoint : Bytes :=
  [4, 81, 92, 61, 110, 185, 227, 150, 185, 4, 211, 254, 202, 127, 84, 253, 205, 12, 193, 233, 151,
   191, 55, 93, 202, 81, 90, 208, 166, 195, 180, 3, 95, 69, 54, 190, 58, 80, 243, 24, 251, 249,
   165, 71, 89, 2, 162, 33, 80, 43, 239, 13, 87, 224, 140, 83, 178, 204, 10, 86, 241, 125, 159,
   147, 84]

def sodiumMsgHash : Bytes :=
  [118, 200, 170, 39, 195, 190, 192, 136, 23, 98, 237, 23, 87, 55, 238, 89, 233, 167, 23, 166, 76,
   9, 0, 9, 177, 49, 91, 223, 234, 130, 159, 21]

def plplMsgHash : Bytes :=
  bytes "15667964EDC71948A2811BF2E1755861BBA55BDF3CC5C928512DC1FB5836602A"

def publicKeySign : Bytes :=
  [121, 181, 86, 46, 143, 230, 84, 249, 64, 120, 177, 18, 232, 169, 139, 167, 144, 31, 133, 58,
   230, 149, 190, 215, 224, 227, 145, 11, 173, 4, 150, 100]

def signature : Bytes :=
  [147, 120, 140, 18, 60, 255, 144, 149, 30, 123, 235, 230, 51, 162, 153, 216, 28, 72, 65, 210,
   209, 36, 228, 81, 121, 182, 243, 57, 137, 200, 178, 188, 88, 59, 232, 98, 93, 81, 92, 145, 134,
   174, 9, 182, 218, 132, 192, 139, 43, 86, 152, 10, 63, 208, 77, 122, 220, 68, 146, 236, 193,
   103, 151, 14]

def serializedRsaPubKey : Bytes :=
  [48, 130, 1, 32, 48, 13, 6, 9, 42, 134, 72, 134, 247, 13, 1, 1, 1, 5, 0, 3, 130, 1, 13, 0, 48,
   130, 1, 8, 2, 130, 1, 1, 0, 236, 175, 254, 204, 188, 64, 1, 253, 81, 137, 30, 125, 53, 152, 83,
   44, 103, 38, 174, 99, 162, 232, 60, 65, 61, 146, 159, 249, 163, 21, 29, 252, 114, 20, 59, 177,
   193, 53, 162, 251, 30, 175, 238, 18, 119, 181, 245, 133, 168, 247, 4, 203, 207, 216, 148, 224,
   216, 95, 176, 205, 75, 55, 208, 69, 50, 185, 178, 185, 11, 122, 0, 160, 139, 10, 150, 175, 230,
   239, 76, 128, 183, 77, 170, 44, 52, 80, 245, 219, 71, 7, 226, 139, 112, 159, 66, 208, 120, 77,
   70, 213, 3, 231, 8, 219, 116, 61, 63, 215, 29, 163, 221, 76, 34, 22, 178, 10, 145, 211, 253,
   103, 235, 73, 135, 237, 33, 74, 212, 176, 130, 180, 248, 18, 69, 253, 3, 147, 54, 48, 142, 33,
   78, 233, 102, 230, 177, 167, 221, 209, 149, 140, 109, 248, 48, 182, 142, 57, 226, 41, 153, 75,
   19, 169, 153, 103, 158, 3, 197, 211, 8, 128, 164, 207, 212, 37, 106, 248, 9, 212, 113, 118,
   120, 28, 182, 182, 198, 150, 154, 62, 56, 241, 113, 75, 205, 196, 79, 207, 34, 137, 131, 241,
   72, 121, 92, 65, 87, 174, 174, 31, 128, 4, 242, 221, 12, 16, 198, 140, 239, 92, 99, 27, 216,
   200, 3, 161, 191, 101, 12, 165, 116, 170, 28, 165, 176, 247, 137, 25, 73, 187, 173, 213, 221,
   174, 175, 136, 193, 51, 38, 196, 187, 24, 188, 135, 91, 205, 103, 225, 2, 1, 17]

def rsaSignature : Bytes :=
  [54, 180, 80, 87, 98, 187, 171, 13, 253, 104, 3, 45, 114, 243, 142, 37, 46, 126, 16, 74, 72, 11,
   166, 133, 37, 69, 135, 111, 159, 127, 58, 138, 255, 2, 183, 223, 228, 170, 90, 145, 25, 108, 6,
   85, 115, 226, 253, 75, 88, 231, 26, 56, 158, 149, 90, 84, 70, 26, 165, 162, 131, 255, 23, 86,
   207, 142, 171, 250, 199, 78, 117, 62, 115, 204, 253, 244, 168, 61, 198, 131, 110, 243, 97, 80,
   8, 21, 47, 171, 96, 75, 30, 23, 117, 165, 181, 137, 111, 47, 71, 126, 46, 85, 142, 26, 67, 247,
   172, 3, 26, 246, 203, 113, 12, 250, 3, 216, 18, 208, 35, 97, 226, 49, 105, 211, 81, 30, 238,
   175, 136, 249, 106, 140, 65, 47, 175, 158, 13, 150, 206, 75, 240, 14, 120, 154, 251, 130, 232,
   137, 115, 248, 107, 140, 216, 67, 167, 14, 158, 72, 239, 214, 248, 201, 89, 47, 55, 228, 64,
   162, 48, 63, 214, 151, 192, 84, 203, 33, 60, 86, 239, 251, 200, 237, 108, 30, 152, 57, 15, 216,
   246, 221, 114, 67, 91, 193, 113, 13, 144, 83, 33, 101, 94, 218, 13, 219, 224, 74, 61, 124, 103,
   1, 85, 65, 48, 47, 238, 90, 221, 60, 127, 3, 38, 27, 106, 98, 229, 245, 184, 132, 15, 132, 53,
   59, 238, 210, 133, 112, 144, 190, 151, 5, 196, 68, 152, 20, 176, 57, 81, 144, 34, 248, 111, 35,
   143, 68, 40, 135]

def keys : KeyLibraries where
  sodium_base642bin encoded := if encoded = encodedClientPubKey then some clientPubKey else none
  sodium_bin2base64 input := if input = serverPubKey then encodedServerPubKey else []
  crypto_sign_verify_detached signature' message publicKey :=
    signature' = signature ∧ message = sodiumMsgHash ∧ publicKey = publicKeySign
  crypto_kx_server_session_keys server_pk server_sk client_pk :=
    if server_pk = serverPubKey ∧ server_sk = serverPrivKey ∧ client_pk = clientPubKey then
      some sodiumKey.toList
    else none
  sodiumMsgHash := sodiumMsgHash
  Agree privateKey otherPublicKey :=
    if privateKey = serverPrivKey ∧ otherPublicKey = clientPoint then some plplKey.toList else none
  RSAPublicKey := Unit
  Load serialized := if serialized = serializedRsaPubKey then some () else none
  VerifyMessage _ message signature' :=
    .ok (message = plplMsgHash ∧ signature' = rsaSignature)
  plplMsgHash := plplMsgHash

def server : SessionDrawn where
  sodiumPubKeyAes := serverPubKey
  sodiumPrivKeyAes := serverPrivKey
  plplPubKeyAes := serverPoint
  plplPrivKeyAes := serverPrivKey
  peerPubKeyAes := ⟨List.replicate 32 0, rfl⟩
  clientId := 7

/-- The bytes of what a client sends, and of the keys. -/
def bytesOf : Handshake.Message → Bytes
  | .sign (.client .primary) _ => signature
  | .sign (.client .secondary) _ => rsaSignature
  | .verifyKey (.client .primary) => publicKeySign
  | .verifyKey (.client .secondary) => serializedRsaPubKey
  | .point .curve25519 _ => encodedClientPubKey
  | .point .secp256r1 scalars =>
      if scalars = {.client .secondary} then clientPoint else plplKey.toList
  | .hash _ => sodiumKey.toList
  | _ => []

theorem sodium_interprets : Handshake.Sodium.Interprets keys server.toKeysDrawn bytesOf
    (.server .primary) {.client .primary} (.client .primary) (.client .primary)
    Handshake.Sodium._msgHash clientPubKey where
  signature_length := by decide +kernel
  verifyKey_length := by decide +kernel
  verifies := by decide +kernel
  decodes := by decide +kernel
  raw_length := by decide +kernel
  exchanges := by decide +kernel

theorem plpl_interprets : Handshake.PlPl.Interprets keys server.toKeysDrawn bytesOf
    (.server .secondary) {.client .secondary} (.client .secondary) (.client .secondary)
    Handshake.PlPl._msgHash () where
  point_length := by decide +kernel
  signature_length := by decide +kernel
  agrees := by decide +kernel
  loads := by
    show keys.Load serializedRsaPubKey = some ()
    simp only [keys, if_true]
  verifies := by decide +kernel

end OneHandshake

open OneHandshake OneExchange in
/-- The bytes of the strings that a client sends, and of the keys that the terms give. -/
example :
    Session.new keys server (signature ++ publicKeySign) encodedClientPubKey
        (rsaSignature ++ serializedRsaPubKey) clientPoint =
      .ok {
        _clientId := 7
        _primarySodiumEncryptor := ⟨⟨true, false⟩, sodiumKey.toList⟩
        _secondaryCryptoppEncryptor := ⟨⟨true, false⟩, plplKey.toList⟩
        _primaryPubKeyAes := encodedServerPubKey
        _secondaryPubKeyAes := serverPoint } := by
  have hbytes := Handshake.session_bytes keys server bytesOf sodium_interprets plpl_interprets
  exact hbytes.trans (by decide +kernel)

end ClientServer
