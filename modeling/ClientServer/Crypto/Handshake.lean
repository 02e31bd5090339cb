import ClientServer.Crypto.SessionKeys
import ClientServer.Library.Attacker
import Mathlib.Logic.Relation

/-!
# The handshake with an attacker on the wire

A client sends `AUTHENTICATE`: for each of the two layers of encryption a public
key of the exchange and a signature with the key that verifies it.  The session
checks the signatures, answers `DH_HANDSHAKE` with its own public keys, and both
sides compute a key for each layer.  What is signed is the hash of a message
fixed at build time, and the answer is not signed.

Strings are terms here: no two different terms have the same bytes.  The session
and the client get whatever the attacker derives from what was sent.
-/

namespace ClientServer.Handshake

open Attacker (Term Own Derives verify)

/-! ## Messages -/

inductive Text where
  | authenticationMessage | generichash | sha256
  | other (n : Nat)
deriving DecidableEq

inductive Curve where
  | curve25519 | secp256r1
deriving DecidableEq

/-- The two encryptors of a client and of a session. -/
inductive Layer where
  | primary | secondary
deriving DecidableEq

inductive Scalar where
  | client (layer : Layer)
  | server (layer : Layer)
  | attacker (n : Nat)
deriving DecidableEq

inductive Signer where
  | client (layer : Layer)
  | attacker (n : Nat)
deriving DecidableEq

abbrev Message := Term Text Scalar Signer Curve

def own : Own Scalar Signer where
  scalar a := ∃ n, a = .attacker n
  signKey k := ∃ n, k = .attacker n

/-- The multiplication of both libraries; a string that is no point of the curve
is refused. -/
def scalarmult (curve : Curve) (sk : Scalar) : Message → Option Message
  | .point curve' scalars =>
      if curve' = curve then some (.point curve (sk ::ₘ scalars)) else none
  | _ => none

def publicKey (curve : Curve) (sk : Scalar) : Message := .point curve {sk}

/-- A signature with the key that verifies it. -/
def signatureWithPubKey (k : Signer) (_msgHash : Message) : Message :=
  .pair (.sign k _msgHash) (.verifyKey k)

/-! ## CryptoSodium -/

namespace Sodium

def _msgHash : Message := .hash (.pair (.const .generichash) (.const .authenticationMessage))

/-- The hash of the product and the two public keys.  One buffer is given for both
keys of a side, and the same key is left in it on both sides. -/
def crypto_kx_session_key (q client_pk server_pk : Message) : Message :=
  .hash (.pair q (.pair client_pk server_pk))

def crypto_kx_server_session_keys (server_pk : Message) (server_sk : Scalar)
    (client_pk : Message) : Option Message :=
  (scalarmult .curve25519 server_sk client_pk).map (crypto_kx_session_key · client_pk server_pk)

def crypto_kx_client_session_keys (client_pk : Message) (client_sk : Scalar)
    (server_pk : Message) : Option Message :=
  (scalarmult .curve25519 client_sk server_pk).map (crypto_kx_session_key · client_pk server_pk)

/-- The constructor of a session, up to the key. -/
def session (_privKeyAes : Scalar) (encodedPeerAesPubKey : Message) :
    (signatureWithPubKeySign : Message) → Call Message
  | .pair signature peerPubcicKeySign => do
      Outcome.require (verify signature _msgHash peerPubcicKeySign)
        (.runtimeError "authentication failed")
      Outcome.orThrow
        (crypto_kx_server_session_keys (publicKey .curve25519 _privKeyAes) _privKeyAes
          encodedPeerAesPubKey)
        (.runtimeError "Server-side key exchange failed")
  | _ => .error (.runtimeError "authentication failed")

def clientKeyExchange (_privKeyAes : Scalar) (encodedPeerPubKeyAes : Message) : Call Message :=
  Outcome.orThrow
    (crypto_kx_client_session_keys (publicKey .curve25519 _privKeyAes) _privKeyAes
      encodedPeerPubKeyAes)
    (.runtimeError "Client-side key exchange failed")

end Sodium

/-! ## CryptoPlPl -/

namespace PlPl

def _msgHash : Message := .hash (.pair (.const .sha256) (.const .authenticationMessage))

/-- `Agree`: the key is the product itself. -/
def Agree (privateKey : Scalar) (otherPublicKey : Message) : Option Message :=
  scalarmult .secp256r1 privateKey otherPublicKey

def session (_privKeyAes : Scalar) (encodedPeerAesPubKey signatureWithPubKey : Message) :
    Call Message := do
  let _key ← Outcome.orThrow (Agree _privKeyAes encodedPeerAesPubKey)
    (.runtimeError "Server-side DiffieHellman Failed")
  match signatureWithPubKey with
  | .pair signature (.verifyKey k) =>
      Outcome.require (verify signature _msgHash (.verifyKey k))
        (.runtimeError "Failed to verify signature")
      return _key
  | _ => throw (.runtimeError "rsa key decode failed")

def clientKeyExchange (_privKeyAes : Scalar) (encodedPeerPubKeyAes : Message) : Call Message :=
  Outcome.orThrow (Agree _privKeyAes encodedPeerPubKeyAes)
    (.runtimeError "Client-side key exchange failed")

end PlPl

/-! ## The two sides -/

/-- What a side was given of the other, and the keys it computed. -/
structure Exchange where
  primaryPeer : Message
  secondaryPeer : Message
  primaryKey : Message
  secondaryKey : Message
deriving DecidableEq

/-- The key of a layer. -/
def Exchange.key (exchange : Exchange) : Layer → Message
  | .primary => exchange.primaryKey
  | .secondary => exchange.secondaryKey

/-- The constructor of a session. -/
def session (primarySignatureWithKey primaryPubKeyAes secondarySignatureWithKey
    secondaryPubKeyAes : Message) : Call Exchange := do
  let primaryKey ← Sodium.session (.server .primary) primaryPubKeyAes primarySignatureWithKey
  let secondaryKey ←
    PlPl.session (.server .secondary) secondaryPubKeyAes secondarySignatureWithKey
  return ⟨primaryPubKeyAes, secondaryPubKeyAes, primaryKey, secondaryKey⟩

/-- `Client::clientKeyExchange`. -/
def clientKeyExchange (primaryPeerPubKeyAes secondaryPeerPubKeyAes : Message) : Call Exchange := do
  let primaryKey ← Sodium.clientKeyExchange (.client .primary) primaryPeerPubKeyAes
  let secondaryKey ← PlPl.clientKeyExchange (.client .secondary) secondaryPeerPubKeyAes
  return ⟨primaryPeerPubKeyAes, secondaryPeerPubKeyAes, primaryKey, secondaryKey⟩

/-- The fields of `AUTHENTICATE`. -/
def authenticate : List Message :=
  [signatureWithPubKey (.client .primary) Sodium._msgHash,
    publicKey .curve25519 (.client .primary),
    signatureWithPubKey (.client .secondary) PlPl._msgHash,
    publicKey .secp256r1 (.client .secondary)]

/-- The fields of `DH_HANDSHAKE` behind the number of the client. -/
def handshake : List Message :=
  [publicKey .curve25519 (.server .primary), publicKey .secp256r1 (.server .secondary)]

/-! ## Runs -/

structure State where
  /-- What was sent over the wire. -/
  sent : List Message
  /-- The client has sent `AUTHENTICATE`. -/
  waiting : Bool
  session : Option Exchange
  client : Option Exchange

def State.initial : State := ⟨[], false, none, none⟩

/-- What the attacker can send. -/
def State.Derives (s : State) (message : Message) : Prop :=
  Attacker.Derives own (· ∈ s.sent) message

inductive Step : State → State → Prop where
  | send {s : State} : s.waiting = false →
      Step s { s with sent := s.sent ++ authenticate, waiting := true }
  /-- A session accepts what it is given as `AUTHENTICATE`, and answers. -/
  | accept {s : State} {exchange : Exchange} {primarySignatureWithKey primaryPubKeyAes
      secondarySignatureWithKey secondaryPubKeyAes : Message} : s.session = none →
      s.Derives primarySignatureWithKey → s.Derives primaryPubKeyAes →
      s.Derives secondarySignatureWithKey → s.Derives secondaryPubKeyAes →
      session primarySignatureWithKey primaryPubKeyAes secondarySignatureWithKey
        secondaryPubKeyAes = .ok exchange →
      Step s { s with sent := s.sent ++ handshake, session := some exchange }
  /-- The client accepts what it is given as `DH_HANDSHAKE`. -/
  | finish {s : State} {exchange : Exchange} {primaryPeerPubKeyAes secondaryPeerPubKeyAes :
      Message} : s.waiting = true → s.client = none →
      s.Derives primaryPeerPubKeyAes → s.Derives secondaryPeerPubKeyAes →
      clientKeyExchange primaryPeerPubKeyAes secondaryPeerPubKeyAes = .ok exchange →
      Step s { s with client := some exchange }

/-- The states of all runs. -/
def Reachable : State → Prop := Relation.ReflTransGen Step State.initial

end ClientServer.Handshake
