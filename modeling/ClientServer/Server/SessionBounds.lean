import ClientServer.Server.Acceptor
import ClientServer.Server.Receiving

/-!
# Key material of any length

Nothing checks the lengths of the four strings of an `AUTHENTICATE` message
before the session is built from them.  `CryptoSodium` copies the decoded key and
what stands behind the signature into arrays of a fixed size, and takes the
signature off the front of a string that may be shorter.  `CryptoPlPl` reads a
point and a signature from wherever the strings end.

For each encryptor and for the session: the strings that are handled in bounds.
-/

namespace ClientServer

/-! ## The single accesses -/

theorem inBounds_orThrow {α : Type _} {value : Option α} {fault : Fault}
    (h : fault.isException = true) : InBounds (Outcome.orThrow value fault) := by
  cases value with
  | none => exact inBounds_error.mpr h
  | some a => exact inBounds_ok a

theorem inBounds_require {condition : Bool} {fault : Fault} (h : fault.isException = true) :
    InBounds (Outcome.require condition fault) := by
  cases condition with
  | false => exact inBounds_error.mpr h
  | true => exact inBounds_ok ()

/-- A check in front of an access. -/
theorem inBounds_guard {α : Type _} {inside : Prop} [Decidable inside] {access : Call α}
    (h : InBounds access) :
    InBounds (if inside then access else .error .outOfBounds) ↔ inside := by
  split
  next hinside => exact iff_of_true h hinside
  next houtside => exact iff_of_false (by simp [inBounds_error, Fault.isException]) houtside

theorem inBounds_copyTo {array source : Bytes} :
    InBounds (copyTo array source) ↔ source.length ≤ array.length := by
  rw [copyTo]
  exact inBounds_guard (inBounds_ok _)

theorem inBounds_copyFront {view : Bytes} {size : Nat} :
    InBounds (copyFront view size) ↔ size ≤ view.length := by
  rw [copyFront]
  exact inBounds_guard (inBounds_ok _)

theorem inBounds_readData {view : Bytes} {size : Nat} :
    InBounds (readData view size) ↔ size ≤ view.length + 1 := by
  rw [readData]
  exact inBounds_guard (inBounds_ok _)

theorem inBounds_substr (view : Bytes) (pos n : Nat) : InBounds (substr view pos n) := by
  rw [substr]
  split
  · exact inBounds_error.mpr rfl
  · exact inBounds_ok _

/-! ## The encryptors -/

variable {lib : KeyLibraries} {drawn : KeysDrawn}

namespace CryptoSodium

/-- A key that does not decode, or a decoded key that fits its array with a whole
signature and a key behind it that fits too. -/
def Fits (lib : KeyLibraries) (encodedPeerAesPubKey signatureWithPubKeySign : Bytes) : Prop :=
  ∀ peerAesPubKeyV, lib.sodium_base642bin encodedPeerAesPubKey = some peerAesPubKeyV →
    peerAesPubKeyV.length ≤ crypto_kx_PUBLICKEYBYTES ∧
    crypto_sign_BYTES ≤ signatureWithPubKeySign.length ∧
    signatureWithPubKeySign.length ≤ crypto_sign_BYTES + crypto_sign_PUBLICKEYBYTES

theorem inBounds_session_iff {encodedPeerAesPubKey signatureWithPubKeySign : Bytes} :
    InBounds (session lib drawn encodedPeerAesPubKey signatureWithPubKeySign) ↔
      Fits lib encodedPeerAesPubKey signatureWithPubKeySign := by
  have hdecode : InBounds (Outcome.orThrow (lib.sodium_base642bin encodedPeerAesPubKey)
      (.runtimeError "sodium_base642bin failed")) := inBounds_orThrow rfl
  simp only [session, base64_decode, inBounds_bind, hdecode, true_and, Outcome.orThrow_eq_ok,
    inBounds_copyTo, copyTo_eq_ok, inBounds_copyFront, copyFront_eq_ok,
    drawn.peerPubKeyAes.property, List.length_replicate, List.length_drop, Outcome.pure_eq_ok]
  refine forall₂_congr fun peerAesPubKeyV hpeer => and_congr_right fun hfits => ?_
  constructor
  · intro h
    obtain ⟨hlong, hrest⟩ := h _ ⟨hfits, rfl⟩
    have hshort := (hrest _ ⟨hlong, rfl⟩).1
    exact ⟨hlong, by omega⟩
  · rintro ⟨hlong, hshort⟩ _ -
    refine ⟨hlong, fun _ _ => ⟨by omega, fun _ _ => ⟨inBounds_require rfl, fun _ _ => ?_⟩⟩⟩
    exact ⟨inBounds_orThrow rfl, fun _ _ => inBounds_ok _⟩

end CryptoSodium

namespace CryptoPlPl

/-- A key with a point's length, its terminator counted, and if the exchange
takes it, a signature that is whole in the same sense. -/
def Fits (lib : KeyLibraries) (drawn : KeysDrawn)
    (encodedPeerAesPubKey signatureWithPubKey : Bytes) : Prop :=
  PublicKeyLength ≤ encodedPeerAesPubKey.length + 1 ∧
  ((lib.Agree drawn.plplPrivKeyAes ((encodedPeerAesPubKey ++ [0]).take PublicKeyLength)).isSome =
    true → RSA_KEY_SIZE >>> 3 ≤ signatureWithPubKey.length + 1)

theorem inBounds_verifySignature {key : lib.RSAPublicKey} {signature : Bytes} :
    InBounds (verifySignature lib key signature) := by
  rw [verifySignature]
  split
  · exact inBounds_error.mpr rfl
  · exact inBounds_require rfl

theorem inBounds_session_iff {encodedPeerAesPubKey signatureWithPubKey : Bytes} :
    InBounds (session lib drawn encodedPeerAesPubKey signatureWithPubKey) ↔
      Fits lib drawn encodedPeerAesPubKey signatureWithPubKey := by
  simp only [session, inBounds_bind, inBounds_readData, readData_eq_ok, Outcome.orThrow_eq_ok,
    Fits, Outcome.pure_eq_ok]
  refine and_congr_right fun hlong => ?_
  constructor
  · intro h hagreed
    obtain ⟨_key, hkey⟩ := Option.isSome_iff_exists.mp hagreed
    exact ((h _ ⟨hlong, rfl⟩).2 _key hkey).1
  · rintro h _ ⟨-, rfl⟩
    refine ⟨inBounds_orThrow rfl, fun _key hkey => ⟨h (by simp [hkey]), fun _ _ => ?_⟩⟩
    refine ⟨inBounds_substr _ _ _, fun _ _ => ⟨inBounds_orThrow rfl, fun _ _ => ?_⟩⟩
    exact ⟨inBounds_verifySignature, fun _ _ => inBounds_ok _⟩

end CryptoPlPl

/-! ## The session -/

/-- Exactly the strings with which each encryptor, and a session with both, is
built or throws without an access out of bounds. -/
theorem Session.inBounds_iff (lib : KeyLibraries) (drawn : SessionDrawn)
    (primarySignatureWithKey primaryPubKeyAes secondarySignatureWithKey secondaryPubKeyAes :
      Bytes) :
    (InBounds (CryptoSodium.session lib drawn.toKeysDrawn primaryPubKeyAes
        primarySignatureWithKey) ↔
      CryptoSodium.Fits lib primaryPubKeyAes primarySignatureWithKey) ∧
    (InBounds (CryptoPlPl.session lib drawn.toKeysDrawn secondaryPubKeyAes
        secondarySignatureWithKey) ↔
      CryptoPlPl.Fits lib drawn.toKeysDrawn secondaryPubKeyAes secondarySignatureWithKey) ∧
    (InBounds (Session.new lib drawn primarySignatureWithKey primaryPubKeyAes
        secondarySignatureWithKey secondaryPubKeyAes) ↔
      CryptoSodium.Fits lib primaryPubKeyAes primarySignatureWithKey ∧
      (CryptoSodium.ExchangesWith lib drawn.toKeysDrawn primaryPubKeyAes →
        CryptoSodium.Verifies lib primarySignatureWithKey →
        CryptoPlPl.Fits lib drawn.toKeysDrawn secondaryPubKeyAes secondarySignatureWithKey)) := by
  refine ⟨CryptoSodium.inBounds_session_iff, CryptoPlPl.inBounds_session_iff, ?_⟩
  simp only [Session.new, Session.primary_eq, inBounds_bind, CryptoSodium.inBounds_session_iff,
    CryptoPlPl.inBounds_session_iff]
  refine and_congr_right fun _ => ?_
  constructor
  · intro h hexchanges hverifies
    obtain ⟨primary, hprimary⟩ := CryptoSodium.session_ok_iff.mpr ⟨hexchanges, hverifies⟩
    exact (h primary hprimary).1
  · intro h primary hprimary
    obtain ⟨hexchanges, hverifies⟩ := CryptoSodium.session_ok_iff.mp ⟨primary, hprimary⟩
    exact ⟨h hexchanges hverifies, fun _ _ => inBounds_ok _⟩

/-- Libraries that decode the empty key, as base64 does. -/
def EmptyStrings.libraries : KeyLibraries :=
  { ClosedConnection.libraries with
    sodium_base642bin := fun encoded => if encoded = [] then some [] else none }

/-- Four empty strings: 64 bytes of a signature are read that are not there. -/
theorem Session.inBounds_fails :
    Session.new EmptyStrings.libraries ClosedConnection.drawn [] [] [] [] = .error .outOfBounds ∧
    ¬ InBounds (Session.new EmptyStrings.libraries ClosedConnection.drawn [] [] [] []) := by
  have hsession : Session.new EmptyStrings.libraries ClosedConnection.drawn [] [] [] [] =
      .error .outOfBounds := rfl
  refine ⟨hsession, ?_⟩
  rw [hsession, inBounds_error]
  exact Bool.false_ne_true

end ClientServer
