import ClientServer.Crypto.Pipeline
import ClientServer.Crypto.SessionKeys

/-!
# The key of a client

A client keeps its session key mixed with an obfuscator.  A use of the key
recovers it, copies it out and hides it again with a fresh obfuscator; a flag
says which of the two forms is stored, and hiding a hidden key does nothing.

The exchange stores the agreed key as it is and then hides it.  If the key was
used before, the flag is set already, so the agreed key stays in the clear and
the next use mixes it with an obfuscator of the key it replaced.
-/

namespace ClientServer

/-! ## Obfuscation -/

/-- The bytes of a key or of an obfuscator. -/
abbrev KeyBytes (size : Nat) := Vector UInt8 size

/-- The loop `key[i] ^= _obfuscator[i]`. -/
def mix {size : Nat} (key _obfuscator : KeyBytes size) : KeyBytes size :=
  Vector.zipWith (· ^^^ ·) key _obfuscator

theorem mix_mix {size : Nat} (key _obfuscator : KeyBytes size) :
    mix (mix key _obfuscator) _obfuscator = key := by
  ext i hi
  simp only [mix, Vector.getElem_zipWith, UInt8.xor_assoc, UInt8.xor_self, UInt8.xor_zero]

theorem mix_eq_self {size : Nat} {key _obfuscator : KeyBytes size} :
    mix key _obfuscator = key ↔ _obfuscator = Vector.replicate size 0 := by
  constructor
  · intro h
    refine Vector.ext fun i hi => ?_
    have hbyte := congrArg (fun bytes => bytes[i]) h
    simp only [mix, Vector.getElem_zipWith] at hbyte
    rw [Vector.getElem_replicate, ← UInt8.xor_right_inj key[i], hbyte, UInt8.xor_zero]
  · rintro rfl
    ext i hi
    simp [mix]

/-- `HandleKey` and `KeyHandler`. -/
structure Obfuscator (size : Nat) where
  _obfuscator : KeyBytes size
  _obfuscated : Bool

/-- A key as an encryptor stores it, with its handler. -/
structure StoredKey (size : Nat) where
  _key : KeyBytes size
  _keyHandler : Obfuscator size

namespace StoredKey

variable {size : Nat}

/-- `hideKey` with the obfuscator it generates. -/
def hideKey (drawn : KeyBytes size) (self : StoredKey size) : StoredKey size :=
  if self._keyHandler._obfuscated then self
  else ⟨mix self._key drawn, drawn, true⟩

def recoverKey (self : StoredKey size) : StoredKey size :=
  if self._keyHandler._obfuscated then
    ⟨mix self._key self._keyHandler._obfuscator, Vector.replicate size 0, false⟩
  else self

/-- `CryptoSodium::setAESKey` and `CryptoPlPl::setAESmodule`: the key they hand
out and what is stored then. -/
def useKey (drawn : KeyBytes size) (self : StoredKey size) : KeyBytes size × StoredKey size :=
  let self := self.recoverKey
  (self._key, self.hideKey drawn)

/-- The agreed key is written and hidden. -/
def agree (key drawn : KeyBytes size) (self : StoredKey size) : StoredKey size :=
  hideKey drawn { self with _key := key }

/-- The key is stored in its obfuscated form. -/
def Hides (key : KeyBytes size) (self : StoredKey size) : Prop :=
  self._keyHandler._obfuscated = true ∧ self._key = mix key self._keyHandler._obfuscator

variable {key drawn : KeyBytes size} {self : StoredKey size}

theorem hides_hideKey {self : StoredKey size} (h : self._keyHandler._obfuscated = false)
    (drawn : KeyBytes size) :
    Hides self._key (self.hideKey drawn) := by
  simp [hideKey, Hides, h]

theorem recoverKey_obfuscated (self : StoredKey size) :
    self.recoverKey._keyHandler._obfuscated = false := by
  rw [recoverKey]
  split
  · rfl
  · next h => simpa using h

/-- A use hands out the hidden key and hides it again. -/
theorem useKey_of_hides (h : Hides key self) (drawn : KeyBytes size) :
    (self.useKey drawn).1 = key ∧ Hides key (self.useKey drawn).2 := by
  have hrecovered : self.recoverKey._key = key := by
    rw [recoverKey, if_pos h.1, h.2]
    exact mix_mix key _
  refine ⟨hrecovered, ?_⟩
  have hhides := hides_hideKey (recoverKey_obfuscated self) drawn
  rwa [hrecovered] at hhides

/-- The agreed key is hidden unless the flag says so already; there, only an
obfuscator of zeros hides nothing. -/
theorem hides_agree_iff (key drawn : KeyBytes size) :
    Hides key (self.agree key drawn) ↔
      self._keyHandler._obfuscated = false ∨
        self._keyHandler._obfuscator = Vector.replicate size 0 := by
  cases h : self._keyHandler._obfuscated with
  | false =>
      have hnot : ({ self with _key := key } : StoredKey size)._keyHandler._obfuscated = false := h
      exact iff_of_true (hides_hideKey hnot drawn) (.inl rfl)
  | true =>
      rw [agree, hideKey, if_pos h, Hides, ← @mix_eq_self size key]
      simp [h, eq_comm]

end StoredKey

/-! ## What a call does to the key -/

/-- The stored key and `_keysExchanged`. -/
structure KeyState (size : Nat) where
  keys : StoredKey size
  _keysExchanged : Bool

/-- One call: it leaves the key alone, uses it, or agrees on one. -/
inductive KeyStep {size : Nat} : (used : Bool) → KeyState size → KeyState size → Prop where
  | keep (s : KeyState size) : KeyStep false s s
  | use (s : KeyState size) (drawn : KeyBytes size) :
      KeyStep true s { s with keys := (s.keys.useKey drawn).2 }
  | agree (keys : StoredKey size) (key drawn : KeyBytes size) :
      KeyStep false ⟨keys, false⟩ ⟨keys.agree key drawn, true⟩

/-- A sequence of calls, and whether one of them used the key. -/
inductive KeyRun {size : Nat} : (used : Bool) → KeyState size → KeyState size → Prop where
  | nil (s : KeyState size) : KeyRun false s s
  | cons {used later : Bool} {s s' s'' : KeyState size} (hstep : KeyStep used s s')
      (hrun : KeyRun later s' s'') : KeyRun (used || later) s s''

section

variable {size : Nat} {key : KeyBytes size} {used : Bool} {s s' : KeyState size}

theorem KeyStep.hides (hs : KeyStep used s s') (hexchanged : s._keysExchanged = true)
    (h : s.keys.Hides key) : s'._keysExchanged = true ∧ s'.keys.Hides key := by
  cases hs with
  | keep => exact ⟨hexchanged, h⟩
  | use drawn => exact ⟨hexchanged, (StoredKey.useKey_of_hides h _).2⟩
  | agree => cases hexchanged

/-- Once it is hidden, a key stays so. -/
theorem KeyRun.hides (hrun : KeyRun used s s') (hexchanged : s._keysExchanged = true)
    (h : s.keys.Hides key) : s'._keysExchanged = true ∧ s'.keys.Hides key := by
  induction hrun with
  | nil => exact ⟨hexchanged, h⟩
  | cons hstep _ ih =>
      obtain ⟨hexchanged, h⟩ := hstep.hides hexchanged h
      exact ih hexchanged h

theorem KeyRun.exchanged (hrun : KeyRun used s s') (hexchanged : s._keysExchanged = true) :
    s'._keysExchanged = true := by
  induction hrun with
  | nil => exact hexchanged
  | cons hstep _ ih =>
      cases hstep with
      | keep => exact ih hexchanged
      | use => exact ih hexchanged
      | agree => cases hexchanged

/-- Before the exchange the flag says whether the key was used. -/
theorem KeyRun.obfuscated (hrun : KeyRun used s s') (hnot : s'._keysExchanged = false) :
    s'.keys._keyHandler._obfuscated = (s.keys._keyHandler._obfuscated || used) := by
  induction hrun with
  | nil => simp
  | cons hstep hrest ih =>
      rw [ih hnot]
      cases hstep with
      | keep => simp
      | use =>
          rw [StoredKey.useKey, StoredKey.hideKey, StoredKey.recoverKey_obfuscated]
          simp
      | agree =>
          rw [hrest.exchanged rfl] at hnot
          cases hnot

end

/-! ## Clients -/

/-- What a client's encryptor does around its session key: the other members of
the object, the calls of `encrypt` and `decrypt`, and the exchange. -/
structure Encryptor (size : Nat) where
  Members : Type
  Request : Type
  Reply : Type
  /-- The call gets as far as the key. -/
  uses : Members → Request → Bool
  /-- What the call does with the key in the clear. -/
  reply : Members → KeyBytes size → Request → Reply
  reply_of_not_uses : ∀ {members request}, uses members request = false →
    ∀ key key', reply members key request = reply members key' request
  /-- What `clientKeyExchange` does up to the agreed key. -/
  agree : Members → (encodedPeerPubKeyAes : Bytes) → Call (KeyBytes size) × Members
  sendSignature : Members → Members

/-- The encryptor of a client with the key as it is stored. -/
structure Client {size : Nat} (encryptor : Encryptor size) extends KeyState size where
  members : encryptor.Members

namespace Client

variable {size : Nat} {encryptor : Encryptor size}

/-- `encrypt` and `decrypt`, with the obfuscator that hides the key again. -/
def request (self : Client encryptor) (drawn : KeyBytes size) (call : encryptor.Request) :
    encryptor.Reply × Client encryptor :=
  if encryptor.uses self.members call then
    let (key, keys) := self.keys.useKey drawn
    (encryptor.reply self.members key call, { self with keys })
  else (encryptor.reply self.members self.keys._key call, self)

def clientKeyExchange (self : Client encryptor) (drawn : KeyBytes size)
    (encodedPeerPubKeyAes : Bytes) : Call Bool × Client encryptor :=
  if self._keysExchanged then (.ok true, self)
  else
    match encryptor.agree self.members encodedPeerPubKeyAes with
    | (.error fault, members) => (.error fault, { self with members })
    | (.ok key, members) =>
        (.ok true, ⟨⟨self.keys.agree key drawn, true⟩, members⟩)

/-- A call of the client, with the obfuscator that is generated if one is. -/
inductive Action (encryptor : Encryptor size) where
  | request (drawn : KeyBytes size) (call : encryptor.Request)
  | clientKeyExchange (drawn : KeyBytes size) (encodedPeerPubKeyAes : Bytes)
  | sendSignature

def step (self : Client encryptor) : Action encryptor → Client encryptor
  | .request drawn call => (self.request drawn call).2
  | .clientKeyExchange drawn encodedPeerPubKeyAes =>
      (self.clientKeyExchange drawn encodedPeerPubKeyAes).2
  | .sendSignature => { self with members := encryptor.sendSignature self.members }

def run (self : Client encryptor) : List (Action encryptor) → Client encryptor
  | [] => self
  | action :: actions => (self.step action).run actions

/-- The call gets as far as the key. -/
def uses (self : Client encryptor) : Action encryptor → Bool
  | .request _ call => encryptor.uses self.members call
  | .clientKeyExchange .. => false
  | .sendSignature => false

/-- One of the calls does. -/
def used (self : Client encryptor) : List (Action encryptor) → Bool
  | [] => false
  | action :: actions => self.uses action || (self.step action).used actions

/-- The agreed key is stored in its obfuscated form, is the one that every call
uses, and no exchange changes anything. -/
structure Keeps (key : KeyBytes size) (client : Client encryptor) : Prop where
  hides : client.keys.Hides key
  request : ∀ drawn call,
    (client.request drawn call).1 = encryptor.reply client.members key call
  clientKeyExchange : ∀ drawn encodedPeerPubKeyAes,
    client.clientKeyExchange drawn encodedPeerPubKeyAes = (.ok true, client)

variable {self : Client encryptor} {key drawn : KeyBytes size}

theorem run_append (self : Client encryptor) (actions more : List (Action encryptor)) :
    self.run (actions ++ more) = (self.run actions).run more := by
  induction actions generalizing self with
  | nil => rfl
  | cons action actions ih => exact ih _

theorem keeps_of_hides (hexchanged : self._keysExchanged = true) (h : self.keys.Hides key) :
    Keeps key self where
  hides := h
  request := by
    intro drawn call
    rw [request]
    split
    · rw [← (StoredKey.useKey_of_hides h drawn).1]
    · next hnot => exact encryptor.reply_of_not_uses (by simpa using hnot) _ _
  clientKeyExchange := by
    intro drawn encodedPeerPubKeyAes
    rw [Client.clientKeyExchange, if_pos hexchanged]

theorem step_keyStep (self : Client encryptor) (action : Action encryptor) :
    KeyStep (self.uses action) self.toKeyState (self.step action).toKeyState := by
  cases action with
  | request drawn call =>
      rw [step, request, uses]
      split
      · next h => exact h ▸ KeyStep.use self.toKeyState drawn
      · next h => exact (Bool.not_eq_true _ ▸ h) ▸ KeyStep.keep self.toKeyState
  | clientKeyExchange drawn encodedPeerPubKeyAes =>
      rw [step, clientKeyExchange, uses]
      split
      · exact .keep _
      · next hnot =>
          split
          · exact .keep _
          · next key members _ =>
              obtain ⟨⟨keys, exchanged⟩, members⟩ := self
              obtain rfl : exchanged = false := by simpa using hnot
              exact .agree keys key drawn
  | sendSignature => exact .keep _

theorem run_keyRun (self : Client encryptor) (actions : List (Action encryptor)) :
    KeyRun (self.used actions) self.toKeyState (self.run actions).toKeyState := by
  induction actions generalizing self with
  | nil => exact .nil _
  | cons action actions ih => exact .cons (self.step_keyStep action) (ih _)

/-- The exchange that succeeds first stores the agreed key. -/
theorem step_of_agree (drawn : KeyBytes size) {encodedPeerPubKeyAes : Bytes}
    (hnot : self._keysExchanged = false)
    (h : (encryptor.agree self.members encodedPeerPubKeyAes).1 = .ok key) :
    (self.step (.clientKeyExchange drawn encodedPeerPubKeyAes)).toKeyState =
      ⟨self.keys.agree key drawn, true⟩ := by
  rw [step, clientKeyExchange, if_neg (by simp [hnot])]
  cases hagree : encryptor.agree self.members encodedPeerPubKeyAes with
  | mk result members =>
      rw [hagree] at h
      obtain rfl : result = .ok key := h
      rfl

/-- Behind the first successful exchange the agreed key is kept, whatever is
called, exactly if no call used the key before; only an obfuscator of zeros
would do no harm. -/
theorem keeps_iff {before : List (Action encryptor)} {encodedPeerPubKeyAes : Bytes}
    (hnew : self.keys._keyHandler._obfuscated = false)
    (hnot : (self.run before)._keysExchanged = false)
    (hagree : (encryptor.agree (self.run before).members encodedPeerPubKeyAes).1 = .ok key) :
    (∀ after, Keeps key
      (self.run (before ++ .clientKeyExchange drawn encodedPeerPubKeyAes :: after))) ↔
      self.used before = false ∨
        (self.run before).keys._keyHandler._obfuscator = Vector.replicate size 0 := by
  have hobfuscated := (self.run_keyRun before).obfuscated hnot
  rw [hnew, Bool.false_or] at hobfuscated
  rw [← hobfuscated, ← StoredKey.hides_agree_iff key drawn]
  have hstate := step_of_agree drawn hnot hagree
  constructor
  · intro hkeeps
    have hhides := (hkeeps []).hides
    rw [run_append, run, run] at hhides
    have hkeys := congrArg KeyState.keys hstate
    dsimp only at hkeys
    rwa [hkeys] at hhides
  · intro hhides after
    have hrun := ((self.run before).step
      (.clientKeyExchange drawn encodedPeerPubKeyAes)).run_keyRun after
    rw [hstate] at hrun
    obtain ⟨hexchanged, hafter⟩ := hrun.hides rfl hhides
    rw [run_append, run]
    exact keeps_of_hides hexchanged hafter

end Client

/-! ## The two encryptors -/

def crypto_kx_SESSIONKEYBYTES := 32

/-- The length of a coordinate of `secp256r1`. -/
def AgreedValueLength := 32

/-- What the exchange of a client calls; `none` where a call reports failure. -/
structure ClientLibraries where
  sodium_base642bin (encoded : Bytes) : Option Bytes
  crypto_kx_client_session_keys (client_pk client_sk server_pk : Bytes) :
    Option (KeyBytes crypto_kx_SESSIONKEYBYTES)
  Agree (privateKey otherPublicKey : Bytes) : Option (KeyBytes AgreedValueLength)

/-- The flags of a client and its keys of the exchange. -/
structure ClientMembers where
  base : CryptoBase
  _pubKeyAes : Bytes
  _privKeyAes : Bytes
  /-- The array of `CryptoSodium` for the key of the peer. -/
  _peerPubKeyAes : Bytes

/-- `sendSignature`, of which the flag is left here. -/
def ClientMembers.sendSignature (members : ClientMembers) : ClientMembers :=
  { members with base := { members.base with _signatureSent := true } }

section Encryptors

variable (exchange : ClientLibraries) (terminal : Terminal)

namespace CryptoSodium

variable (lib : Sodium)

inductive Request where
  | encrypt (nonce : Nonce) (input : Bytes) (header : Option HEADER) (data : Bytes)
  | decrypt (data : Bytes)

inductive Reply where
  | encrypted (result : Call Bytes × Bytes)
  | decrypted (result : Call (Bytes × Bytes))

/-- `encrypt` uses the key when access is granted, `decrypt` on what counts as
encrypted. -/
def uses (members : ClientMembers) : Request → Bool
  | .encrypt .. => checkAccess terminal members.base = .ok true
  | .decrypt data => checkAccess terminal members.base = .ok true ∧ isEncrypted data = .ok true

def reply (members : ClientMembers) (key : KeyBytes crypto_kx_SESSIONKEYBYTES) :
    Request → Reply
  | .encrypt nonce input header data =>
      .encrypted (encrypt lib terminal ⟨members.base, key.toList⟩ nonce input header data)
  | .decrypt data =>
      .decrypted (decrypt lib terminal ⟨members.base, key.toList⟩ data)

/-- The body of `CryptoSodium::clientKeyExchange` up to the agreed key. -/
def agree (members : ClientMembers) (encodedPeerPubKeyAes : Bytes) :
    Call (KeyBytes crypto_kx_SESSIONKEYBYTES) × ClientMembers :=
  match exchange.sodium_base642bin encodedPeerPubKeyAes with
  | none => (.error (.runtimeError "sodium_base642bin failed"), members)
  | some peerPubKeyAesV =>
      match copyTo members._peerPubKeyAes peerPubKeyAesV with
      | .error fault => (.error fault, members)
      | .ok _peerPubKeyAes =>
          (Outcome.orThrow
            (exchange.crypto_kx_client_session_keys members._pubKeyAes members._privKeyAes
              _peerPubKeyAes)
            (.runtimeError "Client-side key exchange failed"),
            { members with _peerPubKeyAes })

theorem reply_of_not_uses {members : ClientMembers} {request : Request}
    (h : uses terminal members request = false) (key key' : KeyBytes crypto_kx_SESSIONKEYBYTES) :
    reply terminal lib members key request = reply terminal lib members key' request := by
  cases request with
  | encrypt nonce input header data =>
      have hnot : checkAccess terminal members.base ≠ .ok true := by simpa [uses] using h
      unfold reply encrypt
      match haccess : checkAccess terminal members.base with
      | .error fault => rfl
      | .ok false => rfl
      | .ok true => exact absurd haccess hnot
  | decrypt data =>
      unfold reply
      match haccess : checkAccess terminal members.base with
      | .error fault =>
          simp only [decrypt, haccess]
          rfl
      | .ok false =>
          simp only [decrypt, haccess]
          rfl
      | .ok true =>
          have hnot : isEncrypted data ≠ .ok true := by simpa [uses, haccess] using h
          refine congrArg Reply.decrypted ?_
          rw [@decrypt_eq lib terminal ⟨members.base, _⟩ haccess,
            @decrypt_eq lib terminal ⟨members.base, _⟩ haccess]
          match hencrypted : isEncrypted data with
          | .error fault => rfl
          | .ok false => rfl
          | .ok true => exact absurd hencrypted hnot

/-- `CryptoSodium` of a client. -/
def client : Encryptor crypto_kx_SESSIONKEYBYTES where
  Members := ClientMembers
  Request := Request
  Reply := Reply
  uses := uses terminal
  reply := reply terminal lib
  reply_of_not_uses := reply_of_not_uses terminal lib
  agree := agree exchange
  sendSignature := ClientMembers.sendSignature

end CryptoSodium

namespace CryptoPlPl

variable (lib : CryptoPP)

inductive Request where
  | encrypt (iv : IV) (header : Option HEADER) (data : Bytes)
  | decrypt (buffer data : Bytes)

inductive Reply where
  | encrypted (result : Call Bytes)
  | decrypted (result : Call (Bytes × Bytes))

def uses (members : ClientMembers) : Request → Bool
  | .encrypt .. => checkAccess terminal members.base = .ok true
  | .decrypt _ data => checkAccess terminal members.base = .ok true ∧ isEncrypted data = .ok true

def reply (members : ClientMembers) (key : KeyBytes AgreedValueLength) : Request → Reply
  | .encrypt iv header data =>
      .encrypted (encrypt lib terminal ⟨members.base, key.toList⟩ iv header data)
  | .decrypt buffer data =>
      .decrypted (decrypt lib terminal ⟨members.base, key.toList⟩ buffer data)

/-- The body of `CryptoPlPl::clientKeyExchange` up to the agreed key. -/
def agree (members : ClientMembers) (encodedPeerPubKeyAes : Bytes) :
    Call (KeyBytes AgreedValueLength) × ClientMembers :=
  match copyFront encodedPeerPubKeyAes PublicKeyLength with
  | .error fault => (.error fault, members)
  | .ok peerPubKeyAes =>
      (Outcome.orThrow (exchange.Agree members._privKeyAes peerPubKeyAes)
        (.runtimeError "Client-side key exchange failed"), members)

theorem reply_of_not_uses {members : ClientMembers} {request : Request}
    (h : uses terminal members request = false) (key key' : KeyBytes AgreedValueLength) :
    reply terminal lib members key request = reply terminal lib members key' request := by
  cases request with
  | encrypt iv header data =>
      have hnot : checkAccess terminal members.base ≠ .ok true := by simpa [uses] using h
      unfold reply encrypt
      match haccess : checkAccess terminal members.base with
      | .error fault => rfl
      | .ok false => rfl
      | .ok true => exact absurd haccess hnot
  | decrypt buffer data =>
      unfold reply
      match haccess : checkAccess terminal members.base with
      | .error fault =>
          simp only [decrypt, haccess]
          rfl
      | .ok false =>
          simp only [decrypt, haccess]
          rfl
      | .ok true =>
          have hnot : isEncrypted data ≠ .ok true := by simpa [uses, haccess] using h
          refine congrArg Reply.decrypted ?_
          rw [@decrypt_eq lib terminal ⟨members.base, _⟩ haccess,
            @decrypt_eq lib terminal ⟨members.base, _⟩ haccess]
          match hencrypted : isEncrypted data with
          | .error fault => rfl
          | .ok false => rfl
          | .ok true => exact absurd hencrypted hnot

/-- `CryptoPlPl` of a client. -/
def client : Encryptor AgreedValueLength where
  Members := ClientMembers
  Request := Request
  Reply := Reply
  uses := uses terminal
  reply := reply terminal lib
  reply_of_not_uses := reply_of_not_uses terminal lib
  agree := agree exchange
  sendSignature := ClientMembers.sendSignature

end CryptoPlPl

/-- From the first successful exchange on, every `encrypt` and `decrypt` of a
client uses the agreed key, which is stored in its obfuscated form, and no
exchange changes anything, exactly if no call used the key before that exchange;
only an obfuscator of zeros would do no harm. -/
theorem agreedKey_kept_iff (sodium : Sodium) (cryptopp : CryptoPP) :
    (∀ (self : Client (CryptoSodium.client exchange terminal sodium))
      (before : List (Client.Action (CryptoSodium.client exchange terminal sodium)))
      (drawn key : KeyBytes crypto_kx_SESSIONKEYBYTES) (encodedPeerPubKeyAes : Bytes),
      self.keys._keyHandler._obfuscated = false →
      (self.run before)._keysExchanged = false →
      (CryptoSodium.agree exchange (self.run before).members encodedPeerPubKeyAes).1 = .ok key →
      ((∀ after, Client.Keeps key
        (self.run (before ++ .clientKeyExchange drawn encodedPeerPubKeyAes :: after))) ↔
        self.used before = false ∨
          (self.run before).keys._keyHandler._obfuscator =
            Vector.replicate crypto_kx_SESSIONKEYBYTES 0)) ∧
    (∀ (self : Client (CryptoPlPl.client exchange terminal cryptopp))
      (before : List (Client.Action (CryptoPlPl.client exchange terminal cryptopp)))
      (drawn key : KeyBytes AgreedValueLength) (encodedPeerPubKeyAes : Bytes),
      self.keys._keyHandler._obfuscated = false →
      (self.run before)._keysExchanged = false →
      (CryptoPlPl.agree exchange (self.run before).members encodedPeerPubKeyAes).1 = .ok key →
      ((∀ after, Client.Keeps key
        (self.run (before ++ .clientKeyExchange drawn encodedPeerPubKeyAes :: after))) ↔
        self.used before = false ∨
          (self.run before).keys._keyHandler._obfuscator =
            Vector.replicate AgreedValueLength 0)) :=
  ⟨fun _ _ _ _ _ hnew hnot hagree => Client.keeps_iff hnew hnot hagree,
    fun _ _ _ _ _ hnew hnot hagree => Client.keeps_iff hnew hnot hagree⟩

end Encryptors

/-! ### One exchange

The keys are those that X25519 and the curve of `secp256r1` give for the private
keys of the bytes 1 to 32 and 101 to 132. -/

namespace OneExchange

def privKey : Bytes := (List.range 32).map fun i => (i + 1).toUInt8

def clientPubKey : Bytes :=
  [7, 163, 124, 188, 20, 32, 147, 200, 183, 85, 220, 27, 16, 232, 108, 180, 38, 55, 74, 209,
   106, 168, 83, 237, 11, 223, 192, 178, 184, 109, 28, 124]

def serverPubKey : Bytes :=
  [87, 20, 118, 157, 17, 107, 247, 100, 54, 174, 116, 188, 121, 61, 44, 48, 173, 25, 3, 197,
   154, 197, 39, 56, 5, 199, 226, 105, 139, 65, 12, 54]

def encodedServerPubKey : Bytes := bytes "VxR2nRFr92Q2rnS8eT0sMK0ZA8WaxSc4BcfiaYtBDDY="

def sodiumKey : KeyBytes crypto_kx_SESSIONKEYBYTES :=
  #v[180, 169, 240, 187, 159, 158, 180, 71, 2, 120, 161, 152, 70, 151, 84, 27, 213, 244, 174, 96,
   90, 81, 246, 77, 99, 118, 57, 21, 23, 32, 197, 12]

def serverPoint : Bytes :=
  [4, 37, 78, 230, 209, 186, 209, 199, 76, 226, 253, 40, 172, 82, 154, 22, 106, 244, 149, 10,
   14, 61, 160, 188, 83, 217, 107, 244, 13, 206, 56, 235, 231, 223, 89, 55, 241, 30, 134, 157,
   69, 55, 41, 162, 34, 246, 62, 112, 157, 7, 64, 185, 117, 68, 225, 65, 107, 30, 90, 64, 27,
   56, 95, 185, 80]

def plplKey : KeyBytes AgreedValueLength :=
  #v[6, 255, 232, 55, 148, 226, 157, 47, 1, 198, 191, 67, 102, 229, 125, 163, 116, 160, 153, 64,
   27, 120, 18, 211, 215, 202, 47, 7, 130, 164, 233, 110]

def exchange : ClientLibraries where
  sodium_base642bin encoded := if encoded = encodedServerPubKey then some serverPubKey else none
  crypto_kx_client_session_keys client_pk client_sk server_pk :=
    if client_pk = clientPubKey ∧ client_sk = privKey ∧ server_pk = serverPubKey then
      some sodiumKey
    else none
  Agree privateKey otherPublicKey :=
    if privateKey = privKey ∧ otherPublicKey = serverPoint then some plplKey else none

def terminal : Terminal := ShortRequest.client.terminal

/-- A new client that has sent its signature. -/
def members : ClientMembers :=
  ⟨⟨false, true⟩, clientPubKey, privKey, List.replicate crypto_kx_PUBLICKEYBYTES 0⟩

def sodiumClient : Client (CryptoSodium.client exchange terminal ShortRequest.sodium) :=
  ⟨⟨⟨Vector.replicate _ 0, Vector.replicate _ 0, false⟩, false⟩, members⟩

def plplClient : Client (CryptoPlPl.client exchange terminal ShortRequest.cryptopp) :=
  ⟨⟨⟨Vector.replicate _ 0, Vector.replicate _ 0, false⟩, false⟩, members⟩

def mask : KeyBytes crypto_kx_SESSIONKEYBYTES := Vector.replicate _ 165

/-- The client has encrypted, and an exchange has failed. -/
def spoiling : List (Client.Action (CryptoSodium.client exchange terminal ShortRequest.sodium)) :=
  [.request mask (.encrypt ShortRequest.drawn.nonce [] none []), .clientKeyExchange mask []]

/-- The client has sent its signature again, has decrypted what is not encrypted, and an
exchange has failed. -/
def harmless : List (Client.Action (CryptoPlPl.client exchange terminal ShortRequest.cryptopp)) :=
  [.sendSignature, .request mask (.decrypt [] (serialize ShortRequest.header)),
    .clientKeyExchange mask []]

end OneExchange

open OneExchange in
theorem agreedKey_kept_oneExchange :
    (((∀ after, Client.Keeps sodiumKey
      (sodiumClient.run (spoiling ++ .clientKeyExchange mask encodedServerPubKey :: after))) ↔
      sodiumClient.used spoiling = false ∨
        (sodiumClient.run spoiling).keys._keyHandler._obfuscator =
          Vector.replicate crypto_kx_SESSIONKEYBYTES 0) ∧
      sodiumClient.used spoiling = true) ∧
    ((∀ after, Client.Keeps plplKey
      (plplClient.run (harmless ++ .clientKeyExchange mask serverPoint :: after))) ↔
      plplClient.used harmless = false ∨
        (plplClient.run harmless).keys._keyHandler._obfuscator =
          Vector.replicate AgreedValueLength 0) ∧
      plplClient.used harmless = false := by
  obtain ⟨hsodium, hplpl⟩ := agreedKey_kept_iff OneExchange.exchange OneExchange.terminal
    ShortRequest.sodium ShortRequest.cryptopp
  exact ⟨⟨hsodium sodiumClient spoiling mask sodiumKey encodedServerPubKey rfl (by decide +kernel)
      (by decide +kernel), by decide +kernel⟩,
    hplpl plplClient harmless mask plplKey serverPoint rfl (by decide +kernel)
      (by decide +kernel), by decide +kernel⟩

open OneExchange in
/-- The client encrypts before the exchange.  The agreed key is left in the
clear, and the next call gets another one. -/
theorem agreedKey_kept_fails :
    (sodiumClient.run [.request mask (.encrypt ShortRequest.drawn.nonce [] none []),
      .clientKeyExchange mask encodedServerPubKey]).keys._key = sodiumKey ∧
    ((sodiumClient.run [.request mask (.encrypt ShortRequest.drawn.nonce [] none []),
      .clientKeyExchange mask encodedServerPubKey]).keys.useKey mask).1 ≠ sodiumKey ∧
    ¬ Client.Keeps sodiumKey
      (sodiumClient.run [.request mask (.encrypt ShortRequest.drawn.nonce [] none []),
        .clientKeyExchange mask encodedServerPubKey]) := by
  have hclear : (sodiumClient.run [.request mask (.encrypt ShortRequest.drawn.nonce [] none []),
      .clientKeyExchange mask encodedServerPubKey]).keys._key = sodiumKey := by
    decide +kernel
  have huse : ((sodiumClient.run [.request mask (.encrypt ShortRequest.drawn.nonce [] none []),
      .clientKeyExchange mask encodedServerPubKey]).keys.useKey mask).1 ≠ sodiumKey := by
    decide +kernel
  exact ⟨hclear, huse, fun hkeeps => huse (StoredKey.useKey_of_hides hkeeps.hides mask).1⟩

end ClientServer
