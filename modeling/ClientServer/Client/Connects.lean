import ClientServer.Client.Connect
import ClientServer.Common.Framing
import ClientServer.Server.HandshakeBytes

/-!
# A client that connects has a session

A client that was built together with the server and signs with its own keys gets a
session from either acceptor, however the bytes of both messages come in pieces.
Then each end has the keys of the other: the session has derived the key that every
later call of the client uses, both may use their encryptors, and what one encrypts
the other decrypts.
-/

namespace ClientServer

/-! ## What is relied on -/

/-- The pairs of keys that the generators draw for a client and for a server. -/
structure KeyPairs (RSAPrivateKey : Type) where
  clientKx (publicKey secretKey : Bytes) : Prop
  clientSign (publicKey secretKey : Bytes) : Prop
  clientPoint (publicKey privateKey : Bytes) : Prop
  clientRsa (privateKey : RSAPrivateKey) : Prop
  serverKx (publicKey secretKey : Bytes) : Prop
  serverPoint (publicKey privateKey : Bytes) : Prop

/-- A client and a server built together, and what the libraries say of the keys they
draw. -/
structure BuiltTogether (keys : KeyLibraries) (exchange : ClientLibraries)
    (signing : SigningLibraries) (pairs : KeyPairs signing.RSAPrivateKey) : Prop where
  sodiumMsgHash : signing.sodiumMsgHash = keys.sodiumMsgHash
  plplMsgHash : signing.plplMsgHash = keys.plplMsgHash
  /-- The hash is written in hexadecimal. -/
  plplMsgHash_text : ∀ c ∈ keys.plplMsgHash, c ≠ 0
  clientKx : ∀ {publicKey secretKey}, pairs.clientKx publicKey secretKey →
    publicKey.length = crypto_kx_PUBLICKEYBYTES ∧
      (signing.sodium_bin2base64 publicKey).length = 44 ∧
      keys.sodium_base642bin (signing.sodium_bin2base64 publicKey) = some publicKey
  serverKx : ∀ {publicKey secretKey}, pairs.serverKx publicKey secretKey →
    publicKey.length = crypto_kx_PUBLICKEYBYTES ∧
      (keys.sodium_bin2base64 publicKey).length = 44 ∧
      exchange.sodium_base642bin (keys.sodium_bin2base64 publicKey) = some publicKey
  sessionKeys : ∀ {server_pk server_sk client_pk client_sk},
    pairs.serverKx server_pk server_sk → pairs.clientKx client_pk client_sk →
    ∃ key, keys.crypto_kx_server_session_keys server_pk server_sk client_pk =
        some (Vector.toList key) ∧
      exchange.crypto_kx_client_session_keys client_pk client_sk server_pk = some key
  signs : ∀ {publicKey secretKey}, pairs.clientSign publicKey secretKey →
    publicKey.length = crypto_sign_PUBLICKEYBYTES ∧
      (signing.crypto_sign_detached signing.sodiumMsgHash secretKey).length = crypto_sign_BYTES ∧
      keys.crypto_sign_verify_detached
        (signing.crypto_sign_detached signing.sodiumMsgHash secretKey) signing.sodiumMsgHash
        publicKey = true
  clientPoint : ∀ {publicKey privateKey}, pairs.clientPoint publicKey privateKey →
    publicKey.length = PublicKeyLength
  serverPoint : ∀ {publicKey privateKey}, pairs.serverPoint publicKey privateKey →
    publicKey.length = PublicKeyLength
  agrees : ∀ {serverPublicKey serverPrivateKey clientPublicKey clientPrivateKey},
    pairs.serverPoint serverPublicKey serverPrivateKey →
    pairs.clientPoint clientPublicKey clientPrivateKey →
    ∃ key, keys.Agree serverPrivateKey clientPublicKey = some (Vector.toList key) ∧
      exchange.Agree clientPrivateKey serverPublicKey = some key
  rsaSigns : ∀ {privateKey}, pairs.clientRsa privateKey →
    (signing.SignMessage privateKey signing.plplMsgHash).length = RSA_KEY_SIZE >>> 3 ∧
      ∃ serialized publicKey, signing.DEREncode privateKey = .ok serialized ∧
        serialized.length ≤ 294 ∧ keys.Load serialized = some publicKey ∧
        keys.VerifyMessage publicKey signing.plplMsgHash
          (signing.SignMessage privateKey signing.plplMsgHash) = .ok true

/-- The keys of a client are pairs. -/
structure ClientDrawn.Paired {signing : SigningLibraries} (pairs : KeyPairs signing.RSAPrivateKey)
    (drawn : ClientDrawn signing.RSAPrivateKey) : Prop where
  kx : pairs.clientKx drawn.sodiumPubKeyAes drawn.sodiumPrivKeyAes
  sign : pairs.clientSign drawn.publicKeySign drawn.secretKeySign
  point : pairs.clientPoint drawn.plplPubKeyAes drawn.plplPrivKeyAes
  rsa : pairs.clientRsa drawn.rsaPrivKey

/-- The keys of a session are pairs, and its number is one of `getUniqueId`. -/
structure SessionDrawn.Paired {RSAPrivateKey : Type} (pairs : KeyPairs RSAPrivateKey)
    (drawn : SessionDrawn) : Prop where
  kx : pairs.serverKx drawn.sodiumPubKeyAes drawn.sodiumPrivKeyAes
  point : pairs.serverPoint drawn.plplPubKeyAes drawn.plplPrivKeyAes
  clientId : drawn.clientId ≤ SIZE_MAX

/-! ## The answer -/

/-- A message with three fields in front of three empty output strings. -/
theorem processMessage_three {header : HEADER} {f1 f2 f3 : Bytes} (hvalid : header.Valid)
    (hfit : header.SizesFit) (hsizes : header.Describes f1 f2 f3 []) (target : HEADER) :
    processMessage (stripEndOfMessage (sendMessage header f1 f2 f3 [])) target
        ClientKeys.statusFields =
      .ok (true, { header with field4Size := header.field3Size }, [f1, f2, f3]) := by
  obtain ⟨h1, h2, h3, -⟩ := hsizes
  have hlength : ¬ (serialize header ++ (f1 ++ (f2 ++ (f3 ++ [])))).length < HEADER_SIZE :=
    Nat.not_lt.mpr (header_size_le header _)
  have hdrop : (serialize header ++ (f1 ++ (f2 ++ (f3 ++ [])))).drop HEADER_SIZE =
      f1 ++ (f2 ++ (f3 ++ [])) := by
    rw [← length_serialize header, List.drop_left]
  have hfields : assignFields (f1 ++ (f2 ++ (f3 ++ []))) 0
      (fieldSizes { header with field4Size := header.field3Size }) ClientKeys.statusFields =
      .ok [f1, f2, f3] := by
    have hbody : (f1 ++ (f2 ++ (f3 ++ []))).length = f1.length + (f2.length + f3.length) := by
      simp
    have d0 : (f1 ++ (f2 ++ (f3 ++ []))).drop 0 = f1 ++ (f2 ++ (f3 ++ [])) := List.drop_zero
    have d1 := drop_add_of_drop d0
    have d2 := drop_add_of_drop d1
    rw [fieldSizes, ClientKeys.statusFields, h1, h2, h3, assignFields_cons d0 (by omega),
      assignFields_cons d1 (by omega), assignFields_cons d2 (by omega), assignFields]
    simp [Except.map]
  rw [stripEndOfMessage_sendMessage, processMessage, if_neg hlength,
    deserialize_serialize hvalid hfit, Outcome.ok_bind, hdrop]
  simp only [Bool.not_true, Bool.false_eq_true, if_false, hfields, Outcome.ok_bind,
    Outcome.pure_eq_ok]

/-! ## The session -/

section Sessions

variable {keys : KeyLibraries} {exchange : ClientLibraries} {signing : SigningLibraries}
  {pairs : KeyPairs signing.RSAPrivateKey} (h : BuiltTogether keys exchange signing pairs)
  {client : ClientDrawn signing.RSAPrivateKey} (hclient : client.Paired pairs)
  {drawn : SessionDrawn} (hdrawn : drawn.Paired pairs)
include h hclient hdrawn

theorem BuiltTogether.sodiumSession : ∃ key,
    CryptoSodium.session keys drawn.toKeysDrawn (CryptoSodium._encodedPubKeyAes signing client)
        (CryptoSodium._signatureWithPubKeySign signing client) =
      .ok (⟨⟨true, false⟩, Vector.toList key⟩, keys.sodium_bin2base64 drawn.sodiumPubKeyAes) ∧
    exchange.crypto_kx_client_session_keys client.sodiumPubKeyAes client.sodiumPrivKeyAes
      drawn.sodiumPubKeyAes = some key := by
  obtain ⟨key, hserver, hagreed⟩ := h.sessionKeys hdrawn.kx hclient.kx
  obtain ⟨hpublic, hsignature, hverified⟩ := h.signs hclient.sign
  obtain ⟨hlength, -, hdecoded⟩ := h.clientKx hclient.kx
  refine ⟨key, ?_, hagreed⟩
  have hpeer : client.sodiumPubKeyAes ++
      drawn.peerPubKeyAes.val.drop client.sodiumPubKeyAes.length = client.sodiumPubKeyAes := by
    rw [hlength, List.drop_of_length_le (Nat.le_of_eq drawn.peerPubKeyAes.property),
      List.append_nil]
  have hfront : (CryptoSodium._signatureWithPubKeySign signing client).take crypto_sign_BYTES =
      signing.crypto_sign_detached signing.sodiumMsgHash client.secretKeySign :=
    List.take_left' hsignature
  have hbehind : (CryptoSodium._signatureWithPubKeySign signing client).drop crypto_sign_BYTES =
      client.publicKeySign :=
    List.drop_left' hsignature
  have hsign : client.publicKeySign ++
      (List.replicate crypto_sign_PUBLICKEYBYTES (0 : UInt8)).drop client.publicKeySign.length =
        client.publicKeySign := by
    rw [hpublic, List.drop_of_length_le (by rw [List.length_replicate]), List.append_nil]
  have hlong : crypto_sign_BYTES ≤
      (CryptoSodium._signatureWithPubKeySign signing client).length := by
    rw [CryptoSodium._signatureWithPubKeySign, List.length_append, hsignature]
    exact Nat.le_add_right _ _
  simp only [CryptoSodium.session, CryptoSodium.base64_decode, Outcome.bind_eq_ok,
    Outcome.orThrow_eq_ok, Outcome.require_eq_ok, copyTo_eq_ok, copyFront_eq_ok,
    Outcome.pure_eq_ok]
  refine ⟨client.sodiumPubKeyAes, hdecoded, client.sodiumPubKeyAes, ⟨?_, hpeer⟩,
    _, ⟨hlong, hfront⟩, client.publicKeySign, ⟨?_, ?_⟩, (), ?_, _, hserver, rfl⟩
  · rw [hlength, drawn.peerPubKeyAes.property]
  · rw [hbehind, hpublic, List.length_replicate]
  · rw [hbehind, hsign]
  · rw [← h.sodiumMsgHash]
    exact hverified

theorem BuiltTogether.plplSession {serialized : Bytes}
    (hserialized : signing.DEREncode client.rsaPrivKey = .ok serialized) : ∃ key,
    CryptoPlPl.session keys drawn.toKeysDrawn client.plplPubKeyAes
        (CryptoPlPl.signMessage signing client serialized) =
      .ok (⟨⟨true, false⟩, Vector.toList key⟩, drawn.plplPubKeyAes) ∧
    exchange.Agree client.plplPrivKeyAes drawn.plplPubKeyAes = some key := by
  obtain ⟨key, hserver, hagreed⟩ := h.agrees hdrawn.point hclient.point
  obtain ⟨hsignature, serialized', publicKey, hserialized', -, hload, hverified⟩ :=
    h.rsaSigns hclient.rsa
  obtain rfl : serialized' = serialized := Except.ok.inj (hserialized'.symm.trans hserialized)
  have hlength := h.clientPoint hclient.point
  have htext : signing.plplMsgHash.takeWhile (· != 0) = signing.plplMsgHash := by
    rw [List.takeWhile_eq_self_iff, h.plplMsgHash]
    intro c hc
    simp [h.plplMsgHash_text c hc]
  refine ⟨key, ?_, hagreed⟩
  have hsigned : CryptoPlPl.signMessage signing client serialized' =
      signing.SignMessage client.rsaPrivKey signing.plplMsgHash ++ serialized' := by
    rw [CryptoPlPl.signMessage, htext]
  rw [hsigned]
  have hlong : RSA_KEY_SIZE >>> 3 ≤
      (signing.SignMessage client.rsaPrivKey signing.plplMsgHash ++ serialized').length := by
    rw [List.length_append, hsignature]
    exact Nat.le_add_right _ _
  simp only [CryptoPlPl.session, CryptoPlPl.decodePeerRsaPublicKey, Outcome.bind_eq_ok,
    Outcome.orThrow_eq_ok, readData_eq_ok, substr_length_eq_ok,
    CryptoPlPl.verifySignature_eq_ok, Outcome.pure_eq_ok]
  refine ⟨client.plplPubKeyAes, ⟨?_, ?_⟩, _, hserver,
    signing.SignMessage client.rsaPrivKey signing.plplMsgHash, ⟨Nat.le_succ_of_le hlong, ?_⟩,
    serialized', ⟨hlong, List.drop_left' hsignature⟩, publicKey, hload, (), ?_, rfl⟩
  · rw [hlength]
    exact Nat.le_succ _
  · rw [List.take_append_of_le_length (Nat.le_of_eq hlength.symm), ← hlength, List.take_length]
  · rw [List.take_append_of_le_length hlong, List.take_left' hsignature]
  · rw [← h.plplMsgHash]
    exact hverified

end Sessions

/-! ## The agreed key -/

namespace Client

variable {size : Nat} {encryptor : Encryptor size} {key : KeyBytes size} {self : Client encryptor}

/-- The encryptor of a client that sent its signature and agreed on a key. -/
structure Linked (key : KeyBytes size) (client : Client encryptor) : Prop where
  exchanged : client._keysExchanged = true
  hides : client.keys.Hides key
  sent : encryptor.sendSignature client.members = client.members

theorem Linked.step (h : self.Linked key) (action : Action encryptor) :
    (self.step action).Linked key ∧ (self.step action).members = self.members := by
  obtain ⟨hexchanged, hhides⟩ := (self.step_keyStep action).hides h.exchanged h.hides
  have hmembers : (self.step action).members = self.members := by
    cases action with
    | request drawn call =>
        rw [Client.step, Client.request]
        split
        next => rfl
        next => rfl
    | clientKeyExchange drawn encodedPeerPubKeyAes =>
        rw [Client.step, Client.clientKeyExchange, if_pos h.exchanged]
    | sendSignature => exact h.sent
  exact ⟨⟨hexchanged, hhides, by rw [hmembers, h.sent]⟩, hmembers⟩

theorem Linked.run (h : self.Linked key) (actions : List (Action encryptor)) :
    (self.run actions).Linked key ∧ (self.run actions).members = self.members := by
  induction actions generalizing self with
  | nil => exact ⟨h, rfl⟩
  | cons action actions ih =>
      obtain ⟨hstep, hmembers⟩ := h.step action
      obtain ⟨hrun, hmembers'⟩ := ih hstep
      exact ⟨hrun, hmembers'.trans hmembers⟩

/-- Every later call uses the agreed key. -/
theorem Linked.request (h : self.Linked key) (actions : List (Action encryptor))
    (drawn : KeyBytes size) (call : encryptor.Request) :
    ((self.run actions).request drawn call).1 = encryptor.reply self.members key call := by
  obtain ⟨hrun, hmembers⟩ := h.run actions
  rw [(keeps_of_hides hrun.exchanged hrun.hides).request, hmembers]

/-- A client that has used no key yet is linked by the exchange. -/
theorem linked_of_agree {members : encryptor.Members} {encodedPeerPubKeyAes : Bytes}
    (drawn : KeyBytes size) (hnot : self._keysExchanged = false)
    (hclear : self.keys._keyHandler._obfuscated = false)
    (hagree : encryptor.agree self.members encodedPeerPubKeyAes = (.ok key, members))
    (hsent : encryptor.sendSignature members = members) :
    ∃ client : Client encryptor,
      self.clientKeyExchange drawn encodedPeerPubKeyAes = (.ok true, client) ∧
      client.Linked key := by
  refine ⟨⟨⟨self.keys.agree key drawn, true⟩, members⟩, ?_, rfl,
    (StoredKey.hides_agree_iff key drawn).mpr (.inl hclear), hsent⟩
  rw [Client.clientKeyExchange, hnot, hagree]
  rfl

/-- The key the encryptor would hand out. -/
theorem Linked.recovered (h : self.Linked key) : self.keys.recoverKey._key = key :=
  (StoredKey.useKey_of_hides h.hides (Vector.replicate size 0)).1

end Client

/-- A client and its session have agreed on their keys. -/
structure Connected {lib : Libraries} {exchange : ClientLibraries} {terminal : Terminal}
    (client : ClientKeys lib exchange terminal) (session : Session) : Prop where
  clientId : client._clientId = session._clientId
  status : client._status = .NONE
  sodium : ∃ key, client._primarySodiumEncryptor.Linked key ∧
    session._primarySodiumEncryptor = ⟨⟨true, false⟩, Vector.toList key⟩
  plpl : ∃ key, client._secondaryCryptoppEncryptor.Linked key ∧
    session._secondaryCryptoppEncryptor = ⟨⟨true, false⟩, Vector.toList key⟩

/-- What is encrypted under a key is decrypted under it.  AES-GCM appends a tag, AES-CBC
pads. -/
structure Libraries.Ciphers (lib : Libraries) : Prop where
  gcmLength : ∀ {message nonce key ciphertext : Bytes},
    lib.sodium.crypto_aead_aes256gcm_encrypt message nonce key = some ciphertext →
    ciphertext.length = message.length + crypto_aead_aes256gcm_ABYTES
  gcmDecrypts : ∀ {message nonce key ciphertext : Bytes},
    lib.sodium.crypto_aead_aes256gcm_encrypt message nonce key = some ciphertext →
    lib.sodium.crypto_aead_aes256gcm_decrypt ciphertext nonce key = some message
  cbcLength : ∀ {message iv key ciphertext : Bytes},
    lib.cryptopp.cbcEncryption message iv key = .ok ciphertext →
    message.length ≤ ciphertext.length
  cbcDecrypts : ∀ {message iv key ciphertext : Bytes},
    lib.cryptopp.cbcEncryption message iv key = .ok ciphertext →
    lib.cryptopp.cbcDecryption ciphertext iv key = .ok message

/-- Ends with the same keys are peers. -/
theorem Libraries.Ciphers.peers {lib : Libraries} (h : lib.Ciphers) {sender receiver : End}
    (hsender : sender.Access) (hreceiver : receiver.Access)
    (hsodium : sender.sodium._key = receiver.sodium._key)
    (hplpl : sender.plpl._key = receiver.plpl._key) : Peers lib sender receiver where
  senderAccess := hsender
  receiverAccess := hreceiver
  sodiumLength := h.gcmLength
  sodiumDecrypts hencrypt := by
    rw [← hsodium]
    exact h.gcmDecrypts hencrypt
  plplLength := h.cbcLength
  plplDecrypts hencrypt := by
    rw [← hplpl]
    exact h.cbcDecrypts hencrypt

/-- The environment variable of a client is set, and not to nothing. -/
theorem checkAccess_ofClient {name : Bytes} (hname : name ≠ []) (base : CryptoBase) :
    checkAccess (.ofClient name) base = .ok base._signatureSent := by
  have hserver : (name == []) = false := by simpa using hname
  simp [checkAccess, isTerminal, Terminal.ofClient, hserver]

theorem checkAccess_ofServer (name : Bytes) (base : CryptoBase) :
    checkAccess (.ofServer name) base = .ok base._verifiedSignature := by
  simp [checkAccess, isTerminal, Terminal.ofServer]

section Peers

variable {lib : Libraries} {exchange : ClientLibraries} {clientName serverName : Bytes}
  (hname : clientName ≠ []) {client : ClientKeys lib exchange (.ofClient clientName)}
  {session : Session}

theorem Connected.keys (h : Connected client session) (server : Terminal) :
    client.toEnd.sodium._key = (session.toEnd server).sodium._key ∧
      client.toEnd.plpl._key = (session.toEnd server).plpl._key := by
  obtain ⟨sodiumKey, hsodium, hserver⟩ := h.sodium
  obtain ⟨plplKey, hplpl, hserver'⟩ := h.plpl
  constructor
  · show (Vector.toList _) = session._primarySodiumEncryptor._key
    rw [hsodium.recovered, hserver]
  · show (Vector.toList _) = session._secondaryCryptoppEncryptor._key
    rw [hplpl.recovered, hserver']

include hname in
theorem Connected.clientAccess (h : Connected client session) : client.toEnd.Access := by
  obtain ⟨_, hsodium, -⟩ := h.sodium
  obtain ⟨_, hplpl, -⟩ := h.plpl
  constructor
  · refine (checkAccess_ofClient hname _).trans (congrArg Except.ok ?_)
    exact (congrArg (fun members : ClientMembers => members.base._signatureSent) hsodium.sent).symm
  · refine (checkAccess_ofClient hname _).trans (congrArg Except.ok ?_)
    exact (congrArg (fun members : ClientMembers => members.base._signatureSent) hplpl.sent).symm

theorem Connected.sessionAccess (h : Connected client session) :
    (session.toEnd (.ofServer serverName)).Access := by
  obtain ⟨_, -, hsodium⟩ := h.sodium
  obtain ⟨_, -, hplpl⟩ := h.plpl
  constructor
  · exact (checkAccess_ofServer serverName _).trans
      (congrArg (fun encryptor : CryptoSodium => Except.ok encryptor._verifiedSignature) hsodium)
  · exact (checkAccess_ofServer serverName _).trans
      (congrArg (fun encryptor : CryptoPlPl => Except.ok encryptor._verifiedSignature) hplpl)

include hname in
/-- What either end encrypts the other decrypts. -/
theorem Connected.peers (h : Connected client session) (hlib : lib.Ciphers) :
    Peers lib client.toEnd (session.toEnd (.ofServer serverName)) ∧
      Peers lib (session.toEnd (.ofServer serverName)) client.toEnd := by
  obtain ⟨hsodium, hplpl⟩ := h.keys (.ofServer serverName)
  exact ⟨hlib.peers (h.clientAccess hname) h.sessionAccess hsodium hplpl,
    hlib.peers h.sessionAccess (h.clientAccess hname) hsodium.symm hplpl.symm⟩

end Peers

/-! ## The two messages -/

section Messages

variable {keys : KeyLibraries} {exchange : ClientLibraries} {signing : SigningLibraries}
  {pairs : KeyPairs signing.RSAPrivateKey} (h : BuiltTogether keys exchange signing pairs)
  {lib : Libraries} {terminal : Terminal} {client : ClientDrawn signing.RSAPrivateKey}
  (hclient : client.Paired pairs) {drawn : SessionDrawn} (hdrawn : drawn.Paired pairs)
include h hclient

/-- The lengths of what a client sends. -/
theorem BuiltTogether.lengths {serialized : Bytes}
    (hserialized : signing.DEREncode client.rsaPrivKey = .ok serialized) :
    (CryptoSodium._signatureWithPubKeySign signing client).length = 96 ∧
      (CryptoSodium._encodedPubKeyAes signing client).length = 44 ∧
      256 ≤ (CryptoPlPl.signMessage signing client serialized).length ∧
      (CryptoPlPl.signMessage signing client serialized).length ≤ 550 ∧
      client.plplPubKeyAes.length = 65 := by
  obtain ⟨hpublic, hsignature, -⟩ := h.signs hclient.sign
  obtain ⟨hrsa, serialized', -, hserialized', hle, -⟩ := h.rsaSigns hclient.rsa
  obtain rfl : serialized' = serialized := Except.ok.inj (hserialized'.symm.trans hserialized)
  have htext : signing.plplMsgHash.takeWhile (· != 0) = signing.plplMsgHash := by
    rw [List.takeWhile_eq_self_iff, h.plplMsgHash]
    intro c hc
    simp [h.plplMsgHash_text c hc]
  have hkey : RSA_KEY_SIZE >>> 3 = 256 := rfl
  have hlength : (CryptoPlPl.signMessage signing client serialized').length =
      256 + serialized'.length := by
    rw [CryptoPlPl.signMessage, htext, List.length_append, hrsa, hkey]
  refine ⟨?_, (h.clientKx hclient.kx).2.1, by omega, by omega, h.clientPoint hclient.point⟩
  rw [CryptoSodium._signatureWithPubKeySign, List.length_append, hsignature, hpublic]
  rfl

omit h hclient in
theorem authenticationHeader_valid (f1 f2 f3 f4 : Bytes) :
    (ClientKeys.authenticationHeader f1 f2 f3 f4).Valid := by
  have hheaderType : CharEnum.Valid HEADERTYPE.AUTHENTICATE := by decide
  have hcompressor : CharEnum.Valid COMPRESSORS.NONE := by decide
  have hdiagnostics : CharEnum.Valid DIAGNOSTICS.NONE := by decide
  have hstatus : CharEnum.Valid STATUS.NONE := by decide
  exact ⟨hheaderType, hcompressor, hdiagnostics, hstatus⟩

/-- A new client, and what the acceptor reads off its message. -/
theorem BuiltTogether.authenticates : ∃ serialized,
    signing.DEREncode client.rsaPrivKey = .ok serialized ∧
    ClientKeys.new lib exchange terminal signing client =
      .ok (.ofSignature lib exchange terminal signing client
        (CryptoPlPl.signMessage signing client serialized)) ∧
    ∀ _header, ∃ filled : HEADER, filled.headerType = .AUTHENTICATE ∧ filled.compressor = .NONE ∧
      processMessage (stripEndOfMessage (ClientKeys.authentication
        (.ofSignature lib exchange terminal signing client
          (CryptoPlPl.signMessage signing client serialized)))) _header emptyFields =
      .ok (true, filled,
        [CryptoSodium._signatureWithPubKeySign signing client,
          CryptoSodium._encodedPubKeyAes signing client,
          CryptoPlPl.signMessage signing client serialized, client.plplPubKeyAes]) := by
  obtain ⟨-, serialized, -, hserialized, -⟩ := h.rsaSigns hclient.rsa
  obtain ⟨h1, h2, h3, h3', h4⟩ := h.lengths hclient hserialized
  have hnew : ClientKeys.new lib exchange terminal signing client =
      .ok (.ofSignature lib exchange terminal signing client
        (CryptoPlPl.signMessage signing client serialized)) := by
    rw [ClientKeys.new, CryptoPlPl._signatureWithPubKeySign, hserialized]
    rfl
  refine ⟨serialized, hserialized, hnew, fun _header => ?_⟩
  have hfit : ∀ {field : Bytes}, field.length ≤ 550 → field.length < 10 ^ FIELD1_SIZE :=
    fun hle => Nat.lt_of_le_of_lt hle (by decide)
  have hread := processMessage_sendMessage (authenticationHeader_valid
    (CryptoSodium._signatureWithPubKeySign signing client)
    (CryptoSodium._encodedPubKeyAes signing client)
    (CryptoPlPl.signMessage signing client serialized) client.plplPubKeyAes)
    ⟨hfit (by omega), hfit (by omega), hfit h3', hfit (by omega)⟩ ⟨rfl, rfl, rfl, rfl⟩ _header
    [] [] [] []
  have hne : ∀ {field : Bytes}, 0 < field.length → field ≠ [] := List.ne_nil_of_length_pos
  rw [receivedFields, if_neg (hne (by omega)), if_neg (hne (by omega)), if_neg (hne (by omega)),
    if_neg (hne (by omega)), List.take_of_length_le (by omega)] at hread
  exact ⟨_, rfl, rfl, hread⟩

include hdrawn in
/-- The session that is built from the four strings. -/
theorem BuiltTogether.session {serialized : Bytes}
    (hserialized : signing.DEREncode client.rsaPrivKey = .ok serialized) :
    ∃ (sodiumKey : KeyBytes crypto_kx_SESSIONKEYBYTES) (plplKey : KeyBytes AgreedValueLength),
      Session.ofFields keys drawn [CryptoSodium._signatureWithPubKeySign signing client,
        CryptoSodium._encodedPubKeyAes signing client,
        CryptoPlPl.signMessage signing client serialized, client.plplPubKeyAes] =
      .ok {
        _clientId := drawn.clientId
        _primarySodiumEncryptor := ⟨⟨true, false⟩, sodiumKey.toList⟩
        _secondaryCryptoppEncryptor := ⟨⟨true, false⟩, plplKey.toList⟩
        _primaryPubKeyAes := keys.sodium_bin2base64 drawn.sodiumPubKeyAes
        _secondaryPubKeyAes := drawn.plplPubKeyAes } ∧
      exchange.crypto_kx_client_session_keys client.sodiumPubKeyAes client.sodiumPrivKeyAes
        drawn.sodiumPubKeyAes = some sodiumKey ∧
      exchange.Agree client.plplPrivKeyAes drawn.plplPubKeyAes = some plplKey := by
  obtain ⟨sodiumKey, hsodium, hexchanged⟩ := h.sodiumSession hclient hdrawn
  obtain ⟨plplKey, hplpl, hagreed⟩ := h.plplSession hclient hdrawn hserialized
  refine ⟨sodiumKey, plplKey, ?_, hexchanged, hagreed⟩
  simp only [Session.ofFields, Session.new, Session.primary_eq, List.getD_cons_zero,
    List.getD_cons_succ, hsodium, hplpl, Outcome.ok_bind, Outcome.pure_eq_ok]

omit h hclient in
/-- What a client reads off the answer of a session. -/
theorem Session.answer {session : Session} (hprimary : session._primaryPubKeyAes.length = 44)
    (hsecondary : session._secondaryPubKeyAes.length = 65)
    (hclientId : session._clientId ≤ SIZE_MAX) (_header : HEADER) :
    ∃ filled : HEADER, filled.status = .NONE ∧
      processMessage (stripEndOfMessage (session.sendStatusToClient .NONE)) _header
        ClientKeys.statusFields =
      .ok (true, filled, [toCharsBoost session._clientId false, session._primaryPubKeyAes,
        session._secondaryPubKeyAes]) := by
  have hheaderType : CharEnum.Valid HEADERTYPE.DH_HANDSHAKE := by decide
  have hcompressor : CharEnum.Valid COMPRESSORS.NONE := by decide
  have hdiagnostics : CharEnum.Valid DIAGNOSTICS.NONE := by decide
  have hstatus : CharEnum.Valid STATUS.NONE := by decide
  have hlength : (toCharsBoost session._clientId false).length ≤ 20 := by
    rw [toCharsBoost_variable, Numeral.length_encode_le_iff (by decide)]
    exact Nat.lt_of_le_of_lt hclientId (by decide)
  have hfit : ∀ {size : Nat}, size ≤ 65 → size < 10 ^ FIELD1_SIZE :=
    fun hle => Nat.lt_of_le_of_lt hle (by decide)
  exact ⟨_, rfl, processMessage_three ⟨hheaderType, hcompressor, hdiagnostics, hstatus⟩
    ⟨hfit (Nat.le_trans hlength (by decide)), hfit (hprimary.trans_le (by decide)),
      hfit (Nat.le_of_eq hsecondary), hfit (Nat.zero_le _)⟩ ⟨rfl, rfl, rfl, rfl⟩ _header⟩

omit h hclient in
/-- Both encryptors of a client take part in the exchange. -/
theorem ClientKeys.clientKeyExchange_eq {self : ClientKeys lib exchange terminal}
    {obfuscators : ObfuscatorsDrawn} {primaryPeerPubKeyAes secondaryPeerPubKeyAes : Bytes}
    {_primarySodiumEncryptor : Client (CryptoSodium.client exchange terminal lib.sodium)}
    {_secondaryCryptoppEncryptor : Client (CryptoPlPl.client exchange terminal lib.cryptopp)}
    (hsodium : self._primarySodiumEncryptor.clientKeyExchange obfuscators.sodium
      primaryPeerPubKeyAes = (.ok true, _primarySodiumEncryptor))
    (hplpl : self._secondaryCryptoppEncryptor.clientKeyExchange obfuscators.plpl
      secondaryPeerPubKeyAes = (.ok true, _secondaryCryptoppEncryptor)) :
    self.clientKeyExchange obfuscators primaryPeerPubKeyAes secondaryPeerPubKeyAes =
      .ok { self with _primarySodiumEncryptor, _secondaryCryptoppEncryptor } := by
  rw [ClientKeys.clientKeyExchange, hsodium, hplpl]
  rfl

omit hclient in
include hdrawn in
/-- The client agrees with the session that its strings were read into. -/
theorem BuiltTogether.connects {secondarySignatureWithKey : Bytes} (obfuscators : ObfuscatorsDrawn)
    {filled : HEADER} (hstatus : filled.status = .NONE) {session : Session}
    (hclientId : session._clientId = drawn.clientId)
    {sodiumKey : KeyBytes crypto_kx_SESSIONKEYBYTES} {plplKey : KeyBytes AgreedValueLength}
    (hsodium : session._primarySodiumEncryptor = ⟨⟨true, false⟩, sodiumKey.toList⟩)
    (hplpl : session._secondaryCryptoppEncryptor = ⟨⟨true, false⟩, plplKey.toList⟩)
    (hexchanged : exchange.crypto_kx_client_session_keys client.sodiumPubKeyAes
      client.sodiumPrivKeyAes drawn.sodiumPubKeyAes = some sodiumKey)
    (hagreed : exchange.Agree client.plplPrivKeyAes drawn.plplPubKeyAes = some plplKey) :
    ∃ self : ClientKeys lib exchange terminal,
      (ClientKeys.ofSignature lib exchange terminal signing client
          secondarySignatureWithKey).sendSignatureCommon.receiveStatus obfuscators
        (.ok (true, filled, [toCharsBoost session._clientId false,
          keys.sodium_bin2base64 drawn.sodiumPubKeyAes, drawn.plplPubKeyAes])) =
        .ok (true, toCharsBoost session._clientId false, self) ∧
      Connected self session := by
  obtain ⟨hlength, -, hdecoded⟩ := h.serverKx hdrawn.kx
  have hpeer :
      copyTo client.peerPubKeyAes.val drawn.sodiumPubKeyAes = .ok drawn.sodiumPubKeyAes := by
    rw [copyTo_eq_ok, client.peerPubKeyAes.property, hlength,
      List.drop_of_length_le (Nat.le_of_eq client.peerPubKeyAes.property), List.append_nil]
    exact ⟨Nat.le_refl _, rfl⟩
  have hpoint : copyFront drawn.plplPubKeyAes PublicKeyLength = .ok drawn.plplPubKeyAes := by
    rw [copyFront_eq_ok, ← h.serverPoint hdrawn.point, List.take_length]
    exact ⟨Nat.le_refl _, rfl⟩
  let sodiumMembers : ClientMembers :=
    ⟨⟨false, true⟩, client.sodiumPubKeyAes, client.sodiumPrivKeyAes, drawn.sodiumPubKeyAes⟩
  let plplMembers : ClientMembers :=
    ⟨⟨false, true⟩, client.plplPubKeyAes, client.plplPrivKeyAes, []⟩
  have hsodiumAgree : CryptoSodium.agree exchange ⟨⟨false, true⟩, client.sodiumPubKeyAes,
      client.sodiumPrivKeyAes, client.peerPubKeyAes.val⟩
      (keys.sodium_bin2base64 drawn.sodiumPubKeyAes) = (.ok sodiumKey, sodiumMembers) := by
    simp only [CryptoSodium.agree, hdecoded, hpeer, hexchanged]
    rfl
  have hplplAgree : CryptoPlPl.agree exchange plplMembers drawn.plplPubKeyAes =
      (.ok plplKey, plplMembers) := by
    simp only [CryptoPlPl.agree, hpoint, plplMembers, hagreed]
    rfl
  obtain ⟨_primarySodiumEncryptor, hsodiumExchange, hsodiumLinked⟩ :=
    @Client.linked_of_agree _ _ sodiumKey
    ((CryptoSodium.new lib exchange terminal signing client).step .sendSignature) _ _
    obfuscators.sodium rfl rfl hsodiumAgree rfl
  obtain ⟨_secondaryCryptoppEncryptor, hplplExchange, hplplLinked⟩ :=
    @Client.linked_of_agree _ _ plplKey
    ((CryptoPlPl.new lib exchange terminal signing client).step .sendSignature) _ _
    obfuscators.plpl rfl rfl hplplAgree rfl
  have hnumber : fromChars SIZE_MAX (toCharsBoost session._clientId false) =
      .ok (session._clientId, []) := by
    have hdigits : ∀ c ∈ Numeral.encode session._clientId, Numeral.isDigit c = true :=
      fun c hc => Numeral.isDigit_of_mem_encode hc
    have hle : ¬ SIZE_MAX < session._clientId := Nat.not_lt.mpr (hclientId ▸ hdrawn.clientId)
    rw [toCharsBoost_variable, fromChars, List.takeWhile_eq_self_iff.mpr hdigits,
      if_neg (Numeral.encode_ne_nil _), Numeral.value_encode, if_neg hle,
      List.dropWhile_eq_nil_iff.mpr hdigits]
  let sent := (ClientKeys.ofSignature lib exchange terminal signing client
    secondarySignatureWithKey).sendSignatureCommon
  have hexchange := @ClientKeys.clientKeyExchange_eq exchange lib terminal
    { sent with _clientId := session._clientId, _status := filled.status } obfuscators _ _ _ _
    hsodiumExchange hplplExchange
  refine ⟨{ sent with
    _clientId := session._clientId
    _status := filled.status
    _primarySodiumEncryptor
    _secondaryCryptoppEncryptor }, ?_, ⟨rfl, hstatus, ⟨sodiumKey, hsodiumLinked, hsodium⟩,
    ⟨plplKey, hplplLinked, hplpl⟩⟩⟩
  rw [ClientKeys.receiveStatus, if_neg (fun hne => hne rfl), Outcome.ok_bind]
  simp only [Outcome.require, if_true, Outcome.ok_bind, List.getD_cons_zero, List.getD_cons_succ,
    hnumber, ClientKeys.processStatus]
  rw [hexchange]
  rfl

include hdrawn in
/-- There is a session for the strings of a client, and the client takes its answer. -/
theorem BuiltTogether.establishes {serialized : Bytes}
    (hserialized : signing.DEREncode client.rsaPrivKey = .ok serialized) :
    ∃ session, Session.ofFields keys drawn [CryptoSodium._signatureWithPubKeySign signing client,
        CryptoSodium._encodedPubKeyAes signing client,
        CryptoPlPl.signMessage signing client serialized, client.plplPubKeyAes] = .ok session ∧
      ∀ (secondarySignatureWithKey : Bytes) (obfuscators : ObfuscatorsDrawn),
        ∃ self : ClientKeys lib exchange terminal,
          (ClientKeys.ofSignature lib exchange terminal signing client
              secondarySignatureWithKey).sendSignatureCommon.receiveStatus obfuscators
            (processMessage (stripEndOfMessage (session.sendStatusToClient .NONE)) default
              ClientKeys.statusFields) =
            .ok (true, toCharsBoost session._clientId false, self) ∧
          Connected self session := by
  obtain ⟨sodiumKey, plplKey, hsession, hexchanged, hagreed⟩ :=
    h.session hclient hdrawn hserialized
  refine ⟨_, hsession, fun secondarySignatureWithKey obfuscators => ?_⟩
  obtain ⟨filled, hstatus, hanswer⟩ := @Session.answer
    { _clientId := drawn.clientId
      _primarySodiumEncryptor := ⟨⟨true, false⟩, sodiumKey.toList⟩
      _secondaryCryptoppEncryptor := ⟨⟨true, false⟩, plplKey.toList⟩
      _primaryPubKeyAes := keys.sodium_bin2base64 drawn.sodiumPubKeyAes
      _secondaryPubKeyAes := drawn.plplPubKeyAes } (h.serverKx hdrawn.kx).2.1
    (h.serverPoint hdrawn.point) hdrawn.clientId default
  rw [hanswer]
  exact h.connects hdrawn obfuscators hstatus rfl rfl rfl hexchanged hagreed

end Messages

/-! ## Over either transport -/

/-- Both ends of a connection that was made: they have the same keys, what one encrypts
the other decrypts, and every later call of the client uses these keys. -/
structure Handshaken {lib : Libraries} {exchange : ClientLibraries} {clientName : Bytes}
    (client : ClientKeys lib exchange (.ofClient clientName)) (session : Session)
    (serverName : Bytes) : Prop where
  clientId : client._clientId = session._clientId
  sodiumKey : client._primarySodiumEncryptor.keys.recoverKey._key.toList =
    session._primarySodiumEncryptor._key
  plplKey : client._secondaryCryptoppEncryptor.keys.recoverKey._key.toList =
    session._secondaryCryptoppEncryptor._key
  up : Peers lib client.toEnd (session.toEnd (.ofServer serverName))
  down : Peers lib (session.toEnd (.ofServer serverName)) client.toEnd
  sodium : ∀ actions drawn call,
    ((client._primarySodiumEncryptor.run actions).request drawn call).1 =
      CryptoSodium.reply (.ofClient clientName) lib.sodium client._primarySodiumEncryptor.members
        client._primarySodiumEncryptor.keys.recoverKey._key call
  plpl : ∀ actions drawn call,
    ((client._secondaryCryptoppEncryptor.run actions).request drawn call).1 =
      CryptoPlPl.reply (.ofClient clientName) lib.cryptopp
        client._secondaryCryptoppEncryptor.members
        client._secondaryCryptoppEncryptor.keys.recoverKey._key call

section Transports

variable {keys : KeyLibraries} {exchange : ClientLibraries} {signing : SigningLibraries}
  {pairs : KeyPairs signing.RSAPrivateKey} {lib : Libraries} {clientName : Bytes}

theorem Connected.handshaken {client : ClientKeys lib exchange (.ofClient clientName)}
    {session : Session} (h : Connected client session) (hlib : lib.Ciphers)
    (hname : clientName ≠ []) (serverName : Bytes) : Handshaken client session serverName := by
  obtain ⟨hup, hdown⟩ := h.peers hname hlib
  obtain ⟨hsodiumKey, hplplKey⟩ := h.keys (.ofServer serverName)
  obtain ⟨sodiumKey, hsodium, -⟩ := h.sodium
  obtain ⟨plplKey, hplpl, -⟩ := h.plpl
  refine ⟨h.clientId, hsodiumKey, hplplKey, hup, hdown, fun actions drawn call => ?_,
    fun actions drawn call => ?_⟩
  · rw [hsodium.recovered]
    exact hsodium.request actions drawn call
  · rw [hplpl.recovered]
    exact hplpl.request actions drawn call

variable (h : BuiltTogether keys exchange signing pairs) (hlib : lib.Ciphers)
  (hname : clientName ≠ []) {client : ConnectDrawn signing.RSAPrivateKey}
  (hclient : client.toClientDrawn.Paired pairs)
  {first : ClientKeys lib exchange (.ofClient clientName)}
  (hfirst : ClientKeys.new lib exchange (.ofClient clientName) signing client.toClientDrawn =
    .ok first)
include h hlib hname hclient hfirst

/-- A client that connects over TCP gets a session, however the bytes of the two messages
come in pieces, and their ends are peers. -/
theorem handshake_overTcp {connection : Connection} (hdrawn : connection.drawn.Paired pairs)
    (hauthentication : Cut (stripEndOfMessage first.authentication) connection.chunks)
    (hendpoints : connection.optionSet = true → connection.endpoints = true) (_header : HEADER) :
    ∃ filled session, TcpAcceptor.accept keys _header connection =
        .ok (filled, .session session (session.sendStatusToClient .NONE)) ∧
      ∀ {socket : ClientSocket}, socket.connected = true → socket.sent = true →
        socket.endpoints = true →
        Cut (stripEndOfMessage (session.sendStatusToClient .NONE)) socket.chunks →
        ∃ connected, TcpClient.new lib exchange (.ofClient clientName) signing client socket =
            .ok connected ∧
          ∀ serverName, Handshaken connected session serverName := by
  obtain ⟨serialized, hserialized, hnew, hread⟩ :=
    @BuiltTogether.authenticates keys exchange signing pairs h lib (.ofClient clientName)
      client.toClientDrawn hclient
  obtain rfl := Except.ok.inj (hnew.symm.trans hfirst)
  obtain ⟨filled, htype, hplain, hread⟩ := hread _header
  obtain ⟨session, hsession, hconnects⟩ :=
    @BuiltTogether.establishes keys exchange signing pairs h lib (.ofClient clientName)
      client.toClientDrawn hclient connection.drawn hdrawn serialized hserialized
  refine ⟨filled, session, ?_, ?_⟩
  · have hstart : ∃ started, TcpSession.start connection = .ok started := by
      cases hset : connection.optionSet with
      | false => exact ⟨false, by simp [TcpSession.start, hset]⟩
      | true => exact ⟨true, by simp [TcpSession.start, hset, hendpoints hset, Outcome.require]⟩
    obtain ⟨started, hstart⟩ := hstart
    have hcreate : createTcpSession keys connection [CryptoSodium._signatureWithPubKeySign signing
        client.toClientDrawn, CryptoSodium._encodedPubKeyAes signing client.toClientDrawn,
        CryptoPlPl.signMessage signing client.toClientDrawn serialized, client.plplPubKeyAes] =
        .ok session := by
      rw [createTcpSession, hsession, Outcome.ok_bind, hstart]
      rfl
    have hcompressed : isCompressed filled = false := by simp [isCompressed, hplain]
    rw [TcpAcceptor.accept, TcpAcceptor.connectionType, Tcp.readMessage_of_cut hauthentication,
      hread]
    simp only [Outcome.ok_bind, Outcome.require, if_true, hcompressed, Bool.not_false, htype,
      hcreate, Outcome.pure_eq_ok]
  · intro socket hconnected hsent hendpoints' hanswer
    obtain ⟨connected, hreceived, hlinked⟩ := hconnects
      (CryptoPlPl.signMessage signing client.toClientDrawn serialized) client.obfuscators
    refine ⟨connected, ?_, hlinked.handshaken hlib hname⟩
    rw [TcpClient.new, hnew, Outcome.ok_bind, Tcp.readMessage_of_cut hanswer]
    simp only [hconnected, hsent, hendpoints', Outcome.require, if_true, Outcome.ok_bind,
      hreceived, Outcome.pure_eq_ok]

/-- A client that connects over the acceptor pipe gets a session, their ends are peers, and
the client goes on with the pipe that the session makes. -/
theorem handshake_overFifo {message : PipeMessage} (hdrawn : message.drawn.Paired pairs)
    {chunks : List Bytes} (hauthentication : Cut (stripEndOfMessage first.authentication) chunks)
    (hopened : message.opened = true) (hresults : message.results = Fifo.transfers chunks)
    (hreply : message.replyThrows = false) (_header : HEADER) (_fifoDirectoryName : Bytes) :
    ∃ filled session, FifoAcceptor.iteration keys _header message =
        .ok (filled, .session session (session.sendStatusToClient .NONE)) ∧
      ∀ {pipe : ClientPipe} {answer : List Bytes}, pipe.sent = .ok true → pipe.opened = true →
        pipe.results = Fifo.transfers answer →
        Cut (stripEndOfMessage (session.sendStatusToClient .NONE)) answer →
        ∃ connected, FifoClient.new lib exchange (.ofClient clientName) signing client
            _fifoDirectoryName pipe =
            .ok (FifoSession._fifoName _fifoDirectoryName session, connected) ∧
          ∀ serverName, Handshaken connected session serverName := by
  obtain ⟨serialized, hserialized, hnew, hread⟩ :=
    @BuiltTogether.authenticates keys exchange signing pairs h lib (.ofClient clientName)
      client.toClientDrawn hclient
  obtain rfl := Except.ok.inj (hnew.symm.trans hfirst)
  obtain ⟨filled, htype, -, hread⟩ := hread _header
  obtain ⟨session, hsession, hconnects⟩ :=
    @BuiltTogether.establishes keys exchange signing pairs h lib (.ofClient clientName)
      client.toClientDrawn hclient message.drawn hdrawn serialized hserialized
  refine ⟨filled, session, ?_, ?_⟩
  · rw [FifoAcceptor.iteration, FifoAcceptor.unblockAcceptor, hopened, hresults,
      Fifo.readMessage_of_cut hauthentication, hread]
    simp only [Outcome.ok_bind, if_true, htype, createFifoSession, hsession, hreply,
      Outcome.require, Bool.not_false, Outcome.pure_eq_ok]
  · intro pipe answer hsent hopened' hresults' hanswer
    obtain ⟨connected, hreceived, hlinked⟩ := hconnects
      (CryptoPlPl.signMessage signing client.toClientDrawn serialized) client.obfuscators
    refine ⟨connected, ?_, hlinked.handshaken hlib hname⟩
    rw [FifoClient.new, hnew, Outcome.ok_bind, hsent, hopened', hresults',
      Fifo.readMessage_of_cut hanswer]
    simp only [Outcome.require, if_true, Outcome.ok_bind, hreceived, Outcome.pure_eq_ok]
    rfl

end Transports

/-! ### One handshake

A client and a server with the keys and the signatures of `OneHandshake`. -/

namespace OneHandshake

open OneExchange

def signing : SigningLibraries where
  sodium_bin2base64 input := if input = clientPubKey then encodedClientPubKey else []
  crypto_sign_detached message _ := if message = sodiumMsgHash then signature else []
  sodiumMsgHash := sodiumMsgHash
  RSAPrivateKey := Unit
  DEREncode _ := .ok serializedRsaPubKey
  SignMessage _ message := if message = plplMsgHash then rsaSignature else []
  plplMsgHash := plplMsgHash

def client : ConnectDrawn Unit where
  sodiumPubKeyAes := clientPubKey
  sodiumPrivKeyAes := privKey
  publicKeySign := publicKeySign
  secretKeySign := privKey ++ publicKeySign
  sodiumArrays := (Vector.replicate _ 0, Vector.replicate _ 0)
  peerPubKeyAes := server.peerPubKeyAes
  plplPubKeyAes := clientPoint
  plplPrivKeyAes := privKey
  rsaPrivKey := ()
  plplArrays := (Vector.replicate _ 0, Vector.replicate _ 0)
  obfuscators := ⟨mask, Vector.replicate _ 165⟩

def pairs : KeyPairs Unit where
  clientKx publicKey secretKey := publicKey = clientPubKey ∧ secretKey = privKey
  clientSign publicKey secretKey :=
    publicKey = publicKeySign ∧ secretKey = privKey ++ publicKeySign
  clientPoint publicKey privateKey := publicKey = OneHandshake.clientPoint ∧ privateKey = privKey
  clientRsa _ := True
  serverKx publicKey secretKey := publicKey = serverPubKey ∧ secretKey = serverPrivKey
  serverPoint publicKey privateKey :=
    publicKey = OneExchange.serverPoint ∧ privateKey = serverPrivKey

theorem builtTogether : BuiltTogether keys exchange signing pairs where
  sodiumMsgHash := rfl
  plplMsgHash := rfl
  plplMsgHash_text := by decide +kernel
  clientKx := by
    rintro _ _ ⟨rfl, rfl⟩
    decide +kernel
  serverKx := by
    rintro _ _ ⟨rfl, rfl⟩
    decide +kernel
  sessionKeys := by
    rintro _ _ _ _ ⟨rfl, rfl⟩ ⟨rfl, rfl⟩
    exact ⟨sodiumKey, by decide +kernel, by decide +kernel⟩
  signs := by
    rintro _ _ ⟨rfl, rfl⟩
    decide +kernel
  clientPoint := by
    rintro _ _ ⟨rfl, rfl⟩
    decide +kernel
  serverPoint := by
    rintro _ _ ⟨rfl, rfl⟩
    decide +kernel
  agrees := by
    rintro _ _ _ _ ⟨rfl, rfl⟩ ⟨rfl, rfl⟩
    exact ⟨plplKey, by decide +kernel, by decide +kernel⟩
  rsaSigns := by
    rintro ⟨⟩ -
    have hsigned : signing.SignMessage () signing.plplMsgHash = rsaSignature := by
      simp only [signing, if_true]
    have hloaded : keys.Load serializedRsaPubKey = some () := by
      simp only [keys, if_true]
    have hlength : rsaSignature.length = RSA_KEY_SIZE >>> 3 := by decide +kernel
    have hverified : keys.VerifyMessage () signing.plplMsgHash rsaSignature = .ok true :=
      congrArg Except.ok (decide_eq_true ⟨rfl, rfl⟩)
    refine ⟨hsigned ▸ hlength, serializedRsaPubKey, (), rfl, by decide +kernel, hloaded, ?_⟩
    rw [hsigned]
    exact hverified

theorem clientPaired : @ClientDrawn.Paired signing pairs client.toClientDrawn :=
  ⟨⟨rfl, rfl⟩, ⟨rfl, rfl⟩, ⟨rfl, rfl⟩, trivial⟩

theorem serverPaired : server.Paired pairs := ⟨⟨rfl, rfl⟩, ⟨rfl, rfl⟩, by decide⟩

theorem ciphers : ShortRequest.libraries.Ciphers where
  gcmLength := by
    intro message nonce key ciphertext h
    obtain ⟨rfl, -, rfl⟩ := ShortRequest.eq_of_sodium_eq_some h
    decide +kernel
  gcmDecrypts := by
    intro message nonce key ciphertext h
    change ShortRequest.sodium.crypto_aead_aes256gcm_encrypt message nonce key = _ at h
    simp only [ShortRequest.sodium] at h
    split_ifs at h with hargs
    obtain ⟨rfl, rfl, rfl⟩ := hargs
    obtain rfl := Option.some.inj h
    decide +kernel
  cbcLength := by
    intro message iv key ciphertext h
    change ShortRequest.cryptopp.cbcEncryption message iv key = _ at h
    simp only [ShortRequest.cryptopp] at h
    split_ifs at h with _ h1 h2
    · obtain rfl := Except.ok.inj h
      subst h1
      decide +kernel
    · obtain rfl := Except.ok.inj h
      subst h2
      decide +kernel
  cbcDecrypts := by
    intro message iv key ciphertext h
    change ShortRequest.cryptopp.cbcEncryption message iv key = _ at h
    change ShortRequest.cryptopp.cbcDecryption ciphertext iv key = _
    simp only [ShortRequest.cryptopp] at h
    split_ifs at h with h0 h1 h2
    · obtain rfl := Except.ok.inj h
      obtain ⟨rfl, rfl⟩ := by simpa using h0
      subst h1
      decide +kernel
    · obtain rfl := Except.ok.inj h
      obtain ⟨rfl, rfl⟩ := by simpa using h0
      subst h2
      decide +kernel

/-- The environment variable of the client. -/
def clientName : Bytes := bytes "/t/2"

def first : ClientKeys ShortRequest.libraries exchange (.ofClient clientName) :=
  .ofSignature _ _ _ signing client.toClientDrawn
    (CryptoPlPl.signMessage signing client.toClientDrawn serializedRsaPubKey)

/-- The session the acceptors build. -/
def session : Session where
  _clientId := 7
  _primarySodiumEncryptor := ⟨⟨true, false⟩, sodiumKey.toList⟩
  _secondaryCryptoppEncryptor := ⟨⟨true, false⟩, plplKey.toList⟩
  _primaryPubKeyAes := encodedServerPubKey
  _secondaryPubKeyAes := serverPoint

/-- A message in two pieces, of which the first has a part of the header. -/
def pieces (message : Bytes) : List Bytes := [message.take 30, message.drop 30]

theorem cut_pieces {message : Bytes}
    (hwhole : stripEndOfMessage message ++ ENDOFMESSAGE = message)
    (hfound : Text.find ENDOFMESSAGE (stripEndOfMessage message) = none)
    (hlength : 30 < message.length) : Cut (stripEndOfMessage message) (pieces message) := by
  have hflatten : (pieces message).flatten = stripEndOfMessage message ++ ENDOFMESSAGE := by
    simp [pieces, hwhole]
  refine ⟨Text.find_eq_none_iff.mp hfound, hflatten, ?_⟩
  intro piece hpiece
  rw [pieces, List.mem_pair] at hpiece
  obtain rfl | rfl := hpiece
  · exact List.ne_nil_of_length_pos (by rw [List.length_take]; omega)
  · exact List.ne_nil_of_length_pos (by rw [List.length_drop]; omega)

theorem cut_authentication :
    Cut (stripEndOfMessage first.authentication) (pieces first.authentication) :=
  cut_pieces (by decide +kernel) (by decide +kernel) (by decide +kernel)

theorem cut_answer : Cut (stripEndOfMessage (session.sendStatusToClient .NONE))
    (pieces (session.sendStatusToClient .NONE)) :=
  cut_pieces (by decide +kernel) (by decide +kernel) (by decide +kernel)

def connection : Connection := ⟨pieces first.authentication, true, true, server⟩

def message : PipeMessage := ⟨true, Fifo.transfers (pieces first.authentication), false, server⟩

deriving instance DecidableEq for Served

theorem connection_session : (TcpAcceptor.accept keys default connection).map Prod.snd =
    .ok (.session session (session.sendStatusToClient .NONE)) := by
  decide +kernel

theorem message_session : (FifoAcceptor.iteration keys default message).map Prod.snd =
    .ok (.session session (session.sendStatusToClient .NONE)) := by
  decide +kernel

end OneHandshake

section Witnesses

open OneHandshake

theorem handshake_overTcp_oneHandshake : ∃ filled connected,
    TcpAcceptor.accept keys default connection =
      .ok (filled, .session session (session.sendStatusToClient .NONE)) ∧
    TcpClient.new ShortRequest.libraries OneExchange.exchange (.ofClient clientName) signing client
      ⟨true, true, pieces (session.sendStatusToClient .NONE), true⟩ = .ok connected ∧
    Handshaken connected session (bytes "/t/1") := by
  have hname : clientName ≠ [] := by decide +kernel
  obtain ⟨filled, session', haccept, hconnects⟩ := @handshake_overTcp _ _ _ _ _ _ builtTogether
    ciphers hname _ clientPaired first rfl connection serverPaired cut_authentication
    (fun _ => rfl) default
  have hsame := connection_session
  rw [haccept] at hsame
  obtain ⟨rfl, -⟩ := Served.session.inj (Except.ok.inj hsame)
  obtain ⟨connected, hnew, hhandshaken⟩ := @hconnects ⟨true, true, _, true⟩ rfl rfl rfl cut_answer
  exact ⟨filled, connected, haccept, hnew, hhandshaken _⟩

theorem handshake_overFifo_oneHandshake : ∃ filled connected,
    FifoAcceptor.iteration keys default message =
      .ok (filled, .session session (session.sendStatusToClient .NONE)) ∧
    FifoClient.new ShortRequest.libraries OneExchange.exchange (.ofClient clientName) signing client
      (bytes "fifos") ⟨.ok true, true,
        Fifo.transfers (pieces (session.sendStatusToClient .NONE))⟩ =
      .ok (bytes "fifos/7", connected) ∧
    Handshaken connected session (bytes "/t/1") := by
  have hname : clientName ≠ [] := by decide +kernel
  obtain ⟨filled, session', haccept, hconnects⟩ := @handshake_overFifo _ _ _ _ _ _ builtTogether
    ciphers hname _ clientPaired first rfl message serverPaired _ cut_authentication rfl rfl rfl
    default (bytes "fifos")
  have hsame := message_session
  rw [haccept] at hsame
  obtain ⟨rfl, -⟩ := Served.session.inj (Except.ok.inj hsame)
  have hpipe : FifoSession._fifoName (bytes "fifos") session = bytes "fifos/7" := by decide +kernel
  rw [hpipe] at hconnects
  obtain ⟨connected, hnew, hhandshaken⟩ :=
    @hconnects ⟨.ok true, true, _⟩ _ rfl rfl rfl cut_answer
  exact ⟨filled, connected, haccept, hnew, hhandshaken _⟩

end Witnesses

end ClientServer
