import ClientServer.Server.Receiving

/-!
# One direction of a connection

Requests go up and replies go down through the same pipeline: the sender compresses
and encrypts by its options, the receiver decrypts by the ones it shares with the
sender.  Where the encryptors are peers and the compressor is lossless, whatever has
been encrypted is decrypted to what it was, unless the ciphertext happens to begin
with a header; and a header the receiver can read is the only one the sender can have
put in.
-/

namespace ClientServer

open cryptooperations

/-- A sender and a receiver, and the options of both. -/
structure Channel where
  lib : Libraries
  sender : End
  receiver : End
  options : DecryptionOptions
  _doEncrypt : Bool
  _compressionLevel : Int

namespace Channel

variable (channel : Channel)

/-- The statement of `buildReply` and of `compressEncryptSubtask`. -/
def encrypt (drawn : Drawn) (work : SenderBuffers) (header : HEADER) (data : Bytes) :
    Call Bytes :=
  if channel.options._doubleEncryption then
    compressDoubleEncrypt channel.lib channel.sender.party drawn work header data
      channel._doEncrypt channel._compressionLevel
  else
    compressSingleEncrypt channel.lib channel.sender.party channel.options._singleEncryptor drawn
      work header data channel._doEncrypt channel._compressionLevel

/-- The statement of `processTask` and of `printReply`. -/
def decrypt (buffer : Bytes) (header : HEADER) (data : Bytes) : Call (Bytes × HEADER × Bytes) :=
  Session.decryptRequest channel.lib channel.receiver channel.options buffer header data

/-- What the libraries are relied on for where a compressor is used. -/
structure Sound (compressor : COMPRESSORS) : Prop where
  peers : Peers channel.lib channel.sender channel.receiver
  encryptor : channel.options._doubleEncryption = false →
    channel.options._singleEncryptor = .CRYPTOSODIUM ∨ channel.options._singleEncryptor = .CRYPTOPP
  lossless : ∀ {header : HEADER} (data : Bytes), header.compressor = compressor →
    ∃ room, Lossless channel.lib room header data channel._compressionLevel

/-- The ciphertext does not happen to begin with a header, nor does the one inside. -/
structure Refused (encrypted : Bytes) : Prop where
  outer : channel._doEncrypt = true → ¬ HeaderAccepted encrypted
  inner : channel._doEncrypt = true → channel.options._doubleEncryption = true →
    ∀ {iv : IV} {inner : Bytes}, PlPlSeals channel.lib channel.sender iv inner encrypted →
      ¬ HeaderAccepted inner

/-- How a message with its header is encrypted. -/
inductive Enciphers (drawn : Drawn) (message : Bytes) : Bytes → Prop where
  | plain : channel._doEncrypt = false → Enciphers drawn message message
  | sodium {encrypted : Bytes} :
      channel.options._doubleEncryption = false →
      channel.options._singleEncryptor = .CRYPTOSODIUM → channel._doEncrypt = true →
      SodiumSeals channel.lib channel.sender drawn.nonce message encrypted →
      Enciphers drawn message encrypted
  | plpl {encrypted : Bytes} :
      channel.options._doubleEncryption = false →
      channel.options._singleEncryptor = .CRYPTOPP → channel._doEncrypt = true →
      PlPlSeals channel.lib channel.sender drawn.iv message encrypted →
      Enciphers drawn message encrypted
  | double {inner encrypted : Bytes} :
      channel.options._doubleEncryption = true → channel._doEncrypt = true →
      SodiumSeals channel.lib channel.sender drawn.nonce message inner →
      PlPlSeals channel.lib channel.sender drawn.iv inner encrypted →
      Enciphers drawn message encrypted

end Channel

/-! ## What is encrypted -/

theorem CryptoSodium.encrypt_eq_ok {lib : Sodium} {terminal : Terminal} {self : CryptoSodium}
    (haccess : checkAccess terminal self.toCryptoBase = .ok true) {nonce : Nonce}
    {input data encrypted : Bytes} {header : HEADER}
    (h : (encrypt lib terminal self nonce input (some header) data).1 = .ok encrypted) :
    ∃ ciphertext, encrypted = ciphertext ++ nonce.val ∧
      lib.crypto_aead_aes256gcm_encrypt (serialize header ++ data) nonce.val self._key =
        some ciphertext := by
  cases hencrypt : lib.crypto_aead_aes256gcm_encrypt (serialize header ++ data) nonce.val
      self._key with
  | none =>
      simp only [encrypt, haccess, hencrypt] at h
      cases h
  | some ciphertext =>
      rw [encrypt_of_some haccess hencrypt] at h
      exact ⟨ciphertext, (Except.ok.inj h).symm, rfl⟩

theorem CryptoPlPl.encrypt_eq_ok {lib : CryptoPP} {terminal : Terminal} {self : CryptoPlPl}
    (haccess : checkAccess terminal self.toCryptoBase = .ok true) {iv : IV}
    {header : Option HEADER} {data encrypted : Bytes}
    (h : encrypt lib terminal self iv header data = .ok encrypted) :
    ∃ ciphertext, encrypted = ciphertext ++ iv.val ∧
      lib.cbcEncryption (header.elim [] serialize ++ data) iv.val self._key = .ok ciphertext := by
  cases hencrypt : lib.cbcEncryption (header.elim [] serialize ++ data) iv.val self._key with
  | error what =>
      simp only [encrypt, haccess, Outcome.ok_bind, Bool.not_true, Bool.false_eq_true,
        if_false] at h
      cases header with
      | none =>
          simp only [Option.elim_none] at hencrypt
          rw [hencrypt] at h
          cases h
      | some header =>
          simp only [Option.elim_some] at hencrypt
          rw [hencrypt] at h
          cases h
  | ok ciphertext =>
      rw [encrypt_of_ok haccess hencrypt] at h
      exact ⟨ciphertext, (Except.ok.inj h).symm, rfl⟩

namespace Channel

variable {channel : Channel} {compressor : COMPRESSORS} (h : channel.Sound compressor)
  {drawn : Drawn} {message encrypted : Bytes}
include h

theorem Sound.sodiumSeals (hrefused : ¬ HeaderAccepted encrypted) {header : HEADER}
    {input data : Bytes}
    (hok : (channel.sender.sodium.encrypt channel.lib.sodium channel.sender.terminal drawn.nonce
      input (some header) data).1 = .ok encrypted) :
    SodiumSeals channel.lib channel.sender drawn.nonce (serialize header ++ data) encrypted := by
  obtain ⟨ciphertext, rfl, hencrypt⟩ :=
    CryptoSodium.encrypt_eq_ok h.peers.senderAccess.sodium hok
  exact ⟨ciphertext, rfl, hencrypt, hrefused⟩

theorem Sound.plplSeals (hrefused : ¬ HeaderAccepted encrypted) {header : Option HEADER}
    {data : Bytes}
    (hok : channel.sender.plpl.encrypt channel.lib.cryptopp channel.sender.terminal drawn.iv
      header data = .ok encrypted) :
    PlPlSeals channel.lib channel.sender drawn.iv (header.elim [] serialize ++ data)
      encrypted := by
  obtain ⟨ciphertext, rfl, hencrypt⟩ := CryptoPlPl.encrypt_eq_ok h.peers.senderAccess.plpl hok
  exact ⟨ciphertext, rfl, hencrypt, hrefused⟩

/-- What is encrypted are the header and the compressed data. -/
theorem Sound.enciphers {work : SenderBuffers} {header : HEADER} {data : Bytes}
    (hok : channel.encrypt drawn work header data = .ok encrypted)
    (hrefused : channel.Refused encrypted) :
    ∃ buffer packed,
      compress channel.lib work.buffer.capacity work.buffer.bytes header data
        channel._compressionLevel = .ok (buffer, packed) ∧
      channel.Enciphers drawn (serialize header ++ packed) encrypted := by
  unfold encrypt at hok
  split at hok
  next hdouble =>
    rw [compressDoubleEncrypt, Outcome.bind_eq_ok] at hok
    obtain ⟨⟨buffer, packed⟩, hcompress, hok⟩ := hok
    refine ⟨buffer, packed, hcompress, ?_⟩
    dsimp only at hok
    split at hok
    next hdo =>
      simp only [doubleEncrypt, End.party, Outcome.bind_eq_ok] at hok
      obtain ⟨inner, hinner, houter⟩ := hok
      have hplpl := h.plplSeals (hrefused.outer hdo) houter
      exact .double hdouble hdo (h.sodiumSeals (hrefused.inner hdo hdouble hplpl) hinner) hplpl
    next hdo =>
      obtain rfl := Except.ok.inj hok
      exact .plain (Bool.eq_false_of_not_eq_true hdo)
  next hsingle =>
    rw [compressSingleEncrypt, Outcome.bind_eq_ok] at hok
    obtain ⟨⟨buffer, packed⟩, hcompress, hok⟩ := hok
    refine ⟨buffer, packed, hcompress, ?_⟩
    have hdouble := Bool.eq_false_of_not_eq_true hsingle
    dsimp only at hok
    split at hok
    next hdo =>
      rcases h.encryptor hdouble with hcrypto | hcrypto
      · rw [hcrypto] at hok
        exact .sodium hdouble hcrypto hdo (h.sodiumSeals (hrefused.outer hdo) hok)
      · rw [hcrypto] at hok
        have hplpl : channel.sender.plpl.encrypt channel.lib.cryptopp channel.sender.terminal
            drawn.iv (some header) packed = .ok encrypted := hok
        exact .plpl hdouble hcrypto hdo (h.plplSeals (hrefused.outer hdo) hplpl)
    next hdo =>
      obtain rfl := Except.ok.inj hok
      exact .plain (Bool.eq_false_of_not_eq_true hdo)

/-! ## What is decrypted -/

/-- What a peer sealed is unsealed in one way only. -/
theorem Sound.sodium_inj {nonce nonce' : Nonce} {message' : Bytes}
    (hseals : SodiumSeals channel.lib channel.sender nonce message encrypted)
    (hseals' : SodiumSeals channel.lib channel.sender nonce' message' encrypted) :
    message = message' := by
  obtain ⟨ciphertext, rfl, hencrypt, -⟩ := hseals
  obtain ⟨ciphertext', heq, hencrypt', -⟩ := hseals'
  obtain ⟨rfl, hnonce⟩ := List.append_inj' heq (nonce.property.trans nonce'.property.symm)
  have hdecrypt := h.peers.sodiumDecrypts hencrypt
  rw [hnonce, h.peers.sodiumDecrypts hencrypt'] at hdecrypt
  exact (Option.some.inj hdecrypt).symm

theorem Sound.plpl_inj {iv iv' : IV} {message' : Bytes}
    (hseals : PlPlSeals channel.lib channel.sender iv message encrypted)
    (hseals' : PlPlSeals channel.lib channel.sender iv' message' encrypted) :
    message = message' := by
  obtain ⟨ciphertext, rfl, hencrypt, -⟩ := hseals
  obtain ⟨ciphertext', heq, hencrypt', -⟩ := hseals'
  obtain ⟨rfl, hiv⟩ := List.append_inj' heq (iv.property.trans iv'.property.symm)
  have hdecrypt := h.peers.plplDecrypts hencrypt
  rw [hiv, h.peers.plplDecrypts hencrypt'] at hdecrypt
  exact (Except.ok.inj hdecrypt).symm

theorem Enciphers.inj {drawn' : Drawn} {message' : Bytes}
    (hciphers : channel.Enciphers drawn message encrypted)
    (hciphers' : channel.Enciphers drawn' message' encrypted) : message = message' := by
  cases hciphers with
  | plain hdo =>
      cases hciphers' with
      | plain => rfl
      | sodium _ _ hdo' | plpl _ _ hdo' | double _ hdo' => simp [hdo] at hdo'
  | sodium hsingle hcrypto hdo hseals =>
      cases hciphers' with
      | plain hdo' => simp [hdo] at hdo'
      | sodium _ _ _ hseals' => exact h.sodium_inj hseals hseals'
      | plpl _ hcrypto' => simp [hcrypto] at hcrypto'
      | double hdouble => simp [hsingle] at hdouble
  | plpl hsingle hcrypto hdo hseals =>
      cases hciphers' with
      | plain hdo' => simp [hdo] at hdo'
      | sodium _ hcrypto' => simp [hcrypto] at hcrypto'
      | plpl _ _ _ hseals' => exact h.plpl_inj hseals hseals'
      | double hdouble => simp [hsingle] at hdouble
  | double hdouble hdo hinner houter =>
      cases hciphers' with
      | plain hdo' => simp [hdo] at hdo'
      | sodium hsingle | plpl hsingle => simp [hdouble] at hsingle
      | double _ _ hinner' houter' =>
          obtain rfl := h.plpl_inj houter houter'
          exact h.sodium_inj hinner hinner'

omit h in
/-- Behind the layers the data is decompressed. -/
theorem decrypt_of_double {header : HEADER} {packed buffer : Bytes} {target : HEADER}
    (hdouble : channel.options._doubleEncryption = true)
    (hdecrypt : ∃ buffer', doubleDecrypt channel.lib channel.receiver.party buffer target
      encrypted = .ok (buffer', header, serialize header ++ packed)) :
    ∃ buffer', channel.decrypt buffer target encrypted =
      (uncompress channel.lib buffer' header packed >>= fun (buffer, data) =>
        .ok (buffer, header, data)) := by
  obtain ⟨buffer', hdecrypt⟩ := hdecrypt
  refine ⟨buffer', ?_⟩
  rw [decrypt, Session.decryptRequest, if_pos hdouble]
  exact doubleDecryptDecompress_of_layers hdecrypt

omit h in
theorem decrypt_of_single {header : HEADER} {packed buffer : Bytes} {target : HEADER}
    (hsingle : channel.options._doubleEncryption = false) {crypto : CRYPTO}
    (hcrypto : channel.options._singleEncryptor = crypto)
    (hdecrypt : ∃ buffer', singleDecrypt channel.lib channel.receiver.party crypto buffer target
      encrypted = .ok (buffer', header, packed)) :
    ∃ buffer', channel.decrypt buffer target encrypted =
      (uncompress channel.lib buffer' header packed >>= fun (buffer, data) =>
        .ok (buffer, header, data)) := by
  obtain ⟨buffer', hdecrypt⟩ := hdecrypt
  refine ⟨buffer', ?_⟩
  rw [decrypt, Session.decryptRequest, if_neg (by rw [hsingle]; exact Bool.false_ne_true), hcrypto]
  exact singleDecryptDecompress_of_layer hdecrypt

/-- The layers come off. -/
theorem Enciphers.decrypt {header : HEADER} (hheader : header.OfPayload) {packed : Bytes}
    (hciphers : channel.Enciphers drawn (serialize header ++ packed) encrypted) (buffer : Bytes)
    (target : HEADER) :
    ∃ buffer', channel.decrypt buffer target encrypted =
      (uncompress channel.lib buffer' header packed >>= fun (buffer, data) =>
        .ok (buffer, header, data)) := by
  have hlength := header_size_le header packed
  have haccepted := hheader.accepted packed
  cases hciphers with
  | plain hdo =>
      have hsodium : channel.receiver.sodium.decrypt channel.lib.sodium channel.receiver.terminal
          (serialize header ++ packed) = .ok ([], serialize header ++ packed) :=
        CryptoSodium.decrypt_of_accepted h.peers.receiverAccess.sodium haccepted hlength
      have hplpl (buffer : Bytes) : channel.receiver.plpl.decrypt channel.lib.cryptopp
          channel.receiver.terminal buffer (serialize header ++ packed) =
            .ok (buffer, serialize header ++ packed) :=
        CryptoPlPl.decrypt_of_accepted h.peers.receiverAccess.plpl haccepted hlength
      cases hdouble : channel.options._doubleEncryption with
      | true =>
          exact decrypt_of_double hdouble
            ⟨_, doubleDecrypt_of_layers hheader (hplpl []) hsodium buffer target⟩
      | false =>
          rcases h.encryptor hdouble with hcrypto | hcrypto
          · exact decrypt_of_single hdouble hcrypto
              ⟨_, singleDecrypt_of_sodium hheader hsodium buffer target⟩
          · exact decrypt_of_single hdouble hcrypto
              ⟨_, singleDecrypt_of_plpl hheader (hplpl buffer) target⟩
  | sodium hsingle hcrypto hdo hseals =>
      exact decrypt_of_single hsingle hcrypto
        ⟨_, singleDecrypt_of_sodium hheader (hseals.decrypt h.peers hlength).2 buffer target⟩
  | plpl hsingle hcrypto hdo hseals =>
      exact decrypt_of_single hsingle hcrypto
        ⟨_, singleDecrypt_of_plpl hheader (hseals.decrypt h.peers hlength buffer) target⟩
  | double hdouble hdo hinner houter =>
      obtain ⟨hlong, hsodium⟩ := hinner.decrypt h.peers hlength
      exact decrypt_of_double hdouble
        ⟨_, doubleDecrypt_of_layers hheader (houter.decrypt h.peers hlong []) hsodium buffer
          target⟩

/-- Whatever has been encrypted is decrypted to what it was. -/
theorem Sound.decrypts {work : SenderBuffers} {header : HEADER} {data : Bytes}
    (hheader : header.OfPayload) (hcompressor : header.compressor = compressor)
    (hcounted : SizeKept compressor data)
    (hok : channel.encrypt drawn work header data = .ok encrypted)
    (hrefused : channel.Refused encrypted) (buffer : Bytes) (target : HEADER) :
    ∃ buffer', channel.decrypt buffer target encrypted = .ok (buffer', header, data) := by
  obtain ⟨_, packed, hcompress, hciphers⟩ := h.enciphers hok hrefused
  obtain ⟨room, hlossless⟩ := h.lossless data hcompressor
  obtain ⟨buffer₁, hdecrypt⟩ := hciphers.decrypt h hheader buffer target
  obtain ⟨buffer₂, hdata⟩ := hlossless.restores (hcompressor ▸ hcounted) hcompress buffer₁
  exact ⟨buffer₂, by rw [hdecrypt, hdata]; rfl⟩

/-- There is a header, a nonce or an initialisation vector in everything encrypted. -/
theorem Sound.ne_nil {work : SenderBuffers} {header : HEADER} {data : Bytes}
    (hok : channel.encrypt drawn work header data = .ok encrypted)
    (hrefused : channel.Refused encrypted) : encrypted ≠ [] := by
  obtain ⟨_, packed, -, hciphers⟩ := h.enciphers hok hrefused
  have hlong := header_size_le header packed
  have hpositive : 0 < encrypted.length := by
    cases hciphers with
    | plain => exact Nat.lt_of_lt_of_le (by decide) hlong
    | sodium _ _ _ hseals =>
        exact Nat.lt_of_lt_of_le (by decide) (hseals.decrypt h.peers hlong).1
    | plpl _ _ _ hseals =>
        obtain ⟨ciphertext, rfl, -⟩ := hseals
        rw [List.length_append, drawn.iv.property]
        exact Nat.lt_of_lt_of_le (by decide) (Nat.le_add_left ..)
    | double _ _ _ houter =>
        obtain ⟨ciphertext, rfl, -⟩ := houter
        rw [List.length_append, drawn.iv.property]
        exact Nat.lt_of_lt_of_le (by decide) (Nat.le_add_left ..)
  exact List.ne_nil_of_length_pos hpositive

/-- A payload with a header that can be read was made with one that can be read. -/
theorem Sound.valid {drawn' : Drawn} {work work' : SenderBuffers} {header header' : HEADER}
    {data data' : Bytes} (hheader : header.OfPayload) (hfit : header'.SizesFit)
    (hok : channel.encrypt drawn work header data = .ok encrypted)
    (hok' : channel.encrypt drawn' work' header' data' = .ok encrypted)
    (hrefused : channel.Refused encrypted) : header'.Valid := by
  obtain ⟨_, packed, -, hciphers⟩ := h.enciphers hok hrefused
  obtain ⟨_, packed', -, hciphers'⟩ := h.enciphers hok' hrefused
  have hcases := deserialize_serialize_cases hfit default packed'
  rw [← hciphers.inj h hciphers', deserialize_ofPayload hheader] at hcases
  by_contra hnot
  rw [if_neg hnot] at hcases
  obtain ⟨_, heq⟩ := hcases
  cases heq

end Channel

end ClientServer
