import ClientServer.Common.MessageBounds
import ClientServer.Crypto.Pipeline

/-!
# The receiving path of a session

What a session does with the bytes of one request up to the point where a task
gets it.  A TCP session tries to read the outer header off whatever arrived, a
FIFO session runs `processMessage` first.  Both then take the layers of
encryption off, and each layer wants either nothing at all or enough bytes for
a header.

`InBounds` is the absence of the two ends no handler sees, a failing assertion
and a read past the end.  `receive_inBounds_iff` says for which requests a
session keeps to it.
-/

namespace ClientServer

open cryptooperations

/-- The options a session decrypts under. -/
structure DecryptionOptions where
  _doubleEncryption : Bool
  _singleEncryptor : CRYPTO

/-- The first statement of `Session::processTask`. -/
def Session.decryptRequest (lib : Libraries) (session : End) (options : DecryptionOptions)
    (_buffer : Bytes) (_header : HEADER) (_request : Bytes) : Call (Bytes × HEADER × Bytes) :=
  if options._doubleEncryption then
    doubleDecryptDecompress lib session.party _buffer _header _request
  else
    singleDecryptDecompress lib session.party options._singleEncryptor _buffer _header _request

/-- `TcpSession::readRequest` from the completion of the read on: `_request` is
what the read has put into the buffer, `transferred` ends the terminator. -/
def TcpSession.readRequest (lib : Libraries) (session : End) (options : DecryptionOptions)
    (_buffer : Bytes) (_header : HEADER) (_request : Bytes) (transferred : Nat) :
    Call (Bytes × HEADER × Bytes) := do
  let _request :=
    if ENDOFMESSAGE.isSuffixOf _request then resize _request (transferred - ENDOFMESSAGESZ)
    else _request
  let (ok, _header) ← deserialize _header _request
  let _request := if ok then _request.drop HEADER_SIZE else _request
  Session.decryptRequest lib session options _buffer _header _request

/-- `FifoSession::receiveRequest` from the payload of `Fifo::readMessage` on;
`none` where it returns false. -/
def FifoSession.receiveRequest (lib : Libraries) (session : End) (options : DecryptionOptions)
    (_buffer : Bytes) (_header : HEADER) (_payload : Bytes) :
    Call (Option (Bytes × HEADER × Bytes)) := do
  let (ok, _, array) ← processMessage _payload default [[]]
  if !ok then
    return none
  let _request := array.headD []
  let result ← Session.decryptRequest lib session options _buffer _header _request
  return some result

/-! ## In bounds -/

/-- A call that returns or throws. -/
def InBounds {α : Type _} (call : Call α) : Prop :=
  ¬ Outcome.FailsWith (fun fault => fault.isException = false) call

theorem inBounds_ok {α : Type _} (a : α) : InBounds (.ok a) := by
  rw [InBounds, Outcome.failsWith_ok]
  exact not_false

theorem inBounds_error {α : Type _} {fault : Fault} :
    InBounds (.error fault : Call α) ↔ fault.isException = true := by
  rw [InBounds, Outcome.failsWith_error, Bool.not_eq_false]

/-- A sequence keeps in bounds step by step. -/
theorem inBounds_bind {α β : Type _} {call : Call α} {f : α → Call β} :
    InBounds (call >>= f) ↔ InBounds call ∧ ∀ a, call = .ok a → InBounds (f a) := by
  simp only [InBounds, Outcome.failsWith_bind, not_or, not_exists, not_and]

theorem inBounds_deserialize (header : HEADER) (buffer : Bytes) :
    InBounds (deserialize header buffer) ↔ HeaderReadable buffer := by
  have hreading := deserialize_reading header buffer
  generalize deserialize header buffer = result at hreading
  cases hreading with
  | unreadable hnot => exact iff_of_false (fun h => absurd (inBounds_error.mp h) (by decide)) hnot
  | malformed hreadable => exact iff_of_true (inBounds_error.mpr rfl) hreadable
  | rejected _ hreadable => exact iff_of_true (inBounds_ok _) hreadable
  | accepted haccepted => exact iff_of_true (inBounds_ok _) haccepted.readable

theorem inBounds_checkLength (string : StdString) (size : Nat) :
    InBounds (string.checkLength size) := by
  rw [StdString.checkLength]
  split
  · exact inBounds_error.mpr rfl
  · exact inBounds_ok _

/-- No decompressor leaves the bounds: they throw. -/
theorem inBounds_uncompress (lib : Libraries) (buffer : Bytes) (header : HEADER) (data : Bytes) :
    InBounds (uncompress lib buffer header data) := by
  unfold uncompress
  split
  · split
    · unfold compressionLZ4.uncompress
      split
      · exact inBounds_error.mpr rfl
      dsimp only
      split
      · exact inBounds_error.mpr rfl
      · refine inBounds_bind.mpr ⟨inBounds_checkLength _ _, fun _ _ => ?_⟩
        split
        · exact inBounds_error.mpr rfl
        · exact inBounds_ok _
    · rw [inBounds_bind]
      refine ⟨?_, fun _ _ => inBounds_ok _⟩
      unfold compressionSnappy.uncompress
      split
      · split
        · exact inBounds_ok _
        · exact inBounds_ok _
      · exact inBounds_error.mpr rfl
    · unfold compressionZSTD.uncompress
      split
      · exact inBounds_error.mpr rfl
      · refine inBounds_bind.mpr ⟨?_, fun _ _ => inBounds_ok _⟩
        exact inBounds_bind.mpr ⟨inBounds_checkLength _ _, fun _ _ => inBounds_ok _⟩
    · exact inBounds_ok _
  · exact inBounds_ok _

/-! ## The layers -/

/-- What `isEncrypted` accepts: nothing, or enough bytes for a header. -/
def LongEnough (data : Bytes) : Prop := data = [] ∨ HEADER_SIZE ≤ data.length

instance (data : Bytes) : Decidable (LongEnough data) := inferInstanceAs (Decidable (_ ∨ _))

/-- The plaintext of a string with its nonce behind it. -/
def sodiumOpen (lib : Libraries) (session : End) (data : Bytes) : Option Bytes :=
  lib.sodium.crypto_aead_aes256gcm_decrypt
    (data.take (data.length - crypto_aead_aes256gcm_NPUBBYTES))
    (data.drop (data.length - crypto_aead_aes256gcm_NPUBBYTES)) session.sodium._key

/-- The plaintext of a string with its initialisation vector behind it. -/
def plplOpen (lib : Libraries) (session : End) (data : Bytes) : Option Bytes :=
  (lib.cryptopp.cbcDecryption (data.take (data.length - AES_BLOCKSIZE))
    (data.drop (data.length - AES_BLOCKSIZE)) session.plpl._key).toOption

/-- What one layer makes of a string: one that begins with a header passes. -/
def takeOff (opens : Bytes → Option Bytes) (data : Bytes) : Option Bytes :=
  if data = [] ∨ HeaderAccepted data then some data else opens data

/-- The layers of the configured encryption, outermost first. -/
def decryptionLayers (lib : Libraries) (session : End) (options : DecryptionOptions) :
    List (Bytes → Option Bytes) :=
  if options._doubleEncryption then [plplOpen lib session, sodiumOpen lib session]
  else
    match options._singleEncryptor with
    | .CRYPTOSODIUM => [sodiumOpen lib session]
    | .CRYPTOPP => [plplOpen lib session]
    | .NONE | .ERROR => []

/-- Every layer meets a string that is long enough, and a header can be looked
for in what the last one leaves. -/
def LayersInBounds : List (Bytes → Option Bytes) → Bytes → Prop
  | [], data => HeaderReadable data
  | opens :: layers, data =>
      LongEnough data ∧ ∀ plain, takeOff opens data = some plain → LayersInBounds layers plain

/-- A step of decryption that does to a string what a layer does. -/
structure TakesOff (decrypt : Bytes → Call (Bytes × Bytes)) (opens : Bytes → Option Bytes) :
    Prop where
  inBounds : ∀ data, InBounds (decrypt data) ↔ LongEnough data
  plain : ∀ data, LongEnough data → ∀ plain,
    (∃ buffer, decrypt data = .ok (buffer, plain)) ↔ takeOff opens data = some plain

theorem isEncrypted_of_longEnough {data : Bytes} (h : LongEnough data) :
    isEncrypted data = .ok (decide (¬ (data = [] ∨ HeaderAccepted data))) := by
  rw [isEncrypted_eq]
  rcases h with rfl | hlength
  · simp
  · have hne : data ≠ [] := List.ne_nil_of_length_pos (Nat.lt_of_lt_of_le (by decide) hlength)
    simp [hne, Nat.not_lt.mpr hlength]

theorem inBounds_isEncrypted {data : Bytes} : InBounds (isEncrypted data) ↔ LongEnough data := by
  constructor
  · intro h
    by_contra hshort
    rw [LongEnough, not_or, Nat.not_le] at hshort
    rw [isEncrypted_eq, if_neg hshort.1, if_pos hshort.2, inBounds_error] at h
    exact Bool.noConfusion h
  · intro h
    rw [isEncrypted_of_longEnough h]
    exact inBounds_ok _

variable {lib : Libraries} {session : End}

theorem sodium_takesOff (haccess : session.Access) :
    TakesOff (session.sodium.decrypt lib.sodium session.terminal) (sodiumOpen lib session) where
  inBounds data := by
    rw [CryptoSodium.decrypt_eq haccess.sodium, inBounds_bind, inBounds_isEncrypted]
    refine ⟨And.left, fun h => ⟨h, fun encrypted _ => ?_⟩⟩
    cases encrypted with
    | true =>
        simp only [if_true]
        split
        · exact inBounds_error.mpr rfl
        · exact inBounds_ok _
    | false => exact inBounds_ok _
  plain data hlong plain := by
    rw [CryptoSodium.decrypt_eq haccess.sodium, isEncrypted_of_longEnough hlong, Outcome.ok_bind,
      takeOff, sodiumOpen]
    by_cases hplain : data = [] ∨ HeaderAccepted data
    · simp [hplain]
    · simp only [hplain, not_false_eq_true, decide_true, if_true, if_false]
      cases lib.sodium.crypto_aead_aes256gcm_decrypt
        (data.take (data.length - crypto_aead_aes256gcm_NPUBBYTES))
        (data.drop (data.length - crypto_aead_aes256gcm_NPUBBYTES)) session.sodium._key <;> simp

theorem plpl_takesOff (haccess : session.Access) (buffer : Bytes) :
    TakesOff (session.plpl.decrypt lib.cryptopp session.terminal buffer)
      (plplOpen lib session) where
  inBounds data := by
    rw [CryptoPlPl.decrypt_eq haccess.plpl, inBounds_bind, inBounds_isEncrypted]
    refine ⟨And.left, fun h => ⟨h, fun encrypted _ => ?_⟩⟩
    cases encrypted with
    | true =>
        simp only [if_true]
        split
        · exact inBounds_error.mpr rfl
        · exact inBounds_ok _
    | false => exact inBounds_ok _
  plain data hlong plain := by
    rw [CryptoPlPl.decrypt_eq haccess.plpl, isEncrypted_of_longEnough hlong, Outcome.ok_bind,
      takeOff, plplOpen]
    by_cases hplain : data = [] ∨ HeaderAccepted data
    · simp [hplain]
    · simp only [hplain, not_false_eq_true, decide_true, if_true, if_false]
      cases lib.cryptopp.cbcDecryption (data.take (data.length - AES_BLOCKSIZE))
        (data.drop (data.length - AES_BLOCKSIZE)) session.plpl._key <;> simp [Except.toOption]

/-- A layer in front of further steps. -/
theorem TakesOff.inBounds_bind {decrypt : Bytes → Call (Bytes × Bytes)}
    {opens : Bytes → Option Bytes} (h : TakesOff decrypt opens) {α : Type}
    {next : Bytes × Bytes → Call α} {layers : List (Bytes → Option Bytes)}
    (hnext : ∀ buffer data, InBounds (next (buffer, data)) ↔ LayersInBounds layers data)
    (data : Bytes) : InBounds (decrypt data >>= next) ↔ LayersInBounds (opens :: layers) data := by
  rw [ClientServer.inBounds_bind, h.inBounds, LayersInBounds]
  refine and_congr_right fun hlong => ?_
  constructor
  · intro hall plain hplain
    obtain ⟨buffer, hdecrypt⟩ := (h.plain data hlong plain).mpr hplain
    exact (hnext buffer plain).mp (hall _ hdecrypt)
  · rintro hall ⟨buffer, plain⟩ hdecrypt
    exact (hnext buffer plain).mpr (hall plain ((h.plain data hlong plain).mp ⟨buffer, hdecrypt⟩))

/-! ## The whole path -/

/-- The steps behind the layers: the header is read, the data is uncompressed. -/
def finishDecryption (lib : Libraries) (what : String) (buffer : Bytes) (header : HEADER)
    (data : Bytes) : Call (Bytes × HEADER × Bytes) := do
  let (ok, header) ← deserialize header data
  if !ok then
    throw (.runtimeError what)
  let (buffer, data) ← uncompress lib buffer header (data.drop HEADER_SIZE)
  return (buffer, header, data)

theorem doubleDecryptDecompress_eq (buffer : Bytes) (header : HEADER) (data : Bytes) :
    doubleDecryptDecompress lib session.party buffer header data =
      session.plpl.decrypt lib.cryptopp session.terminal [] data >>= fun result =>
      session.sodium.decrypt lib.sodium session.terminal result.2 >>= fun result =>
      finishDecryption lib "doubleDecrypt failure." result.1 header result.2 := by
  simp only [doubleDecryptDecompress, doubleDecrypt, End.party, finishDecryption]
  cases session.plpl.decrypt lib.cryptopp session.terminal [] data with
  | error fault => rfl
  | ok outer =>
      simp only [Outcome.ok_bind]
      cases session.sodium.decrypt lib.sodium session.terminal outer.2 with
      | error fault => rfl
      | ok inner =>
          simp only [Outcome.ok_bind]
          cases deserialize header inner.2 with
          | error fault => rfl
          | ok result =>
              obtain ⟨ok, header⟩ := result
              cases ok <;> rfl

theorem singleDecryptDecompress_eq (crypto : CRYPTO) (buffer : Bytes) (header : HEADER)
    (data : Bytes) :
    singleDecryptDecompress lib session.party crypto buffer header data =
      singleDecryptSwitch lib session.party crypto buffer data >>= fun result =>
      finishDecryption lib "deserialize failed" result.1 header result.2 := by
  simp only [singleDecryptDecompress, singleDecrypt, finishDecryption]
  cases singleDecryptSwitch lib session.party crypto buffer data with
  | error fault => rfl
  | ok plain =>
      simp only [Outcome.ok_bind]
      cases deserialize header plain.2 with
      | error fault => rfl
      | ok result =>
          obtain ⟨ok, header⟩ := result
          cases ok <;> rfl

theorem inBounds_finishDecryption (what : String) (buffer : Bytes) (header : HEADER)
    (data : Bytes) :
    InBounds (finishDecryption lib what buffer header data) ↔ LayersInBounds [] data := by
  rw [finishDecryption, inBounds_bind, inBounds_deserialize, LayersInBounds]
  refine ⟨And.left, fun h => ⟨h, ?_⟩⟩
  rintro ⟨ok, header⟩ -
  cases ok with
  | true => exact inBounds_bind.mpr ⟨inBounds_uncompress lib buffer header _, fun _ _ => inBounds_ok _⟩
  | false => exact inBounds_error.mpr rfl

theorem inBounds_decryptRequest (haccess : session.Access) (options : DecryptionOptions)
    (buffer : Bytes) (header : HEADER) (request : Bytes) :
    InBounds (Session.decryptRequest lib session options buffer header request) ↔
      LayersInBounds (decryptionLayers lib session options) request := by
  have hfinish : ∀ what (buffer data : Bytes),
      InBounds (finishDecryption lib what buffer header data) ↔ LayersInBounds [] data :=
    fun what buffer data => inBounds_finishDecryption what buffer header data
  unfold Session.decryptRequest decryptionLayers
  cases options._doubleEncryption with
  | true =>
      simp only [if_true, doubleDecryptDecompress_eq]
      refine (plpl_takesOff haccess []).inBounds_bind (fun buffer data => ?_) request
      exact (sodium_takesOff haccess).inBounds_bind (hfinish _) data
  | false =>
      simp only [Bool.false_eq_true, if_false, singleDecryptDecompress_eq]
      cases options._singleEncryptor with
      | CRYPTOSODIUM => exact (sodium_takesOff haccess).inBounds_bind (hfinish _) request
      | CRYPTOPP => exact (plpl_takesOff haccess buffer).inBounds_bind (hfinish _) request
      | NONE => exact hfinish _ buffer request
      | ERROR => exact hfinish _ buffer request

/-- What the outer header leaves of a request of a TCP session. -/
def tcpPayload (request : Bytes) : Bytes :=
  if HeaderAccepted request then request.drop HEADER_SIZE else request

/-- What `processMessage` assigns of a message to a FIFO session. -/
def fifoPayload (message : Bytes) : Bytes :=
  (message.drop HEADER_SIZE).take (sizeAt message 1)

/-- The header read first decides how a TCP session goes on. -/
def TcpInBounds (lib : Libraries) (session : End) (options : DecryptionOptions)
    (request : Bytes) : Prop :=
  HeaderReadable request ∧ (HeaderMalformed request ∨
    LayersInBounds (decryptionLayers lib session options) (tcpPayload request))

/-- A FIFO session refuses what is too short for its header or carries none. -/
def FifoInBounds (lib : Libraries) (session : End) (options : DecryptionOptions)
    (message : Bytes) : Prop :=
  HEADER_SIZE ≤ message.length → HeaderAccepted message →
    LayersInBounds (decryptionLayers lib session options) (fifoPayload message)

theorem inBounds_readRequest (haccess : session.Access) (options : DecryptionOptions)
    (buffer : Bytes) (header : HEADER) (request : Bytes) :
    InBounds (TcpSession.readRequest lib session options buffer header (request ++ ENDOFMESSAGE)
      (request.length + ENDOFMESSAGESZ)) ↔ TcpInBounds lib session options request := by
  have hstrip : resize (request ++ ENDOFMESSAGE)
      (request.length + ENDOFMESSAGESZ - ENDOFMESSAGESZ) = request := by
    rw [Nat.add_sub_cancel, resize, List.take_left, List.length_append,
      Nat.sub_eq_zero_of_le (Nat.le_add_right ..), List.replicate_zero, List.append_nil]
  have hsuffix : ENDOFMESSAGE.isSuffixOf (request ++ ENDOFMESSAGE) = true :=
    List.isSuffixOf_iff_suffix.mpr (List.suffix_append ..)
  simp only [TcpSession.readRequest, hsuffix, if_true, hstrip]
  rw [inBounds_bind, inBounds_deserialize, TcpInBounds]
  refine and_congr_right fun hreadable => ?_
  cases hread : deserialize header request with
  | error fault =>
      rcases deserialize_error header request hread with rfl | rfl
      · exact absurd hreadable ((deserialize_outOfBounds_iff header request).mp hread)
      · have hmalformed := ((deserialize_conversionFailed_iff header request).mp hread).2
        exact ⟨fun _ => .inl hmalformed, fun _ result h => by cases h⟩
  | ok result =>
      obtain ⟨accepted, filled⟩ := result
      have hnot : ¬ HeaderMalformed request := by
        intro hmalformed
        have := (deserialize_conversionFailed_iff header request).mpr ⟨hreadable, hmalformed⟩
        rw [hread] at this
        simp at this
      have hpayload : (if accepted = true then request.drop HEADER_SIZE else request) =
          tcpPayload request := if_congr (deserialize_ok hread) rfl rfl
      rw [or_iff_right hnot]
      constructor
      · intro h
        have := h (accepted, filled) rfl
        simp only [hpayload] at this
        exact (inBounds_decryptRequest haccess options buffer filled _).mp this
      · rintro h result heq
        obtain rfl := Except.ok.inj heq
        simp only [hpayload]
        exact (inBounds_decryptRequest haccess options buffer filled _).mpr h

/-- The one string of a FIFO session begins right behind the header. -/
theorem fieldsIn_single (message : Bytes) : FieldsIn message 1 :=
  ⟨fun _ => Nat.zero_le _, trivial⟩

theorem fieldsAt_single (message : Bytes) : fieldsAt message [[]] = [fifoPayload message] := by
  show [if 0 < sizeAt message 1 then _ else _] = _
  rw [fifoPayload]
  split
  next => rfl
  next hzero =>
    rw [Nat.eq_zero_of_not_pos hzero]
    rfl

theorem inBounds_receiveRequest (haccess : session.Access) (options : DecryptionOptions)
    (buffer : Bytes) (header : HEADER) (message : Bytes) :
    InBounds (FifoSession.receiveRequest lib session options buffer header message) ↔
      FifoInBounds lib session options message := by
  unfold FifoSession.receiveRequest FifoInBounds
  rw [processMessage_eq message default (show [[]].length ≤ 4 by decide)]
  split
  · next hshort =>
      exact ⟨fun _ hlong => absurd hshort (Nat.not_lt.mpr hlong), fun _ => inBounds_ok _⟩
  next hlong =>
  have hreadable : HeaderReadable message :=
    headerReadable_of_length (by rw [HEADER_SIZE_eq] at hlong; omega)
  have hreading := deserialize_reading default message
  generalize deserialize default message = result at hreading
  cases hreading with
  | unreadable hnot => exact absurd hreadable hnot
  | malformed _ hmalformed =>
      exact ⟨fun _ _ haccepted => absurd hmalformed haccepted.not_malformed,
        fun _ => inBounds_error.mpr rfl⟩
  | rejected _ _ _ hrefused =>
      exact ⟨fun _ _ haccepted => absurd haccepted hrefused, fun _ => inBounds_ok _⟩
  | accepted haccepted =>
      have hfields : FieldsIn message [([] : Bytes)].length := fieldsIn_single message
      simp only [Outcome.ok_bind, if_true, if_pos hfields, fieldsAt_single, Bool.not_true,
        Bool.false_eq_true, if_false, List.headD_cons]
      rw [inBounds_bind]
      have hlayers : InBounds (Session.decryptRequest lib session options buffer header
          (fifoPayload message)) ↔ _ :=
        inBounds_decryptRequest haccess options buffer header (fifoPayload message)
      exact ⟨fun h _ _ => hlayers.mp h.1,
        fun h => ⟨hlayers.mpr (h (Nat.not_lt.mp hlong) haccepted), fun _ _ => inBounds_ok _⟩⟩

/-- A session stays in bounds on a request exactly when every reader on its
path does: a TCP session from the outer header on, a FIFO session from the first
layer on. -/
theorem receive_inBounds_iff (haccess : session.Access) (options : DecryptionOptions)
    (buffer : Bytes) (header : HEADER) (request : Bytes) :
    (InBounds (TcpSession.readRequest lib session options buffer header
      (request ++ ENDOFMESSAGE) (request.length + ENDOFMESSAGESZ)) ↔
        TcpInBounds lib session options request) ∧
    (InBounds (FifoSession.receiveRequest lib session options buffer header request) ↔
      FifoInBounds lib session options request) :=
  ⟨inBounds_readRequest haccess options buffer header request,
    inBounds_receiveRequest haccess options buffer header request⟩

/-- What a client sends under double encryption. -/
def ShortRequest.message : Bytes :=
  serialize { header with field1Size := (cbcOfGcm ++ drawn.iv.val).length } ++
    (cbcOfGcm ++ drawn.iv.val)

open ShortRequest in
theorem receive_inBounds_shortRequest :
    ((InBounds (TcpSession.readRequest libraries server ⟨true, .CRYPTOSODIUM⟩ [] default
      (bytes "x" ++ ENDOFMESSAGE) ((bytes "x").length + ENDOFMESSAGESZ)) ↔
        TcpInBounds libraries server ⟨true, .CRYPTOSODIUM⟩ (bytes "x")) ∧
    (InBounds (FifoSession.receiveRequest libraries server ⟨true, .CRYPTOSODIUM⟩ [] default
      (bytes "x")) ↔
      FifoInBounds libraries server ⟨true, .CRYPTOSODIUM⟩ (bytes "x"))) ∧
    TcpInBounds libraries server ⟨true, .CRYPTOSODIUM⟩ message ∧
    FifoInBounds libraries server ⟨true, .CRYPTOSODIUM⟩ message := by
  have htcp : (TcpSession.readRequest libraries server ⟨true, .CRYPTOSODIUM⟩ [] default
      (message ++ ENDOFMESSAGE) (message.length + ENDOFMESSAGESZ)).map Prod.snd =
        .ok (header, data) := by
    decide +kernel
  have hfifo : (FifoSession.receiveRequest libraries server ⟨true, .CRYPTOSODIUM⟩ [] default
      message).map (Option.map Prod.snd) = .ok (some (header, data)) := by
    decide +kernel
  obtain ⟨result, htcp, -⟩ := Outcome.map_eq_ok.mp htcp
  obtain ⟨result', hfifo, -⟩ := Outcome.map_eq_ok.mp hfifo
  have hiff := @receive_inBounds_iff libraries server peers.receiverAccess ⟨true, .CRYPTOSODIUM⟩ []
    default message
  rw [htcp, hfifo] at hiff
  exact ⟨receive_inBounds_iff peers.receiverAccess ⟨true, .CRYPTOSODIUM⟩ [] default (bytes "x"),
    hiff.1.mp (inBounds_ok _), hiff.2.mp (inBounds_ok _)⟩

/-- One byte fails the assertion of the first layer, two that begin like a
header are read past their end, and one byte behind a header fails the
assertion on the other transport. -/
theorem receive_leavesBounds :
    (¬ InBounds (TcpSession.readRequest ShortRequest.libraries ShortRequest.server
      ⟨true, .CRYPTOSODIUM⟩ [] default (bytes "x" ++ ENDOFMESSAGE)
      ((bytes "x").length + ENDOFMESSAGESZ))) ∧
    (¬ InBounds (TcpSession.readRequest ShortRequest.libraries ShortRequest.server
      ⟨true, .CRYPTOSODIUM⟩ [] default (bytes "B0" ++ ENDOFMESSAGE)
      ((bytes "B0").length + ENDOFMESSAGESZ))) ∧
    ¬ InBounds (FifoSession.receiveRequest ShortRequest.libraries ShortRequest.server
      ⟨true, .CRYPTOSODIUM⟩ [] default
      (serialize { ShortRequest.header with field1Size := 1 } ++ bytes "x")) := by
  have h1 : TcpSession.readRequest ShortRequest.libraries ShortRequest.server
      ⟨true, .CRYPTOSODIUM⟩ [] default (bytes "x" ++ ENDOFMESSAGE)
      ((bytes "x").length + ENDOFMESSAGESZ) =
      .error (.assertion "input.size() >= HEADER_SIZE") := by
    decide +kernel
  have h2 : TcpSession.readRequest ShortRequest.libraries ShortRequest.server
      ⟨true, .CRYPTOSODIUM⟩ [] default (bytes "B0" ++ ENDOFMESSAGE)
      ((bytes "B0").length + ENDOFMESSAGESZ) = .error .outOfBounds := by
    decide +kernel
  have h3 : FifoSession.receiveRequest ShortRequest.libraries ShortRequest.server
      ⟨true, .CRYPTOSODIUM⟩ [] default
      (serialize { ShortRequest.header with field1Size := 1 } ++ bytes "x") =
      .error (.assertion "input.size() >= HEADER_SIZE") := by
    decide +kernel
  refine ⟨?_, ?_, ?_⟩
  · rw [h1, inBounds_error]
    exact Bool.noConfusion
  · rw [h2, inBounds_error]
    exact Bool.noConfusion
  · rw [h3, inBounds_error]
    exact Bool.noConfusion

end ClientServer
