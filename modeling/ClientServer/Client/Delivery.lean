import ClientServer.Client.PrintReply
import ClientServer.Client.TaskPhases
import ClientServer.Library.Dialogue
import ClientServer.Server.BuildReply
import ClientServer.Server.Channel

/-!
# What is sent is what arrives

A client and a server that share their libraries and their options of decryption:
the channel up and the channel down.  Where both are sound and the transport relays
subtasks and replies in their order, what the client prints are the responses to the
texts of its subtasks, in their order.
-/

namespace ClientServer

open cryptooperations

def ClientOptions.decryption (options : ClientOptions) : DecryptionOptions where
  _doubleEncryption := options._doubleEncryption
  _singleEncryptor := options._singleEncryptor

/-- A client and a server with the same options of decryption. -/
structure Deployment where
  lib : Libraries
  client : End
  server : End
  clientOptions : ClientOptions
  serverOptions : SessionOptions
  agree : serverOptions.toDecryptionOptions = clientOptions.decryption

namespace Deployment

variable (d : Deployment)

def builder : ClientSetup where
  options := d.clientOptions
  lib := d.lib
  party := d.client.party

def clientSetup : Client.Setup := ⟨d.clientOptions.decryption, d.lib, d.client⟩

def sessionSetup : SessionSetup := ⟨d.serverOptions, d.lib, d.server⟩

def up : Channel where
  lib := d.lib
  sender := d.client
  receiver := d.server
  options := d.clientOptions.decryption
  _doEncrypt := d.clientOptions._doEncrypt
  _compressionLevel := 3

def down : Channel where
  lib := d.lib
  sender := d.server
  receiver := d.client
  options := d.clientOptions.decryption
  _doEncrypt := d.serverOptions._doEncrypt
  _compressionLevel := d.serverOptions._compressionLevel

/-- Both channels are sound. -/
structure Sound : Prop where
  up : d.up.Sound d.clientOptions._compressor
  down : d.down.Sound d.serverOptions._compressor
  compressor : CharEnum.Valid d.serverOptions._compressor

/-- The client made the subtask of the text. -/
def Made (subtask : Subtask) (text : Bytes) : Prop :=
  subtask._header.OfPayload ∧ subtask._header.field1Size = subtask._data.length ∧
  SizeKept d.clientOptions._compressor text ∧
  ∃ drawn work header, d.up.encrypt drawn work header text = .ok subtask._data ∧
    header.OfPayload ∧ header.compressor = d.clientOptions._compressor ∧
    header.diagnostics = d.clientOptions._diagnostics

/-- The engine has this response to a text of the client. -/
def Responded (engine : HEADER → Bytes → Bytes → Prop) (text response : Bytes) : Prop :=
  ∃ header : HEADER, header.diagnostics = d.clientOptions._diagnostics ∧
    engine header text response

/-- What a `std::string` in a message may hold. -/
def Fits (data : Bytes) : Prop := data.length < 10 ^ FIELD1_SIZE

/-- A response has a size that a message can tell and, where LZ4 is to compress it, one
that LZ4 is told. -/
structure Returns (response : Bytes) : Prop where
  fits : Fits response
  counted : SizeKept d.serverOptions._compressor response

variable {d} {engine : HEADER → Bytes → Bytes → Prop}

theorem builder_encrypted (drawn : Drawn) (work : SenderBuffers) (header : HEADER) (text : Bytes) :
    TaskBuilder.State.encrypted d.builder drawn work header text =
      d.up.encrypt drawn work header text := rfl

theorem session_encrypted (drawn : Drawn) (work : SenderBuffers) (header : HEADER)
    (response : Bytes) : Session.encrypted d.sessionSetup drawn work header response =
      d.down.encrypt drawn work header response := by
  have hdouble : d.serverOptions._doubleEncryption = d.clientOptions._doubleEncryption :=
    congrArg DecryptionOptions._doubleEncryption d.agree
  have hsingle : d.serverOptions._singleEncryptor = d.clientOptions._singleEncryptor :=
    congrArg DecryptionOptions._singleEncryptor d.agree
  unfold Session.encrypted
  show (if d.serverOptions._doubleEncryption then _ else _) = _
  rw [hdouble, show d.sessionSetup.options._singleEncryptor =
    d.clientOptions._singleEncryptor from hsingle]
  rfl

theorem up_decrypt (buffer : Bytes) (header : HEADER) (data : Bytes) :
    Session.decryptRequest d.lib d.server d.serverOptions.toDecryptionOptions buffer header data =
      d.up.decrypt buffer header data := by
  rw [d.agree]
  rfl

/-! ## Up -/

/-- What a session decrypts of a subtask is its text. -/
theorem Sound.received (h : d.Sound) {subtask : Subtask} {text : Bytes}
    (hmade : d.Made subtask text) (hrefused : d.up.Refused subtask._data)
    {_buffer _buffer' request : Bytes} {_header header : HEADER}
    (hdecrypted : Session.decryptRequest d.lib d.server d.serverOptions.toDecryptionOptions _buffer
      _header subtask._data = .ok (_buffer', header, request)) {response : Bytes}
    (hengine : engine header request response) : d.Responded engine text response := by
  obtain ⟨-, -, hcounted, drawn, work, header', hencrypt, hheader, hcompressor, hdiagnostics⟩ :=
    hmade
  obtain ⟨buffer, hdecrypt⟩ := h.up.decrypts hheader hcompressor hcounted hencrypt hrefused
    _buffer _header
  have heq := (up_decrypt _buffer _header subtask._data).symm.trans hdecrypted
  rw [hdecrypt] at heq
  obtain ⟨-, rfl, rfl⟩ := by simpa using heq
  exact ⟨header', hdiagnostics, hengine⟩

/-! ## Down -/

/-- What a client makes of a message with one field. -/
theorem processMessage_single {header : HEADER} (hvalid : header.Valid) (hfit : header.SizesFit)
    {payload : Bytes} (hne : payload ≠ []) (hsize : header.field1Size = payload.length)
    (target : HEADER) (_response : Bytes) :
    processMessage (serialize header ++ payload) target [_response] =
      .ok (true, { header with field4Size := header.field3Size }, [payload]) := by
  have hlength : ¬ (serialize header ++ payload).length < HEADER_SIZE :=
    Nat.not_lt.mpr (header_size_le header payload)
  have hdrop : (serialize header ++ payload).drop HEADER_SIZE = payload := by
    rw [← length_serialize header, List.drop_left]
  have hfield : assignFields payload 0 (fieldSizes { header with field4Size := header.field3Size })
      [_response] = .ok [payload] := by
    have hcut : payload.drop 0 = payload ++ [] := by rw [List.drop_zero, List.append_nil]
    rw [fieldSizes, hsize, assignFields_cons hcut (Nat.zero_le _), if_neg hne]
    rfl
  rw [processMessage, if_neg hlength, deserialize_serialize hvalid hfit, Outcome.ok_bind, hdrop]
  simp only [Bool.not_true, Bool.false_eq_true, if_false, hfield, Outcome.ok_bind,
    Outcome.pure_eq_ok]

theorem replyHeader_ofPayload (hcompressor : CharEnum.Valid d.serverOptions._compressor)
    {size : Nat} (hsize : size < 10 ^ FIELD1_SIZE) :
    (Session.replyHeader d.serverOptions size .NONE).OfPayload where
  valid := by
    have hheaderType : CharEnum.Valid HEADERTYPE.SESSION := by decide
    have hdiagnostics : CharEnum.Valid DIAGNOSTICS.NONE := by decide
    have hstatus : CharEnum.Valid STATUS.NONE := by decide
    exact ⟨hheaderType, hcompressor, hdiagnostics, hstatus⟩
  sizesFit := by
    have hzero : 0 < 10 ^ FIELD1_SIZE := by decide
    exact ⟨hsize, hzero, hzero, hzero⟩
  field3Size := rfl
  field4Size := rfl

/-- What is printed of a reply is the response. -/
theorem Sound.printed (h : d.Sound) {response : Bytes} (hresponse : d.Returns response)
    {drawn : Drawn} {work : SenderBuffers} {reply : HEADER × Bytes} {text : Bytes}
    (hreply : Session.buildReply d.sessionSetup drawn work response .NONE = .ok reply)
    (hne : reply.2 ≠ []) (hfits : Fits reply.2) (hrefused : d.down.Refused reply.2)
    (hprints : Client.Prints d.clientSetup (Session.message reply) text) :
    text = response := by
  simp only [Session.buildReply, Outcome.bind_eq_ok, Outcome.pure_eq_ok] at hreply
  obtain ⟨encrypted, hencrypted, hreply⟩ := hreply
  obtain rfl := Except.ok.inj hreply
  rw [session_encrypted] at hencrypted
  obtain ⟨header, array, _response, _buffer, _header, _buffer', _header', hprocessed, hdecrypted,
    -⟩ := hprints
  have houter := replyHeader_ofPayload h.compressor hfits
  have hprocess := processMessage_single houter.valid houter.sizesFit hne rfl default _response
  obtain ⟨-, rfl⟩ := by simpa using hprocess.symm.trans hprocessed
  obtain ⟨buffer, hdecrypt⟩ := h.down.decrypts
    (replyHeader_ofPayload h.compressor hresponse.fits) rfl hresponse.counted hencrypted hrefused _buffer _header
  have heq := hdecrypt.symm.trans hdecrypted
  obtain ⟨-, -, rfl⟩ := by simpa using heq
  rfl

/-! ## All of them -/

/-- What is printed of the reply that was built from the response to a text. -/
def Replied (d : Deployment) (engine : HEADER → Bytes → Bytes → Prop) (text : Bytes)
    (reply : HEADER × Bytes) : Prop :=
  ∃ response drawn work, d.Responded engine text response ∧
    Session.buildReply d.sessionSetup drawn work response .NONE = .ok reply ∧ reply.2 ≠ []

theorem Sound.delivers (h : d.Sound)
    (hresponses : ∀ {header request response}, engine header request response → d.Returns response)
    {text : Bytes} {reply : HEADER × Bytes} (hreplied : d.Replied engine text reply)
    (hfits : Fits reply.2) (hrefused : d.down.Refused reply.2) {printed : Bytes}
    (hprints : Client.Prints d.clientSetup (Session.message reply) printed) :
    d.Responded engine text printed := by
  obtain ⟨response, drawn, work, ⟨header, hdiagnostics, hengine⟩, hreply, hne⟩ := hreplied
  obtain rfl := h.printed (hresponses hengine) hreply hne hfits hrefused hprints
  exact ⟨header, hdiagnostics, hengine⟩

/-- Over a transport that relays subtasks and replies. -/
theorem Sound.responses (h : d.Sound)
    (hresponses : ∀ {header request response}, engine header request response → d.Returns response)
    {sent : List Subtask} {replies : List (HEADER × Bytes)} {printed texts : List Bytes}
    {Answers : Subtask → HEADER × Bytes → Prop}
    (hanswers : List.Forall₂ Answers (sent.take replies.length) replies)
    (hprints : List.Forall₂ (fun reply text =>
      Client.Prints d.clientSetup (Session.message reply) text) (replies.take printed.length)
      printed)
    (hreplies : ∀ reply ∈ replies, Fits reply.2 ∧ d.down.Refused reply.2)
    (hmade : List.Forall₂ d.Made sent texts)
    (hreplied : ∀ subtask ∈ sent, ∀ {text reply}, d.Made subtask text → Answers subtask reply →
      d.Replied engine text reply) :
    List.Forall₂ (d.Responded engine) (texts.take printed.length) printed := by
  refine Dialogue.forall₂_meet (List.forall₂_take _ hmade)
    (Dialogue.forall₂_relay hanswers hprints) fun subtask hsent text answer hsubtask hrelayed => ?_
  obtain ⟨reply, hmem, hanswers, hprints⟩ := hrelayed
  obtain ⟨hfits, hrefused⟩ := hreplies reply hmem
  exact h.delivers hresponses (hreplied subtask (List.mem_of_mem_take hsent) hsubtask hanswers)
    hfits hrefused hprints

end Deployment

/- Nothing is compressed or encrypted. -/
namespace OneReply

open Deployment

def deployment : Deployment where
  lib := ShortRequest.libraries
  client := ShortRequest.client
  server := ShortRequest.server
  clientOptions := TaskBuilder.lineByLine.options
  serverOptions := session.options
  agree := rfl

theorem lossless_none {header : HEADER} (data : Bytes) (hcompressor : header.compressor = .NONE) :
    ∃ room, Lossless ShortRequest.libraries room header data 3 := by
  refine ⟨ShortRequest.room, ?_⟩
  rw [Lossless, hcompressor]
  trivial

theorem sound : deployment.Sound where
  up :=
    { peers := ShortRequest.peers
      encryptor := fun _ => .inl rfl
      lossless := lossless_none }
  down :=
    { peers :=
        { ShortRequest.peers with
          senderAccess := ShortRequest.peers.receiverAccess
          receiverAccess := ShortRequest.peers.senderAccess }
      encryptor := fun _ => .inl rfl
      lossless := lossless_none }
  compressor := by decide

theorem refused {channel : Channel} (h : channel._doEncrypt = false) (encrypted : Bytes) :
    channel.Refused encrypted where
  outer hdo := by simp [h] at hdo
  inner hdo := by simp [h] at hdo

theorem made : deployment.Made subtask text :=
  ⟨⟨by decide +kernel, by decide +kernel, rfl, rfl⟩, rfl, nofun, ShortRequest.drawn,
    ShortRequest.work, payloadHeader 0, rfl, ⟨by decide, by decide, rfl, rfl⟩, rfl, rfl⟩

theorem returns_reply {header : HEADER} {request response : Bytes}
    (h : oneReply header request response) : deployment.Returns response where
  fits := by
    rw [Fits, h.2]
    decide +kernel
  counted := nofun

theorem fits_replies {replies : List (HEADER × Bytes)}
    (h : replies.map Prod.snd = [serialize (payloadHeader reply.length) ++ reply]) :
    ∀ reply ∈ replies, Fits reply.2 ∧ deployment.down.Refused reply.2 := by
  intro reply hmem
  have hdata := List.mem_map_of_mem (f := Prod.snd) hmem
  rw [h, List.mem_singleton] at hdata
  refine ⟨?_, refused rfl _⟩
  rw [Fits, hdata]
  decide +kernel

end OneReply

end ClientServer
