import ClientServer.Client.EchoDelivery
import ClientServer.Client.FifoConversation

/-!
# The source comes back over a pipe

What holds of the replies of a session over TCP holds over a pipe: they are the
responses to the texts of the subtasks, and the data stream of a client of an echo
server is a part of its source from the beginning.
-/

namespace ClientServer.Deployment

open TaskBuilder (Offers Yields)

def fifo (d : Deployment) ( _numberRepeatENXIO : Nat) : FifoConversation.Setup where
  client := d.clientSetup
  session := d.sessionSetup
  _numberRepeatENXIO

variable {d : Deployment} {engine : HEADER → Bytes → Bytes → Prop} { _numberRepeatENXIO : Nat}

/-- What a session makes of a message that is whole. -/
theorem receiveRequest_message (lib : Libraries) (session : End) (options : DecryptionOptions)
    {subtask : Subtask} (hvalid : subtask._header.Valid) (hfit : subtask._header.SizesFit)
    (hsize : subtask._header.field1Size = subtask._data.length) (hne : subtask._data ≠ [])
    (_buffer : Bytes) (_header : HEADER) :
    FifoSession.receiveRequest lib session options _buffer _header subtask.message =
      Session.decryptRequest lib session options _buffer _header subtask._data >>= fun result =>
        .ok (some result) := by
  rw [FifoSession.receiveRequest, Subtask.message, processMessage_single hvalid hfit hne hsize]
  rfl

/-- A subtask is answered as its text. -/
theorem Sound.repliedOverFifo (h : d.Sound) {subtask : Subtask} {text : Bytes}
    (hmade : d.Made subtask text) (hrefused : d.up.Refused subtask._data) {reply : HEADER × Bytes}
    (hanswers : FifoSession.Answers d.sessionSetup engine subtask.message reply) :
    d.Replied engine text reply := by
  obtain ⟨response, drawn, work, hresponds, hreply⟩ := hanswers
  obtain ⟨_buffer, _header, _buffer', header', request, hreceived, hengine⟩ := hresponds
  have ⟨houter, hsize, _, _, _, _, hencrypt, _⟩ := hmade
  rw [receiveRequest_message _ _ _ houter.valid houter.sizesFit hsize
    (h.up.ne_nil hencrypt hrefused), Outcome.bind_eq_ok] at hreceived
  obtain ⟨result, hdecrypted, hresult⟩ := hreceived
  obtain rfl := Option.some.inj (Except.ok.inj hresult)
  exact ⟨response, drawn, work, h.received hmade hrefused hdecrypted hengine, hreply⟩

/-- What the client prints are the responses to the texts of its subtasks, one for
each and in their order. -/
theorem fifo_responses (h : d.Sound)
    (hresponses : ∀ {header request response}, engine header request response → d.Returns response)
    {_header : HEADER} {_status : STATUS} (hstatus : Session.Calculated _status)
    {s : FifoConversation.State}
    (hs : FifoConversation.Reached (d.fifo _numberRepeatENXIO) engine _header _status s)
    (hsubtasks : ∀ subtask ∈ s.client.sent, d.up.Refused subtask._data)
    (hreplies : ∀ reply ∈ s.session.replies, Fits reply.2 ∧ d.down.Refused reply.2)
    {texts : List Bytes} (hmade : List.Forall₂ d.Made s.client.sent texts) :
    List.Forall₂ (d.Responded engine) (texts.take s.client.printed.length) s.client.printed ∧
      s.client.dataStream = s.client.printed.flatten := by
  have hinv := hs.inv hstatus
  refine ⟨h.responses hresponses hinv.answered hinv.printed hreplies hmade ?_, hinv.dataStream⟩
  intro subtask hsent text reply hmade hanswers
  exact h.repliedOverFifo hmade (hsubtasks _ hsent) hanswers

open OneReply in
theorem fifo_responses_oneExchange :
    ∃ s : FifoConversation.State, s.client.printed = [reply] ∧
      List.Forall₂ (deployment.Responded oneReply) ([text].take s.client.printed.length)
        s.client.printed ∧ s.client.dataStream = s.client.printed.flatten := by
  obtain ⟨s, hs, hrun⟩ := FifoConversation.OneExchange.exists_run
  have hsent : s.client.sent = [subtask] := congrArg Prod.fst hrun
  have hreached : FifoConversation.Reached (deployment.fifo 200) oneReply default .NONE s := hs
  refine ⟨s, congrArg (fun run => run.2.1) hrun,
    fifo_responses sound returns_reply (.inl rfl) hreached (fun _ _ => refused rfl _)
      (fits_replies (congrArg (fun run => run.2.2) hrun)) ?_⟩
  rw [hsent]
  exact .cons made .nil

/-- Wherever a side leaves, the data stream of the client is the source up to the end
of some line, and all of it once there is a reply for every subtask. -/
theorem echo_overFifo (h : d.Sound) (hoptions : Configured d.clientOptions)
    {options : ServerOptions} {lines : List Bytes} (hcount : lines.length ≤ TASK_MAX_SIZE)
    (hlines : ∀ line ∈ lines, 10 ∉ line ∧ HasSizeKey options._useRegex line)
    (hcounted : SizeKept d.clientOptions._compressor (rowsText lines.zipIdx))
    {builder : TaskBuilder.State}
    (hbuilder : TaskBuilder.Reached d.builder (Yields lines) builder) {subtasks : List Subtask}
    (hoffers : Offers builder subtasks)
    (hfits : ∀ subtask ∈ subtasks, Fits subtask._data ∧ d.up.Refused subtask._data)
    {_header : HEADER} {_status : STATUS} (hstatus : Session.Calculated _status)
    {s : FifoConversation.State}
    (hs : FifoConversation.Reached (d.fifo _numberRepeatENXIO) (d.EchoEngine options) _header
      _status s)
    (hsent : s.client.sent <+: subtasks)
    (hreplies : ∀ reply ∈ s.session.replies, Fits reply.2 ∧ d.down.Refused reply.2) :
    (∃ n, s.client.dataStream = ((lines.take n).map (· ++ bytes "\n")).flatten) ∧
      (s.client.printed.length = subtasks.length →
        s.client.dataStream = (lines.map (· ++ bytes "\n")).flatten) := by
  have hinv := hs.inv hstatus
  have hresponses {texts : List Bytes} (hmade : List.Forall₂ d.Made s.client.sent texts) :=
    fifo_responses h (fun hengine => hengine.2) hstatus hs
      (fun subtask hmem => (hfits subtask (hsent.subset hmem)).2) hreplies hmade
  have hle : s.client.printed.length ≤ s.client.sent.length := by
    have hlength := (Dialogue.forall₂_relay hinv.answered hinv.printed).length_eq
    rw [List.length_take] at hlength
    omega
  rw [hinv.dataStream]
  exact h.printed_source hoptions hcount hlines hcounted hbuilder hoffers hfits hsent hle
    fun hmade => (hresponses hmade).1

open OneReply TwoLines in
theorem echo_overFifo_twoLines :
    ∃ s : FifoConversation.State, s.client.printed = [reply] ∧
      (∃ n, s.client.dataStream =
        ((LineByLine.lines.take n).map (· ++ bytes "\n")).flatten) ∧
      (s.client.printed.length = [subtask, second].length →
        s.client.dataStream = (LineByLine.lines.map (· ++ bytes "\n")).flatten) := by
  obtain ⟨builder, hbuilder, hoffers⟩ := exists_offers
  obtain ⟨s, hs, hrun⟩ := FifoConversation.OneExchange.exists_run
  have hsent : s.client.sent = [subtask] := congrArg Prod.fst hrun
  have hreached : FifoConversation.Reached (deployment.fifo 200)
      (deployment.EchoEngine LineByLine.options) default .NONE s :=
    hs.mono fun _ _ => FifoConversation.Allowed.mono echoEngine
  have hprefix : s.client.sent <+: [subtask, second] := by
    rw [hsent]
    exact ⟨[second], rfl⟩
  exact ⟨s, congrArg (fun run => run.2.1) hrun,
    echo_overFifo (d := deployment) sound ⟨by decide, by decide⟩ (by decide) hasSizeKey
      nofun hbuilder hoffers fits_subtasks (.inl rfl) hreached hprefix
      (fits_replies (congrArg (fun run => run.2.2) hrun))⟩

end ClientServer.Deployment
