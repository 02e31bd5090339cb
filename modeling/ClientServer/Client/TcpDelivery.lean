import ClientServer.Client.Delivery
import ClientServer.Client.TcpConversation

/-!
# Over TCP

What a session reads up to the terminator is a message of the client, and what it
makes of that is the text.
-/

namespace ClientServer.Deployment

open cryptooperations

def conversation (d : Deployment) : Conversation.Setup := ⟨d.clientSetup, d.sessionSetup⟩

variable {d : Deployment} {engine : HEADER → Bytes → Bytes → Prop}

theorem resize_append (front rest : Bytes) : resize (front ++ rest) front.length = front := by
  rw [resize, List.take_left, List.length_append, Nat.sub_eq_zero_of_le (Nat.le_add_right ..),
    List.replicate_zero, List.append_nil]

/-- What a session makes of a message that is whole. -/
theorem readRequest_append (lib : Libraries) (session : End) (options : DecryptionOptions)
    {header : HEADER} (hvalid : header.Valid) (hfit : header.SizesFit) (buffer data : Bytes)
    (target : HEADER) :
    ∃ target', TcpSession.readRequest lib session options buffer target
        (serialize header ++ data ++ ENDOFMESSAGE)
        ((serialize header ++ data).length + ENDOFMESSAGESZ) =
      Session.decryptRequest lib session options buffer target' data := by
  have hsuffix : ENDOFMESSAGE.isSuffixOf (serialize header ++ data ++ ENDOFMESSAGE) = true :=
    List.isSuffixOf_iff_suffix.mpr (List.suffix_append ..)
  refine ⟨{ header with field4Size := header.field3Size }, ?_⟩
  simp only [TcpSession.readRequest, hsuffix, if_true, Nat.add_sub_cancel, resize_append,
    deserialize_serialize hvalid hfit target data, Outcome.ok_bind]
  rw [← length_serialize header, List.drop_left]

/-- A subtask is answered as its text. -/
theorem Sound.replied (h : d.Sound) {subtask : Subtask} {text : Bytes}
    (hmade : d.Made subtask text) (hclean : ¬ ENDOFMESSAGE <:+: Subtask.message subtask)
    (hrefused : d.up.Refused subtask._data) {reply : HEADER × Bytes}
    (hanswers : TcpSession.Answers d.sessionSetup engine
      (Subtask.message subtask ++ ENDOFMESSAGE) reply) : d.Replied engine text reply := by
  obtain ⟨response, drawn, work, hresponds, hreply⟩ := hanswers
  obtain ⟨pos, _buffer, _header, _buffer', header', request, hfind, hread, hengine⟩ := hresponds
  rw [ENDOFMESSAGE_unbordered.find_append hclean] at hfind
  obtain rfl := Option.some.inj hfind
  obtain ⟨target, hrequest⟩ := readRequest_append d.lib d.server
    d.serverOptions.toDecryptionOptions hmade.1.valid hmade.1.sizesFit _buffer subtask._data _header
  exact ⟨response, drawn, work, h.received hmade hrefused (hrequest.symm.trans hread) hengine,
    hreply⟩

/-- What the client prints are the responses to the texts of its subtasks, one for
each and in their order, whatever fails and however the bytes come in pieces. -/
theorem conversation_responses (h : d.Sound)
    (hresponses : ∀ {header request response}, engine header request response → d.Returns response)
    {_header : HEADER} {started : Bool} {_status : STATUS}
    (hstatus : Session.Calculated _status) {s : Conversation.State}
    (hs : Conversation.Reached d.conversation engine _header started _status s)
    (hsubtasks : ∀ subtask ∈ s.client.sent, d.up.Refused subtask._data)
    (hreplies : ∀ reply ∈ s.session.replies, Fits reply.2 ∧ d.down.Refused reply.2)
    {texts : List Bytes} (hmade : List.Forall₂ d.Made s.client.sent texts) :
    List.Forall₂ (d.Responded engine) (texts.take s.client.printed.length) s.client.printed ∧
      s.client.dataStream = s.client.printed.flatten := by
  have hinv := hs.inv hstatus
  refine ⟨h.responses hresponses hinv.answers hinv.prints hreplies hmade ?_, hinv.client.dataStream⟩
  intro subtask hsent text reply hmade hanswers
  exact h.replied hmade (hs.clean _ hsent) (hsubtasks _ hsent) hanswers

open OneReply in
theorem conversation_responses_oneExchange :
    ∃ s : Conversation.State, s.client.printed = [reply] ∧
      List.Forall₂ (deployment.Responded oneReply) ([text].take s.client.printed.length)
        s.client.printed ∧ s.client.dataStream = s.client.printed.flatten := by
  obtain ⟨s, hs, hrun⟩ := Conversation.OneExchange.exists_run
  have hsent : s.client.sent = [subtask] := congrArg Prod.fst hrun
  refine ⟨s, congrArg (fun run => run.2.1) hrun,
    conversation_responses sound returns_reply (.inl rfl) hs (fun _ _ => refused rfl _)
      (fits_replies (congrArg (fun run => run.2.2) hrun)) ?_⟩
  rw [hsent]
  exact .cons made .nil

end ClientServer.Deployment
