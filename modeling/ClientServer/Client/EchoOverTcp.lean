import ClientServer.Client.EchoDelivery
import ClientServer.Client.TcpDelivery

/-!
# The source comes back over TCP

Whatever fails on the way, what the client has written to its data stream is at every
moment a part of the source from its beginning, cut between two lines; once every
reply is printed it is the source.
-/

namespace ClientServer.Deployment

open TaskBuilder (Offers Yields)

variable {d : Deployment}

/-- Whatever fails, the data stream of the client is the source up to the end of
some line, and all of it once there is a reply for every subtask. -/
theorem echo_overTcp (h : d.Sound) (hoptions : Configured d.clientOptions)
    {options : ServerOptions} {lines : List Bytes} (hcount : lines.length ≤ TASK_MAX_SIZE)
    (hlines : ∀ line ∈ lines, 10 ∉ line ∧ HasSizeKey options._useRegex line)
    (hcounted : SizeKept d.clientOptions._compressor (rowsText lines.zipIdx))
    {builder : TaskBuilder.State}
    (hbuilder : TaskBuilder.Reached d.builder (Yields lines) builder) {subtasks : List Subtask}
    (hoffers : Offers builder subtasks)
    (hfits : ∀ subtask ∈ subtasks, Fits subtask._data ∧ d.up.Refused subtask._data)
    {_header : HEADER} {started : Bool} {_status : STATUS}
    (hstatus : Session.Calculated _status) {s : Conversation.State}
    (hs : Conversation.Reached d.conversation (d.EchoEngine options) _header started _status s)
    (hsent : s.client.sent <+: subtasks)
    (hreplies : ∀ reply ∈ s.session.replies, Fits reply.2 ∧ d.down.Refused reply.2) :
    (∃ n, s.client.dataStream = ((lines.take n).map (· ++ bytes "\n")).flatten) ∧
      (s.client.printed.length = subtasks.length →
        s.client.dataStream = (lines.map (· ++ bytes "\n")).flatten) := by
  have hinv := hs.inv hstatus
  have hresponses {texts : List Bytes} (hmade : List.Forall₂ d.Made s.client.sent texts) :=
    conversation_responses h (fun hengine => hengine.2) hstatus hs
      (fun subtask hmem => (hfits subtask (hsent.subset hmem)).2) hreplies hmade
  have hle : s.client.printed.length ≤ s.client.sent.length := by
    have hlength := (Dialogue.forall₂_relay hinv.answers hinv.prints).length_eq
    rw [List.length_take] at hlength
    omega
  rw [hinv.client.dataStream]
  exact h.printed_source hoptions hcount hlines hcounted hbuilder hoffers hfits hsent hle
    fun hmade => (hresponses hmade).1

open OneReply TwoLines in
theorem echo_overTcp_twoLines :
    ∃ s : Conversation.State, s.client.printed = [reply] ∧
      (∃ n, s.client.dataStream =
        ((LineByLine.lines.take n).map (· ++ bytes "\n")).flatten) ∧
      (s.client.printed.length = [subtask, second].length →
        s.client.dataStream = (LineByLine.lines.map (· ++ bytes "\n")).flatten) := by
  obtain ⟨builder, hbuilder, hoffers⟩ := exists_offers
  obtain ⟨s, hs, hrun⟩ := Conversation.OneExchange.exists_run
  have hsent : s.client.sent = [subtask] := congrArg Prod.fst hrun
  have hreached := hs.mono fun _ _ => Conversation.Allowed.mono echoEngine
  have hprefix : s.client.sent <+: [subtask, second] := by
    rw [hsent]
    exact ⟨[second], rfl⟩
  exact ⟨s, congrArg (fun run => run.2.1) hrun,
    echo_overTcp (d := deployment) sound ⟨by decide, by decide⟩ (by decide) hasSizeKey
      nofun hbuilder hoffers fits_subtasks (.inl rfl) hreached hprefix
      (fits_replies (congrArg (fun run => run.2.2) hrun))⟩

end ClientServer.Deployment
