import ClientServer.Common.Transport

/-!
# Framing

The bytes of a message and its terminator arrive in pieces, and a piece may end
anywhere, in the terminator too.  The readers of a pipe look at what they have
between two pieces; the reader of a socket searches it.  The terminator has no
border, so behind a message it does not stand in neither can see it too early.
-/

namespace ClientServer

/-- The pieces in which a message and its terminator arrive. -/
structure Cut (message : Bytes) (chunks : List Bytes) : Prop where
  clean : ¬ ENDOFMESSAGE <:+: message
  flatten : chunks.flatten = message ++ ENDOFMESSAGE
  nonempty : ∀ chunk ∈ chunks, chunk ≠ []

/-! ## Reading a pipe without blocking -/

namespace Fifo

/-- What one `read` of a pipe opened with `O_NONBLOCK` returns: -1 with
`EAGAIN`, which a `poll` follows, -1 with any other error, or the bytes it put
into the buffer, none at the end of the file. -/
inductive ReadNonBlockResult where
  | again (poll : PollResult)
  | error
  | transferred (chunk : Bytes)

/-- The loop of `readStringNonBlock`; `none` where it still reads. -/
def readNonBlockLoop : (payload : Bytes) → List ReadNonBlockResult → Option (Call (Bool × Bytes))
  | _, [] => none
  | payload, .again poll :: results =>
      match pollFd poll POLLIN with
      | .error fault => some (.error fault)
      | .ok ret =>
          if ret ≠ POLLIN then some (.ok (false, payload)) else readNonBlockLoop payload results
  | _, .error :: _ => some (.error .errnoString)
  | payload, .transferred chunk :: results =>
      -- at the end of the file it reads again
      if chunk = [] then readNonBlockLoop payload results
      else
        let payload := payload ++ chunk
        if ENDOFMESSAGE.isSuffixOf payload then some (.ok (true, stripEndOfMessage payload))
        else readNonBlockLoop payload results

/-- `Fifo::readStringNonBlock`; the pipe is opened or not. -/
def readStringNonBlock (opened : Bool) (results : List ReadNonBlockResult) (payload : Bytes) :
    Option (Call (Bool × Bytes)) :=
  if opened then readNonBlockLoop payload results else some (.ok (false, payload))

/-- The reader goes on: a poll says that there is something to read, or there was. -/
def ReadNonBlockResult.Proceeds : ReadNonBlockResult → Prop
  | .again poll => poll.Ready POLLIN
  | .error => False
  | .transferred chunk => chunk ≠ []

def ReadNonBlockResult.chunk? : ReadNonBlockResult → Option Bytes
  | .again _ => none
  | .error => none
  | .transferred chunk => some chunk

/-- The chunks among the results. -/
def arrived (results : List ReadNonBlockResult) : List Bytes := results.filterMap (·.chunk?)

/-- Results past the one at which it returned play no part. -/
theorem readNonBlockLoop_append {payload : Bytes} {results : List ReadNonBlockResult}
    {ends : Call (Bool × Bytes)} (h : readNonBlockLoop payload results = some ends)
    (more : List ReadNonBlockResult) :
    readNonBlockLoop payload (results ++ more) = some ends := by
  induction results generalizing payload with
  | nil => cases h
  | cons result results ih =>
      rw [List.cons_append]
      cases result with
      | error => exact h
      | again poll =>
          rw [readNonBlockLoop] at h ⊢
          cases hpoll : pollFd poll POLLIN with
          | error fault => simpa only [hpoll] using h
          | ok ret =>
              simp only [hpoll] at h ⊢
              split at h
              · next hret => rw [if_pos hret, h]
              · next hret => rw [if_neg hret, ih h]
      | transferred chunk =>
          rw [readNonBlockLoop] at h ⊢
          split at h
          · next hnil => rw [if_pos hnil, ih h]
          · next hnil =>
              rw [if_neg hnil]
              dsimp only at h ⊢
              split at h
              · next hends => rw [if_pos hends, h]
              · next hends => rw [if_neg hends, ih h]

/-- As long as it goes on, the loop gathers chunks until the terminator is at
the end. -/
theorem readNonBlockLoop_eq {payload : Bytes} (h : ENDOFMESSAGE.isSuffixOf payload = false)
    {results : List ReadNonBlockResult} (hproceeds : ∀ result ∈ results, result.Proceeds) :
    readNonBlockLoop payload results =
      (Gather.gather ENDOFMESSAGE.isSuffixOf payload (arrived results)).map
        fun buffer => .ok (true, stripEndOfMessage buffer) := by
  induction results generalizing payload with
  | nil => simp [readNonBlockLoop, arrived, Gather.gather, h]
  | cons result results ih =>
      obtain ⟨hresult, hresults⟩ := List.forall_mem_cons.mp hproceeds
      cases result with
      | error => exact hresult.elim
      | again poll =>
          rw [readNonBlockLoop, PollResult.pollFd_of_ready hresult]
          simpa [arrived, ReadNonBlockResult.chunk?] using ih h hresults
      | transferred chunk =>
          have harrived : arrived (.transferred chunk :: results) = chunk :: arrived results := rfl
          rw [readNonBlockLoop, if_neg hresult, harrived, Gather.gather, h]
          dsimp only
          cases hends : ENDOFMESSAGE.isSuffixOf (payload ++ chunk) with
          | true => cases arrived results <;> simp [Gather.gather, hends]
          | false => simpa using ih hends hresults

end Fifo

/-! ## What stands at a cut -/

namespace Cut

variable {message : Bytes} {chunks front : List Bytes}

/-- The terminator ends no part of the stream but the whole. -/
theorem eq_of_suffix (h : Cut message chunks) {buffer : Bytes}
    (hstart : buffer <+: message ++ ENDOFMESSAGE) (hsuffix : ENDOFMESSAGE <:+ buffer) :
    buffer = message ++ ENDOFMESSAGE :=
  ENDOFMESSAGE_unbordered.eq_of_prefix h.clean hstart hsuffix

/-- Nor does it stand in one. -/
theorem eq_of_infix (h : Cut message chunks) {buffer : Bytes}
    (hstart : buffer <+: message ++ ENDOFMESSAGE) (hwithin : ENDOFMESSAGE <:+: buffer) :
    buffer = message ++ ENDOFMESSAGE :=
  ENDOFMESSAGE_unbordered.eq_of_infix h.clean hstart hwithin

/-- Every piece brings something. -/
theorem length_flatten_lt {rest : List Bytes} (h : Cut message chunks)
    (hchunks : front ++ rest = chunks) (hrest : rest ≠ []) :
    front.flatten.length < (message ++ ENDOFMESSAGE).length := by
  cases rest with
  | nil => exact absurd rfl hrest
  | cons chunk rest =>
      have hpos := List.length_pos_iff.mpr (h.nonempty chunk (by simp [← hchunks]))
      rw [← h.flatten, ← hchunks, List.flatten_append, List.flatten_cons, List.length_append,
        List.length_append]
      omega

/-- Between two pieces the stream is not whole yet. -/
theorem not_stops {rest : List Bytes} (h : Cut message chunks) {stops : Bytes → Prop}
    (hwhole : ∀ buffer, buffer <+: message ++ ENDOFMESSAGE → stops buffer →
      buffer = message ++ ENDOFMESSAGE) (hchunks : front ++ rest = chunks) (hrest : rest ≠ []) :
    ¬ stops front.flatten := by
  intro hstops
  have hstart : front.flatten <+: message ++ ENDOFMESSAGE := by
    rw [← h.flatten, ← hchunks, List.flatten_append]
    exact List.prefix_append ..
  have hlt := h.length_flatten_lt hchunks hrest
  rw [hwhole _ hstart hstops] at hlt
  exact Nat.lt_irrefl _ hlt

/-- A reader that stops at the terminator stops behind the last piece. -/
theorem framed (h : Cut message chunks) {stops : Bytes → Prop}
    (hwhole : ∀ buffer, buffer <+: message ++ ENDOFMESSAGE → stops buffer →
      buffer = message ++ ENDOFMESSAGE) (more : List Bytes) :
    Framed stops (chunks ++ more) message := by
  refine ⟨chunks.length, by simp, by rw [List.take_left, h.flatten], fun m hm => ?_⟩
  rw [List.take_append_of_le_length (Nat.le_of_lt hm)]
  refine h.not_stops hwhole (List.take_append_drop m chunks) ?_
  exact fun hnil => absurd (List.drop_eq_nil_iff.mp hnil) (Nat.not_le.mpr hm)

/-- In front of the last piece it has not stopped. -/
theorem not_framed (h : Cut message chunks) {stops : Bytes → Prop}
    (hwhole : ∀ buffer, buffer <+: message ++ ENDOFMESSAGE → stops buffer →
      buffer = message ++ ENDOFMESSAGE) (hends : ∀ payload, stops (payload ++ ENDOFMESSAGE))
    {rest : List Bytes} (hchunks : front ++ rest = chunks) (hrest : rest ≠ []) (payload : Bytes) :
    ¬ Framed stops front payload := by
  rintro ⟨n, -, hflatten, -⟩
  have hcut : front.take n ++ (front.drop n ++ rest) = chunks := by
    rw [← List.append_assoc, List.take_append_drop, hchunks]
  refine h.not_stops hwhole hcut (by simp [hrest]) ?_
  rw [hflatten]
  exact hends payload

end Cut

/-! ## The three readers -/

namespace Fifo

theorem received_append {chunks : List Bytes} (h : ∀ chunk ∈ chunks, chunk ≠ [])
    (more : List ReadResult) :
    received (chunks.map .transferred ++ more) = chunks ++ received more := by
  induction chunks with
  | nil => rfl
  | cons chunk chunks ih =>
      obtain ⟨hchunk, hchunks⟩ := List.forall_mem_cons.mp h
      rw [List.map_cons, List.cons_append, received, if_neg hchunk, ih hchunks, List.cons_append]

theorem readNonBlockLoop_of_framed {results : List ReadNonBlockResult} {payload : Bytes}
    (hproceeds : ∀ result ∈ results, result.Proceeds)
    (hframed : Framed (ENDOFMESSAGE <:+ ·) (arrived results) payload) :
    readNonBlockLoop [] results = some (.ok (true, payload)) := by
  simp only [← List.isSuffixOf_iff_suffix] at hframed
  rw [readNonBlockLoop_eq isSuffixOf_nil hproceeds,
    (gather_eq_some_iff_framed isSuffixOf_append).mpr hframed, Option.map_some,
    stripEndOfMessage_append]

theorem readNonBlockLoop_of_not_framed {results : List ReadNonBlockResult}
    (hproceeds : ∀ result ∈ results, result.Proceeds)
    (hframed : ∀ payload, ¬ Framed (ENDOFMESSAGE <:+ ·) (arrived results) payload) :
    readNonBlockLoop [] results = none := by
  simp only [← List.isSuffixOf_iff_suffix, ← gather_eq_some_iff_framed isSuffixOf_append]
    at hframed
  rw [readNonBlockLoop_eq isSuffixOf_nil hproceeds, Option.map_eq_none_iff]
  cases hbuffer : Gather.gather ENDOFMESSAGE.isSuffixOf [] (arrived results) with
  | none => rfl
  | some buffer =>
      obtain ⟨n, -, hgathers, rfl⟩ := Gather.gather_eq_some_iff.mp hbuffer
      have hsplit := endsWith_iff.mp ⟨hgathers.accepts, rfl⟩
      exact absurd (hsplit ▸ hbuffer) (hframed _)

end Fifo

section Messages

variable {message : Bytes} {chunks : List Bytes}

theorem Tcp.readMessage_of_cut (h : Cut message chunks) (header : HEADER) (array : List Bytes) :
    Tcp.readMessage chunks header array = processMessage message header array := by
  have hframed : Framed (ENDOFMESSAGE <:+: ·) (chunks ++ []) message :=
    h.framed (fun _ => h.eq_of_infix) []
  rw [List.append_nil] at hframed
  rw [Tcp.readMessage, Tcp.readString_eq_some_iff.mpr hframed]

/-- The results of the reads that bring the chunks. -/
def Fifo.transfers (chunks : List Bytes) : List ReadResult := chunks.map .transferred

theorem Fifo.readMessage_of_cut (h : Cut message chunks) (header : HEADER) (array : List Bytes) :
    Fifo.readMessage true (Fifo.transfers chunks) header array =
      processMessage message header array := by
  have hframed : Framed (ENDOFMESSAGE <:+ ·) (chunks ++ []) message :=
    h.framed (fun _ => h.eq_of_suffix) []
  have hreceived := received_append h.nonempty []
  rw [List.append_nil] at hreceived hframed
  rw [received, List.append_nil] at hreceived
  rw [← hreceived] at hframed
  rw [Fifo.readMessage, Fifo.readStringBlock, if_pos rfl, Fifo.transfers,
    Fifo.readLoop_true_iff.mpr hframed]
  rfl

end Messages

/-- However the stream of a message is cut, and whatever comes behind it, each
reader returns the message at the last piece and has returned none before. -/
theorem Cut.framing {message : Bytes} {chunks : List Bytes} (h : Cut message chunks) :
    (∀ more, Fifo.readStringBlock true (chunks.map .transferred ++ more) [] =
      .ok (true, message)) ∧
    (∀ results more, (∀ result ∈ results, result.Proceeds) → Fifo.arrived results = chunks →
      Fifo.readStringNonBlock true (results ++ more) [] = some (.ok (true, message))) ∧
    (∀ more, Tcp.readString (chunks ++ more) = some message) ∧
    ∀ front rest, front ++ rest = chunks → rest ≠ [] →
      (∀ payload, Fifo.readStringBlock true (front.map .transferred) [] ≠ .ok (true, payload)) ∧
      (∀ results, (∀ result ∈ results, result.Proceeds) → Fifo.arrived results = front →
        Fifo.readStringNonBlock true results [] = none) ∧
      Tcp.readString front = none := by
  refine ⟨fun more => ?_, fun results more hproceeds harrived => ?_, fun more => ?_,
    fun front rest hchunks hrest => ?_⟩
  · rw [Fifo.readStringBlock, if_pos rfl, Fifo.readLoop_true_iff,
      Fifo.received_append h.nonempty]
    exact h.framed (fun _ => h.eq_of_suffix) _
  · rw [Fifo.readStringNonBlock, if_pos rfl]
    refine Fifo.readNonBlockLoop_append (Fifo.readNonBlockLoop_of_framed hproceeds ?_) more
    rw [harrived, ← List.append_nil chunks]
    exact h.framed (fun _ => h.eq_of_suffix) []
  · rw [Tcp.readString_eq_some_iff]
    exact h.framed (fun _ => h.eq_of_infix) more
  · -- a proper part of the stream holds no terminator
    have hsuffix : ∀ payload, ¬ Framed (ENDOFMESSAGE <:+ ·) front payload :=
      h.not_framed (fun _ => h.eq_of_suffix) (fun _ => List.suffix_append ..) hchunks hrest
    have hwithin : ∀ payload, ¬ Framed (ENDOFMESSAGE <:+: ·) front payload :=
      h.not_framed (fun _ => h.eq_of_infix) (fun _ => (List.suffix_append ..).isInfix) hchunks hrest
    have hfront : ∀ chunk ∈ front, chunk ≠ [] := by
      intro chunk hchunk
      exact h.nonempty chunk (by rw [← hchunks]; exact List.mem_append_left rest hchunk)
    refine ⟨fun payload hread => ?_, fun results hproceeds harrived => ?_, ?_⟩
    · rw [Fifo.readStringBlock, if_pos rfl, Fifo.readLoop_true_iff] at hread
      have hreceived := Fifo.received_append hfront []
      rw [List.append_nil, Fifo.received, List.append_nil] at hreceived
      exact hsuffix payload (hreceived ▸ hread)
    · rw [Fifo.readStringNonBlock, if_pos rfl]
      refine Fifo.readNonBlockLoop_of_not_framed hproceeds ?_
      rw [harrived]
      exact hsuffix
    · rw [Option.eq_none_iff_forall_ne_some]
      exact fun payload hread => hwithin payload (Tcp.readString_eq_some_iff.mp hread)

/-- One byte and a terminator that is cut in two. -/
theorem Cut.framing_twoPieces :
    (∀ more, Fifo.readStringBlock true
      ([[7] ++ ENDOFMESSAGE.take 5, ENDOFMESSAGE.drop 5].map .transferred ++ more) [] =
        .ok (true, [7])) ∧
    (∀ results more, (∀ result ∈ results, result.Proceeds) →
      Fifo.arrived results = [[7] ++ ENDOFMESSAGE.take 5, ENDOFMESSAGE.drop 5] →
      Fifo.readStringNonBlock true (results ++ more) [] = some (.ok (true, [7]))) ∧
    (∀ more, Tcp.readString ([[7] ++ ENDOFMESSAGE.take 5, ENDOFMESSAGE.drop 5] ++ more) =
      some [7]) ∧
    ∀ front rest, front ++ rest = [[7] ++ ENDOFMESSAGE.take 5, ENDOFMESSAGE.drop 5] → rest ≠ [] →
      (∀ payload, Fifo.readStringBlock true (front.map .transferred) [] ≠ .ok (true, payload)) ∧
      (∀ results, (∀ result ∈ results, result.Proceeds) → Fifo.arrived results = front →
        Fifo.readStringNonBlock true results [] = none) ∧
      Tcp.readString front = none :=
  Cut.framing ⟨by decide +kernel, by decide +kernel, by decide +kernel⟩

end ClientServer
