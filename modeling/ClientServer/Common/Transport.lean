import ClientServer.Common.MessageBounds
import ClientServer.Library.Gather
import ClientServer.Library.Text

/-!
# Reading one message off a socket or a pipe

`Tcp::readMessage` reads until the terminator stands anywhere in what arrived
and then wants it at the end; `Fifo::readStringBlock` reads until what arrived
ends with it.  A peer is given by the pieces in which its bytes arrive.  When
they run out the peer has closed its end.
-/

namespace ClientServer

/-- The bytes that make a whole message: some of the chunks hold the payload
and the terminator, and the reader did not stop at fewer of them. -/
def Framed (stops : Bytes → Prop) (chunks : List Bytes) (payload : Bytes) : Prop :=
  ∃ n, n ≤ chunks.length ∧ (chunks.take n).flatten = payload ++ ENDOFMESSAGE ∧
    ∀ m, m < n → ¬ stops (chunks.take m).flatten

/-- A string that ends with the terminator, and what stands before it. -/
theorem endsWith_iff {buffer payload : Bytes} :
    ENDOFMESSAGE.isSuffixOf buffer = true ∧ stripEndOfMessage buffer = payload ↔
      buffer = payload ++ ENDOFMESSAGE := by
  rw [List.isSuffixOf_iff_suffix]
  constructor
  · rintro ⟨⟨front, rfl⟩, rfl⟩
    rw [stripEndOfMessage_append]
  · rintro rfl
    exact ⟨List.suffix_append .., stripEndOfMessage_append payload⟩

/-- Framed is what a reader gathers that stops at the terminator at the latest. -/
theorem gather_eq_some_iff_framed {stops : Bytes → Bool}
    (hstops : ∀ payload, stops (payload ++ ENDOFMESSAGE) = true) {chunks : List Bytes}
    {payload : Bytes} :
    Gather.gather stops [] chunks = some (payload ++ ENDOFMESSAGE) ↔
      Framed (stops · = true) chunks payload := by
  rw [Gather.gather_eq_some_iff]
  simp only [List.nil_append]
  constructor
  · rintro ⟨n, hn, hgathers, hflatten⟩
    refine ⟨n, hn, hflatten.symm, fun m hm => ?_⟩
    simpa using hgathers.first m hm
  · rintro ⟨n, hn, hflatten, hfirst⟩
    refine ⟨n, hn, ⟨?_, fun m hm => ?_⟩, hflatten.symm⟩
    · rw [List.nil_append, hflatten]
      exact hstops payload
    · simpa using hfirst m hm

theorem ENDOFMESSAGE_ne_nil : ENDOFMESSAGE ≠ [] := by decide +kernel

/-! ## Tcp -/

namespace Tcp

/-- The terminator stands somewhere in the buffer. -/
def found (buffer : Bytes) : Bool := (Text.find ENDOFMESSAGE buffer).isSome

/-- `boost::asio::read_until` into an empty buffer; `none` where the socket
fails or is closed before the terminator has arrived. -/
def read_until (chunks : List Bytes) : Option Bytes := Gather.gather found [] chunks

/-- `Tcp::readMessage` of a string. -/
def readString (chunks : List Bytes) : Option Bytes :=
  match read_until chunks with
  | none => none
  | some payload =>
      if ENDOFMESSAGE.isSuffixOf payload then some (stripEndOfMessage payload) else none

/-- `Tcp::readMessage` of a header and the fields behind it. -/
def readMessage (chunks : List Bytes) (header : HEADER) (array : List Bytes) :
    Call (Bool × HEADER × List Bytes) :=
  match readString chunks with
  | none => .ok (false, header, array)
  | some _payload => processMessage _payload header array

theorem found_iff {buffer : Bytes} : found buffer = true ↔ ENDOFMESSAGE <:+: buffer :=
  Text.find_isSome_iff

/-- A message is read if the terminator is the last thing that arrives. -/
theorem readString_eq_some_iff {chunks : List Bytes} {payload : Bytes} :
    readString chunks = some payload ↔ Framed (ENDOFMESSAGE <:+: ·) chunks payload := by
  have hstops : ∀ payload, found (payload ++ ENDOFMESSAGE) = true := fun payload =>
    found_iff.mpr (List.suffix_append ..).isInfix
  simp only [← found_iff, ← gather_eq_some_iff_framed hstops, readString, read_until]
  cases Gather.gather found [] chunks with
  | none => simp
  | some buffer =>
      rw [Option.some.injEq, ← endsWith_iff]
      simp

end Tcp

/-! ## Fifo -/

/-! ### Waiting for a pipe -/

namespace Fifo

/-- The `short` of `poll.h`. -/
abbrev Events := BitVec 16

def POLLIN : Events := 0x001
def POLLOUT : Events := 0x004
def POLLERR : Events := 0x008
def POLLHUP : Events := 0x010
def POLLNVAL : Events := 0x020

/-- What one `poll` of one descriptor leaves. -/
structure PollResult where
  result : Int
  revents : Events

/-- `Fifo::pollFd` -/
def pollFd (poll : PollResult) (expected : Events) : Call Events :=
  if poll.result ≤ 0 ∨ poll.revents &&& POLLERR ≠ 0 ∨ poll.revents &&& POLLNVAL ≠ 0 then
    .error .errnoString
  else if poll.revents &&& expected ≠ 0 then .ok expected
  else if poll.revents &&& POLLHUP ≠ 0 then .ok POLLHUP
  else .ok (-1)

namespace PollResult

variable {poll : PollResult} {expected : Events}

/-- `poll` itself failed, or the descriptor is in error or not open. -/
def Fails (poll : PollResult) : Prop :=
  poll.result ≤ 0 ∨ poll.revents &&& POLLERR ≠ 0 ∨ poll.revents &&& POLLNVAL ≠ 0

/-- What was waited for has come. -/
def Ready (poll : PollResult) (expected : Events) : Prop :=
  ¬ poll.Fails ∧ poll.revents &&& expected ≠ 0

/-- Something else has come. -/
def Declines (poll : PollResult) (expected : Events) : Prop :=
  ¬ poll.Fails ∧ poll.revents &&& expected = 0

instance : Decidable poll.Fails := inferInstanceAs (Decidable (_ ∨ _ ∨ _))
instance : Decidable (poll.Ready expected) := inferInstanceAs (Decidable (¬ _ ∧ _))
instance : Decidable (poll.Declines expected) := inferInstanceAs (Decidable (¬ _ ∧ _))

theorem pollFd_eq : pollFd poll expected =
    if poll.Fails then .error .errnoString
    else if poll.revents &&& expected ≠ 0 then .ok expected
    else if poll.revents &&& POLLHUP ≠ 0 then .ok POLLHUP
    else .ok (-1) := rfl

theorem pollFd_of_fails (h : poll.Fails) : pollFd poll expected = .error .errnoString := by
  rw [pollFd_eq, if_pos h]

theorem pollFd_of_ready (h : poll.Ready expected) : pollFd poll expected = .ok expected := by
  rw [pollFd_eq, if_neg h.1, if_pos h.2]

theorem pollFd_of_declines (h : poll.Declines expected) (hhup : POLLHUP ≠ expected)
    (hminus : -1 ≠ expected) : ∃ ret, pollFd poll expected = .ok ret ∧ ret ≠ expected := by
  rw [pollFd_eq, if_neg h.1, if_neg (not_not.mpr h.2)]
  split
  · exact ⟨POLLHUP, rfl, hhup⟩
  · exact ⟨-1, rfl, hminus⟩

theorem cases (poll : PollResult) (expected : Events) :
    poll.Fails ∨ poll.Ready expected ∨ poll.Declines expected := by
  by_cases hfails : poll.Fails
  · exact .inl hfails
  · by_cases hready : poll.revents &&& expected = 0
    · exact .inr (.inr ⟨hfails, hready⟩)
    · exact .inr (.inl ⟨hfails, hready⟩)

end PollResult

end Fifo

/-! ### Reading a pipe -/

/-- What one `read` of a pipe returns: -1, or the bytes it put into the buffer,
none at the end of the file. -/
inductive ReadResult where
  | error
  | transferred (chunk : Bytes)

namespace Fifo

/-- The loop of `readStringBlock`; the result is the return value and the
payload.  Past the last result the file is at its end. -/
def readLoop : (payload : Bytes) → List ReadResult → Call (Bool × Bytes)
  | payload, [] => .ok (false, payload)
  | _, .error :: _ => .error .errnoString
  | payload, .transferred chunk :: results =>
      if chunk = [] then .ok (false, payload)
      else
        let payload := payload ++ chunk
        if ENDOFMESSAGE.isSuffixOf payload then .ok (true, stripEndOfMessage payload)
        else readLoop payload results

/-- `Fifo::readStringBlock`; the pipe is opened or not. -/
def readStringBlock (opened : Bool) (results : List ReadResult) (payload : Bytes) :
    Call (Bool × Bytes) :=
  if opened then readLoop payload results else .ok (false, payload)

/-- `Fifo::readMessage` of a header and the fields behind it, blocking. -/
def readMessage (opened : Bool) (results : List ReadResult) (header : HEADER)
    (array : List Bytes) : Call (Bool × HEADER × List Bytes) := do
  let (ok, _payload) ← readStringBlock opened results []
  if !ok then
    return (false, header, array)
  processMessage _payload header array

/-- The chunks in front of the first result that brings none. -/
def received : List ReadResult → List Bytes
  | [] => []
  | .error :: _ => []
  | .transferred chunk :: results => if chunk = [] then [] else chunk :: received results

/-- The first result that brings no chunk is an error. -/
def breaks : List ReadResult → Bool
  | [] => false
  | .error :: _ => true
  | .transferred chunk :: results => if chunk = [] then false else breaks results

/-- The loop gathers chunks until the terminator is at the end, and otherwise
ends as the pipe does. -/
theorem readLoop_eq {payload : Bytes} (h : ENDOFMESSAGE.isSuffixOf payload = false)
    (results : List ReadResult) :
    readLoop payload results =
      match Gather.gather ENDOFMESSAGE.isSuffixOf payload (received results) with
      | some buffer => .ok (true, stripEndOfMessage buffer)
      | none =>
          if breaks results then .error .errnoString
          else .ok (false, payload ++ (received results).flatten) := by
  induction results generalizing payload with
  | nil => simp [readLoop, received, breaks, Gather.gather, h]
  | cons result results ih =>
      cases result with
      | error => simp [readLoop, received, breaks, Gather.gather, h]
      | transferred chunk =>
          by_cases hnil : chunk = []
          · simp [readLoop, received, breaks, Gather.gather, h, hnil]
          · simp only [readLoop, received, breaks, hnil, if_false, Gather.gather, h,
              Bool.false_eq_true, List.flatten_cons, ← List.append_assoc]
            cases hends : ENDOFMESSAGE.isSuffixOf (payload ++ chunk) with
            | true =>
                cases received results <;> simp [Gather.gather, hends]
            | false => simpa using ih hends

/-- No terminator came and the pipe failed. -/
def Broken (results : List ReadResult) : Prop :=
  breaks results = true ∧
    ∀ n, n ≤ (received results).length → ¬ ENDOFMESSAGE <:+ ((received results).take n).flatten

theorem isSuffixOf_eq_false_iff {buffer : Bytes} :
    ENDOFMESSAGE.isSuffixOf buffer = false ↔ ¬ ENDOFMESSAGE <:+ buffer := by
  rw [← List.isSuffixOf_iff_suffix, Bool.not_eq_true]

theorem isSuffixOf_nil : ENDOFMESSAGE.isSuffixOf [] = false := by
  rw [isSuffixOf_eq_false_iff, List.suffix_nil]
  exact ENDOFMESSAGE_ne_nil

theorem readLoop_throws_iff {results : List ReadResult} :
    (∃ fault, readLoop [] results = .error fault) ↔ Broken results := by
  have hnone : Gather.gather ENDOFMESSAGE.isSuffixOf [] (received results) = none ↔
      ∀ n, n ≤ (received results).length →
        ¬ ENDOFMESSAGE <:+ ((received results).take n).flatten := by
    simp only [Gather.gather_eq_none_iff, List.nil_append, isSuffixOf_eq_false_iff]
  rw [readLoop_eq isSuffixOf_nil, Broken, ← hnone]
  cases Gather.gather ENDOFMESSAGE.isSuffixOf [] (received results) with
  | some buffer => simp
  | none => cases breaks results <;> simp

theorem isSuffixOf_append (payload : Bytes) :
    ENDOFMESSAGE.isSuffixOf (payload ++ ENDOFMESSAGE) = true :=
  List.isSuffixOf_iff_suffix.mpr (List.suffix_append ..)

theorem readLoop_true_iff {results : List ReadResult} {payload : Bytes} :
    readLoop [] results = .ok (true, payload) ↔
      Framed (ENDOFMESSAGE <:+ ·) (received results) payload := by
  rw [readLoop_eq isSuffixOf_nil]
  simp only [← List.isSuffixOf_iff_suffix, ← gather_eq_some_iff_framed isSuffixOf_append]
  cases hbuffer : Gather.gather ENDOFMESSAGE.isSuffixOf [] (received results) with
  | none =>
      dsimp only
      split <;> simp
  | some buffer =>
      obtain ⟨n, -, hgathers, rfl⟩ := Gather.gather_eq_some_iff.mp hbuffer
      rw [Option.some.injEq, ← endsWith_iff, hgathers.accepts]
      simp

end Fifo

end ClientServer
