import ClientServer.Client.TaskBuilder
import ClientServer.Server.BuildReply

/-!
# What a client does with a reply

Behind the transport both clients do the same: the message is processed and
decrypted, and the response is written to the data stream unless it is empty or the
heartbeat has a problem.
-/

namespace ClientServer

/-- What goes up to the session. -/
def Subtask.message (subtask : Subtask) : Bytes := serialize subtask._header ++ subtask._data

namespace Client

/-- What does not change while a client receives. -/
structure Setup where
  options : DecryptionOptions
  lib : Libraries
  terminal : End

/-- The text it logs where it returns true. -/
def displayStatus : STATUS → Option String
  | .NONE | .MAX_TOTAL_OBJECTS | .MAX_OBJECTS_OF_TYPE | .STOPPED | .SESSION_STOPPED => none
  | .BAD_HEADER => some "STATUS::BAD_HEADER"
  | .COMPRESSION_PROBLEM => some "STATUS::COMPRESSION_PROBLEM"
  | .DECOMPRESSION_PROBLEM => some "STATUS::DECOMPRESSION_PROBLEM"
  | .FIFO_PROBLEM => some "STATUS::FIFO_PROBLEM"
  | .TCP_PROBLEM => some "STATUS::TCP_PROBLEM"
  | .TCP_TIMEOUT => some "\tserver timeout! Increase \"TcpTimeout\" in ServerOptions.json"
  | .HEARTBEAT_PROBLEM => some "STATUS::HEARTBEAT_PROBLEM"
  | .HEARTBEAT_TIMEOUT =>
      some "\theartbeat timeout! Increase \"HeartbeatTimeout\" in ClientOptions.json"
  | .ENCRYPTION_PROBLEM => some "Encryption problem"
  | .DECRYPTION_PROBLEM => some "Decryption problem"
  | .ERROR => some "Internal error"
  | _ => some "unexpected problem"

variable (setup : Setup)

/-- The result, the header and the response, which is written if the result is true;
`heartbeat` is the status of the heartbeat, if there is one. -/
def printReply (heartbeat : Option STATUS) (_buffer : Bytes) (_header : HEADER)
    (_response : Bytes) : Call (Bool × HEADER × Bytes) :=
  if (heartbeat.bind displayStatus).isSome then .ok (false, _header, _response)
  else do
    -- the statement `Session::processTask` decrypts by
    let (_, _header, _response) ← Session.decryptRequest setup.lib setup.terminal setup.options
      _buffer _header _response
    return (_response ≠ [], _header, _response)

/-- `receive` of either client, from the message read on. -/
def receive (heartbeat : Option STATUS) (_buffer _payload : Bytes) (_header : HEADER)
    (_response : Bytes) : Call (Bool × HEADER × Bytes) := do
  let (ok, _, array) ← processMessage _payload default [_response]
  if !ok then
    return (false, _header, array.headD [])
  printReply setup heartbeat _buffer _header (array.headD [])

/-! ## What is printed -/

/-- The client makes a text of a message. -/
def Prints (setup : Setup) (message text : Bytes) : Prop :=
  ∃ header array _response _buffer _header _buffer' _header',
    processMessage message default [_response] = .ok (true, header, array) ∧
    Session.decryptRequest setup.lib setup.terminal setup.options _buffer _header
      (array.headD []) = .ok (_buffer', _header', text) ∧
    text ≠ []

variable {setup : Setup}

theorem receive_prints {heartbeat : Option STATUS} {_buffer _payload _response text : Bytes}
    {_header _header' : HEADER}
    (h : receive setup heartbeat _buffer _payload _header _response = .ok (true, _header', text)) :
    Prints setup _payload text := by
  simp only [receive, Outcome.bind_eq_ok] at h
  obtain ⟨⟨ok, header, array⟩, hprocessed, h⟩ := h
  cases ok with
  | false => cases h
  | true =>
      simp only [Bool.not_true, Bool.false_eq_true, if_false, printReply] at h
      split at h
      next => cases h
      next =>
        rw [Outcome.bind_eq_ok] at h
        obtain ⟨⟨_buffer', _header', _response'⟩, hdecrypted, h⟩ := h
        obtain ⟨hne, rfl, rfl⟩ := by simpa [pure, Except.pure] using h
        exact ⟨_, _, _, _, _, _, _, hprocessed, hdecrypted, hne⟩

end Client

namespace OneReply

def client : Client.Setup :=
  ⟨session.options.toDecryptionOptions, ShortRequest.libraries, ShortRequest.client⟩

def subtask : Subtask := ⟨payload, payloadHeader payload.length⟩

end OneReply

end ClientServer
