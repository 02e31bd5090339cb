import ClientServer.Client.PrintReply
import ClientServer.Fifo.HalfDuplex
import ClientServer.Server.BuildReply

/-!
# A client and its session over a pipe

`FifoClient` and `FifoSession` at the ends of one pipe: each reads a message, deals
with it and sends the next.  The pipe is the one of `HalfDuplex`, and a side that
has a message is at `work` there.

A step is a step of the pipe, or what a side does with a message.  Either side may
leave wherever it has no end open: because there is no further subtask, because the
file of the pipe is gone, or because it was stopped.
-/

namespace ClientServer.FifoConversation

open cryptooperations
open HalfDuplex (Side Pc)

/-- The client, the session, and how often an open for writing is repeated. -/
structure Setup where
  client : Client.Setup
  session : SessionSetup
  _numberRepeatENXIO : Nat

/-- Where the client stands. -/
inductive ClientPc where
  /-- In `processTask`, in front of the next `send`. -/
  | processTask
  /-- In `send` or in `receive`. -/
  | receive
  /-- `Client::run` returns. -/
  | left
deriving DecidableEq

structure ClientState where
  pc : ClientPc
  _header : HEADER
  _response : Bytes
  /-- What has been written to the data stream. -/
  dataStream : Bytes
  /-- The subtasks the client began to send and the replies it printed; nothing reads
  them. -/
  sent : List Subtask
  printed : List Bytes

structure SessionState where
  /-- `run` has not returned. -/
  runs : Bool
  _status : STATUS
  _header : HEADER
  /-- The replies the session began to send; nothing reads them. -/
  replies : List (HEADER × Bytes)

structure State where
  pipe : HalfDuplex.State
  client : ClientState
  session : SessionState

/-- What comes from outside while a session deals with a request. -/
structure Input where
  /-- The response `TaskController::processTask` leaves, if there is a controller. -/
  response : Option Bytes
  drawn : Drawn
  work : SenderBuffers

inductive Action where
  | send (subtask : Subtask)
  | receive (heartbeat : Option STATUS) (_buffer : Bytes)
  | receiveRequest (input : Input)
  | leave (side : Side)
  | pipe (a : HalfDuplex.Action)

namespace State

/-- A client behind `receiveStatus`, with the header it got there, and a session in
front of `run`. -/
def initial (_header : HEADER) (_status : STATUS) : State where
  pipe := .initial
  client :=
    { pc := .processTask
      _header
      _response := []
      dataStream := []
      sent := []
      printed := [] }
  session :=
    { runs := true
      _status
      _header := default
      replies := [] }

/-- The message a side has to deal with. -/
def payload (s : State) (side : Side) : Option Bytes :=
  match s.pipe.pc side with
  | .work => (s.pipe.received side).getLast?
  | _ => none

def runs (s : State) : Side → Bool
  | .client => s.client.pc != .left
  | .session => s.session.runs

/-- `run` of a side returns. -/
def leave (s : State) : Side → State
  | .client => { s with client := { s.client with pc := .left } }
  | .session => { s with session := { s.session with runs := false } }

/-- `receive` and `receiveRequest` catch a `std::exception`. -/
def throws (s : State) (side : Side) (fault : Fault) : Option State :=
  if fault.isException then some (s.leave side) else none

/-! ### The client -/

/-- `send(_task[i])`, in front of the first open. -/
def send (s : State) (subtask : Subtask) : Option State :=
  match s.client.pc, s.pipe.send .client subtask.message with
  | .processTask, some pipe => some { s with
      pipe
      client := { s.client with pc := .receive, sent := s.client.sent ++ [subtask] } }
  | _, _ => none

variable (setup : Setup)

/-- `receive`, from the message read on. -/
def receive (s : State) (heartbeat : Option STATUS) (_buffer : Bytes) : Option State :=
  match s.client.pc, s.payload .client with
  | .receive, some _payload =>
      match Client.receive setup.client heartbeat _buffer _payload s.client._header
          s.client._response with
      | .error fault => s.throws .client fault
      | .ok (false, _header, _response) =>
          some { s with client := { s.client with _header, _response, pc := .left } }
      | .ok (true, _header, _response) => some { s with client := { s.client with
          _header
          _response
          dataStream := s.client.dataStream ++ _response
          printed := s.client.printed ++ [_response]
          pc := .processTask } }
  | _, _ => none

/-! ### The session -/

/-- `sendResponse`, in front of the first open. -/
def sendResponse (s : State) (input : Input) (_responseData : Bytes) : Option State :=
  match Session.buildReply setup.session input.drawn input.work _responseData
      s.session._status with
  | .error fault => s.throws .session fault
  | .ok reply =>
      if reply.2 = [] then some (s.leave .session)
      else
        match s.pipe.send .session (Session.message reply) with
        | some pipe => some { s with
            pipe
            session := { s.session with replies := s.session.replies ++ [reply] } }
        | none => none

/-- `receiveRequest`, from the message read on; nothing looks at the status before. -/
def receiveRequest (s : State) (input : Input) : Option State :=
  match s.session.runs, s.payload .session with
  | true, some _payload =>
      let s := { s with session := { s.session with
        _status := Session.resetStatus s.session._status } }
      match FifoSession.receiveRequest setup.session.lib setup.session.terminal
          setup.session.options.toDecryptionOptions input.work.buffer.bytes s.session._header
          _payload with
      | .error fault => s.throws .session fault
      | .ok none => some (s.leave .session)
      | .ok (some (_, _header, _)) =>
          let s := { s with session := { s.session with _header } }
          match input.response with
          | none => some (s.leave .session)
          | some _responseData => s.sendResponse setup input _responseData
  | _, _ => none

end State

variable (setup : Setup)

/-- A step of the pipe on a side that has not left. -/
def stepPipe (s : State) (side : Side) (a : HalfDuplex.Action) : Option State :=
  if s.runs side then
    match HalfDuplex.step setup._numberRepeatENXIO a s.pipe with
    | some pipe => some { s with pipe }
    | none => none
  else none

def step : Action → State → Option State
  | .send subtask, s => s.send subtask
  | .receive heartbeat _buffer, s => s.receive setup heartbeat _buffer
  | .receiveRequest input, s => s.receiveRequest setup input
  | .leave side, s =>
      if s.runs side && !(s.pipe.pc side).reads && !(s.pipe.pc side).writes then
        some (s.leave side)
      else none
  | .pipe a, s =>
      match a with
      | .send _ _ => none
      | .next side | .write side _ | .read side _ => stepPipe setup s side a

end ClientServer.FifoConversation
