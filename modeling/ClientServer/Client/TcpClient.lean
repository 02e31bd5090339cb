import ClientServer.Client.PrintReply
import ClientServer.Library.Dialogue
import ClientServer.Server.TcpSessionRuns

/-!
# A client and its session over TCP

`Client::processTask` sends a subtask, receives the reply, prints it and goes on
with the next.  The session reads and writes beside it.  The socket of the session
stands for both streams: what the client writes comes in there, and what the
client reads went out there.

A step is a step of the session, or of the client the progress of a write or of a
read, the printing of a reply, or the end of a call that failed.  Any call may
fail at any time.
-/

namespace ClientServer

namespace TcpClient

/-- Where the client stands. -/
inductive Pc where
  /-- In `processTask`, in front of the next `send`. -/
  | processTask
  /-- In `Tcp::sendMessage`, with what is left to write. -/
  | sendMessage (rest : Bytes)
  /-- In `Tcp::readMessage`, with what has been read. -/
  | readMessage (_payload : Bytes)
  /-- Behind the end of the message, which has been cut off. -/
  | processMessage (_payload : Bytes)
  /-- `Client::run` returns. -/
  | left
deriving DecidableEq

structure State where
  pc : Pc
  _header : HEADER
  _response : Bytes
  /-- What has been written to the data stream. -/
  dataStream : Bytes
  /-- The subtasks the client began to send, the messages it read and the replies it
  printed; nothing reads them. -/
  sent : List Subtask
  replies : List Bytes
  printed : List Bytes

namespace State

/-- A client behind `receiveStatus`, with the header it got there. -/
def initial (_header : HEADER) : State where
  pc := .processTask
  _header
  _response := []
  dataStream := []
  sent := []
  replies := []
  printed := []

/-- `send(_task[i])`, in front of the first write. -/
def send (s : State) (subtask : Subtask) : Option State :=
  match s.pc with
  | .processTask => some { s with
      pc := .sendMessage (ClientServer.sendMessage subtask._header subtask._data [] [] [])
      sent := s.sent ++ [subtask] }
  | _ => none

/-- Some bytes are written; with them. -/
def write (s : State) (n : Nat) : Option (Bytes × State) :=
  match s.pc with
  | .sendMessage rest =>
      if 0 < n ∧ n ≤ rest.length then some (rest.take n, { s with
        pc := if rest.drop n = [] then .readMessage [] else .sendMessage (rest.drop n) })
      else none
  | _ => none

/-- `Tcp::sendMessage` fails.  Nobody looks at its result, so the client goes on to
receive; it does not if it is the wait in front that fails. -/
def sendFails (s : State) (waits : Bool) : Option State :=
  match s.pc with
  | .sendMessage _ => some { s with pc := if waits then .left else .readMessage [] }
  | _ => none

/-- `read_until` gets some of the bytes that have come; with those it leaves. -/
def read (s : State) (incoming : Bytes) (n : Nat) : Option (Bytes × State) :=
  match s.pc with
  | .readMessage _payload =>
      if 0 < n ∧ n ≤ incoming.length then
        let _payload := _payload ++ incoming.take n
        some (incoming.drop n,
          if Tcp.found _payload then
            if ENDOFMESSAGE.isSuffixOf _payload then { s with
              pc := .processMessage (stripEndOfMessage _payload)
              replies := s.replies ++ [stripEndOfMessage _payload] }
            else { s with pc := .left }
          else { s with pc := .readMessage _payload })
      else none
  | _ => none

/-- The wait for a reply or the read fails, or the session has closed its socket. -/
def receiveFails (s : State) : Option State :=
  match s.pc with
  | .readMessage _ => some { s with pc := .left }
  | _ => none

/-- `receive` catches a `std::exception` and returns false. -/
def throws (s : State) (fault : Fault) : Option State :=
  if fault.isException then some { s with pc := .left } else none

/-- The message is processed, and the reply printed. -/
def receive (setup : Client.Setup) (s : State) (heartbeat : Option STATUS) (_buffer : Bytes) :
    Option State :=
  match s.pc with
  | .processMessage _payload =>
      match Client.receive setup heartbeat _buffer _payload s._header s._response with
      | .error fault => s.throws fault
      | .ok (false, _header, _response) => some { s with _header, _response, pc := .left }
      | .ok (true, _header, _response) => some { s with
          _header
          _response
          dataStream := s.dataStream ++ _response
          printed := s.printed ++ [_response]
          pc := .processTask }
  | _ => none

end State

end TcpClient

/-! ## Both together -/

namespace Conversation

/-- The session, and the client at the other end of its socket. -/
structure State where
  client : TcpClient.State
  session : TcpSession.State

inductive Action where
  | send (subtask : Subtask)
  | write (n : Nat)
  | sendFails (waits : Bool)
  | read (n : Nat)
  | receiveFails
  | receive (heartbeat : Option STATUS) (_buffer : Bytes)
  /-- There is no further subtask. -/
  | leave
  | session (a : TcpSession.Action)

namespace State

def initial (_header : HEADER) (started : Bool) (_status : STATUS) : State where
  client := .initial _header
  session := .initial started _status ⟨[], []⟩

/-- A step of the client alone. -/
def setClient (s : State) (client : Option TcpClient.State) : Option State :=
  match client with
  | some client => some { s with client }
  | none => none

/-- The client writes. -/
def write (s : State) (n : Nat) : Option State :=
  match s.client.write n with
  | some (bytes, client) =>
      let socket := s.session.socket
      some { client, session := { s.session with
        socket := { socket with incoming := socket.incoming ++ bytes } } }
  | none => none

/-- The client reads. -/
def read (s : State) (n : Nat) : Option State :=
  match s.client.read s.session.socket.outgoing n with
  | some (outgoing, client) =>
      some { client, session := { s.session with
        socket := { s.session.socket with outgoing } } }
  | none => none

end State

/-- The steps of a session other than the arrival and the departure of bytes. -/
def ofSession : TcpSession.Action → Bool
  | .arrive _ | .depart _ => false
  | _ => true

/-- The client and the session. -/
structure Setup where
  client : Client.Setup
  session : SessionSetup

variable (setup : Setup)

def step : Action → State → Option State
  | .send subtask, s => s.setClient (s.client.send subtask)
  | .write n, s => s.write n
  | .sendFails waits, s => s.setClient (s.client.sendFails waits)
  | .read n, s => s.read n
  | .receiveFails, s => s.setClient s.client.receiveFails
  | .receive heartbeat _buffer, s => s.setClient (s.client.receive setup.client heartbeat _buffer)
  | .leave, s =>
      match s.client.pc with
      | .processTask => some { s with client := { s.client with pc := .left } }
      | _ => none
  | .session a, s =>
      if ofSession a then
        match TcpSession.step setup.session a s.session with
        | some session => some { s with session }
        | none => none
      else none

end Conversation

end ClientServer
