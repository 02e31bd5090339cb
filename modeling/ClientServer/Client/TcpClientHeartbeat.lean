import ClientServer.Library.EventLoop
import ClientServer.Library.Runs
import ClientServer.Server.Acceptor

/-!
# The heartbeat of a client

A thread of the pool of the client runs the `io_context` of the heartbeat.  For each
heartbeat there is a connection of its own, on which the TCP acceptor sends back what
it has got; then a timer is waited for and the next one is sent.  A second timer is
started with each heartbeat, and whether it is still to be waited for tells whether
the answer came in time.

A step is one handler, the progress or the end of one operation, or what another
thread or the acceptor does.  The calls of a handler that block the thread, `connect`
with the wait behind it and the wait for the answer, stand in the loop as operations:
while one is under way no handler runs and no other operation ends.  A fault that is no
exception ends the process and is no step.  The pointer that the handlers lock does not
expire, since the thread inside `run` holds it.
-/

namespace ClientServer

namespace TcpClientHeartbeat

/-! ## States -/

/-- The operations on the socket and the two timers. -/
inductive Op where
  | connect | write | waitRead | read | period | timeout
deriving DecidableEq

/-- The thread is inside a handler while the operation is under way. -/
def Op.blocks : Op → Bool
  | connect | waitRead => true
  | _ => false

def Op.isTimeout : Op → Bool
  | timeout => true
  | _ => false

def Op.isTimer : Op → Bool
  | period | timeout => true
  | _ => false

/-- What is posted; the completion handlers with their error code, set or not. -/
inductive Handler where
  /-- What `start` posts. -/
  | write
  | writeCompleted (ec : Bool)
  | readCompleted (ec : Bool)
  | periodCompleted (ec : Bool)
  | timeoutCompleted (ec : Bool)
  /-- `stop`, behind an error. -/
  | stop
  /-- What `stop` posts. -/
  | cancel
deriving DecidableEq

/-- The handler of a timer that is canceled. -/
def Op.aborted : Op → Handler
  | .period => .periodCompleted true
  | _ => .timeoutCompleted true

/-- One heartbeat after the other; the time that one may take is no part of it. -/
def chain : EventLoop.Chain Handler Op where
  handler
    | .timeoutCompleted _ | .stop | .cancel => false
    | _ => true
  op
    | .timeout => false
    | _ => true

/-- The loop of a heartbeat. -/
abbrev Events := EventLoop.Loop Handler Op

/-- The waits for the timeout. -/
def timeouts (loop : Events) : Nat := loop.pending.countP Op.isTimeout

/-- The thread is inside a handler. -/
def blocked (loop : Events) : Bool := loop.pending.any Op.blocks

inductive Pc where
  /-- No thread of the pool has called `run` yet. -/
  | queued
  | runs
  | returned
deriving DecidableEq

/-- The connection of a heartbeat: what the client has handed over, what has come back
and is not read, and whether the acceptor is done with it. -/
structure Link where
  handed : Bytes
  incoming : Bytes
  served : Bool
deriving DecidableEq

structure State where
  pc : Pc
  loop : Events
  _stopped : Bool
  _status : STATUS
  _heartbeatBuffer : Bytes
  link : Link
  /-- What the write under way has not written. -/
  unwritten : Bytes
  /-- The headers of the heartbeats begun to be written, and of the answers that were
  taken; nothing reads them. -/
  sent : List HEADER
  echoed : List HEADER
deriving DecidableEq

/-- What `setSocket` and the wait for the socket come to; `close` in front of them may
throw. -/
inductive Connect where
  | fails
  | throws
  /-- How many bytes the socket takes while `write` has not returned, and what is read in
  place of the header once it has. -/
  | connects (taken : Nat) (stack : { bytes : Bytes // bytes.length = HEADER_SIZE })

inductive Action where
  /-- A thread of the pool calls `run`. -/
  | run
  /-- The next handler. -/
  | handle
  | connect (result : Connect)
  | write (n : Nat)
  | writeFails
  /-- The wait for the answer returns. -/
  | waitRead (ec : Bool)
  | read (n : Nat)
  | readFails
  /-- The time of a timer is up. -/
  | periodExpires
  | timeoutExpires
  /-- `stop`, on another thread. -/
  | stop
  /-- `_ioContext.run` returns. -/
  | finish
  /-- The acceptor takes the connection; it comes with the chunks of the connection and
  its `_header` of before. -/
  | accept (_header : HEADER) (connection : Connection)
  /-- Bytes of another server. -/
  | arrive (chunk : Bytes)

/-- The header of a heartbeat. -/
def heartbeat (_status : STATUS) : HEADER where
  headerType := .HEARTBEAT
  field1Size := 0
  field2Size := 0
  compressor := .NONE
  diagnostics := .NONE
  status := _status
  field3Size := 0
  field4Size := 0

/-- The bytes of a heartbeat. -/
def message (header : HEADER) : Bytes := serialize header ++ ENDOFMESSAGE

namespace State

/-- A heartbeat that was constructed and started. -/
def initial : State where
  pc := .queued
  loop := EventLoop.Loop.initial.post .write
  _stopped := false
  _status := .NONE
  _heartbeatBuffer := List.replicate HEADER_SIZE 0
  link := ⟨[], [], true⟩
  unwritten := []
  sent := []
  echoed := []

/-! ### The handlers -/

def post (s : State) (handler : Handler) : State := { s with loop := s.loop.post handler }

def startOp (s : State) (op : Op) : State := { s with loop := s.loop.start op }

/-- `_timeoutTimer.cancel()`, which returns `timeouts`. -/
def cancelTimeout (s : State) : State :=
  { s with loop := s.loop.cancel Op.isTimeout Op.aborted }

/-- What `stop` posts. -/
def cancelTimers (s : State) : State := { s with loop := s.loop.cancel Op.isTimer Op.aborted }

/-- `timeoutWait`; `expires_after` cancels like `cancel`. -/
def timeoutWait (s : State) : State := s.cancelTimeout.startOp .timeout

/-- `heartbeatWait`; no wait of its timer is left when it is called. -/
def heartbeatWait (s : State) : State := s.startOp .period

def stop (s : State) : State := { s with _stopped := true }.post .cancel

/-- `run` catches a `std::exception`. -/
def throws (s : State) (fault : Fault) : Option State :=
  if fault.isException then some { s with pc := .returned } else none

/-- `write` up to `connect`. -/
def write (s : State) : State := s.timeoutWait.startOp .connect

/-- `write` from there on.  The header is serialized into an object of the call, and
what of it the socket has not taken by then is read when the object is gone. -/
def connected (s : State) : Connect → State
  | .fails => s
  | .throws => { s with pc := .returned }
  | .connects taken stack => { s.startOp .write with
      link := ⟨(message (heartbeat s._status)).take taken, [], false⟩
      unwritten := (stack.val ++ ENDOFMESSAGE).drop taken
      sent := s.sent ++ [heartbeat s._status] }

/-- The completion handler of the write, up to the wait for the answer. -/
def writeCompleted (s : State) (ec : Bool) : State :=
  if ec then { s with _status := .HEARTBEAT_PROBLEM } else s.startOp .waitRead

/-- `read` behind this wait. -/
def waitedRead (s : State) (ec : Bool) : State :=
  if ec then s else { s with _heartbeatBuffer := [] }.startOp .read

/-- The first statements behind the test of `_stopped` in the handler of the read. -/
def noteTimeout (s : State) : State :=
  let numberCanceled := timeouts s.loop
  { s.cancelTimeout with
    _status := if numberCanceled = 0 then .HEARTBEAT_TIMEOUT else s._status }

/-- The rest of it.  `deserialize` reads from the start of the buffer, where the terminator
is only left out of sight. -/
def answered (s : State) (ec : Bool) : Option State :=
  if ec then some { s.post .stop with _status := .HEARTBEAT_PROBLEM }
  else
    match deserialize default s._heartbeatBuffer with
    | .error fault => s.throws fault
    | .ok (ok, header) =>
        if ok && isOk header then some { s.heartbeatWait with echoed := s.echoed ++ [header] }
        else some s

/-- The completion handler of the read. -/
def readCompleted (s : State) (ec : Bool) : Option State :=
  if s._stopped then some s else s.noteTimeout.answered ec

def periodCompleted (s : State) (ec : Bool) : State := if s._stopped || ec then s else s.write

/-- The handler at the front of the queue. -/
def handler (s : State) : Handler → Option State
  | .write => some s.write
  | .writeCompleted ec => some (s.writeCompleted ec)
  | .readCompleted ec => s.readCompleted ec
  | .periodCompleted ec => some (s.periodCompleted ec)
  | .timeoutCompleted _ => some s
  | .stop => some s.stop
  | .cancel => some s.cancelTimers

def handle (s : State) : Option State :=
  match s.loop.next with
  | none => none
  | some (handler, loop) => { s with loop }.handler handler

/-! ### The operations -/

/-- An operation ends, and its handler is ready. -/
def complete (s : State) (op : Op) (handler : Handler) : Option State :=
  match s.loop.complete op handler with
  | none => none
  | some loop => some { s with loop }

/-- A call that blocks the thread returns. -/
def returnFrom (s : State) (op : Op) : Option State :=
  if op ∈ s.loop.pending then
    some { s with loop := { s.loop with pending := s.loop.pending.erase op } }
  else none

/-- `async_write` hands over some bytes, and ends behind the last. -/
def writeSome (s : State) (n : Nat) : Option State :=
  if .write ∈ s.loop.pending ∧ n ≤ s.unwritten.length then
    let unwritten := s.unwritten.drop n
    let link := { s.link with handed := s.link.handed ++ s.unwritten.take n }
    if unwritten = [] then { s with unwritten, link }.complete .write (.writeCompleted false)
    else some { s with unwritten, link }
  else none

/-- `async_read_until` gets some bytes, and ends if it has the terminator. -/
def readSome (s : State) (n : Nat) : Option State :=
  if .read ∈ s.loop.pending ∧ n ≤ s.link.incoming.length then
    let _heartbeatBuffer := s._heartbeatBuffer ++ s.link.incoming.take n
    let link := { s.link with incoming := s.link.incoming.drop n }
    if Tcp.found _heartbeatBuffer then
      { s with _heartbeatBuffer, link }.complete .read (.readCompleted false)
    else some { s with _heartbeatBuffer, link }
  else none

/-! ### The acceptor -/

/-- The acceptor reads a heartbeat in any pieces and answers it. -/
def accept (keys : KeyLibraries) (s : State) (_header : HEADER) (connection : Connection) :
    Option State :=
  if s.link.served = false ∧ Tcp.found s.link.handed = true ∧
      connection.chunks.flatten = s.link.handed ∧ connection.chunks.any List.isEmpty = false then
    match TcpAcceptor.accept keys _header connection with
    | .ok (_, .heartbeat reply) =>
        some { s with link := { s.link with incoming := s.link.incoming ++ reply, served := true } }
    | _ => some { s with link := { s.link with served := true } }
  else none

end State

variable (keys : KeyLibraries)

/-- What the thread inside `run` does. -/
def threadStep (s : State) : Action → Option State
  | .handle => s.handle
  | .write n => s.writeSome n
  | .writeFails => s.complete .write (.writeCompleted true)
  | .read n => s.readSome n
  | .readFails => s.complete .read (.readCompleted true)
  | .periodExpires => s.complete .period (.periodCompleted false)
  | .timeoutExpires => s.complete .timeout (.timeoutCompleted false)
  | .finish => if s.loop.returns then some { s with pc := .returned } else none
  | _ => none

def step : Action → State → Option State
  | .run, s => if s.pc = .queued then some { s with pc := .runs } else none
  | .connect result, s =>
      if s.pc = .runs then (s.returnFrom .connect).map (·.connected result) else none
  | .waitRead ec, s =>
      if s.pc = .runs then (s.returnFrom .waitRead).map (·.waitedRead ec) else none
  | .stop, s => some s.stop
  | .accept _header connection, s => s.accept keys _header connection
  | .arrive chunk, s =>
      some { s with link := { s.link with incoming := s.link.incoming ++ chunk } }
  | a, s => if s.pc = .runs ∧ blocked s.loop = false then threadStep s a else none

end TcpClientHeartbeat

end ClientServer
