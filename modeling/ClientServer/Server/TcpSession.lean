import ClientServer.Common.Transport
import ClientServer.Library.EventLoop
import ClientServer.Library.Runs
import ClientServer.Server.BuildReply

/-!
# The event loop of a TCP session

A thread of the pool runs the `io_context` of a session.  What the session does
next is always posted to it or an operation on its socket: read a request, send
the reply, write it, read again.  A timer is set for each of these and canceled
again: for a read in the statement behind its start, for a write when it is done.

A step is one handler, the progress or the end of one operation, or what another
thread does.  The bytes that have come and those that leave stand in the socket.
`_buffer` holds whatever earlier calls left in it.  A fault that is no exception
ends the process and is no step.  The pointers that the handlers lock do not
expire, since the thread inside `run` holds one.
-/

namespace ClientServer

open cryptooperations

namespace TcpSession

/-! ## States -/

/-- The operations of a session on its socket and on its timer. -/
inductive Op where
  | read | write | wait
deriving DecidableEq

def Op.isWait : Op → Bool
  | wait => true
  | _ => false

/-- What is posted; the completion handlers with their error code, set or not. -/
inductive Handler where
  | readRequest
  | readCompleted (ec : Bool) (transferred : Nat)
  | sendReply
  | write (header : HEADER) (payload : Bytes)
  | writeCompleted (ec : Bool)
  /-- `_timeoutTimer.cancel()`, behind an error. -/
  | cancel
  | waitCompleted (ec : Bool)
deriving DecidableEq

/-- The requests and replies; the timer is no part of it. -/
def chain : EventLoop.Chain Handler Op where
  handler
    | .cancel | .waitCompleted _ => false
    | _ => true
  op
    | .wait => false
    | _ => true

/-- The loop of a session. -/
abbrev Events := EventLoop.Loop Handler Op

/-- The waits for the timer. -/
def waits (loop : Events) : Nat := loop.pending.countP Op.isWait

inductive Pc where
  /-- No thread of the pool has called `run` yet. -/
  | queued
  | runs
  | returned
deriving DecidableEq

/-- The bytes that have come and are not read, and those written and not gone. -/
structure Socket where
  incoming : Bytes
  outgoing : Bytes
deriving DecidableEq

structure State where
  pc : Pc
  loop : Events
  socket : Socket
  _status : STATUS
  _header : HEADER
  _request : Bytes
  /-- The response of the task, put together. -/
  _responseData : Bytes
  /-- What the write under way has not written. -/
  unwritten : Bytes
  /-- What `_request` held at the end of each read, and the replies begun to be
  written; nothing reads them. -/
  requests : List Bytes
  replies : List (HEADER × Bytes)

/-- What comes from outside in one handler. -/
structure Input where
  /-- The response `TaskController::processTask` leaves, if there is a controller. -/
  response : Option Bytes
  drawn : Drawn
  work : SenderBuffers
  /-- How many bytes the socket takes while `write` has not returned. -/
  taken : Nat
  /-- What is read in place of the header once it has returned. -/
  stack : { bytes : Bytes // bytes.length = HEADER_SIZE }

inductive Action where
  | arrive (chunk : Bytes)
  | depart (n : Nat)
  /-- A thread of the pool calls `run`. -/
  | run
  /-- The next handler. -/
  | handle (input : Input)
  | read (n : Nat)
  | readFails
  | write (n : Nat)
  | writeFails
  /-- The time of the timer is up. -/
  | expire
  /-- `stop`, on another thread. -/
  | stop
  /-- `_ioContext.run` returns. -/
  | finish

namespace State

/-- A session that was constructed and started; `start` posts nothing if it fails. -/
def initial (started : Bool) (_status : STATUS) (socket : Socket) : State where
  pc := .queued
  loop := if started then EventLoop.Loop.initial.post .readRequest else .initial
  socket
  _status
  _header := default
  _request := []
  _responseData := []
  unwritten := []
  requests := []
  replies := []

/-! ### The handlers -/

def post (s : State) (handler : Handler) : State := { s with loop := s.loop.post handler }

def startOp (s : State) (op : Op) : State := { s with loop := s.loop.start op }

/-- `_timeoutTimer.cancel()`, which returns `waits`. -/
def cancelTimer (s : State) : State :=
  { s with loop := s.loop.cancel Op.isWait fun _ => .waitCompleted true }

/-- `asyncWait`; `expires_after` cancels like `cancel`. -/
def asyncWait (s : State) : State := s.cancelTimer.startOp .wait

/-- `run` catches a `std::exception`. -/
def throws (s : State) (fault : Fault) : Option State :=
  if fault.isException then some { s with pc := .returned } else none

/-- `readRequest` up to its end, with the read under way. -/
def readRequest (s : State) : State :=
  let s := s.asyncWait.startOp .read
  let numberCanceled := waits s.loop
  let s := s.cancelTimer
  if numberCanceled = 0 then { s with _status := .TCP_TIMEOUT } else s

variable (setup : SessionSetup)

/-- The completion handler of the read.  A read that failed has no terminator in
`_request`, so nothing is cut off there. -/
def readCompleted (s : State) (ec : Bool) (transferred : Nat) (_buffer : Bytes)
    (response : Option Bytes) : Option State :=
  if ec then some (s.post .cancel)
  else
    match TcpSession.readRequest setup.lib setup.terminal setup.options.toDecryptionOptions
        _buffer s._header s._request transferred with
    | .error fault => s.throws fault
    | .ok (_, _header, _request) =>
        let s := { s with _header, _request }
        match response with
        | some _responseData => some ({ s with _responseData }.post .sendReply)
        | none => some (s.post .cancel)

def sendReply (s : State) (drawn : Drawn) (work : SenderBuffers) : Option State :=
  match Session.buildReply setup drawn work s._responseData s._status with
  | .error fault => s.throws fault
  | .ok (header, payload) =>
      if payload = [] then some s else some (s.asyncWait.post (.write header payload))

/-- `write`.  The header is serialized into an object of the call, and what of it
the socket has not taken by then is read when the object is gone. -/
def write (s : State) (header : HEADER) (payload : Bytes) (taken : Nat) (stack : Bytes) : State :=
  { s.startOp .write with
    socket := { s.socket with
      outgoing := s.socket.outgoing ++ (sendMessage header payload [] [] []).take taken }
    unwritten := (stack ++ payload ++ ENDOFMESSAGE).drop taken
    replies := s.replies ++ [(header, payload)] }

/-- The completion handler of the write. -/
def writeCompleted (s : State) (ec : Bool) : State :=
  if ec then s.post .cancel
  else
    let numberCanceled := waits s.loop
    let s := s.cancelTimer
    if numberCanceled = 0 then { s with _status := .TCP_TIMEOUT }
    else { s with _request := [] }.post .readRequest

/-- The handler at the front of the queue. -/
def handler (s : State) (input : Input) : Handler → Option State
  | .readRequest => some s.readRequest
  | .readCompleted ec transferred =>
      s.readCompleted setup ec transferred input.work.buffer.bytes input.response
  | .sendReply => s.sendReply setup input.drawn input.work
  | .write header payload => some (s.write header payload input.taken input.stack.val)
  | .writeCompleted ec => some (s.writeCompleted ec)
  | .cancel => some s.cancelTimer
  | .waitCompleted _ => some s

def handle (s : State) (input : Input) : Option State :=
  match s.loop.next with
  | none => none
  | some (handler, loop) => { s with loop }.handler setup input handler

/-! ### The operations -/

/-- An operation ends. -/
def complete (s : State) (op : Op) (handler : Handler) : Option State :=
  match s.loop.complete op handler with
  | none => none
  | some loop => some { s with loop }

/-- `async_read_until` gets some bytes, and ends if it has the terminator. -/
def read (s : State) (n : Nat) : Option State :=
  if .read ∈ s.loop.pending ∧ n ≤ s.socket.incoming.length then
    let _request := s._request ++ s.socket.incoming.take n
    let socket := { s.socket with incoming := s.socket.incoming.drop n }
    match Text.find ENDOFMESSAGE _request with
    | none => some { s with _request, socket }
    | some pos =>
        { s with _request, socket, requests := s.requests ++ [_request] }.complete .read
          (.readCompleted false (pos + ENDOFMESSAGESZ))
  else none

/-- `async_write` hands over some bytes, and ends behind the last. -/
def writeSome (s : State) (n : Nat) : Option State :=
  if .write ∈ s.loop.pending ∧ n ≤ s.unwritten.length then
    let unwritten := s.unwritten.drop n
    let socket := { s.socket with outgoing := s.socket.outgoing ++ s.unwritten.take n }
    if unwritten = [] then { s with unwritten, socket }.complete .write (.writeCompleted false)
    else some { s with unwritten, socket }
  else none

/-! ### The threads -/

/-- The first statements of `run`. -/
def run (s : State) : State :=
  { s with pc := .runs, _status := Session.resetStatus s._status }

end State

variable (setup : SessionSetup)

def step : Action → State → Option State
  | .arrive chunk, s =>
      some { s with socket := { s.socket with incoming := s.socket.incoming ++ chunk } }
  | .depart n, s =>
      some { s with socket := { s.socket with outgoing := s.socket.outgoing.drop n } }
  | .run, s => if s.pc = .queued then some s.run else none
  | .handle input, s => if s.pc = .runs then s.handle setup input else none
  | .read n, s => if s.pc = .runs then s.read n else none
  | .readFails, s => if s.pc = .runs then s.complete .read (.readCompleted true 0) else none
  | .write n, s => if s.pc = .runs then s.writeSome n else none
  | .writeFails, s => if s.pc = .runs then s.complete .write (.writeCompleted true) else none
  | .expire, s => if s.pc = .runs then s.complete .wait (.waitCompleted false) else none
  | .stop, s => some { s with loop := s.loop.stop }
  | .finish, s =>
      if s.pc = .runs ∧ s.loop.returns = true then some { s with pc := .returned } else none

end TcpSession

end ClientServer
