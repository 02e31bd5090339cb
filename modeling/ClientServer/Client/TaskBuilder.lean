import ClientServer.Common.Lines
import ClientServer.Crypto.Operations
import ClientServer.Library.Runs

/-!
# The task builder and its client

A thread inside `TaskBuilder::run` reads the source in passes.  In each pass it
makes subtasks of the lines, and at the last line the task is done.  The client
waits in `getTask` for that, takes the vector of subtasks in exchange for its
own, calls `resume` if it runs in a loop, and sends what it took.

A step is what a thread does between two accesses to what both share.  `_resume`,
`_stopped` and `_status` are also read and written outside of `_mutex`.  The
handler of `run` stores the status without it, so `getTask` tests in one step and
blocks in another, and holds the mutex between the two; any other section under
the mutex is one step.  A fault that no handler of `run` catches ends the process
and is no step.
-/

namespace ClientServer

/-! ## Requests -/

def TASK_MAX_SIZE := 10000

/-- `getRequestId`: a table of the numbers below `TASK_MAX_SIZE`; the index is not
checked. -/
def getRequestId (index : Nat) : Call Bytes :=
  if index < TASK_MAX_SIZE then .ok (bytes "[" ++ toCharsBoost index false ++ bytes "]")
  else .error .outOfBounds

structure Subtask where
  _data : Bytes
  _header : HEADER
deriving DecidableEq, Repr

/-- The options of a client that the task builder and `Client::run` read. -/
structure ClientOptions where
  _compressor : COMPRESSORS
  _diagnostics : DIAGNOSTICS
  _doEncrypt : Bool
  _singleEncryptor : CRYPTO
  _doubleEncryption : Bool
  _bufferSize : UInt64
  _runLoop : Bool
  _maxNumberTasks : Int

/-- What does not change while a client runs. -/
structure ClientSetup where
  options : ClientOptions
  lib : Libraries
  party : Party

namespace TaskBuilder

/-! ## States -/

/-- Where the thread stands that is inside `run`. -/
inductive RunPc where
  /-- In front of the test of `_stopped`. -/
  | loop
  /-- In front of `_resume = false`. -/
  | clear
  /-- In front of the construction of the reader. -/
  | source
  | createSubtask (lines : Lines)
  | getLine (lines : Lines)
  /-- At the beginning of `compressEncryptSubtask`. -/
  | compressEncrypt (lines : Lines) (alldone : Bool)
  /-- In front of the lock there. -/
  | lock (lines : Lines) (alldone : Bool) (header : HEADER)
  /-- In front of the wait for `resume`. -/
  | wait
  /-- Blocked in it. -/
  | waiting
  | notified
  /-- In the handler, in front of the store of the status. -/
  | caught
  | left
  /-- The thread has given up its pointer to the task builder. -/
  | released
deriving DecidableEq

/-- Where the client stands. -/
inductive ClientPc where
  | processTask
  /-- In front of the lock in `getTask`. -/
  | getTask
  /-- Behind a test there that found no task, in front of the block, with `_mutex`. -/
  | blocking
  /-- Blocked in the wait there. -/
  | waiting
  | notified
  | returned (size : Nat) (status : STATUS)
  /-- In front of the subtask at a position. -/
  | sending (size i : Nat)
  /-- `Client::run` has returned. -/
  | left
  | stopped
deriving DecidableEq

structure State where
  run : RunPc
  client : ClientPc
  _batch : Bytes
  _subtasks : List Subtask
  _subtaskIndex : UInt32
  _resume : Bool
  _stopped : Bool
  _status : STATUS
  /-- The vector of the client. -/
  _task : List Subtask
  numberTasks : Nat
  /-- The subtasks built in the current pass; nothing reads them. -/
  built : List Subtask
  /-- What was built when the client took the vector; nothing reads it. -/
  taken : List Subtask
deriving DecidableEq

inductive Action where
  /-- The next step of the builder, where it needs no input. -/
  | run
  /-- The reader is constructed, with what its array holds and the source if it is
  there. -/
  | openSource (_buffer : Bytes) (file : Option Bytes)
  /-- The locked part of `compressEncryptSubtask`, with what is drawn and what the
  work buffers hold. -/
  | compressEncrypt (drawn : Drawn) (work : cryptooperations.SenderBuffers)
  /-- A wait of the builder ends without a notification. -/
  | wakeRun
  /-- The next step of the client, where it needs no input. -/
  | client
  /-- A subtask is sent and its reply received, or not. -/
  | sent (ok : Bool)
  /-- A wait of the client ends without a notification. -/
  | wakeClient

variable (setup : ClientSetup)

namespace State

/-- Whatever earlier clients of the thread left in its vector. -/
def initial (_task : List Subtask) : State where
  run := .loop
  client := .processTask
  _batch := []
  _subtasks := []
  _subtaskIndex := 0
  _resume := false
  _stopped := false
  _status := .NONE
  _task := _task
  numberTasks := 0
  built := []
  taken := []

/-! ### The builder -/

/-- The handler of `run` catches a `std::exception`. -/
def throws (s : State) (fault : Fault) : Option State :=
  if fault.isException then some { s with run := .caught } else none

/-- `FileLines lines(ClientOptions::_sourceName, '\n', true)`. -/
def openSource (s : State) (_buffer : Bytes) (file : Option Bytes) : Option State :=
  match FileLines.new _buffer file 10 true with
  | .ok lines => some { s with run := .createSubtask lines }
  | .error fault => s.throws fault

/-- `copyRequestWithId`; the index is converted to `std::size_t`. -/
def copyRequestWithId (_batch line : Bytes) (index : Int) : Call Bytes := do
  let id ← getRequestId (index % 2 ^ 64).toNat
  return _batch ++ id ++ line

def maxSubtaskSize (options : ClientOptions) : Nat :=
  (options._bufferSize - UInt64.ofNat HEADER_SIZE).toNat

/-- The loop of `createSubtask`.  Where there is no line it returns
`STATUS::NONE`, and the loop in `run` ends. -/
def getLine (s : State) (lines : Lines) : Option State :=
  match lines.getLineImpl with
  | .error fault => s.throws fault
  | .ok (false, _, _) => some { s with run := .wait }
  | .ok (true, line, lines) =>
      match copyRequestWithId s._batch line lines._index with
      | .error fault => s.throws fault
      | .ok _batch =>
          let alldone := lines._last
          some { s with
            _batch := _batch
            run :=
              if _batch.length ≥ maxSubtaskSize setup.options ∨ alldone = true then
                .compressEncrypt lines alldone
              else .getLine lines }

/-- The header of a subtask; the status is read without the lock. -/
def header (s : State) : HEADER where
  headerType := .SESSION
  field1Size := 0
  field2Size := 0
  compressor := setup.options._compressor
  diagnostics := setup.options._diagnostics
  status := s._status
  field3Size := 0
  field4Size := 0

open cryptooperations in
def encrypted (drawn : Drawn) (work : SenderBuffers) (header : HEADER) (_batch : Bytes) :
    Call Bytes :=
  if setup.options._doubleEncryption then
    compressDoubleEncrypt setup.lib setup.party drawn work header _batch setup.options._doEncrypt 3
  else
    compressSingleEncrypt setup.lib setup.party setup.options._singleEncryptor drawn work header
      _batch setup.options._doEncrypt 3

/-- `_subtasks[_subtaskIndex] = subtask`, behind an `emplace_back` where the
vector is too short. -/
def assignSubtask (_subtasks : List Subtask) (index : Nat) (subtask : Subtask) :
    Option (List Subtask) :=
  if index < _subtasks.length then some (_subtasks.set index subtask)
  else if index = _subtasks.length then some (_subtasks ++ [subtask])
  else none

/-- The client has `_mutex` between two of its steps. -/
def locked (s : State) : Bool :=
  match s.client with
  | .blocking => true
  | _ => false

/-- `_conditionTask.notify_one`. -/
def notifyTask (s : State) : State :=
  { s with client := if s.client = .waiting then .notified else s.client }

/-- The locked part of `compressEncryptSubtask`, and what the loop in `run` makes
of its status. -/
def compressEncryptSubtask (s : State) (lines : Lines) (alldone : Bool) (header : HEADER)
    (drawn : Drawn) (work : cryptooperations.SenderBuffers) : Option State :=
  if s._stopped then some { s with run := .wait }
  else
    match encrypted setup drawn work header s._batch with
    | .error fault => s.throws fault
    | .ok dataView =>
        let subtask : Subtask := ⟨dataView, { header with field1Size := dataView.length }⟩
        match assignSubtask s._subtasks s._subtaskIndex.toNat subtask with
        | none => none
        | some _subtasks =>
            let s := { s with _subtasks := _subtasks, built := s.built ++ [subtask] }
            if alldone then some ({ s with _status := .TASK_DONE, run := .wait }.notifyTask)
            else some { s with
              _status := .SUBTASK_DONE
              _subtaskIndex := s._subtaskIndex + 1
              run := .createSubtask lines }

/-- The builder in front of the wait for `resume`, and when it is woken. -/
def wait (s : State) : State :=
  { s with run := if s._resume || s._stopped then .loop else .waiting }

def runStep (s : State) : Option State :=
  match s.run with
  | .loop => some { s with run := if s._stopped then .left else .clear }
  | .clear => some { s with _resume := false, built := [], run := .source }
  | .createSubtask lines => some { s with _batch := [], run := .getLine lines }
  | .getLine lines => s.getLine setup lines
  | .compressEncrypt lines alldone =>
      some { s with run := .lock lines alldone (s.header setup) }
  | .wait | .notified => if s.locked then none else some s.wait
  | .caught => some { s with _status := .ERROR, run := .left }
  | .left => some { s with run := .released }
  | .source | .lock _ _ _ | .waiting | .released => none

/-! ### The client -/

/-- The predicate of the wait in `getTask`. -/
def ready (s : State) : Bool :=
  match s._status with
  | .TASK_DONE | .ERROR | .STOPPED => true
  | _ => false

/-- `getTask`, from its lock on or when it is woken, up to its return or its
block.  With a status that ends the wait the builder is behind its pass or has left
`run`, and the status is the same at the return. -/
def getTask (s : State) : State :=
  if s.ready then { s with
    _task := s._subtasks
    _subtasks := s._task
    taken := s.built
    client := .returned (s._subtaskIndex + 1).toNat s._status }
  else { s with client := .blocking }

/-- `_conditionResume.notify_one`. -/
def notifyResume (s : State) : State :=
  { s with run := if s.run = .waiting then .notified else s.run }

def resume (s : State) : State :=
  if s._stopped then s
  else { s with _subtaskIndex := 0, _status := .NONE, _resume := true }.notifyResume

def stop (s : State) : State := { s with _stopped := true, _status := .STOPPED }.notifyResume

/-- What `processTask` does with what `getTask` returned. -/
def returned (s : State) (size : Nat) (status : STATUS) : State :=
  if status = .ERROR then { s with client := .left }
  else { (if setup.options._runLoop then s.resume else s) with client := .sending size 0 }

/-- The end of a round of the loop in `Client::run`. -/
def finishTask (s : State) : State :=
  let numberTasks := s.numberTasks + 1
  let options := setup.options
  { s with
    numberTasks := numberTasks
    client :=
      if (options._maxNumberTasks > 0 ∧ numberTasks = options._maxNumberTasks) ∨
        options._runLoop = false then .left
      else .processTask }

def clientStep (s : State) : Option State :=
  match s.client with
  | .processTask => some { s with client := if s.run = .released then .left else .getTask }
  | .getTask | .notified => some s.getTask
  | .blocking => some { s with client := .waiting }
  | .returned size status => some (s.returned setup size status)
  | .sending size i => if i < size then none else some (s.finishTask setup)
  | .left => some { (if s.run = .released then s else s.stop) with client := .stopped }
  | .waiting | .stopped => none

/-- `send(_task[i]) && receive()`. -/
def sent (s : State) (ok : Bool) : Option State :=
  match s.client with
  | .sending size i =>
      if i < size ∧ i < s._task.length then
        some { s with client := if ok then .sending size (i + 1) else .left }
      else none
  | _ => none

end State

def step : Action → State → Option State
  | .run, s => s.runStep setup
  | .openSource _buffer file, s =>
      match s.run with
      | .source => s.openSource _buffer file
      | _ => none
  | .compressEncrypt drawn work, s =>
      match s.run with
      | .lock lines alldone header =>
          if s.locked then none
          else s.compressEncryptSubtask setup lines alldone header drawn work
      | _ => none
  | .wakeRun, s =>
      match s.run with
      | .waiting => some { s with run := .notified }
      | _ => none
  | .client, s => s.clientStep setup
  | .sent ok, s => s.sent ok
  | .wakeClient, s =>
      match s.client with
      | .waiting => some { s with client := .notified }
      | _ => none

/-- The states of the runs whose actions are all allowed where they are taken. -/
def Reached (allowed : Action → State → Prop) (s : State) : Prop :=
  ∃ _task, Runs.Reached (step setup) allowed (State.initial _task) s

/-- Any run. -/
abbrev Reachable : State → Prop := Reached setup fun _ _ => True

end TaskBuilder

end ClientServer
