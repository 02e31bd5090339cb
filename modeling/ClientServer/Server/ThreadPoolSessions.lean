import ClientServer.Common.Header
import ClientServer.Library.Runs
import Mathlib.Data.List.Perm.Basic

/-!
# The pool of sessions

`Server::startSession` hands a new session to `ThreadPoolSessions`, whose threads
take sessions out of the queue and run them.  An arrival is one thread at a
time, under the mutex of the server; the threads of the pool run beside it and
beside each other.  A step is one access to what they share, or what a thread
does while it holds `_queueMutex` without looking at a counter: the scan of
`get` holds it from the first entry to the last but compares one entry a step.

The constructor and the destructor of `CountRunning` are one step each.  A wait
on the condition ends when it is notified, and may end by itself.  The pool runs
up to the first statements of `stop`.

What is never read is recorded for the theorems: the sessions pushed and the
sessions each thread got, in order, and the statuses clients were told.
-/

namespace ClientServer

/-- A session as the pool sees it: its number and which of the classes derived
from `RunnableT` it is. -/
structure Runnable (τ : Type) where
  id : Nat
  type : τ
deriving DecidableEq, Repr

/-- `MaxTotalSessions`, and `MaxTcpSessions`, `MaxFifoSessions`. -/
structure Limits (τ : Type) where
  _maxSize : UInt32
  _maxNumberRunningByType : τ → UInt32

/-- The classes of the server derived from `RunnableT`. -/
inductive SessionType where
  | TcpSession | FifoSession
deriving DecidableEq, Repr

/-- The limits of the options. -/
def ServerOptions.limits (_maxTotalSessions _maxTcpSessions _maxFifoSessions : UInt32) :
    Limits SessionType where
  _maxSize := _maxTotalSessions
  _maxNumberRunningByType
    | .TcpSession => _maxTcpSessions
    | .FifoSession => _maxFifoSessions

namespace ThreadPoolSessions

/-- Where a thread of the pool stands in the loop of `createThread`. -/
inductive ThreadPc (τ : Type) where
  | loop
  | get
  /-- In `get`, blocked on `_queueCondition`. -/
  | waiting
  /-- In `get`, with the lock, in front of an entry of the queue. -/
  | scan (position : Nat)
  /-- In front of `runnable->run()`. -/
  | run (runnable : Runnable τ)
  /-- Inside `run`, behind the constructor of `CountRunning`. -/
  | running (runnable : Runnable τ)
  /-- In the destructor of `Finally`, in front of its test. -/
  | test
  /-- In the destructor of `Finally`, behind its test. -/
  | decrement
  | exited
deriving DecidableEq

namespace ThreadPc

variable {τ : Type}

/-- The thread holds `_queueMutex`. -/
def isScan : ThreadPc τ → Bool
  | scan _ => true
  | _ => false

/-- The thread is blocked on `_queueCondition`. -/
def isWaiting : ThreadPc τ → Bool
  | waiting => true
  | _ => false

/-- The thread behind a notification. -/
def notified : ThreadPc τ → ThreadPc τ
  | waiting => get
  | pc => pc

/-- The session the thread is inside `run` of. -/
def inside : ThreadPc τ → Option (Runnable τ)
  | running runnable => some runnable
  | _ => none

/-- The session the thread took out of the queue and has not left. -/
def held : ThreadPc τ → Option (Runnable τ)
  | run runnable => some runnable
  | running runnable => some runnable
  | _ => none

end ThreadPc

/-- Where an arrival stands, from the construction of the session to `push`. -/
inductive ArrivalPc (τ : Type) where
  | none
  | constructed (runnable : Runnable τ)
  | counted (runnable : Runnable τ)
  | condition1 (runnable : Runnable τ) (condition1 : Bool)
  | condition2 (runnable : Runnable τ) (condition1 condition2 : Bool)
  | push (runnable : Runnable τ)
deriving DecidableEq

/-- The session that arrives. -/
def ArrivalPc.runnable {τ : Type} : ArrivalPc τ → Option (Runnable τ)
  | none => Option.none
  | constructed runnable | counted runnable | condition1 runnable _
  | condition2 runnable _ _ | push runnable => some runnable

structure State (τ : Type) where
  /-- The sessions constructed so far; `getUniqueId` counts them. -/
  arrived : Nat
  arrival : ArrivalPc τ
  _threads : List (ThreadPc τ)
  _queue : List (Runnable τ)
  _totalNumberObjects : UInt32
  _numberRunningByType : τ → UInt32
  _numberRunningTotal : UInt32
  _stopped : Bool
  /-- `_stopped` of a session. -/
  runnableStopped : Nat → Bool
  /-- `_status` of a session, as the pool leaves it. -/
  _status : Nat → STATUS
  pushed : List (Runnable τ)
  /-- What `get` returned, and to which thread. -/
  got : List (Nat × Runnable τ)
  /-- The status in the message a client received. -/
  told : List (Nat × STATUS)
  /-- The status `calculateStatus` left a session with. -/
  assigned : List (Nat × STATUS)

inductive Action (τ : Type) where
  /-- A client is accepted and its session is constructed. -/
  | arrive (type : τ)
  /-- The next step of `calculateStatus`. -/
  | advance
  /-- `push`, and the thread it notifies if one waits. -/
  | push (i : Nat)
  /-- The next step of a thread; a session inside `run` ends. -/
  | thread (i : Nat)
  /-- A session is stopped. -/
  | stopRunnable (id : Nat)
  /-- `ThreadPoolBase::stop`, up to `notify_all`. -/
  | stop
deriving DecidableEq

variable {τ : Type} [DecidableEq τ] (limits : Limits τ)

namespace State

def initial : State τ where
  arrived := 0
  arrival := .none
  _threads := []
  _queue := []
  _totalNumberObjects := 0
  _numberRunningByType _ := 0
  _numberRunningTotal := 0
  _stopped := false
  runnableStopped _ := false
  _status _ := .NONE
  pushed := []
  got := []
  told := []
  assigned := []

def size (s : State τ) : UInt32 := UInt32.ofNat s._threads.length

/-- `_queueMutex` is held; `push` and the other parts of `get` are one step. -/
def locked (s : State τ) : Bool := s._threads.any ThreadPc.isScan

/-- The sessions inside `run`. -/
def insideRun (s : State τ) : List (Runnable τ) := s._threads.filterMap ThreadPc.inside

/-- The sessions taken out of the queue whose threads have not left them. -/
def held (s : State τ) : List (Runnable τ) := s._threads.filterMap ThreadPc.held

def setThread (s : State τ) (i : Nat) (pc : ThreadPc τ) : State τ :=
  { s with _threads := s._threads.set i pc }

/-! ### Arrivals -/

/-- The session is constructed and has sent its status to the client. -/
def arrive (s : State τ) (type : τ) : Option (State τ) :=
  match s.arrival with
  | .none => some { s with
      arrived := s.arrived + 1
      arrival := .constructed ⟨s.arrived, type⟩
      told := s.told ++ [(s.arrived, s._status s.arrived)] }
  | _ => none

def createThread (s : State τ) : State τ := { s with _threads := s._threads ++ [.loop] }

def setStatus (s : State τ) (id : Nat) (status : STATUS) : State τ :=
  { s with _status := Function.update s._status id status }

/-- The branches of `calculateStatus`. -/
def decideStatus (s : State τ) (runnable : Runnable τ) (condition1 condition2 : Bool) : State τ :=
  if condition1 && condition2 && decide (s.size < limits._maxSize) then s.createThread
  else if !condition2 then s.setStatus runnable.id .MAX_OBJECTS_OF_TYPE
  else if s._numberRunningTotal ≥ limits._maxSize then s.setStatus runnable.id .MAX_TOTAL_OBJECTS
  else s

/-- `calculateStatus`. -/
def advance (s : State τ) : Option (State τ) :=
  match s.arrival with
  | .none => none
  | .constructed runnable => some { s with
      _totalNumberObjects := s._totalNumberObjects + 1
      arrival := .counted runnable }
  | .counted runnable => some { s with
      arrival := .condition1 runnable (decide (s._totalNumberObjects > s.size)) }
  | .condition1 runnable condition1 => some { s with
      arrival := .condition2 runnable condition1
        (decide (s._numberRunningByType runnable.type <
          limits._maxNumberRunningByType runnable.type)) }
  | .condition2 runnable condition1 condition2 =>
      let s := s.decideStatus limits runnable condition1 condition2
      some { s with
        arrival := .push runnable
        assigned := s.assigned ++ [(runnable.id, s._status runnable.id)] }
  | .push _ => none

/-- `notify_one`. -/
def notifyOne (s : State τ) (i : Nat) : Option (State τ) :=
  if s._threads.any ThreadPc.isWaiting then
    match s._threads[i]? with
    | some .waiting => some (s.setThread i .get)
    | _ => none
  else some s

/-- `push` in front of the notification. -/
def enqueue (s : State τ) (runnable : Runnable τ) : State τ :=
  { s with
    arrival := .none
    _queue := s._queue ++ [runnable]
    pushed := s.pushed ++ [runnable] }

def push (s : State τ) (i : Nat) : Option (State τ) :=
  match s.arrival with
  | .push runnable =>
      if s.locked then none
      else (s.enqueue runnable).notifyOne i
  | _ => none

/-! ### Threads -/

/-- The test of `get` on one entry. -/
def eligible (s : State τ) (runnable : Runnable τ) : Bool :=
  decide (s._numberRunningByType runnable.type < limits._maxNumberRunningByType runnable.type) &&
    !s.runnableStopped runnable.id

/-- `get` returns the entry at a position to a thread. -/
def take (s : State τ) (i position : Nat) (runnable : Runnable τ) : State τ :=
  { s with
    _queue := s._queue.eraseIdx position
    got := s.got ++ [(i, runnable)] }

/-- The constructor of `CountRunning`. -/
def countRunning (s : State τ) (type : τ) : State τ :=
  { s with
    _numberRunningByType :=
      Function.update s._numberRunningByType type (s._numberRunningByType type + 1)
    _numberRunningTotal := s._numberRunningTotal + 1 }

/-- The destructor of `CountRunning`. -/
def uncountRunning (s : State τ) (type : τ) : State τ :=
  { s with
    _numberRunningByType :=
      Function.update s._numberRunningByType type (s._numberRunningByType type - 1)
    _numberRunningTotal := s._numberRunningTotal - 1 }

def thread (s : State τ) (i : Nat) : Option (State τ) :=
  match s._threads[i]? with
  | none => none
  | some .loop => some (s.setThread i (if s._stopped then .exited else .get))
  | some .get =>
      if s.locked then none
      else if s._stopped then some (s.setThread i .test)
      else some (s.setThread i (if s._queue = [] then .waiting else .scan 0))
  | some .waiting => some (s.setThread i .get)
  | some (.scan position) =>
      match s._queue[position]? with
      | none => some (s.setThread i .test)
      | some runnable =>
          if s.eligible limits runnable then
            some ((s.take i position runnable).setThread i (.run runnable))
          else some (s.setThread i (.scan (position + 1)))
  | some (.run runnable) =>
      some ((s.countRunning runnable.type).setThread i (.running runnable))
  | some (.running runnable) => some ((s.uncountRunning runnable.type).setThread i .test)
  | some .test =>
      some (s.setThread i (if s._totalNumberObjects > 0 then .decrement else .loop))
  | some .decrement =>
      some ({ s with _totalNumberObjects := s._totalNumberObjects - 1 }.setThread i .loop)
  | some .exited => none

end State

def step : Action τ → State τ → Option (State τ)
  | .arrive type, s => s.arrive type
  | .advance, s => s.advance limits
  | .push i, s => s.push i
  | .thread i, s => s.thread limits i
  | .stopRunnable id, s =>
      some { s with runnableStopped := Function.update s.runnableStopped id true }
  | .stop, s =>
      if s.locked then none
      else some { s with
        _stopped := true
        _threads := s._threads.map ThreadPc.notified }

/-- The states of the runs whose actions are all allowed where they are taken. -/
abbrev Reached (allowed : Action τ → State τ → Prop) : State τ → Prop :=
  Runs.Reached (step limits) allowed State.initial

/-- Any run. -/
abbrev Reachable : State τ → Prop := Reached limits fun _ _ => True

end ThreadPoolSessions

end ClientServer
