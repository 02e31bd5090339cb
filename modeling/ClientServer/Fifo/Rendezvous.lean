import ClientServer.Common.Header
import ClientServer.Library.Runs

/-!
# The rendezvous at the pipe of a session

`Server::createFifoSession` constructs a session, whose constructor sends its id
to the client, then starts it, which makes the pipe of that name, then hands it
to the pool.  The client opens the pipe as soon as it has the id, and takes a
pipe that does not exist for a session that was stopped.

The session neither stops nor is destroyed here: nothing of the server removes
the pipe.  It has a reader whenever a thread of the pool has opened it.
-/

namespace ClientServer.Rendezvous

/-- Where `createFifoSession` stands. -/
inductive ServerPc where
  /-- In the constructor, in front of `sendStatusToClient`. -/
  | construct
  | start
  | emplace
  | calculateStatus
  | push
  | queued
deriving DecidableEq, Repr

/-- Behind `start`. -/
def ServerPc.started : ServerPc → Bool
  | construct | start => false
  | emplace | calculateStatus | push | queued => true

/-- Where the client stands: in `receiveStatus`, then in `send`. -/
inductive ClientPc where
  | receiveStatus
  /-- At the top of the loop of `send`. -/
  | loop
  | onExit
  | remove
  /-- In `openWriteNonBlock`, after a number of repetitions. -/
  | openWriteNonBlock (rep : Nat)
  /-- The pipe is open for writing. -/
  | write
  /-- In front of `std::filesystem::exists`. -/
  | exists
  | sleep
  | returned (sent : Bool)
deriving DecidableEq, Repr

/-- In the part of `send` for a client told to close. -/
def ClientPc.closing : ClientPc → Bool
  | onExit | remove => true
  | _ => false

structure State where
  server : ServerPc
  /-- The message with the id stands in the pipe of the acceptor. -/
  published : Bool
  /-- The pipe of the session exists. -/
  fifo : Bool
  /-- The session has opened it for reading. -/
  reader : Bool
  client : ClientPc
  _closeFlag : Bool
  _status : STATUS
deriving DecidableEq, Repr

inductive Action where
  /-- The next step of the server; a system call of it succeeds or not. -/
  | server (success : Bool)
  /-- The session opens its pipe for reading or closes it. -/
  | session
  /-- The next step of the client. -/
  | client
  /-- The client is told to close. -/
  | close
deriving DecidableEq, Repr

namespace State

def initial : State where
  server := .construct
  published := false
  fifo := false
  reader := false
  client := .receiveStatus
  _closeFlag := false
  _status := .NONE

/-- `createFifoSession`.  The results of `sendMessage` and of `start` are not
looked at. -/
def serverStep (s : State) (success : Bool) : Option State :=
  match s.server with
  | .construct => some { s with server := .start, published := success }
  | .start => some { s with server := .emplace, fifo := s.fifo || success }
  | .emplace => some { s with server := .calculateStatus }
  | .calculateStatus => some { s with server := .push }
  | .push => some { s with server := .queued }
  | .queued => none

/-- A thread of the pool runs the session. -/
def sessionStep (s : State) : Option State :=
  if s.server = .queued ∧ s.fifo = true then some { s with reader := !s.reader } else none

/-- `receiveStatus`, and `send` again and again.  A call that sent is followed by
`receive` and the next call. -/
def clientStep ( _numberRepeatENXIO : Nat) (s : State) : Option State :=
  match s.client with
  | .receiveStatus => if s.published then some { s with client := .loop } else none
  | .loop =>
      some { s with client := if s._closeFlag then .onExit else .openWriteNonBlock 0 }
  | .onExit => some { s with client := .remove }
  | .remove => some { s with
      fifo := false
      reader := false
      _status := .STOPPED
      client := .openWriteNonBlock 0 }
  | .openWriteNonBlock rep =>
      if !s.fifo then some { s with client := .exists }
      else if s.reader then some { s with client := .write }
      else if rep < _numberRepeatENXIO then some { s with client := .openWriteNonBlock (rep + 1) }
      else some { s with client := .exists }
  | .write => some { s with client := .returned true }
  | .exists =>
      if !s.fifo then some { s with _status := .SESSION_STOPPED, client := .returned false }
      else some { s with client := .sleep }
  | .sleep => some { s with client := .loop }
  | .returned sent => if sent then some { s with client := .loop } else none

end State

def step ( _numberRepeatENXIO : Nat) : Action → State → Option State
  | .server success, s => s.serverStep success
  | .session, s => s.sessionStep
  | .client, s => s.clientStep _numberRepeatENXIO
  | .close, s => some { s with _closeFlag := true }

abbrev Reached ( _numberRepeatENXIO : Nat) (allowed : Action → State → Prop) : State → Prop :=
  Runs.Reached (step _numberRepeatENXIO) allowed State.initial

/-- The client looks for the pipe after the server has made it, and does not
remove it itself. -/
def LooksAfterStart : Action → State → Prop
  | .server success, s => s.server = .start → success = true
  | .client, s => (s.client = .exists → s.server.started = true) ∧
      (s.client = .loop → s._closeFlag = false)
  | _, _ => True

instance : ∀ (a : Action) (s : State), Decidable (LooksAfterStart a s)
  | .server success, s => inferInstanceAs (Decidable (s.server = .start → success = true))
  | .client, s => inferInstanceAs (Decidable ((s.client = .exists → s.server.started = true) ∧
      (s.client = .loop → s._closeFlag = false)))
  | .session, _ | .close, _ => inferInstanceAs (Decidable True)

/-- Behind `start` the pipe exists, and the client has not found it missing. -/
structure Inv (s : State) : Prop where
  made : s.server.started = true → s.fifo = true
  client : s.client.closing = false
  status : s._status = .NONE

variable { _numberRepeatENXIO : Nat}

namespace Inv

variable {s s' : State}

theorem initial : Inv State.initial where
  made h := by cases h
  client := rfl
  status := rfl

theorem serverStep {success : Bool} (h : Inv s) (hok : LooksAfterStart (.server success) s)
    (hs : s.serverStep success = some s') : Inv s' := by
  rw [State.serverStep] at hs
  cases hserver : s.server with
  | construct =>
      rw [hserver] at hs
      obtain rfl := Option.some.inj hs
      exact { h with made := fun h => by cases h }
  | start =>
      rw [hserver] at hs
      obtain rfl := Option.some.inj hs
      refine { h with made := fun _ => ?_ }
      rw [hok hserver, Bool.or_true]
  | emplace | calculateStatus | push =>
      rw [hserver] at hs
      obtain rfl := Option.some.inj hs
      exact { h with made := fun _ => h.made (by rw [hserver]; rfl) }
  | queued =>
      rw [hserver] at hs
      cases hs

theorem sessionStep (h : Inv s) (hs : s.sessionStep = some s') : Inv s' := by
  rw [State.sessionStep] at hs
  split at hs
  next =>
    obtain rfl := Option.some.inj hs
    exact { h with }
  next => cases hs

theorem clientStep (h : Inv s) (hok : LooksAfterStart .client s)
    (hs : s.clientStep _numberRepeatENXIO = some s') : Inv s' := by
  obtain ⟨hexists, hloop⟩ := hok
  cases hclient : s.client with
  | receiveStatus =>
      simp only [State.clientStep, hclient] at hs
      split at hs
      next =>
        obtain rfl := Option.some.inj hs
        exact { h with client := rfl }
      next => cases hs
  | loop =>
      simp only [State.clientStep, hclient, hloop hclient, Bool.false_eq_true, if_false] at hs
      obtain rfl := Option.some.inj hs
      exact { h with client := rfl }
  | onExit | remove =>
      have hclosing := h.client
      rw [hclient] at hclosing
      cases hclosing
  | openWriteNonBlock rep =>
      simp only [State.clientStep, hclient] at hs
      split at hs
      next =>
        obtain rfl := Option.some.inj hs
        exact { h with client := rfl }
      next =>
        split at hs
        next =>
          obtain rfl := Option.some.inj hs
          exact { h with client := rfl }
        next =>
          split at hs
          next =>
            obtain rfl := Option.some.inj hs
            exact { h with client := rfl }
          next =>
            obtain rfl := Option.some.inj hs
            exact { h with client := rfl }
  | write =>
      simp only [State.clientStep, hclient] at hs
      obtain rfl := Option.some.inj hs
      exact { h with client := rfl }
  | «exists» =>
      simp only [State.clientStep, hclient] at hs
      have hmade := h.made (hexists hclient)
      simp only [hmade, Bool.not_true, Bool.false_eq_true, if_false] at hs
      obtain rfl := Option.some.inj hs
      exact { h with made := fun _ => rfl, client := rfl }
  | sleep =>
      simp only [State.clientStep, hclient] at hs
      obtain rfl := Option.some.inj hs
      exact { h with client := rfl }
  | returned sent =>
      simp only [State.clientStep, hclient] at hs
      split at hs
      next =>
        obtain rfl := Option.some.inj hs
        exact { h with client := rfl }
      next => cases hs

theorem step {a : Action} (h : Inv s) (hok : LooksAfterStart a s)
    (hs : Rendezvous.step _numberRepeatENXIO a s = some s') : Inv s' := by
  cases a with
  | server success => exact h.serverStep hok hs
  | session => exact h.sessionStep hs
  | client => exact h.clientStep hok hs
  | close =>
      obtain rfl := Option.some.inj hs
      exact { h with }

end Inv

/-- The client does not take the session for stopped. -/
theorem sessionNotStopped_of_looksAfterStart {s : State}
    (hr : Reached _numberRepeatENXIO LooksAfterStart s) : s._status ≠ .SESSION_STOPPED := by
  have h : Inv s :=
    Runs.Reached.invariant Inv.initial (fun h hok hs => h.step hok hs) hr
  rw [h.status]
  decide

/-- A client that comes while its session waits in the queue. -/
theorem sessionNotStopped_waitingClient :
    ∃ s : State, s.client = .sleep ∧ s._status ≠ .SESSION_STOPPED := by
  have hr : Reached 1 LooksAfterStart
      ⟨.queued, true, true, false, .sleep, false, .NONE⟩ :=
    Runs.reached_of_foldlM ([.server true, .client, .client] ++ List.replicate 4 (.server true) ++
      List.replicate 3 .client) (by decide)
  exact ⟨_, rfl, sessionNotStopped_of_looksAfterStart hr⟩

/-- The client has the id and looks for the pipe before `start` makes it. -/
theorem sessionNotStopped_fails :
    ∃ s : State, Reached 1 (fun _ _ => True) s ∧ s.server = .start ∧ s._closeFlag = false ∧
      s._status = .SESSION_STOPPED := by
  have hr : Reached 1 (fun _ _ => True)
      ⟨.start, true, false, false, .returned false, false, .SESSION_STOPPED⟩ :=
    Runs.reached_of_foldlM (.server true :: List.replicate 4 .client) (by decide)
  exact ⟨_, hr, rfl, rfl, rfl⟩

end ClientServer.Rendezvous
