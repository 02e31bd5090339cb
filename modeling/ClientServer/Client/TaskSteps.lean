import ClientServer.Client.TaskBuilder
import ClientServer.Common.LinesAt

/-!
# The steps of the builder and of the client

What each can do from where it stands, read off the step function once, and
where the task is between the two: the builder makes it, it is done, the client
has it, the builder is to make the next; or it never comes.
-/

namespace ClientServer.TaskBuilder

variable {setup : ClientSetup}

/-! ## Inversion -/

/-- A step of the builder from where it stands. -/
inductive RunStep (setup : ClientSetup) (s : State) : RunPc → State → Prop where
  | leaves : s._stopped = true → RunStep setup s .loop { s with run := .left }
  | enters : s._stopped = false → RunStep setup s .loop { s with run := .clear }
  | clears : RunStep setup s .clear { s with _resume := false, built := [], run := .source }
  | opens {_buffer : Bytes} {file : Option Bytes} {lines : Lines} :
      FileLines.new _buffer file 10 true = .ok lines →
      RunStep setup s .source { s with run := .createSubtask lines }
  | openThrows : RunStep setup s .source { s with run := .caught }
  | begins {lines : Lines} :
      RunStep setup s (.createSubtask lines) { s with _batch := [], run := .getLine lines }
  | readThrows {lines : Lines} : RunStep setup s (.getLine lines) { s with run := .caught }
  | noLine {lines lines' : Lines} {line : Bytes} : lines.getLineImpl = .ok (false, line, lines') →
      RunStep setup s (.getLine lines) { s with run := .wait }
  | copies {lines lines' : Lines} {line _batch : Bytes} :
      lines.getLineImpl = .ok (true, line, lines') →
      State.copyRequestWithId s._batch line lines'._index = .ok _batch →
      _batch.length ≥ State.maxSubtaskSize setup.options ∨ lines'._last = true →
      RunStep setup s (.getLine lines)
        { s with _batch := _batch, run := .compressEncrypt lines' lines'._last }
  | goesOn {lines lines' : Lines} {line _batch : Bytes} :
      lines.getLineImpl = .ok (true, line, lines') →
      State.copyRequestWithId s._batch line lines'._index = .ok _batch →
      RunStep setup s (.getLine lines) { s with _batch := _batch, run := .getLine lines' }
  | readsStatus {lines : Lines} {alldone : Bool} :
      RunStep setup s (.compressEncrypt lines alldone)
        { s with run := .lock lines alldone (s.header setup) }
  | findsStopped {lines : Lines} {alldone : Bool} {header : HEADER} : s._stopped = true →
      RunStep setup s (.lock lines alldone header) { s with run := .wait }
  | encryptThrows {lines : Lines} {alldone : Bool} {header : HEADER} :
      RunStep setup s (.lock lines alldone header) { s with run := .caught }
  | taskDone {lines : Lines} {header : HEADER} {subtask : Subtask} {_subtasks : List Subtask} :
      s._stopped = false → s.client ≠ .blocking →
      State.assignSubtask s._subtasks s._subtaskIndex.toNat subtask = some _subtasks →
      RunStep setup s (.lock lines true header)
        { s with
          _subtasks := _subtasks
          built := s.built ++ [subtask]
          _status := .TASK_DONE
          run := .wait }.notifyTask
  | subtaskDone {lines : Lines} {header : HEADER} {subtask : Subtask}
      {_subtasks : List Subtask} : s._stopped = false →
      State.assignSubtask s._subtasks s._subtaskIndex.toNat subtask = some _subtasks →
      RunStep setup s (.lock lines false header)
        { s with
          _subtasks := _subtasks
          built := s.built ++ [subtask]
          _status := .SUBTASK_DONE
          _subtaskIndex := s._subtaskIndex + 1
          run := .createSubtask lines }
  | resumes {pc : RunPc} : pc = .wait ∨ pc = .notified → (s._resume || s._stopped) = true →
      RunStep setup s pc { s with run := .loop }
  | blocks {pc : RunPc} : pc = .wait ∨ pc = .notified → (s._resume || s._stopped) = false →
      RunStep setup s pc { s with run := .waiting }
  | stores : RunStep setup s .caught { s with _status := .ERROR, run := .left }
  | releases : RunStep setup s .left { s with run := .released }
  | wakes : RunStep setup s .waiting { s with run := .notified }

theorem throws_eq_some {s s' : State} {fault : Fault} (h : s.throws fault = some s') :
    s' = { s with run := .caught } := by
  rw [State.throws] at h
  split at h
  next => exact (Option.some.inj h).symm
  next => cases h

theorem getLine_step {s s' : State} {lines : Lines} (h : s.getLine setup lines = some s') :
    RunStep setup s (.getLine lines) s' := by
  rw [State.getLine] at h
  split at h
  next fault hread =>
    rw [throws_eq_some h]
    exact .readThrows
  next view lines' hread =>
    cases h
    exact .noLine hread
  next line lines' hread =>
    split at h
    next fault hcopy =>
      rw [throws_eq_some h]
      exact .readThrows
    next _batch hcopy =>
      cases h
      cases Classical.em (_batch.length ≥ State.maxSubtaskSize setup.options ∨
          lines'._last = true) with
      | inl hfull =>
          rw [if_pos hfull]
          exact .copies hread hcopy hfull
      | inr hfull =>
          rw [if_neg hfull]
          exact .goesOn hread hcopy

theorem compressEncrypt_step {s s' : State} {lines : Lines} {alldone : Bool} {header : HEADER}
    {drawn : Drawn} {work : cryptooperations.SenderBuffers}
    (hclient : s.client ≠ .blocking)
    (h : s.compressEncryptSubtask setup lines alldone header drawn work = some s') :
    RunStep setup s (.lock lines alldone header) s' := by
  rw [State.compressEncryptSubtask] at h
  split at h
  next hstopped =>
    cases h
    exact .findsStopped hstopped
  next hstopped =>
    rw [Bool.not_eq_true] at hstopped
    split at h
    next fault _ =>
      rw [throws_eq_some h]
      exact .encryptThrows
    next dataView _ =>
      dsimp only at h
      split at h
      next => cases h
      next _subtasks hassign =>
        cases alldone with
        | true =>
            cases h
            exact .taskDone hstopped hclient hassign
        | false =>
            cases h
            exact .subtaskDone hstopped hassign

theorem ne_blocking {s : State} (h : ¬ s.locked = true) : s.client ≠ .blocking := by
  intro hclient
  rw [State.locked, hclient] at h
  exact h rfl

theorem blocking_of_locked {s : State} (h : s.locked = true) : s.client = .blocking := by
  rw [State.locked] at h
  split at h
  next hclient => exact hclient
  next => cases h

theorem wait_step {s : State} {pc : RunPc} (hpc : pc = .wait ∨ pc = .notified) :
    RunStep setup s pc s.wait := by
  rw [State.wait]
  cases hresume : s._resume || s._stopped with
  | true => exact .resumes hpc hresume
  | false => exact .blocks hpc hresume

theorem runStep_of {s s' : State} (h : s.runStep setup = some s') :
    RunStep setup s s.run s' := by
  rw [State.runStep] at h
  split at h
  next hpc =>
    cases h
    rw [hpc]
    cases Classical.em (s._stopped = true) with
    | inl hstopped =>
        rw [if_pos hstopped]
        exact .leaves hstopped
    | inr hstopped =>
        rw [if_neg hstopped]
        exact .enters (Bool.eq_false_iff.mpr hstopped)
  next hpc => cases h; rw [hpc]; exact .clears
  next hpc => cases h; rw [hpc]; exact .begins
  next hpc => rw [hpc]; exact getLine_step h
  next hpc => cases h; rw [hpc]; exact .readsStatus
  next hpc =>
    rw [hpc]
    split at h
    next => cases h
    next =>
      cases h
      exact wait_step (.inl rfl)
  next hpc =>
    rw [hpc]
    split at h
    next => cases h
    next =>
      cases h
      exact wait_step (.inr rfl)
  next hpc => cases h; rw [hpc]; exact .stores
  next hpc => cases h; rw [hpc]; exact .releases
  all_goals cases h

/-- A step of the client from where it stands. -/
inductive ClientStep (setup : ClientSetup) (s : State) : ClientPc → State → Prop where
  | finds : s.run ≠ .released → ClientStep setup s .processTask { s with client := .getTask }
  | findsNone : s.run = .released → ClientStep setup s .processTask { s with client := .left }
  | takes {pc : ClientPc} : pc = .getTask ∨ pc = .notified → s.ready = true →
      ClientStep setup s pc
        { s with
          _task := s._subtasks
          _subtasks := s._task
          taken := s.built
          client := .returned (s._subtaskIndex + 1).toNat s._status }
  | blocks {pc : ClientPc} : pc = .getTask ∨ pc = .notified → s.ready = false →
      ClientStep setup s pc { s with client := .blocking }
  | sleeps : ClientStep setup s .blocking { s with client := .waiting }
  | fails {size : Nat} : ClientStep setup s (.returned size .ERROR) { s with client := .left }
  | resumes {size : Nat} {status : STATUS} : status ≠ .ERROR → setup.options._runLoop = true →
      ClientStep setup s (.returned size status) { s.resume with client := .sending size 0 }
  | keeps {size : Nat} {status : STATUS} : status ≠ .ERROR → setup.options._runLoop = false →
      ClientStep setup s (.returned size status) { s with client := .sending size 0 }
  | sends {size i : Nat} : ClientStep setup s (.sending size i)
      { s with client := .sending size (i + 1) }
  | sendFails {size i : Nat} : ClientStep setup s (.sending size i) { s with client := .left }
  | repeats {size i : Nat} : setup.options._runLoop = true →
      ClientStep setup s (.sending size i)
        { s with numberTasks := s.numberTasks + 1, client := .processTask }
  | ends {size i : Nat} : ClientStep setup s (.sending size i)
      { s with numberTasks := s.numberTasks + 1, client := .left }
  | stops : ClientStep setup s .left { s.stop with client := .stopped }
  | stopsNone : s.run = .released → ClientStep setup s .left { s with client := .stopped }
  | wakes : ClientStep setup s .waiting { s with client := .notified }

theorem getTask_step {s : State} {pc : ClientPc} (hpc : pc = .getTask ∨ pc = .notified) :
    ClientStep setup s pc s.getTask := by
  rw [State.getTask]
  cases hready : s.ready with
  | true => exact .takes hpc hready
  | false => exact .blocks hpc hready

theorem returned_step (s : State) (size : Nat) (status : STATUS) :
    ClientStep setup s (.returned size status) (s.returned setup size status) := by
  rw [State.returned]
  split
  next hstatus =>
    rw [hstatus]
    exact .fails
  next hstatus =>
    cases hloop : setup.options._runLoop with
    | true => exact .resumes hstatus hloop
    | false => exact .keeps hstatus hloop

theorem finishTask_step (s : State) (size i : Nat) :
    ClientStep setup s (.sending size i) (s.finishTask setup) := by
  rw [State.finishTask]
  split
  next => exact .ends
  next hmore =>
    rw [not_or, Bool.not_eq_false] at hmore
    exact .repeats hmore.2

theorem clientStep_of {s s' : State} (h : s.clientStep setup = some s') :
    ClientStep setup s s.client s' := by
  rw [State.clientStep] at h
  split at h
  next hpc =>
    cases h
    rw [hpc]
    cases Classical.em (s.run = .released) with
    | inl hrun =>
        rw [if_pos hrun]
        exact .findsNone hrun
    | inr hrun =>
        rw [if_neg hrun]
        exact .finds hrun
  next hpc => cases h; rw [hpc]; exact getTask_step (.inl rfl)
  next hpc => cases h; rw [hpc]; exact getTask_step (.inr rfl)
  next hpc => cases h; rw [hpc]; exact .sleeps
  next hpc => cases h; rw [hpc]; exact returned_step s _ _
  next size i hpc =>
    rw [hpc]
    split at h
    next => cases h
    next =>
      cases h
      exact finishTask_step s size i
  next hpc =>
    cases h
    rw [hpc]
    cases Classical.em (s.run = .released) with
    | inl hrun =>
        rw [if_pos hrun]
        exact .stopsNone hrun
    | inr hrun =>
        rw [if_neg hrun]
        exact .stops
  all_goals cases h

/-- A client that has `_mutex` blocks. -/
theorem client_of_locked {s : State} (h : s.locked = true) :
    step setup .client s = some { s with client := .waiting } := by
  rw [step, State.clientStep, blocking_of_locked h]

theorem sent_step {s s' : State} {ok : Bool} (h : s.sent ok = some s') :
    ClientStep setup s s.client s' := by
  rw [State.sent] at h
  split at h
  next hpc =>
    rw [hpc]
    split at h
    next =>
      cases ok with
      | true =>
          cases h
          exact .sends
      | false =>
          cases h
          exact .sendFails
    next => cases h
  next => cases h

/-! ## Whose step it is -/

/-- The actions of the thread inside `run`. -/
def Action.ofBuilder : Action → Bool
  | run | openSource _ _ | compressEncrypt _ _ | wakeRun => true
  | client | sent _ | wakeClient => false

theorem builder_step {s s' : State} {a : Action} (ha : a.ofBuilder = true)
    (h : step setup a s = some s') : RunStep setup s s.run s' := by
  cases a with
  | run => exact runStep_of h
  | openSource _buffer file =>
      rw [step] at h
      split at h
      next hpc =>
        rw [hpc]
        rw [State.openSource] at h
        split at h
        next lines hopen =>
          cases h
          exact .opens hopen
        next fault _ =>
          rw [throws_eq_some h]
          exact .openThrows
      next => cases h
  | compressEncrypt drawn work =>
      rw [step] at h
      split at h
      next hpc =>
        rw [hpc]
        split at h
        next => cases h
        next hlocked => exact compressEncrypt_step (ne_blocking hlocked) h
      next => cases h
  | wakeRun =>
      rw [step] at h
      split at h
      next hpc =>
        cases h
        rw [hpc]
        exact .wakes
      next => cases h
  | client | sent _ | wakeClient => cases ha

theorem client_step {s s' : State} {a : Action} (ha : a.ofBuilder = false)
    (h : step setup a s = some s') : ClientStep setup s s.client s' := by
  cases a with
  | client => exact clientStep_of h
  | sent ok => exact sent_step h
  | wakeClient =>
      rw [step] at h
      split at h
      next hpc =>
        cases h
        rw [hpc]
        exact .wakes
      next => cases h
  | run | openSource _ _ | compressEncrypt _ _ | wakeRun => cases ha

theorem step_cases {s s' : State} {a : Action} (h : step setup a s = some s') :
    RunStep setup s s.run s' ∨ ClientStep setup s s.client s' := by
  cases ha : a.ofBuilder with
  | true => exact .inl (builder_step ha h)
  | false => exact .inr (client_step ha h)

end ClientServer.TaskBuilder
