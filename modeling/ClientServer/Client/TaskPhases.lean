import ClientServer.Client.TaskSteps
import ClientServer.Crypto.Pipeline

/-!
# Where the task is

In every run the task is in one of seven phases: the builder makes it, it is
done, the client has it, the client has asked for the next, it never comes, the
builder has failed, or the client has stopped.  A phase fixes `_status` and
`_resume`, which both threads write.
-/

namespace ClientServer.TaskBuilder

variable {setup : ClientSetup}

inductive Stage where
  | pass | wait | left
deriving DecidableEq

/-- The builder is in a pass, behind it, or has left `run`. -/
def RunPc.stage : RunPc → Stage
  | loop | clear | source | createSubtask _ | getLine _ | compressEncrypt _ _ | lock _ _ _
  | caught => .pass
  | wait | waiting | notified => .wait
  | left | released => .left

/-- The client is not between `getTask` and `resume` and has not stopped. -/
def ClientPc.free : ClientPc → Bool
  | processTask | getTask | blocking | waiting | notified | sending _ _ | left => true
  | returned _ _ | stopped => false

/-! ## The phases -/

/-- The subtasks of the pass stand at the front of the vector, and the client has
not asked for the next. -/
structure Front (s : State) : Prop where
  resume : s._resume = false
  index : s._subtaskIndex.toNat = s.built.length
  take : s._subtasks.take s.built.length = s.built

/-- What is built where the builder stands.  There are at most as many subtasks as
lines, and the table of numbers bounds the lines. -/
def Built (s : State) : RunPc → Prop
  | .loop | .clear => s._subtaskIndex = 0 ∧ s.taken = s.built
  | .source => s._resume = false ∧ s._subtaskIndex = 0 ∧ s.built = []
  | .createSubtask lines | .getLine lines =>
      Front s ∧ lines.Standing ∧ s.built.length ≤ lines._index + 1 ∧ lines._index < TASK_MAX_SIZE
  | .compressEncrypt lines _ | .lock lines _ _ =>
      Front s ∧ lines.Standing ∧ s.built.length ≤ lines._index ∧ lines._index < TASK_MAX_SIZE
  | .caught | .wait | .waiting | .notified | .left | .released => True

structure Building (s : State) : Prop where
  stage : s.run.stage = .pass
  stopped : s._stopped = false
  status : s._status = .NONE ∨ s._status = .SUBTASK_DONE
  client : s.client.free = true
  built : Built s s.run

structure Done (s : State) : Prop where
  stage : s.run.stage = .wait
  stopped : s._stopped = false
  resume : s._resume = false
  status : s._status = .TASK_DONE
  client : s.client.free = true
  client_ne : s.client ≠ .blocking ∧ s.client ≠ .waiting
  index : (s._subtaskIndex + 1).toNat = s.built.length
  take : s._subtasks.take s.built.length = s.built

/-- The client took the vector; without a loop it does not ask for another. -/
structure Handed (setup : ClientSetup) (s : State) : Prop where
  stage : s.run.stage = .wait
  stopped : s._stopped = false
  resume : s._resume = false
  status : s._status = .TASK_DONE
  taken : s.taken = s.built
  client : (∃ size, s.client = .returned size .TASK_DONE) ∨
    setup.options._runLoop = false ∧ ((∃ size i, s.client = .sending size i) ∨ s.client = .left)

structure Resumed (s : State) : Prop where
  stage : s.run.stage = .wait
  run_ne : s.run ≠ .waiting
  stopped : s._stopped = false
  resume : s._resume = true
  status : s._status = .NONE
  client : s.client.free = true
  taken : s.taken = s.built
  index : s._subtaskIndex = 0

/-- A pass ended without a task. -/
structure Stuck (s : State) : Prop where
  stage : s.run.stage = .wait
  stopped : s._stopped = false
  resume : s._resume = false
  status : s._status = .NONE ∨ s._status = .SUBTASK_DONE
  client : s.client.free = true

structure Failed (s : State) : Prop where
  stage : s.run.stage = .left
  stopped : s._stopped = false
  status : s._status = .ERROR
  client : s.client.free = true ∨ ∃ size, s.client = .returned size .ERROR

inductive Phase (setup : ClientSetup) (s : State) : Prop where
  | building : Building s → Phase setup s
  | done : Done s → Phase setup s
  | handed : Handed setup s → Phase setup s
  | resumed : Resumed s → Phase setup s
  | stuck : Stuck s → Phase setup s
  | failed : Failed s → Phase setup s
  | stopped : s.client = .stopped → s._stopped = true ∨ s.run = .released → Phase setup s

variable {s s' : State}

/-! ## The vector -/

theorem assignSubtask_take {_subtasks _subtasks' built : List Subtask} {subtask : Subtask}
    (h : State.assignSubtask _subtasks built.length subtask = some _subtasks')
    (htake : _subtasks.take built.length = built) :
    _subtasks'.take (built ++ [subtask]).length = built ++ [subtask] := by
  rw [State.assignSubtask] at h
  rw [List.length_append, List.length_singleton]
  split at h
  next hlt =>
    cases h
    rw [List.take_add_one, List.take_set_of_le (Nat.le_refl _), htake,
      List.getElem?_set_self hlt]
    rfl
  next =>
    split at h
    next hlength =>
      cases h
      rw [hlength, List.take_length] at htake
      rw [htake, List.take_of_length_le]
      rw [List.length_append, List.length_singleton]
    next => cases h

/-- A pass begins at the front of the vector. -/
theorem Front.new (hresume : s._resume = false) (hfirst : s._subtaskIndex = 0)
    (hnone : s.built = []) : Front s := by
  refine ⟨hresume, ?_, ?_⟩
  · rw [hfirst, hnone]
    rfl
  · rw [hnone]
    rfl

theorem Front.index_le (h : Front s) : s._subtaskIndex.toNat ≤ s._subtasks.length := by
  have hlength := congrArg List.length h.take
  rw [List.length_take] at hlength
  rw [h.index]
  omega

theorem toNat_succ {index : UInt32} {n : Nat} (h : index.toNat = n) (hn : n < TASK_MAX_SIZE) :
    (index + 1).toNat = n + 1 := by
  have hlt : n < 10000 := hn
  rw [UInt32.toNat_add, h]
  show (n + 1) % 2 ^ 32 = n + 1
  omega

/-- The subtask goes to the end of those of the pass. -/
theorem Front.assign (h : Front s) (hlt : s.built.length < TASK_MAX_SIZE) {subtask : Subtask}
    {_subtasks : List Subtask}
    (hassign : State.assignSubtask s._subtasks s._subtaskIndex.toNat subtask = some _subtasks) :
    (s._subtaskIndex + 1).toNat = (s.built ++ [subtask]).length ∧
      _subtasks.take (s.built ++ [subtask]).length = s.built ++ [subtask] := by
  constructor
  · rw [toNat_succ h.index hlt, List.length_append, List.length_singleton]
  · rw [h.index] at hassign
    exact assignSubtask_take hassign h.take

theorem ready_of_unfinished (h : s._status = .NONE ∨ s._status = .SUBTASK_DONE) :
    s.ready = false := by
  cases h with
  | inl h => rw [State.ready, h]
  | inr h => rw [State.ready, h]

theorem ne_taskDone_of_unfinished {status : STATUS}
    (h : status = .NONE ∨ status = .SUBTASK_DONE) : status ≠ .TASK_DONE := by
  cases h with
  | inl h =>
      rw [h]
      nofun
  | inr h =>
      rw [h]
      nofun

/-! ## The builder -/

/-- A line that is copied has a number of the table. -/
theorem index_lt_of_copy {_batch line _batch' : Bytes} {index : Int}
    (h : State.copyRequestWithId _batch line index = .ok _batch') (hpos : 0 ≤ index)
    (hle : index ≤ TASK_MAX_SIZE) : index < TASK_MAX_SIZE := by
  rw [State.copyRequestWithId, getRequestId] at h
  have hle' : index ≤ 10000 := hle
  have hindex : (index % 2 ^ 64).toNat = index.toNat := by omega
  rw [hindex] at h
  split at h
  next hlt =>
    have : index.toNat < 10000 := hlt
    show index < 10000
    omega
  next => cases h

/-- The reader behind a line it handed out. -/
theorem reader_step {lines lines' : Lines} {line _batch : Bytes} {n : Nat}
    (hstanding : lines.Standing) (hn : n ≤ lines._index + 1) (hlt : lines._index < TASK_MAX_SIZE)
    (hread : lines.getLineImpl = .ok (true, line, lines'))
    (hcopy : State.copyRequestWithId s._batch line lines'._index = .ok _batch) :
    lines'.Standing ∧ n ≤ lines'._index ∧ lines'._index < TASK_MAX_SIZE := by
  obtain ⟨hindex, hstanding'⟩ := (hstanding.getLineImpl hread).2 rfl
  have hle : lines'._index ≤ TASK_MAX_SIZE := by omega
  have hpos : 0 ≤ lines'._index := by omega
  exact ⟨hstanding', by omega, index_lt_of_copy hcopy hpos hle⟩

theorem fileLines_standing {_buffer : Bytes} {file : Option Bytes} {lines : Lines}
    (h : FileLines.new _buffer file 10 true = .ok lines) :
    lines.Standing ∧ lines._index = -1 := by
  cases file with
  | none => cases h
  | some source =>
      cases h
      exact ⟨.inside (Lines.At.new _buffer source 10 true), rfl⟩

theorem free_notified {client : ClientPc} (h : client.free = true) :
    (if client = .waiting then .notified else client).free = true := by
  split
  next => rfl
  next => exact h

/-- A client outside the section of its test does not block behind a notification. -/
theorem notified_ne_waiting {client : ClientPc} (h : client ≠ .blocking) :
    (if client = .waiting then .notified else client) ≠ ClientPc.blocking ∧
      (if client = .waiting then .notified else client) ≠ ClientPc.waiting := by
  split
  next => exact ⟨nofun, nofun⟩
  next hne => exact ⟨h, hne⟩

theorem Building.runStep (h : Building s) (hs : RunStep setup s s.run s') : Phase setup s' := by
  have hstage := h.stage
  have hbuilt := h.built
  generalize hpc : s.run = pc at hs hstage hbuilt
  cases hs with
  | leaves hstopped =>
      rw [h.stopped] at hstopped
      cases hstopped
  | enters => exact .building { h with stage := rfl, built := hbuilt }
  | clears => exact .building { h with stage := rfl, built := ⟨rfl, hbuilt.1, rfl⟩ }
  | opens hopen =>
      obtain ⟨hstanding, hindex⟩ := fileLines_standing hopen
      obtain ⟨hresume, hfirst, hnone⟩ := hbuilt
      have hfront := Front.new hresume hfirst hnone
      refine .building { h with stage := rfl, built := ⟨{ hfront with }, hstanding, ?_, ?_⟩ }
      · show (s.built.length : Int) ≤ _
        rw [hnone, hindex]
        decide
      · rw [hindex]
        decide
  | openThrows => exact .building { h with stage := rfl, built := trivial }
  | begins =>
      obtain ⟨hfront, hreader⟩ := hbuilt
      exact .building { h with stage := rfl, built := ⟨{ hfront with }, hreader⟩ }
  | readThrows => exact .building { h with stage := rfl, built := trivial }
  | noLine => exact .stuck ⟨rfl, h.stopped, hbuilt.1.resume, h.status, h.client⟩
  | copies hread hcopy =>
      obtain ⟨hfront, hstanding, hlength, hindex⟩ := hbuilt
      have hreader := reader_step hstanding hlength hindex hread hcopy
      exact .building { h with stage := rfl, built := ⟨{ hfront with }, hreader⟩ }
  | goesOn hread hcopy =>
      obtain ⟨hfront, hstanding, hlength, hindex⟩ := hbuilt
      obtain ⟨hstanding', hlength', hindex'⟩ := reader_step hstanding hlength hindex hread hcopy
      refine .building { h with
        stage := rfl
        built := ⟨{ hfront with }, hstanding', ?_, hindex'⟩ }
      show (s.built.length : Int) ≤ _
      omega
  | readsStatus =>
      obtain ⟨hfront, hreader⟩ := hbuilt
      exact .building { h with stage := rfl, built := ⟨{ hfront with }, hreader⟩ }
  | findsStopped hstopped =>
      rw [h.stopped] at hstopped
      cases hstopped
  | encryptThrows => exact .building { h with stage := rfl, built := trivial }
  | taskDone _ hclient hassign =>
      obtain ⟨hfront, _, hlength, hindex⟩ := hbuilt
      obtain ⟨hnext, htake⟩ := hfront.assign (by omega) hassign
      exact .done
        { stage := rfl
          stopped := h.stopped
          resume := hfront.resume
          status := rfl
          client := free_notified h.client
          client_ne := notified_ne_waiting hclient
          index := hnext
          take := htake }
  | subtaskDone _ hassign =>
      obtain ⟨hfront, hstanding, hlength, hindex⟩ := hbuilt
      obtain ⟨hnext, htake⟩ := hfront.assign (by omega) hassign
      refine .building
        { stage := rfl
          stopped := h.stopped
          status := .inr rfl
          client := h.client
          built := ⟨⟨hfront.resume, hnext, htake⟩, hstanding, ?_, hindex⟩ }
      show ((s.built ++ [_]).length : Int) ≤ _
      rw [List.length_append, List.length_singleton]
      omega
  | resumes hwait | blocks hwait => obtain rfl | rfl := hwait <;> cases hstage
  | stores => exact .failed ⟨rfl, h.stopped, rfl, .inl h.client⟩
  | releases | wakes => cases hstage

/-- Behind a pass the builder does not get on without `resume` or `stop`. -/
theorem waits_step (hstage : s.run.stage = .wait) (hresume : s._resume = false)
    (hstopped : s._stopped = false) (hs : RunStep setup s s.run s') :
    ∃ pc : RunPc, pc.stage = .wait ∧ s' = { s with run := pc } := by
  generalize s.run = pc at hs hstage
  cases hs with
  | resumes _ hgo =>
      rw [hresume, hstopped] at hgo
      cases hgo
  | blocks | wakes => exact ⟨_, rfl, rfl⟩
  | _ => cases hstage

theorem Resumed.runStep_eq (h : Resumed s) (hs : RunStep setup s s.run s') :
    s' = { s with run := .loop } := by
  have hstage := h.stage
  have hne := h.run_ne
  generalize s.run = pc at hs hstage hne
  cases hs with
  | resumes => rfl
  | blocks _ hgo =>
      rw [h.resume] at hgo
      cases hgo
  | wakes => exact absurd rfl hne
  | _ => cases hstage

theorem Failed.runStep_eq (h : Failed s) (hs : RunStep setup s s.run s') :
    s' = { s with run := .released } := by
  have hstage := h.stage
  generalize s.run = pc at hs hstage
  cases hs with
  | releases => rfl
  | resumes hwait | blocks hwait => obtain rfl | rfl := hwait <;> cases hstage
  | _ => cases hstage

/-- The builder does not touch a client that has stopped. -/
theorem stopped_runStep (h : s.client = .stopped) (hstopped : s._stopped = true ∨ s.run = .released)
    (hs : RunStep setup s s.run s') :
    s'.client = .stopped ∧ (s'._stopped = true ∨ s'.run = .released) := by
  generalize s.run = pc at hs hstopped
  cases hs with
  | taskDone hlive =>
      cases hstopped with
      | inl hstopped => cases hlive.symm.trans hstopped
      | inr hrun => cases hrun
  | resumes hwait | blocks hwait =>
      refine ⟨h, .inl (hstopped.resolve_right ?_)⟩
      obtain rfl | rfl := hwait <;> nofun
  | releases => exact ⟨h, .inr rfl⟩
  | _ => exact ⟨h, .inl (hstopped.resolve_right nofun)⟩

theorem Phase.runStep (h : Phase setup s) (hs : RunStep setup s s.run s') : Phase setup s' := by
  cases h with
  | building h => exact h.runStep hs
  | done h =>
      obtain ⟨pc, hpc, rfl⟩ := waits_step h.stage h.resume h.stopped hs
      exact .done { h with stage := hpc }
  | handed h =>
      obtain ⟨pc, hpc, rfl⟩ := waits_step h.stage h.resume h.stopped hs
      exact .handed { h with stage := hpc }
  | resumed h =>
      rw [h.runStep_eq hs]
      exact .building ⟨rfl, h.stopped, .inl h.status, h.client, h.index, h.taken⟩
  | stuck h =>
      obtain ⟨pc, hpc, rfl⟩ := waits_step h.stage h.resume h.stopped hs
      exact .stuck { h with stage := hpc }
  | failed h =>
      rw [h.runStep_eq hs]
      exact .failed { h with stage := rfl }
  | stopped h hstopped =>
      obtain ⟨hclient, hstopped'⟩ := stopped_runStep h hstopped hs
      exact .stopped hclient hstopped'

/-! ## The client -/

theorem Built.setClient {pc : RunPc} (h : Built s pc) (client : ClientPc) (numberTasks : Nat) :
    Built { s with numberTasks := numberTasks, client := client } pc := by
  cases pc with
  | createSubtask | getLine | compressEncrypt | lock => exact ⟨{ h.1 with }, h.2⟩
  | _ => exact h

/-- What a free client does. -/
inductive FreeStep (s : State) : State → Prop where
  | moves {pc : ClientPc} {numberTasks : Nat} :
      pc.free = true → pc ≠ .blocking ∧ pc ≠ .waiting →
      FreeStep s { s with numberTasks := numberTasks, client := pc }
  | takes : s.ready = true →
      FreeStep s { s with
        _task := s._subtasks
        _subtasks := s._task
        taken := s.built
        client := .returned (s._subtaskIndex + 1).toNat s._status }
  | blocks : s.ready = false → FreeStep s { s with client := .blocking }
  | sleeps : s.client = .blocking → FreeStep s { s with client := .waiting }
  | stops {s' : State} : s'.client = .stopped → s'._stopped = true ∨ s'.run = .released →
      FreeStep s s'

theorem ClientStep.freeStep (h : s.client.free = true) (hs : ClientStep setup s s.client s') :
    FreeStep s s' := by
  generalize hpc : s.client = pc at hs h
  cases hs with
  | finds | findsNone | sends | sendFails | repeats | ends | wakes =>
      exact .moves rfl ⟨nofun, nofun⟩
  | takes _ hready => exact .takes hready
  | blocks _ hready => exact .blocks hready
  | sleeps => exact .sleeps hpc
  | fails | resumes | keeps => cases h
  | stops => exact .stops rfl (.inl rfl)
  | stopsNone hrun => exact .stops rfl (.inr hrun)

/-- A free client that finds no task moves on or stops. -/
theorem ClientStep.unready (h : s.client.free = true) (hnot : s.ready = false)
    (hs : ClientStep setup s s.client s') :
    (∃ (pc : ClientPc) (numberTasks : Nat), pc.free = true ∧
      s' = { s with numberTasks := numberTasks, client := pc }) ∨
    s'.client = .stopped ∧ (s'._stopped = true ∨ s'.run = .released) := by
  cases hs.freeStep h with
  | moves hfree => exact .inl ⟨_, _, hfree, rfl⟩
  | takes hready => cases hnot.symm.trans hready
  | blocks => exact .inl ⟨.blocking, s.numberTasks, rfl, rfl⟩
  | sleeps => exact .inl ⟨.waiting, s.numberTasks, rfl, rfl⟩
  | stops hclient hstopped => exact .inr ⟨hclient, hstopped⟩

theorem Building.clientStep (h : Building s) (hs : ClientStep setup s s.client s') :
    Phase setup s' := by
  obtain ⟨pc, numberTasks, hfree, rfl⟩ | ⟨hclient, hstopped⟩ :=
    hs.unready h.client (ready_of_unfinished h.status)
  · exact .building { h with client := hfree, built := h.built.setClient pc numberTasks }
  · exact .stopped hclient hstopped

theorem Done.clientStep (h : Done s) (hs : ClientStep setup s s.client s') : Phase setup s' := by
  cases hs.freeStep h.client with
  | moves hfree hne => exact .done { h with client := hfree, client_ne := hne }
  | takes =>
      refine .handed { h with taken := rfl, client := .inl ⟨(s._subtaskIndex + 1).toNat, ?_⟩ }
      rw [← h.status]
  | blocks hready =>
      rw [State.ready, h.status] at hready
      cases hready
  | sleeps hblocking => exact absurd hblocking h.client_ne.1
  | stops hclient hstopped => exact .stopped hclient hstopped

theorem Resumed.clientStep (h : Resumed s) (hs : ClientStep setup s s.client s') :
    Phase setup s' := by
  obtain ⟨pc, numberTasks, hfree, rfl⟩ | ⟨hclient, hstopped⟩ :=
    hs.unready h.client (ready_of_unfinished (.inl h.status))
  · exact .resumed { h with client := hfree }
  · exact .stopped hclient hstopped

theorem Stuck.clientStep (h : Stuck s) (hs : ClientStep setup s s.client s') :
    Phase setup s' := by
  obtain ⟨pc, numberTasks, hfree, rfl⟩ | ⟨hclient, hstopped⟩ :=
    hs.unready h.client (ready_of_unfinished h.status)
  · exact .stuck { h with client := hfree }
  · exact .stopped hclient hstopped

theorem Failed.clientStep (h : Failed s) (hs : ClientStep setup s s.client s') :
    Phase setup s' := by
  cases h.client with
  | inl hfree =>
      cases hs.freeStep hfree with
      | moves hfree' => exact .failed { h with client := .inl hfree' }
      | takes =>
          refine .failed { h with client := .inr ⟨(s._subtaskIndex + 1).toNat, ?_⟩ }
          rw [← h.status]
      | blocks | sleeps => exact .failed { h with client := .inl rfl }
      | stops hclient hstopped => exact .stopped hclient hstopped
  | inr hreturned =>
      obtain ⟨size, hsize⟩ := hreturned
      rw [hsize] at hs
      cases hs with
      | fails => exact .failed { h with client := .inl rfl }
      | resumes hstatus => exact absurd rfl hstatus
      | keeps hstatus => exact absurd rfl hstatus
      | takes hpc | blocks hpc => cases hpc <;> contradiction

/-- The client calls `resume`. -/
theorem Handed.resumes (h : Handed setup s) (size : Nat) :
    Resumed { s.resume with client := .sending size 0 } := by
  have hresume : s.resume =
      { s with _subtaskIndex := 0, _status := .NONE, _resume := true }.notifyResume := by
    rw [State.resume, h.stopped]
    rfl
  rw [hresume]
  refine ⟨?_, ?_, h.stopped, rfl, rfl, rfl, h.taken, rfl⟩
  · show (if s.run = .waiting then RunPc.notified else s.run).stage = .wait
    split
    next => rfl
    next => exact h.stage
  · show (if s.run = .waiting then RunPc.notified else s.run) ≠ .waiting
    split
    next => nofun
    next hne => exact hne

theorem Handed.clientStep (h : Handed setup s) (hs : ClientStep setup s s.client s') :
    Phase setup s' := by
  cases h.client with
  | inl hreturned =>
      obtain ⟨size, hsize⟩ := hreturned
      rw [hsize] at hs
      cases hs with
      | resumes => exact .resumed (h.resumes size)
      | keeps _ hloop => exact .handed { h with client := .inr ⟨hloop, .inl ⟨size, 0, rfl⟩⟩ }
      | takes hpc | blocks hpc => cases hpc <;> contradiction
  | inr hsent =>
      obtain ⟨hloop, hsending | hleft⟩ := hsent
      · obtain ⟨size, i, hsize⟩ := hsending
        rw [hsize] at hs
        cases hs with
        | sends => exact .handed { h with client := .inr ⟨hloop, .inl ⟨size, i + 1, rfl⟩⟩ }
        | sendFails => exact .handed { h with client := .inr ⟨hloop, .inr rfl⟩ }
        | repeats hmore =>
            rw [hloop] at hmore
            cases hmore
        | ends => exact .handed { h with client := .inr ⟨hloop, .inr rfl⟩ }
        | takes hpc | blocks hpc => cases hpc <;> contradiction
      · rw [hleft] at hs
        cases hs with
        | stops => exact .stopped rfl (.inl rfl)
        | stopsNone hrun => exact .stopped rfl (.inr hrun)
        | takes hpc | blocks hpc => cases hpc <;> contradiction

theorem Phase.clientStep (h : Phase setup s) (hs : ClientStep setup s s.client s') :
    Phase setup s' := by
  cases h with
  | building h => exact h.clientStep hs
  | done h => exact h.clientStep hs
  | handed h => exact h.clientStep hs
  | resumed h => exact h.clientStep hs
  | stuck h => exact h.clientStep hs
  | failed h => exact h.clientStep hs
  | stopped h =>
      rw [h] at hs
      cases hs with
      | takes hpc | blocks hpc => cases hpc <;> contradiction

theorem Phase.initial (_task : List Subtask) : Phase setup (State.initial _task) :=
  .building ⟨rfl, rfl, .inl rfl, rfl, rfl, rfl⟩

theorem Phase.step {a : Action} (h : Phase setup s) (hs : step setup a s = some s') :
    Phase setup s' := by
  cases step_cases hs with
  | inl hs => exact h.runStep hs
  | inr hs => exact h.clientStep hs

/-- Every state of every run is in a phase. -/
theorem Reached.phase {allowed : Action → State → Prop} (h : Reached setup allowed s) :
    Phase setup s := by
  obtain ⟨_task, h⟩ := h
  exact h.invariant (Phase.initial _task) fun h _ hs => h.step hs

/-- The builder is in a pass only when it makes the task, or after a stop. -/
theorem Phase.of_pass (h : Phase setup s) (hstage : s.run.stage = .pass) :
    Building s ∨ s.client = .stopped ∧ s._stopped = true := by
  cases h with
  | building h => exact .inl h
  | done h => cases hstage.symm.trans h.stage
  | handed h => cases hstage.symm.trans h.stage
  | resumed h => cases hstage.symm.trans h.stage
  | stuck h => cases hstage.symm.trans h.stage
  | failed h => cases hstage.symm.trans h.stage
  | stopped hclient hstopped =>
      refine .inr ⟨hclient, hstopped.resolve_right fun hreleased => ?_⟩
      rw [hreleased] at hstage
      cases hstage

/-! ## A client that runs in a loop -/

/-- It neither compresses nor encrypts, and every line is a subtask. -/
def lineByLine : ClientSetup where
  options :=
    { _compressor := .NONE
      _diagnostics := .NONE
      _doEncrypt := false
      _singleEncryptor := .CRYPTOSODIUM
      _doubleEncryption := false
      _bufferSize := UInt64.ofNat HEADER_SIZE
      _runLoop := true
      _maxNumberTasks := 0 }
  lib := ShortRequest.libraries
  party := ShortRequest.client.party

/-- The builder opens the source. -/
def opening (_buffer : Bytes) (file : Option Bytes) : List Action :=
  [.run, .run, .openSource _buffer file]

/-- The builder makes a subtask of a line. -/
def oneLine : List Action :=
  [.run, .run, .run, .compressEncrypt ShortRequest.drawn ShortRequest.work]

end ClientServer.TaskBuilder
