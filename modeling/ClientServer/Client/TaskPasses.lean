import ClientServer.Client.TaskPhases

/-!
# A task is one pass

What the client takes is what the builder built in the pass it is in, whatever
the two vectors that go to and fro between them still hold from earlier passes.
-/

namespace ClientServer.TaskBuilder

variable {setup : ClientSetup} {s s' : State}

/-- The first elements of the vector of the client are the subtasks of the pass it
took. -/
structure Holds (s : State) (size : Nat) : Prop where
  size_le : size ≤ s._task.length
  take : s._task.take size = s.taken

/-- From `getTask` on, up to the last subtask that is sent. -/
structure Taken (s : State) : Prop where
  returned : ∀ {size : Nat}, s.client = .returned size .TASK_DONE → Holds s size
  sending : ∀ {size i : Nat}, s.client = .sending size i → Holds s size

/-! ## The builder -/

/-- The builder changes nothing of what the client has. -/
theorem RunStep.frame {pc : RunPc} (hs : RunStep setup s pc s') :
    s'._task = s._task ∧ s'.taken = s.taken ∧
      (s'.client = s.client ∨ s.client = .waiting ∧ s'.client = .notified) := by
  cases hs with
  | taskDone =>
      refine ⟨rfl, rfl, ?_⟩
      show (if s.client = .waiting then ClientPc.notified else s.client) = s.client ∨
        s.client = .waiting ∧ (if s.client = .waiting then ClientPc.notified else s.client) = _
      cases Classical.em (s.client = .waiting) with
      | inl h =>
          rw [if_pos h]
          exact .inr ⟨h, rfl⟩
      | inr h =>
          rw [if_neg h]
          exact .inl rfl
  | _ => exact ⟨rfl, rfl, .inl rfl⟩

theorem Holds.frame {size : Nat} (h : Holds s size) (htask : s'._task = s._task)
    (htaken : s'.taken = s.taken) : Holds s' size where
  size_le := by
    rw [htask]
    exact h.size_le
  take := by
    rw [htask, htaken]
    exact h.take

theorem Taken.runStep {pc : RunPc} (h : Taken s) (hs : RunStep setup s pc s') : Taken s' := by
  obtain ⟨htask, htaken, hclient⟩ := hs.frame
  cases hclient with
  | inl hclient =>
      constructor
      · intro size hsize
        exact (h.returned (hclient.symm.trans hsize)).frame htask htaken
      · intro size i hsize
        exact (h.sending (hclient.symm.trans hsize)).frame htask htaken
  | inr hwoken =>
      constructor
      · intro size hsize
        rw [hwoken.2] at hsize
        cases hsize
      · intro size i hsize
        rw [hwoken.2] at hsize
        cases hsize

/-! ## The client -/

/-- A done task is at the front of the vector of the builder. -/
theorem Done.holds (h : Done s) :
    (s._subtaskIndex + 1).toNat ≤ s._subtasks.length ∧
      s._subtasks.take (s._subtaskIndex + 1).toNat = s.built := by
  rw [h.index]
  have hlength := congrArg List.length h.take
  rw [List.length_take] at hlength
  exact ⟨by omega, h.take⟩

/-- A client in `getTask` takes a done task only. -/
theorem Phase.done_of_getTask (h : Phase setup s) (hpc : s.client = .getTask ∨ s.client = .notified)
    (hstatus : s._status = .TASK_DONE) : Done s := by
  cases h with
  | building h => exact absurd hstatus (ne_taskDone_of_unfinished h.status)
  | done h => exact h
  | handed h =>
      obtain ⟨size, hclient⟩ | ⟨_, ⟨size, i, hclient⟩ | hclient⟩ := h.client <;>
        rw [hclient] at hpc <;> cases hpc <;> contradiction
  | resumed h => exact absurd hstatus (ne_taskDone_of_unfinished (.inl h.status))
  | stuck h => exact absurd hstatus (ne_taskDone_of_unfinished h.status)
  | failed h => cases hstatus.symm.trans h.status
  | stopped h =>
      rw [h] at hpc
      cases hpc <;> contradiction

/-- What `getTask` returned is a done task or an error. -/
theorem Phase.returned_status (h : Phase setup s) {size : Nat} {status : STATUS}
    (hclient : s.client = .returned size status) : status = .TASK_DONE ∨ status = .ERROR := by
  have hnotFree : s.client.free ≠ true := by
    rw [hclient]
    nofun
  cases h with
  | building h => exact absurd h.client hnotFree
  | done h => exact absurd h.client hnotFree
  | handed h =>
      obtain ⟨size', hreturned⟩ | ⟨_, ⟨size', i, hother⟩ | hother⟩ := h.client
      · cases hclient.symm.trans hreturned
        exact .inl rfl
      · cases hclient.symm.trans hother
      · cases hclient.symm.trans hother
  | resumed h => exact absurd h.client hnotFree
  | stuck h => exact absurd h.client hnotFree
  | failed h =>
      obtain hfree | ⟨size', hreturned⟩ := h.client
      · exact absurd hfree hnotFree
      · cases hclient.symm.trans hreturned
        exact .inr rfl
  | stopped h => cases hclient.symm.trans h

theorem resume_frame (s : State) : s.resume._task = s._task ∧ s.resume.taken = s.taken := by
  rw [State.resume]
  split
  next => exact ⟨rfl, rfl⟩
  next => exact ⟨rfl, rfl⟩

/-- The vector of the client does not change while it sends. -/
theorem Taken.clientStep (hphase : Phase setup s) (h : Taken s)
    (hs : ClientStep setup s s.client s') : Taken s' := by
  generalize hpc : s.client = pc at hs
  cases hs with
  | takes hgetTask =>
      rw [← hpc] at hgetTask
      constructor
      · intro size hsize
        obtain ⟨rfl, hstatus⟩ := ClientPc.returned.inj hsize
        have hholds := (hphase.done_of_getTask hgetTask hstatus).holds
        exact ⟨hholds.1, hholds.2⟩
      · intro size i hsize
        cases hsize
  | resumes hstatus =>
      have hframe := resume_frame s
      have hdone := (hphase.returned_status hpc).resolve_right hstatus
      rw [hdone] at hpc
      constructor
      · intro size hsize
        cases hsize
      · intro size i hsize
        cases hsize
        exact (h.returned hpc).frame hframe.1 hframe.2
  | keeps hstatus =>
      have hdone := (hphase.returned_status hpc).resolve_right hstatus
      rw [hdone] at hpc
      constructor
      · intro size hsize
        cases hsize
      · intro size i hsize
        cases hsize
        exact (h.returned hpc).frame rfl rfl
  | sends =>
      constructor
      · intro size hsize
        cases hsize
      · intro size i hsize
        cases hsize
        exact (h.sending hpc).frame rfl rfl
  | _ => exact ⟨nofun, nofun⟩

theorem Reached.taken {allowed : Action → State → Prop} (h : Reached setup allowed s) :
    Taken s := by
  obtain ⟨_task, h⟩ := h
  refine (h.invariant (P := fun s => Phase setup s ∧ Taken s)
    ⟨Phase.initial _task, ⟨nofun, nofun⟩⟩ ?_).2
  intro a s s' ⟨hphase, htaken⟩ _ hs
  refine ⟨hphase.step hs, ?_⟩
  cases step_cases hs with
  | inl hs => exact htaken.runStep hs
  | inr hs => exact htaken.clientStep hphase hs

/-! ## All runs -/

/-- A task is one pass: what `getTask` returns with `TASK_DONE` is what was built
in the pass, and it stays so while it is sent. -/
structure OnePass (setup : ClientSetup) (s : State) : Prop where
  getTask : ∀ {s' : State} {size : Nat}, step setup .client s = some s' →
    s.client = .getTask ∨ s.client = .notified → s'.client = .returned size .TASK_DONE →
    size ≤ s'._task.length ∧ s'._task.take size = s.built ∧ s'.taken = s.built
  returned : ∀ {size : Nat}, s.client = .returned size .TASK_DONE → Holds s size
  sending : ∀ {size i : Nat}, s.client = .sending size i → Holds s size
  /-- The builder does not touch what the client has. -/
  builder : ∀ {a : Action} {s' : State}, a.ofBuilder = true → step setup a s = some s' →
    s'._task = s._task ∧ s'.taken = s.taken
  /-- It does not begin a pass before the client has the one before. -/
  nextPass : s.run = .clear → s.client ≠ .stopped → s.taken = s.built

/-- In every run of the builder and the client, for any source, any buffer size and
whatever the passes build. -/
theorem task_onePass (h : Reachable setup s) : OnePass setup s where
  getTask := by
    intro s' size hs hpc hreturned
    have hgetTask : s' = s.getTask := by
      rw [step, State.clientStep] at hs
      cases hpc with
      | inl hpc =>
          rw [hpc] at hs
          exact (Option.some.inj hs).symm
      | inr hpc =>
          rw [hpc] at hs
          exact (Option.some.inj hs).symm
    subst hgetTask
    rw [State.getTask] at hreturned ⊢
    split at hreturned
    next hready =>
      rw [if_pos hready]
      obtain ⟨rfl, hstatus⟩ := ClientPc.returned.inj hreturned
      have hholds := (h.phase.done_of_getTask hpc hstatus).holds
      exact ⟨hholds.1, hholds.2, rfl⟩
    next => cases hreturned
  returned := h.taken.returned
  sending := h.taken.sending
  builder := by
    intro a s' ha hs
    have hframe := (builder_step ha hs).frame
    exact ⟨hframe.1, hframe.2.1⟩
  nextPass := by
    intro hrun hclient
    have hstage : s.run.stage = .pass := by
      rw [hrun]
      rfl
    obtain h | ⟨hstopped, -⟩ := h.phase.of_pass hstage
    · have hbuilt := h.built
      rw [hrun] at hbuilt
      exact hbuilt.2
    · exact absurd hstopped hclient

/-- In the second pass the client sends two subtasks, and the vector holds a third
one from before. -/
theorem task_onePass_twoPasses :
    ∃ s, (s.client, s._task.length) = (.sending 2 0, 3) ∧ OnePass lineByLine s := by
  obtain ⟨s, hr, hs⟩ : ∃ s, Runs.Reached (step lineByLine) (fun _ _ => True)
      (State.initial [⟨[], default⟩, ⟨[], default⟩, ⟨[], default⟩]) s ∧
      (s.client, s._task.length) = (.sending 2 0, 3) :=
    Runs.exists_reached (opening [0, 0, 0, 0] (some (bytes "a\n")) ++ oneLine ++
      [.client, .client, .client, .sent true, .client, .run] ++
      opening [0, 0, 0, 0] (some (bytes "a\nb\n")) ++ oneLine ++ oneLine ++
      [.client, .client, .client]) (by decide +kernel)
  exact ⟨s, hs, task_onePass ⟨_, hr⟩⟩

end ClientServer.TaskBuilder
