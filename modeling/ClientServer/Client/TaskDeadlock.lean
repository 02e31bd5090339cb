import ClientServer.Client.TaskPhases

/-!
# When the client waits for a task that never comes

A pass ends without a task where the source is empty or the next line is, and
`run` is left without a notification where a pass throws.  A client in `getTask`
then waits for good.
-/

namespace ClientServer.TaskBuilder

variable {setup : ClientSetup} {s s' : State}

/-- The client is blocked in `getTask`, and the builder does not get on without
`resume` or has left `run`. -/
def State.Deadlock (s : State) : Prop :=
  s.client = .waiting ∧ (s.run = .waiting ∨ s.run = .left ∨ s.run = .released)

/-- The builder is in the inner loop of `run`. -/
def RunPc.inLoop : RunPc → Bool
  | createSubtask _ | getLine _ | compressEncrypt _ _ | lock _ _ _ => true
  | _ => false

/-- The step ends the inner loop with `NONE` or `SUBTASK_DONE`. -/
def EndsUnfinished (s s' : State) : Prop :=
  s.run.inLoop = true ∧ s'.run = .wait ∧ s'._stopped = false ∧
    (s'._status = .NONE ∨ s'._status = .SUBTASK_DONE)

/-- Where the builder asks for a line there is one, and the handler does not store
the status while the client waits or is behind its test. -/
def State.Served (s : State) : RunPc → Prop
  | .getLine lines => s._stopped = true ∨ lines.HasLine
  | .caught => s.client ≠ .blocking ∧ s.client ≠ .waiting
  | _ => True

def Served (a : Action) (s : State) : Prop := a.ofBuilder = true → s.Served s.run

instance (s : State) : ∀ pc, Decidable (s.Served pc)
  | .getLine lines => inferInstanceAs (Decidable (s._stopped = true ∨ lines.HasLine))
  | .caught => inferInstanceAs (Decidable (s.client ≠ .blocking ∧ s.client ≠ .waiting))
  | .loop | .clear | .source | .createSubtask _ | .compressEncrypt _ _ | .lock _ _ _ | .wait
  | .waiting | .notified | .left | .released => inferInstanceAs (Decidable True)

instance (a : Action) (s : State) : Decidable (Served a s) :=
  inferInstanceAs (Decidable (_ → _))

/-! ## What the client waits for comes -/

/-- No pass has ended without a task, and the builder has not left a client that
waits or is about to. -/
structure Awaited (s : State) : Prop where
  notStuck : ¬ Stuck s
  notFailed : s.client = .blocking ∨ s.client = .waiting → s.run.stage ≠ .left

/-- A step out of a pass to the wait for `resume`. -/
theorem Building.taskDone (h : Building s) (hserved : s.Served s.run)
    (hs : RunStep setup s s.run s') (hwait : s'.run.stage = .wait) : s'._status = .TASK_DONE := by
  have hstage := h.stage
  have hbuilt := h.built
  generalize s.run = pc at hs hstage hbuilt hserved
  cases hs with
  | noLine hread =>
      cases hserved with
      | inl hstopped =>
          rw [h.stopped] at hstopped
          cases hstopped
      | inr hline => cases (hbuilt.2.1.getLineImpl hread).1 hline
  | findsStopped hstopped =>
      rw [h.stopped] at hstopped
      cases hstopped
  | taskDone => rfl
  | blocks hpc =>
      obtain rfl | rfl := hpc <;> cases hstage
  | wakes => cases hstage
  | _ => cases hwait

/-- The builder does not leave `run` while the client waits. -/
theorem Building.not_left (h : Building s) (hserved : s.Served s.run)
    (hs : RunStep setup s s.run s') (hclient : s'.client = .blocking ∨ s'.client = .waiting) :
    s'.run.stage ≠ .left := by
  intro hleft
  have hstage := h.stage
  generalize s.run = pc at hs hstage hserved
  cases hs with
  | leaves hstopped =>
      rw [h.stopped] at hstopped
      cases hstopped
  | stores =>
      cases hclient with
      | inl hblocking => exact hserved.1 hblocking
      | inr hwaiting => exact hserved.2 hwaiting
  | releases => cases hstage
  | _ => cases hleft

theorem Awaited.runStep (hphase : Phase setup s) (h : Awaited s) (hserved : s.Served s.run)
    (hs : RunStep setup s s.run s') : Awaited s' := by
  cases hphase with
  | building hb =>
      refine ⟨fun hstuck => ?_, hb.not_left hserved hs⟩
      exact ne_taskDone_of_unfinished hstuck.status (hb.taskDone hserved hs hstuck.stage)
  | done hd =>
      obtain ⟨pc, hpc, rfl⟩ := waits_step hd.stage hd.resume hd.stopped hs
      exact ⟨fun hstuck => ne_taskDone_of_unfinished hstuck.status hd.status,
        fun _ hleft => by cases hpc.symm.trans hleft⟩
  | handed hd =>
      obtain ⟨pc, hpc, rfl⟩ := waits_step hd.stage hd.resume hd.stopped hs
      exact ⟨fun hstuck => ne_taskDone_of_unfinished hstuck.status hd.status,
        fun _ hleft => by cases hpc.symm.trans hleft⟩
  | resumed hr =>
      rw [hr.runStep_eq hs]
      constructor
      · intro hstuck
        cases hstuck.stage
      · intro _ hleft
        cases hleft
  | stuck hstuck => exact absurd hstuck h.notStuck
  | failed hf =>
      rw [hf.runStep_eq hs]
      constructor
      · intro hstuck
        cases hstuck.stage
      · intro hclient
        exact absurd hf.stage (h.notFailed hclient)
  | stopped hclient hstopped =>
      have hclient' := (stopped_runStep hclient hstopped hs).1
      constructor
      · intro hstuck
        have hfree := hstuck.client
        rw [hclient'] at hfree
        cases hfree
      · rintro (hwaiting | hwaiting) <;> cases hclient'.symm.trans hwaiting

/-- A client that is about to block found no task, and one that blocks was about
to. -/
theorem ClientStep.blocked {pc : ClientPc} (hs : ClientStep setup s pc s')
    (hclient : s'.client = .blocking ∨ s'.client = .waiting) :
    s'.run = s.run ∧
      (s.ready = false ∧ (pc = .getTask ∨ pc = .notified) ∨ pc = .blocking) := by
  cases hs with
  | blocks hpc hready => exact ⟨rfl, .inl ⟨hready, hpc⟩⟩
  | sleeps => exact ⟨rfl, .inr rfl⟩
  | _ => obtain hclient | hclient := hclient <;> cases hclient

theorem Phase.not_left_of_blocks (hphase : Phase setup s) (hready : s.ready = false)
    (hpc : s.client = .getTask ∨ s.client = .notified) : s.run.stage ≠ .left := by
  intro hleft
  cases hphase with
  | building h => cases h.stage.symm.trans hleft
  | done h => cases h.stage.symm.trans hleft
  | handed h => cases h.stage.symm.trans hleft
  | resumed h => cases h.stage.symm.trans hleft
  | stuck h => cases h.stage.symm.trans hleft
  | failed h =>
      rw [State.ready, h.status] at hready
      cases hready
  | stopped h =>
      rw [h] at hpc
      cases hpc <;> contradiction

/-- The client does not end a pass. -/
theorem FreeStep.stuck_of_stuck (hs : FreeStep s s') (hfree : s.client.free = true)
    (hstuck : Stuck s') : Stuck s := by
  cases hs with
  | moves => exact { hstuck with client := hfree }
  | takes => cases hstuck.client
  | blocks | sleeps => exact { hstuck with client := hfree }
  | stops hclient =>
      have hfree' := hstuck.client
      rw [hclient] at hfree'
      cases hfree'

theorem Handed.not_stuck {size : Nat} (h : Handed setup s)
    (hs : ClientStep setup s (.returned size .TASK_DONE) s') : ¬ Stuck s' := by
  intro hstuck
  cases hs with
  | resumes => cases (h.resumes size).resume.symm.trans hstuck.resume
  | keeps => exact ne_taskDone_of_unfinished hstuck.status h.status
  | takes => cases hstuck.client
  | blocks hpc => cases hpc <;> contradiction

theorem ClientStep.stuck_of_stuck (hphase : Phase setup s) (hs : ClientStep setup s s.client s')
    (hstuck : Stuck s') : Stuck s := by
  have hof : s.client.free = true → Stuck s :=
    fun hfree => (hs.freeStep hfree).stuck_of_stuck hfree hstuck
  cases hphase with
  | building h => exact hof h.client
  | done h => exact hof h.client
  | handed h =>
      obtain ⟨size, hsize⟩ | ⟨_, ⟨size, i, hclient⟩ | hclient⟩ := h.client
      · rw [hsize] at hs
        exact absurd hstuck (h.not_stuck hs)
      · exact hof (by rw [hclient]; rfl)
      · exact hof (by rw [hclient]; rfl)
  | resumed h => exact hof h.client
  | stuck h => exact h
  | failed h =>
      obtain hfree | ⟨size, hsize⟩ := h.client
      · exact hof hfree
      · rw [hsize] at hs
        cases hs with
        | fails => cases h.stage.symm.trans hstuck.stage
        | resumes hstatus => exact absurd rfl hstatus
        | keeps hstatus => exact absurd rfl hstatus
        | takes => cases hstuck.client
        | blocks => cases h.stage.symm.trans hstuck.stage
  | stopped h =>
      rw [h] at hs
      cases hs with
      | takes => cases hstuck.client
      | blocks hpc => cases hpc <;> contradiction

theorem Awaited.clientStep (hphase : Phase setup s) (h : Awaited s)
    (hs : ClientStep setup s s.client s') : Awaited s' := by
  constructor
  · intro hstuck
    exact h.notStuck (hs.stuck_of_stuck hphase hstuck)
  · intro hclient
    obtain ⟨hrun, ⟨hready, hpc⟩ | hpc⟩ := hs.blocked hclient
    · rw [hrun]
      exact hphase.not_left_of_blocks hready hpc
    · rw [hrun]
      exact h.notFailed (.inl hpc)

theorem Awaited.initial (_task : List Subtask) : Awaited (State.initial _task) where
  notStuck hstuck := by cases hstuck.stage
  notFailed _ hleft := by cases hleft

theorem Reached.awaited (h : Reached setup Served s) : Awaited s := by
  obtain ⟨_task, h⟩ := h
  refine (h.invariant (P := fun s => Phase setup s ∧ Awaited s)
    ⟨Phase.initial _task, Awaited.initial _task⟩ ?_).2
  intro a s s' ⟨hphase, hawaited⟩ hserved hs
  refine ⟨hphase.step hs, ?_⟩
  cases ha : a.ofBuilder with
  | true => exact hawaited.runStep hphase (hserved ha) (builder_step ha hs)
  | false => exact hawaited.clientStep hphase (client_step ha hs)

/-! ## No deadlock -/

theorem Phase.not_deadlock (hphase : Phase setup s) (h : Awaited s) : ¬ s.Deadlock := by
  intro hdeadlock
  obtain ⟨hclient, hrun⟩ := hdeadlock
  cases hphase with
  | building hb =>
      have hstage := hb.stage
      obtain hrun | hrun | hrun := hrun <;> rw [hrun] at hstage <;> cases hstage
  | done hd => exact hd.client_ne.2 hclient
  | handed hd =>
      obtain ⟨size, hother⟩ | ⟨_, ⟨size, i, hother⟩ | hother⟩ := hd.client <;>
        cases hclient.symm.trans hother
  | resumed hr =>
      have hstage := hr.stage
      obtain hrun | hrun | hrun := hrun
      · exact hr.run_ne hrun
      · rw [hrun] at hstage
        cases hstage
      · rw [hrun] at hstage
        cases hstage
  | stuck hstuck => exact h.notStuck hstuck
  | failed hf => exact h.notFailed (.inr hclient) hf.stage
  | stopped hother => cases hclient.symm.trans hother

theorem RunPc.stage_of_inLoop {pc : RunPc} (h : pc.inLoop = true) : pc.stage = .pass := by
  cases pc with
  | createSubtask | getLine | compressEncrypt | lock => rfl
  | _ => cases h

/-- The client does not move a builder that is not blocked. -/
theorem notifyResume_run (h : s.run ≠ .waiting) : s.notifyResume.run = s.run :=
  if_neg h

theorem ClientStep.run_eq {pc : ClientPc} (hs : ClientStep setup s pc s') (h : s.run ≠ .waiting) :
    s'.run = s.run := by
  cases hs with
  | resumes =>
      show s.resume.run = s.run
      rw [State.resume]
      split
      next => rfl
      next => exact notifyResume_run h
  | stops => exact notifyResume_run h
  | _ => rfl

theorem not_endsUnfinished {a : Action} (hphase : Phase setup s) (hserved : Served a s)
    (hs : step setup a s = some s') : ¬ EndsUnfinished s s' := by
  intro ⟨hloop, hwait, hlive, hstatus⟩
  have hpass := RunPc.stage_of_inLoop hloop
  cases ha : a.ofBuilder with
  | false =>
      have hne : s.run ≠ .waiting := by
        intro hrun
        rw [hrun] at hpass
        cases hpass
      rw [← (client_step ha hs).run_eq hne, hwait] at hpass
      cases hpass
  | true =>
      have hstep := builder_step ha hs
      have hwait' : s'.run.stage = .wait := by
        rw [hwait]
        rfl
      cases hphase with
      | building hb =>
          exact ne_taskDone_of_unfinished hstatus (hb.taskDone (hserved ha) hstep hwait')
      | stopped hclient hstopped =>
          cases (stopped_runStep hclient hstopped hstep).2 with
          | inl h => cases hlive.symm.trans h
          | inr h => cases hwait.symm.trans h
      | done h | handed h | resumed h | stuck h | failed h => cases hpass.symm.trans h.stage

/-- If the builder finds a line wherever it asks for one, and does not throw while
the client waits, then no client waits for a task that does not come and no pass
ends unfinished. -/
theorem no_deadlock (h : Reached setup Served s) :
    ¬ s.Deadlock ∧ ∀ {a : Action} {s' : State}, Served a s → step setup a s = some s' →
      ¬ EndsUnfinished s s' :=
  ⟨h.phase.not_deadlock h.awaited, fun hserved hs => not_endsUnfinished h.phase hserved hs⟩

/-- Two passes over two lines; in the second the client waits already. -/
theorem no_deadlock_twoPasses :
    ∃ s : State, (s.client, s.run) = (.notified, .wait) ∧ ¬ s.Deadlock := by
  obtain ⟨s, hr, hs⟩ : ∃ s, Runs.Reached (step lineByLine) Served (State.initial []) s ∧
      (s.client, s.run) = (.notified, .wait) :=
    Runs.exists_reached (opening [0, 0, 0, 0] (some (bytes "a\nb\n")) ++ oneLine ++ oneLine ++
      [.client, .client, .client, .sent true, .sent true, .client, .client, .client, .client,
        .run] ++
      opening [0, 0, 0, 0] (some (bytes "a\nb\n")) ++ oneLine ++ oneLine) (by decide +kernel)
  exact ⟨s, hs, (no_deadlock ⟨_, hr⟩).1⟩

/-- The source is empty, and both wait for each other; or it is not there, and the
builder leaves `run` while the client waits, or behind its test, and then it
blocks. -/
theorem deadlock_reached :
    (∃ s, Reachable lineByLine s ∧ s.Deadlock ∧ s.run = .waiting) ∧
      (∃ s, Reachable lineByLine s ∧ s.Deadlock ∧ s.run = .left) ∧
      ∃ s s' : State, Reachable lineByLine s ∧ s.client = .blocking ∧ s._status = .ERROR ∧
        step lineByLine .client s = some s' ∧ s'.Deadlock := by
  refine ⟨?_, ?_, ?_⟩
  · obtain ⟨s, hr, hs⟩ : ∃ s, Runs.Reached (step lineByLine) (fun _ _ => True)
        (State.initial []) s ∧ (s.client, s.run) = (.waiting, .waiting) :=
      Runs.exists_reached (opening [0, 0, 0, 0] (some []) ++
        [.run, .run, .run, .client, .client, .client]) (by decide +kernel)
    obtain ⟨hclient, hrun⟩ := Prod.mk.inj hs
    exact ⟨s, ⟨_, hr⟩, ⟨hclient, .inl hrun⟩, hrun⟩
  · obtain ⟨s, hr, hs⟩ : ∃ s, Runs.Reached (step lineByLine) (fun _ _ => True)
        (State.initial []) s ∧ (s.client, s.run) = (.waiting, .left) :=
      Runs.exists_reached ([.client, .client, .client] ++ opening [0, 0, 0, 0] none ++ [.run])
        (by decide +kernel)
    obtain ⟨hclient, hrun⟩ := Prod.mk.inj hs
    exact ⟨s, ⟨_, hr⟩, ⟨hclient, .inr (.inl hrun)⟩, hrun⟩
  · obtain ⟨s, hr, hs⟩ : ∃ s, Runs.Reached (step lineByLine) (fun _ _ => True)
        (State.initial []) s ∧ (s.client, s._status, s.run) = (.blocking, .ERROR, .left) :=
      Runs.exists_reached ([.client, .client] ++ opening [0, 0, 0, 0] none ++ [.run])
        (by decide +kernel)
    obtain ⟨hclient, hrest⟩ := Prod.mk.inj hs
    obtain ⟨hstatus, hrun⟩ := Prod.mk.inj hrest
    refine ⟨s, { s with client := .waiting }, ⟨_, hr⟩, hclient, hstatus, ?_, rfl, .inr (.inl hrun)⟩
    simp only [step, State.clientStep, hclient]

end ClientServer.TaskBuilder
