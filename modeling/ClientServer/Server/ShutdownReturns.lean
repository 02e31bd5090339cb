import ClientServer.Server.Shutdown
import ClientServer.Server.TaskProgress

/-!
# Whether the stop returns

If `_stopped` is stored at a balanced moment, no worker waits at the barrier for
one that is gone, and `ThreadPoolBase::stop` can join all threads: the workers
come to their next test, and behind it each thread leaves its loop.  If it is
stored at any other moment, the stop does not return.
-/

namespace ClientServer.Shutdown

open TaskController (Sim Faults ControllerStep)

variable {σ ω Λ : Type} [DecidableEq σ] [DecidableEq ω] {options : ServerOptions}
  {server : Option (Policy Λ)} {crew : Crew ω} {s s' : State σ ω Λ} {label : Option StopPc}

/-! ## The flag and the tasks -/

omit [DecidableEq σ] [DecidableEq ω] in
theorem Inv.stored_of_stopped (h : Inv crew s) (hstopped : s._threadPool._stopped = true) :
    s._stopped = true := by
  have hpc := h.stopped
  rw [h.stored]
  cases hstopping : s.stopping with
  | before | stored =>
      rw [hstopping, hstopped] at hpc
      cases hpc
  | joining | returned => rfl

theorem stored_step (hstep : Step options server crew s label s') (hstopped : s._stopped = true) :
    s'._stopped = true := by
  cases hstep with
  | store => rfl
  | refuse | count | emplace | thread | look | leave | arrive | work | take | keep | stop | join
  | returns => exact hstopped

theorem store_of_step (hstep : Step options server crew s label s') (hlive : s._stopped = false)
    (hstopped : s'._stopped = true) :
    label = some .stored ∧ s'.controller = s.controller := by
  cases hstep with
  | store => exact ⟨rfl, rfl⟩
  | refuse | count | emplace | thread | look | leave | arrive | work | take | keep | stop | join
  | returns => exact nomatch hlive.symm.trans hstopped

/-- The tasks live as they should, until the barrier opens without a task and the
workers are to leave. -/
def State.Sound (s : State σ ω Λ) : Prop :=
  (∃ life, Sim s.controller life) ∨
    s._stopped = true ∧ ∀ w, s.controller.workers w = .ready

theorem State.Sound.step [Nonempty ω] (h : s.Sound) (hstep : Step options server crew s label s') :
    s'.Sound := by
  rcases h with ⟨life, hsim⟩ | ⟨hstopped, hready⟩
  · have hcontroller : ∀ {label : Option (Event σ)} {c : TaskController.State σ ω Λ},
        TaskController.Step options server s.controller label c → ∃ life, Sim c life := by
      intro label c hwork
      obtain ⟨life', -, hsim'⟩ := hsim.step hwork
      exact ⟨life', hsim'⟩
    cases hstep with
    | look w _ hready => exact .inl (hcontroller (.look w hready))
    | arrive w hw => exact .inl (hcontroller (.arrive w hw))
    | work event controller hwork => exact .inl (hcontroller hwork)
    | take t _queue hcompleting hqueue =>
        exact .inl (hcontroller (.take t _queue hcompleting hqueue))
    | keep _ hstopped => exact .inr ⟨hstopped, fun _ => rfl⟩
    | refuse | count | emplace | thread | leave | store | stop | join | returns =>
        exact .inl ⟨life, hsim⟩
  · exact .inr ⟨stored_step hstep hstopped, (moves_of_step hstep).ready hstopped hready⟩

/-- What is so along a run that is stopped at a balanced moment. -/
structure Keeps (crew : Crew ω) (s : State σ ω Λ) : Prop where
  inv : Inv crew s
  sound : Nonempty ω → s.Sound
  balanced : s._stopped = true → s.Balanced

theorem Keeps.step (h : Keeps crew s) (hstep : BalancedStep options server crew s label s') :
    Keeps crew s' := by
  obtain ⟨hstep, hstore⟩ := hstep
  refine ⟨h.inv.step hstep, fun _ => (h.sound ‹_›).step hstep, fun hstopped => ?_⟩
  cases hlive : s._stopped with
  | true => exact (moves_of_step hstep).balanced hlive (h.balanced hlive)
  | false =>
      obtain ⟨hlabel, hcontroller⟩ := store_of_step hstep hlive hstopped
      rw [State.Balanced, hcontroller]
      exact hstore hlabel

omit [DecidableEq σ] [DecidableEq ω] in
/-- Nobody waits for a worker that is gone. -/
theorem Keeps.not_hangs (h : Keeps crew s) : ¬ s.Hangs := by
  rintro ⟨-, w, w', hw, hpush, hruns, hqueue⟩
  cases hstopped : s._stopped with
  | false =>
      rcases h.inv.placed hstopped w' with hmem | hmem | hmem
      · exact hpush hmem
      · exact nomatch hstopped.symm.trans (h.inv.stored_of_stopped (hqueue hmem))
      · exact hruns hmem
  | true =>
      rcases h.balanced hstopped with hready | hpast
      · exact nomatch hw.symm.trans (hready w)
      · exact hruns (h.inv.running w' (hpast w'))

/-! ## The workers come to their tests -/

theorem completing_of_take {c c' : TaskController.State σ ω Λ} {event : Event σ}
    (h : TaskController.Step options server c (some event) c') (htake : event.action = .take) :
    c.completing = true := by
  cases h with
  | take t _queue hcompleting => exact hcompleting
  | fetch | preprocess | process | reread | sort | finish | update | push | resume =>
      exact nomatch htake

/-- A worker past its test goes on whether `_stopped` is set or not. -/
theorem step_of_controllerStep {c : TaskController.State σ ω Λ}
    (hpast : ∀ w, s.controller.workers w ≠ .ready) (hcompleting : s.controller.completing = false)
    (h : ControllerStep options server s.controller c) :
    Step options server crew s none { s with controller := c } := by
  obtain ⟨label, hwork, -⟩ := h
  cases label with
  | none =>
      cases hwork with
      | look w hw => exact absurd hw (hpast w)
      | arrive w hw => exact .arrive w hw
  | some event =>
      refine .work event c hwork fun htake => ?_
      exact nomatch hcompleting.symm.trans (completing_of_take hwork htake)

/-- By induction on what the controller has still to do. -/
theorem leads_ready [Nonempty ω] {c : TaskController.State σ ω Λ}
    (hacc : Acc (fun c'' c' => ControllerStep options server c' c'') c) (s : State σ ω Λ)
    (hstopped : s._stopped = true) {life : Option σ → Life} (hsim : Sim c life)
    (hpast : ∀ w, c.workers w ≠ .ready) :
    ∃ c', Leads options server crew { s with controller := c } { s with controller := c' } ∧
      (Faults options server c' ∨ ∀ w, c'.workers w = .ready) := by
  induction hacc generalizing life with
  | intro c _ ih =>
      cases hcompleting : c.completing with
      | true =>
          have hkeep : Step options server crew { s with controller := c } none
              { s with controller := c.keep } := .keep hcompleting hstopped
          exact ⟨c.keep, .single ⟨none, hkeep⟩, .inr fun _ => rfl⟩
      | false =>
          rcases hsim.exists_step (.inl hcompleting) with hfaults | ⟨c₁, hwork⟩
          · exact ⟨c, .refl, .inl hfaults⟩
          · have hstep : Step options server crew { s with controller := c } none
                { s with controller := c₁ } :=
              step_of_controllerStep (s := { s with controller := c }) hpast hcompleting hwork
            rcases (moves_of_step hstep).stopped hstopped with hsame | ⟨-, hready⟩
            · obtain ⟨label, hlabelled, -⟩ := id hwork
              obtain ⟨life', -, hsim'⟩ := hsim.step hlabelled
              have hpast' : ∀ w, c₁.workers w ≠ .ready := fun w hw => hpast w ((hsame w).mp hw)
              obtain ⟨c', hleads, hend⟩ := ih c₁ hwork hsim' hpast'
              exact ⟨c', .head ⟨none, hstep⟩ hleads, hend⟩
            · exact ⟨c₁, .single ⟨none, hstep⟩, .inr hready⟩

/-! ## The threads leave their loops -/

/-- What the threads of the pool and the joins have still to do. -/
def State.pending (s : State σ ω Λ) : Nat :=
  (s._threadPool._threads.map fun pc => pc.left + 1).sum

omit [DecidableEq σ] [DecidableEq ω] in
theorem pending_lt {pc pc' : ThreadPoolBase.ThreadPc ω} {rest : List (ThreadPoolBase.ThreadPc ω)}
    (h : s._threadPool._threads = pc :: rest) (h' : s'._threadPool._threads = pc' :: rest)
    (hlt : pc'.left < pc.left) : s'.pending < s.pending := by
  rw [State.pending, State.pending, h, h', List.map_cons, List.map_cons, List.sum_cons,
    List.sum_cons]
  omega

/-- The thread in front goes on, or is joined. -/
theorem exists_joining_step (hinv : Inv crew s) (hjoining : s.stopping = .joining)
    (hready : ∀ w, s.controller.workers w = .ready) {pc : ThreadPoolBase.ThreadPc ω}
    {rest : List (ThreadPoolBase.ThreadPc ω)} (hthreads : s._threadPool._threads = pc :: rest) :
    ∃ label s', Step options server crew s label s' ∧ s'.stopping = .joining ∧
      s'.pending < s.pending := by
  have hstopped : s._threadPool._stopped = true := by rw [hinv.stopped, hjoining]; rfl
  have hstored := hinv.stored_of_joining hjoining
  by_cases hexited : pc = .exited
  · subst hexited
    refine ⟨some .joining, _, .join rest hjoining hthreads, hjoining, ?_⟩
    rw [State.pending, State.pending, hthreads, List.map_cons, List.sum_cons]
    exact Nat.lt_add_of_pos_left (Nat.succ_pos _)
  · by_cases hrun : ∃ w, pc = .run w
    · obtain ⟨w, rfl⟩ := hrun
      have hi : s._threadPool._threads[0]? = some (.run w) := by rw [hthreads]; rfl
      have hset : (s._threadPool.setThread 0 .test)._threads = .test :: rest := by
        rw [ThreadPoolBase.State.setThread, hthreads, List.set_cons_zero]
      exact ⟨none, _, .leave 0 w hi (hready w) hstored, hjoining,
        pending_lt hthreads hset (Nat.lt_succ_self 3)⟩
    · have hnext : ∃ pool pc',
          ThreadPoolBase.Step crew._maxSize ThreadPoolBase.NoneStopped s._threadPool pool ∧
          pool._threads = pc' :: rest ∧ pc'.left < pc.left :=
        ThreadPoolBase.exists_step hstopped (hinv.free hstopped) hthreads hexited fun w heq =>
          hrun ⟨w, heq⟩
      obtain ⟨pool, pc', hthread, hthreads', hlt⟩ := hnext
      exact ⟨none, _, .thread pool hthread, hjoining, pending_lt hthreads hthreads' hlt⟩

theorem leads_returned (hinv : Inv crew s) (hjoining : s.stopping = .joining)
    (hready : ∀ w, s.controller.workers w = .ready) :
    ∃ s', Leads options server crew s s' ∧ s'.stopping = .returned := by
  induction hn : s.pending using Nat.strong_induction_on generalizing s with
  | _ n ih =>
      cases hthreads : s._threadPool._threads with
      | nil =>
          have hstep : Step options server crew s _ _ := .returns hjoining hthreads
          exact ⟨_, .single ⟨_, hstep⟩, rfl⟩
      | cons pc rest =>
          have hnext : ∃ label s₁, Step options server crew s label s₁ ∧ s₁.stopping = .joining ∧
              s₁.pending < s.pending := exists_joining_step hinv hjoining hready hthreads
          obtain ⟨label, s₁, hstep, hjoining', hlt⟩ := hnext
          have hstored := hinv.stored_of_joining hjoining
          have hready' := (moves_of_step hstep).ready hstored hready
          obtain ⟨s', hleads, hreturned⟩ :=
            ih s₁.pending (hn ▸ hlt) (hinv.step hstep) hjoining' hready' rfl
          exact ⟨s', .head ⟨label, hstep⟩ hleads, hreturned⟩

/-! ## The moment decides -/

/-- From here the stop can return, unless a worker ends the process. -/
def CanReturn (options : ServerOptions) (server : Option (Policy Λ)) (crew : Crew ω)
    (s : State σ ω Λ) : Prop :=
  ∃ s', Leads options server crew s s' ∧
    (s'.stopping = .returned ∨ Faults options server s'.controller)

theorem Leads.inv (hleads : Leads options server crew s s') (hinv : Inv crew s) : Inv crew s' := by
  induction hleads with
  | refl => exact hinv
  | tail _ hstep ih =>
      obtain ⟨label, hstep⟩ := hstep
      exact ih.step hstep

theorem Keeps.canReturn (h : Keeps crew s) (hjoining : s.stopping = .joining) :
    CanReturn options server crew s := by
  have hstored := h.inv.stored_of_joining hjoining
  by_cases hready : ∀ w, s.controller.workers w = .ready
  · obtain ⟨s', hleads, hreturned⟩ := leads_returned h.inv hjoining hready
    exact ⟨s', hleads, .inl hreturned⟩
  · obtain ⟨w, hw⟩ := not_forall.mp hready
    have hpast := (h.balanced hstored).resolve_left hready
    have : Nonempty ω := ⟨w⟩
    have : Fintype ω := ⟨crew.workers.toFinset, fun w => List.mem_toFinset.mpr (crew.complete w)⟩
    obtain ⟨life, hsim⟩ := (h.sound ⟨w⟩).resolve_right fun hend => hready hend.2
    obtain ⟨c, hleads, hend⟩ : ∃ c, Leads options server crew s { s with controller := c } ∧
        (Faults options server c ∨ ∀ w, c.workers w = .ready) :=
      leads_ready (TaskController.controllerStep_terminates s.controller) s hstored hsim hpast
    rcases hend with hfaults | hready'
    · exact ⟨_, hleads, .inr hfaults⟩
    · obtain ⟨s', hleads', hreturned⟩ := leads_returned (hleads.inv h.inv) hjoining hready'
      exact ⟨s', hleads.trans hleads', .inl hreturned⟩

/-- If the moment of the store is balanced, nobody ever waits at the barrier for a
worker that is gone, and the joins can always finish. -/
theorem shutdown_returns {locals : ω → Λ} {actions : List StopPc}
    (hrun : BalancedRun options server crew locals actions s) :
    ¬ s.Hangs ∧ (s.stopping = .joining → CanReturn options server crew s) := by
  have hkeeps : Keeps crew s := by
    refine Runs.Run.invariant (P := fun _ s => Keeps crew s) ?_ (fun h hstep => h.step hstep) hrun
    exact ⟨Inv.initial crew locals, fun _ => .inl ⟨_, Sim.initial locals⟩, nofun⟩
  exact ⟨hkeeps.not_hangs, hkeeps.canReturn⟩

/-- The second worker passes its test, too, before the store. -/
theorem shutdown_returns_twoWorkers : ∃ s : State Unit Bool Unit,
    TwoWorkers.BalancedRun [.stored, .joining] s ∧ s.controller = TwoWorkers.bothPast ∧
      ¬ s.Hangs ∧ CanReturn TwoWorkers.options none TwoWorkers.crew s := by
  have stored := TwoWorkers.past_reached.step
    ⟨.store rfl rfl, fun _ => .inr fun w => by cases w <;> nofun⟩
  have stopped := stored.step ⟨.stop rfl rfl, nofun⟩
  obtain ⟨hhangs, hreturns⟩ := shutdown_returns stopped
  exact ⟨_, stopped, rfl, hhangs, hreturns rfl⟩

/-! ### Any other moment -/

theorem BalancedRun.run {locals : ω → Λ} {actions : List StopPc}
    (hrun : BalancedRun options server crew locals actions s) :
    Run options server crew locals actions s := by
  induction hrun with
  | start => exact .start
  | step _ hstep ih => exact ih.step hstep.1

/-- Past an unbalanced store the barrier does not open. -/
theorem unbalanced_step (hsound : Nonempty ω → s.Sound) (hstopped : s._stopped = true)
    (hunbalanced : ¬ s.Balanced) (hstep : Step options server crew s label s') :
    ¬ s'.Balanced := by
  rcases (moves_of_step hstep).stopped hstopped with hsame | ⟨hcompletes, -⟩
  · rintro (hready | hpast)
    · exact hunbalanced (.inl fun w => (hsame w).mp (hready w))
    · exact hunbalanced (.inr fun w hw => hpast w ((hsame w).mpr hw))
  · obtain ⟨w, hw⟩ := not_forall.mp fun hready => hunbalanced (.inl hready)
    rcases hsound ⟨w⟩ with ⟨life, hsim⟩ | ⟨-, hready⟩
    · have hall : ∀ w, s.controller.workers w = .waiting :=
        hcompletes.elim (fun hcompleting => (hsim.completing hcompleting).2) id
      exact absurd (.inr fun w => (hall w).trans_ne nofun) hunbalanced
    · exact absurd (hready w) hw

/-- Nothing that comes behind an unbalanced store is the return of the stop. -/
theorem unbalanced_not_returned {locals : ω → Λ} {actions : List StopPc}
    (hrun : Run options server crew locals actions s) (hstopped : s._stopped = true)
    (hunbalanced : ¬ s.Balanced) (hleads : Leads options server crew s s') :
    s'.stopping ≠ .returned := by
  have hkept : Inv crew s ∧ (Nonempty ω → s.Sound) := by
    refine Runs.Run.invariant (P := fun _ s => Inv crew s ∧ (Nonempty ω → s.Sound)) ?_ ?_ hrun
    · exact ⟨Inv.initial crew locals, fun _ => .inl ⟨_, Sim.initial locals⟩⟩
    · rintro _ s s' label ⟨hinv, hsound⟩ hstep
      exact ⟨hinv.step hstep, fun _ => (hsound ‹_›).step hstep⟩
  obtain ⟨hinv, hsound⟩ := hkept
  have hbehind : Inv crew s' ∧ (Nonempty ω → s'.Sound) ∧ s'._stopped = true ∧ ¬ s'.Balanced := by
    induction hleads with
    | refl => exact ⟨hinv, hsound, hstopped, hunbalanced⟩
    | tail _ hstep ih =>
        obtain ⟨label, hstep⟩ := hstep
        obtain ⟨hinv, hsound, hstopped, hunbalanced⟩ := ih
        exact ⟨hinv.step hstep, fun _ => (hsound ‹_›).step hstep, stored_step hstep hstopped,
          unbalanced_step hsound hstopped hunbalanced hstep⟩
  obtain ⟨hinv', -, -, hunbalanced'⟩ := hbehind
  intro hreturned
  obtain ⟨w, hw⟩ := not_forall.mp fun hready => hunbalanced' (.inl hready)
  have hruns : .run w ∈ s'._threadPool._threads := hinv'.running w hw
  rw [hinv'.joined hreturned] at hruns
  cases hruns

/-- The second worker is in the queue when the pool is stopped. -/
theorem shutdown_hangs : ∃ s : State Unit Bool Unit,
    Run TwoWorkers.options none TwoWorkers.crew TwoWorkers.locals [.stored, .joining] s ∧
      s.stopping = .joining ∧ s.Hangs ∧
        ∀ s', Leads TwoWorkers.options none TwoWorkers.crew s s' → s'.stopping ≠ .returned := by
  have stored := TwoWorkers.waiting_reached.run.step (.store rfl rfl)
  have stopped := stored.step (.stop rfl rfl)
  refine ⟨_, stopped, rfl, ⟨?_, false, true, rfl, ?_⟩, fun s' hleads => ?_⟩
  · rintro (hcompleting | hall)
    · exact nomatch hcompleting
    · exact nomatch hall true
  · refine ⟨List.not_mem_nil, fun hruns => ?_, fun _ => rfl⟩
    have hmem : ThreadPoolBase.ThreadPc.run true ∈ [.run false, .loop] := hruns
    exact absurd hmem (by decide)
  · refine unbalanced_not_returned stopped rfl ?_ hleads
    rintro (hready | hpast)
    · exact nomatch hready false
    · exact hpast true rfl

end ClientServer.Shutdown
