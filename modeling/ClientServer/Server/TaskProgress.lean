import ClientServer.Server.TaskProtocol
import Mathlib.Algebra.BigOperators.Group.Finset.Piecewise
import Mathlib.Algebra.Order.BigOperators.Group.Finset

/-!
# No task is left behind

Left to itself the controller stops after finitely many steps: every step spends
something of `State.measure`.  And where it stops, either an operation ended in
a fault or the queue is empty and every task pushed has been finished.
-/

namespace ClientServer

namespace Task

/-! ## There is an order to sort into -/

theorem sizeLess_total (key key' : SIZETUPLE) :
    (!sizeLess key' key || !sizeLess key key') = true := by
  simp only [sizeLess, Bool.or_eq_true, Bool.not_eq_true', Bool.or_eq_false_iff,
    Bool.and_eq_false_iff, decide_eq_false_iff_not, beq_eq_false_iff_ne]
  omega

theorem sizeLess_trans {a b c : SIZETUPLE} (hab : (!sizeLess b a) = true)
    (hbc : (!sizeLess c b) = true) : (!sizeLess c a) = true := by
  simp only [sizeLess, Bool.not_eq_true', Bool.or_eq_false_iff, Bool.and_eq_false_iff,
    decide_eq_false_iff_not, beq_eq_false_iff_ne] at hab hbc ⊢
  omega

theorem exists_sortedBy (task : Task) : ∃ order, task.SortedBy order := by
  have hsorted := List.pairwise_mergeSort
    (fun i j k => sizeLess_trans (a := task.keyOf i) (b := task.keyOf j) (c := task.keyOf k))
    (fun i j => sizeLess_total (task.keyOf i) (task.keyOf j)) task._sortedIndices
  refine ⟨_, List.mergeSort_perm task._sortedIndices _, hsorted.imp fun hle => ?_⟩
  exact Bool.not_eq_true' .. ▸ hle

end Task

/-- What the sessions do, not the controller. -/
def Action.bySession : Action → Bool
  | update _ _ | push | resume => true
  | take | fetch | handle _ _ | reread | sort | finish => false

namespace TaskController

variable {σ ω Λ : Type} {options : ServerOptions} {server : Option (Policy Λ)}
  {s s' : State σ ω Λ} {life : Option σ → Life}

/-- A worker is about to end the process. -/
def Faults (options : ServerOptions) (server : Option (Policy Λ)) (s : State σ ω Λ) : Prop :=
  ∃ w index fault,
    (s.workers w = .handling .PREPROCESSTASK index ∧
      s.task.preprocessAt options index = .error fault) ∨
    (s.workers w = .handling .PROCESSTASK index ∧
      s.task.processAt options server index (s.locals w) = .error fault)

section Progress

variable [DecidableEq σ] [DecidableEq ω]

/-- A step of a worker or of the completion function. -/
def ControllerStep (options : ServerOptions) (server : Option (Policy Λ))
    (s s' : State σ ω Λ) : Prop :=
  ∃ label, Step options server s label s' ∧
    (label.all fun event => !event.action.bySession) = true

/-! ## Somebody can go on -/

/-- A worker outside the barrier goes on or ends the process. -/
theorem exists_worker_step {w : ω} (hw : s.workers w ≠ .waiting) :
    Faults options server s ∨ ∃ s', ControllerStep options server s s' := by
  cases hpc : s.workers w with
  | ready =>
      exact .inr ⟨_, none, .look w hpc, rfl⟩
  | fetching phase =>
      exact .inr ⟨_, some ⟨s._task, .fetch⟩, .fetch w phase hpc, rfl⟩
  | handling phase index =>
      cases phase with
      | PREPROCESSTASK =>
          cases hok : s.task.preprocessAt options index with
          | error fault => exact .inl ⟨w, index, fault, .inl ⟨hpc, hok⟩⟩
          | ok task =>
              exact .inr ⟨_, some ⟨s._task, .handle .PREPROCESSTASK index⟩,
                .preprocess w index task hpc hok, rfl⟩
      | PROCESSTASK =>
          cases hok : s.task.processAt options server index (s.locals w) with
          | error fault => exact .inl ⟨w, index, fault, .inr ⟨hpc, hok⟩⟩
          | ok result =>
              exact .inr ⟨_, some ⟨s._task, .handle .PROCESSTASK index⟩,
                .process w index result.1 result.2 hpc hok, rfl⟩
  | rereading phase =>
      exact .inr ⟨_, some ⟨s._task, .reread⟩, .reread w phase hpc, rfl⟩
  | arriving =>
      exact .inr ⟨_, none, .arrive w hpc, rfl⟩
  | waiting => exact absurd hpc hw

/-- While a task is worked on or queued, somebody goes on. -/
theorem Sim.exists_step [Nonempty ω] (h : Sim s life)
    (hpending : s.completing = false ∨ s._queue ≠ []) :
    Faults options server s ∨ ∃ s', ControllerStep options server s s' := by
  by_cases hall : ∀ w, s.workers w = .waiting
  · cases hcompleting : s.completing with
    | true =>
        rw [hcompleting] at hpending
        obtain ⟨t, _queue, hqueue⟩ := List.exists_cons_of_ne_nil (hpending.resolve_left nofun)
        exact .inr ⟨_, some ⟨some t, .take⟩, .take t _queue hcompleting hqueue, rfl⟩
    | false =>
        cases hphase : s._phase with
        | PREPROCESSTASK =>
            obtain ⟨order, horder⟩ := s.task.exists_sortedBy
            exact .inr ⟨_, some ⟨s._task, .sort⟩, .sort order hall hphase horder, rfl⟩
        | PROCESSTASK =>
            obtain ⟨task, _, hok, -⟩ := h.finish hall hphase hcompleting
            exact .inr ⟨_, some ⟨s._task, .finish⟩, .finish task hall hphase hcompleting hok, rfl⟩
  · obtain ⟨w, hw⟩ := not_forall.mp hall
    exact exists_worker_step hw

end Progress

/-! ## Every step spends something -/

section Measure

variable [Fintype ω]

/-- The steps a worker has ahead of it in a phase, counted so that going round
the inner loop pays for itself while indices are left. -/
def weight (anyLeft : Bool) : WorkerPc → Nat
  | .ready => if anyLeft then 8 else 5
  | .fetching _ => if anyLeft then 7 else 4
  | .handling _ _ => if anyLeft then 9 else 4
  | .rereading _ => if anyLeft then 8 else 3
  | .arriving => 1
  | .waiting => 0

/-- What a phase may spend. -/
def phaseBudget (workers size : Nat) : Nat := 8 * workers + 3 * size

namespace State

/-- What is left to spend in this phase. -/
def phaseLeft (s : State σ ω Λ) : Nat :=
  ∑ w, weight s.task.anyLeft (s.workers w) + 3 * (s.task._size - s.task._index)

/-- What the tasks in the queue may spend. -/
def queueBudget (s : State σ ω Λ) : Nat :=
  (s._queue.map fun t => 2 * phaseBudget (Fintype.card ω) (s.tasks (some t))._size + 3).sum

/-- What is left to spend on this task after this phase. -/
def laterPhases (s : State σ ω Λ) : Nat :=
  match s._phase with
  | .PREPROCESSTASK => phaseBudget (Fintype.card ω) s.task._size + 2
  | .PROCESSTASK => if s.completing then 0 else 1

def measure (s : State σ ω Λ) : Nat := s.phaseLeft + s.laterPhases + s.queueBudget

end State

theorem weight_le (anyLeft : Bool) (pc : WorkerPc) : weight anyLeft pc ≤ weight true pc := by
  cases anyLeft <;> cases pc <;> simp [weight]

/-- A phase begins within its budget. -/
theorem sum_weight_ready (anyLeft : Bool) :
    ∑ _ : ω, weight anyLeft .ready ≤ 8 * Fintype.card ω := by
  have hweight : weight anyLeft .ready ≤ 8 := weight_le anyLeft .ready
  calc ∑ _ : ω, weight anyLeft .ready
      ≤ ∑ _ : ω, 8 := Finset.sum_le_sum fun _ _ => hweight
    _ = Fintype.card ω * 8 := Finset.sum_const_nat fun _ _ => rfl
    _ = 8 * Fintype.card ω := Nat.mul_comm ..

section Tasks

variable [DecidableEq σ]

/-- Sizes do not change under the controller's hands. -/
theorem size_update {tasks : Option σ → Task} {t : Option σ} {task : Task}
    (hsize : task._size = (tasks t)._size) (t' : Option σ) :
    (Function.update tasks t task t')._size = (tasks t')._size := by
  rcases eq_or_ne t' t with rfl | hne
  · rw [Function.update_self, hsize]
  · rw [Function.update_of_ne hne]

theorem queueBudget_setTask (s : State σ ω Λ) {task : Task} (hsize : task._size = s.task._size) :
    (s.setTask task).queueBudget = s.queueBudget := by
  unfold State.queueBudget
  refine congrArg List.sum (List.map_congr_left fun t _ => ?_)
  show 2 * phaseBudget _ (Function.update s.tasks s._task task (some t))._size + 3 = _
  rw [size_update hsize]

omit [Fintype ω] in
theorem task_setTask (s : State σ ω Λ) (task : Task) : (s.setTask task).task = task :=
  Function.update_self ..

/-- A change that keeps the size and the counter spends nothing. -/
theorem measure_setTask (s : State σ ω Λ) {task : Task} (hsize : task._size = s.task._size)
    (hindex : task._index = s.task._index) : (s.setTask task).measure = s.measure := by
  have hanyLeft : task.anyLeft = s.task.anyLeft := by
    rw [Task.anyLeft, hsize, hindex, Task.anyLeft]
  have hphase : (s.setTask task).phaseLeft = s.phaseLeft := by
    rw [State.phaseLeft, task_setTask, hanyLeft, hsize, hindex]
    rfl
  have hlater : (s.setTask task).laterPhases = s.laterPhases := by
    rw [State.laterPhases, task_setTask, hsize]
    rfl
  rw [State.measure, hphase, hlater, queueBudget_setTask s hsize, State.measure]

/-- The sort is paid for by the second phase that lies ahead. -/
theorem measure_sort_lt (hphase : s._phase = .PREPROCESSTASK) (order : List Nat) :
    (s.sort order).measure < s.measure := by
  have htask : (s.sort order).task = (s.task.sortIndices order).resetIndex :=
    Function.update_self ..
  have hready := sum_weight_ready (ω := ω) (s.sort order).task.anyLeft
  have hleft : (s.sort order).phaseLeft ≤ phaseBudget (Fintype.card ω) s.task._size := by
    show ∑ _ : ω, weight (s.sort order).task.anyLeft .ready +
      3 * ((s.sort order).task._size - (s.sort order).task._index) ≤ _
    have hsize : (s.sort order).task._size = s.task._size := by rw [htask]; rfl
    rw [hsize, phaseBudget]
    omega
  have hlater : (s.sort order).laterPhases ≤ 1 := by
    show (if s.completing then 0 else 1) ≤ 1
    split <;> decide
  have hahead : s.laterPhases = phaseBudget (Fintype.card ω) s.task._size + 2 := by
    rw [State.laterPhases, hphase]
  have hqueue : (s.sort order).queueBudget = s.queueBudget := queueBudget_setTask s rfl
  rw [State.measure, State.measure, hqueue, hahead]
  omega

/-- The end of a task is a step of its own. -/
theorem measure_finish_lt (hphase : s._phase = .PROCESSTASK) (hcompleting : s.completing = false)
    {task : Task} (hok : s.task.finish = .ok task) : (s.finish task).measure < s.measure := by
  have htask := Task.finish_ok hok
  have hsame : (s.setTask task).measure = s.measure :=
    measure_setTask s (by rw [htask]) (by rw [htask])
  have hlater : (s.finish task).laterPhases = 0 := by
    show (match s._phase with | .PREPROCESSTASK => _ | .PROCESSTASK => if true then 0 else 1) = 0
    rw [hphase]
    rfl
  have hahead : (s.setTask task).laterPhases = 1 := by
    show (match s._phase with
      | .PREPROCESSTASK => _
      | .PROCESSTASK => if s.completing then 0 else 1) = 1
    rw [hphase, hcompleting]
    rfl
  rw [← hsame, State.measure, State.measure, hlater, hahead]
  show (s.setTask task).phaseLeft + 0 + (s.setTask task).queueBudget < _
  omega

/-- Both phases of a task are paid for by its place in the queue. -/
theorem measure_take_lt {t : σ} {_queue : List σ} (hqueue : s._queue = t :: _queue) :
    (s.take t _queue).measure < s.measure := by
  have htask : (s.take t _queue).task = (s.tasks (some t)).resetIndex := Function.update_self ..
  have hready := sum_weight_ready (ω := ω) (s.take t _queue).task.anyLeft
  have hleft : (s.take t _queue).phaseLeft ≤
      phaseBudget (Fintype.card ω) (s.tasks (some t))._size := by
    show ∑ _ : ω, weight (s.take t _queue).task.anyLeft .ready +
      3 * ((s.take t _queue).task._size - (s.take t _queue).task._index) ≤ _
    have hsize : (s.take t _queue).task._size = (s.tasks (some t))._size := by rw [htask]; rfl
    rw [hsize, phaseBudget]
    omega
  have hlater : (s.take t _queue).laterPhases =
      phaseBudget (Fintype.card ω) (s.tasks (some t))._size + 2 := by
    show phaseBudget _ (s.take t _queue).task._size + 2 = _
    rw [htask]
    rfl
  have hrest : (s.take t _queue).queueBudget = (_queue.map fun t =>
      2 * phaseBudget (Fintype.card ω) (s.tasks (some t))._size + 3).sum := by
    refine congrArg List.sum (List.map_congr_left fun t' _ => ?_)
    show 2 * phaseBudget _ (Function.update s.tasks (some t) _ (some t'))._size + 3 = _
    rw [size_update (show (s.tasks (some t)).resetIndex._size = (s.tasks (some t))._size from rfl)]
  have hbudget : s.queueBudget = 2 * phaseBudget (Fintype.card ω) (s.tasks (some t))._size + 3 +
      (s.take t _queue).queueBudget := by
    rw [hrest, State.queueBudget, hqueue, List.map_cons, List.sum_cons]
  rw [State.measure, State.measure, hlater, hbudget]
  omega

end Tasks

section Workers

variable [DecidableEq ω]

/-- One worker moves. -/
theorem sum_weight_update (anyLeft : Bool) (workers : ω → WorkerPc) (w : ω) (pc : WorkerPc) :
    ∑ w', weight anyLeft (Function.update workers w pc w') + weight anyLeft (workers w) =
      ∑ w', weight anyLeft (workers w') + weight anyLeft pc := by
  have hold := Finset.sum_eq_add_sum_sdiff_singleton_of_mem (Finset.mem_univ w)
    fun w' => weight anyLeft (workers w')
  have hnew := Finset.sum_update_of_mem (Finset.mem_univ w)
    (fun w' => weight anyLeft (workers w')) (weight anyLeft pc)
  have hcomp : (fun w' => weight anyLeft (Function.update workers w pc w')) =
      Function.update (fun w' => weight anyLeft (workers w')) w (weight anyLeft pc) :=
    Function.comp_update (weight anyLeft) workers w pc
  rw [hcomp, hnew, hold]
  omega

/-- A worker moves towards the barrier. -/
theorem measure_setWorker_lt (s : State σ ω Λ) {w : ω} {pc : WorkerPc}
    (hlt : weight s.task.anyLeft pc < weight s.task.anyLeft (s.workers w)) :
    (s.setWorker w pc).measure < s.measure := by
  have hsum := sum_weight_update s.task.anyLeft s.workers w pc
  have hleft : (s.setWorker w pc).phaseLeft < s.phaseLeft := by
    show ∑ w', weight s.task.anyLeft (Function.update s.workers w pc w') +
        3 * (s.task._size - s.task._index) <
      ∑ w', weight s.task.anyLeft (s.workers w') + 3 * (s.task._size - s.task._index)
    omega
  show (s.setWorker w pc).phaseLeft + s.laterPhases + s.queueBudget <
    s.phaseLeft + s.laterPhases + s.queueBudget
  omega

/-- An index taken pays for the work on it. -/
theorem measure_fetch_lt [DecidableEq σ] {w : ω} {phase : Phase}
    (hw : s.workers w = .fetching phase) : (s.fetch w phase).measure < s.measure := by
  have htask : (s.setTask s.task.fetchIndex.2).task = s.task.fetchIndex.2 := task_setTask s _
  have hqueue : (s.setTask s.task.fetchIndex.2).queueBudget = s.queueBudget :=
    queueBudget_setTask s rfl
  have hlater : (s.setTask s.task.fetchIndex.2).laterPhases = s.laterPhases := by
    rw [State.laterPhases, htask]
    rfl
  rcases Nat.lt_or_ge s.task._index s.task._size with hlt | hge
  · have hleft : (s.fetch w phase).phaseLeft < s.phaseLeft := by
      have hbefore : s.task.anyLeft = true := decide_eq_true hlt
      have hsum := sum_weight_update true s.workers w (.handling phase s.task._index)
      have hclosing : ∀ w', weight (s.setTask s.task.fetchIndex.2).task.anyLeft
          (Function.update s.workers w (.handling phase s.task._index) w') ≤
          weight true (Function.update s.workers w (.handling phase s.task._index) w') :=
        fun w' => weight_le _ _
      have hle := Finset.sum_le_sum fun w' (_ : w' ∈ Finset.univ) => hclosing w'
      rw [State.fetch_of_lt hlt]
      show ∑ w', weight (s.setTask s.task.fetchIndex.2).task.anyLeft
          (Function.update s.workers w (.handling phase s.task._index) w') +
          3 * ((s.setTask s.task.fetchIndex.2).task._size -
            (s.setTask s.task.fetchIndex.2).task._index) <
        ∑ w', weight s.task.anyLeft (s.workers w') + 3 * (s.task._size - s.task._index)
      have hindex : 3 * ((s.setTask s.task.fetchIndex.2).task._size -
          (s.setTask s.task.fetchIndex.2).task._index) + 3 =
          3 * (s.task._size - s.task._index) := by
        rw [htask]
        show 3 * (s.task._size - (s.task._index + 1)) + 3 = _
        omega
      rw [hw] at hsum
      have hpaid : weight true (.handling phase s.task._index) =
          weight true (.fetching phase) + 2 := rfl
      rw [hbefore]
      omega
    rw [State.fetch_of_lt hlt] at hleft ⊢
    show _ + (s.setTask s.task.fetchIndex.2).laterPhases +
      (s.setTask s.task.fetchIndex.2).queueBudget < s.phaseLeft + s.laterPhases + s.queueBudget
    rw [hlater, hqueue]
    omega
  · have hbefore : s.task.anyLeft = false := decide_eq_false (Nat.not_lt.mpr hge)
    have hafter : (s.setTask s.task.fetchIndex.2).task.anyLeft = false := by
      rw [htask]
      exact decide_eq_false (Nat.not_lt.mpr (Nat.le_succ_of_le hge))
    have hsame : (s.setTask s.task.fetchIndex.2).measure = s.measure := by
      have hleft : (s.setTask s.task.fetchIndex.2).phaseLeft = s.phaseLeft := by
        rw [State.phaseLeft, State.phaseLeft, hafter, hbefore, htask]
        show ∑ w', weight false (s.workers w') + 3 * (s.task._size - (s.task._index + 1)) = _
        omega
      rw [State.measure, hleft, hlater, hqueue, State.measure]
    rw [State.fetch_of_ge hge, ← hsame]
    refine measure_setWorker_lt _ ?_
    rw [hafter, show (s.setTask s.task.fetchIndex.2).workers w = _ from hw]
    exact Nat.lt_succ_self 3

end Workers

/-- Every step of the controller spends something. -/
theorem measure_lt [DecidableEq σ] [DecidableEq ω] (hstep : ControllerStep options server s s') :
    s'.measure < s.measure := by
  obtain ⟨label, hstep, hlabel⟩ := hstep
  cases hstep with
  | look w hw =>
      refine measure_setWorker_lt _ ?_
      rw [hw]
      cases s.task.anyLeft <;> simp [weight]
  | fetch w phase hw => exact measure_fetch_lt hw
  | preprocess w index task hw hok =>
      obtain ⟨requests, rfl⟩ := Task.preprocessAt_ok hok
      have hsame : (s.setTask { s.task with _requests := requests }).measure = s.measure :=
        measure_setTask s rfl rfl
      rw [← hsame]
      refine measure_setWorker_lt _ ?_
      rw [show (s.setTask _).workers w = _ from hw]
      cases (s.setTask { s.task with _requests := requests }).task.anyLeft <;> simp [weight]
  | process w index task own hw hok =>
      obtain ⟨response, rfl⟩ := Task.processAt_ok hok
      have hsame : (s.setTask { s.task with _response := response }).measure = s.measure :=
        measure_setTask s rfl rfl
      rw [← hsame]
      refine measure_setWorker_lt
        ((s.setTask { s.task with _response := response }).setLocals w own) ?_
      rw [show ((s.setTask _).setLocals w own).workers w = _ from hw]
      cases ((s.setTask { s.task with _response := response }).setLocals w own).task.anyLeft <;>
        simp [weight]
  | reread w phase hw =>
      refine measure_setWorker_lt _ ?_
      rw [hw]
      cases s.task.anyLeft <;> simp [weight]
  | arrive w hw =>
      refine measure_setWorker_lt _ ?_
      rw [hw]
      exact Nat.zero_lt_one
  | sort order _ hphase _ => exact measure_sort_lt hphase order
  | finish task _ hphase hcompleting hok => exact measure_finish_lt hphase hcompleting hok
  | take t _queue _ hqueue => exact measure_take_lt hqueue
  | update | push | resume => exact nomatch hlabel

/-- The controller left to itself stops. -/
theorem controllerStep_terminates [DecidableEq σ] [DecidableEq ω] (s : State σ ω Λ) :
    Acc (fun s'' s' => ControllerStep options server s' s'') s :=
  (Subrelation.wf measure_lt (measure State.measure).wf).apply s

end Measure

/-! ## The protocol -/

section Protocol

variable [DecidableEq σ] [DecidableEq ω]

/-- What the queue, the promises and the barrier promise about a run so far. -/
structure KeepsProtocol (options : ServerOptions) (server : Option (Policy Λ))
    (events : List (Event σ)) (s : State σ ω Λ) : Prop where
  /-- Tasks are taken in the order in which they were pushed. -/
  fifo : pushed events = taken events ++ s._queue
  /-- Each task has lived as it may. -/
  lives : ∀ t, ∃ life, (actionsOn (some t) events).foldlM Life.step .idle = some life
  /-- A promise is fulfilled at the end of one first and one second phase over the
  batch that was pushed last. -/
  phases : ∀ t before after, actionsOn (some t) events = before ++ .finish :: after →
    ∃ earlier header request batch, before = earlier ++ batch ∧ Processed header request batch
  /-- The promise that is about to be fulfilled is not fulfilled yet. -/
  promise : (∀ w, s.workers w = .waiting) → s._phase = .PROCESSTASK → s.completing = false →
    ∃ task, s.task.finish = .ok task
  /-- `processTask` returns right behind that. -/
  returns : ∀ t before after, actionsOn (some t) events = before ++ .resume :: after →
    ∃ earlier header request batch, before = earlier ++ batch ++ [.finish] ∧
      Processed header request batch
  /-- From then to the next `push` only the session acts on the task. -/
  untouched : ∀ t before between after,
    actionsOn (some t) events = before ++ .finish :: (between ++ after) → .push ∉ between →
      ∀ action ∈ between, action = .resume ∨ ∃ header request, action = .update header request
  /-- The controller left to itself stops. -/
  terminates : Acc (fun s'' s' => ControllerStep options server s' s'') s
  /-- Where it has stopped without a fault, no task is left in the queue or half done. -/
  served : ¬ Faults options server s → (∀ s', ¬ ControllerStep options server s s') →
    s._queue = [] ∧ ∀ t life,
      (actionsOn (some t) events).foldlM Life.step .idle = some life → life.owned = true

/-- Every run of sessions, workers and completion function, of any number each,
keeps to the protocol of the queue. -/
theorem taskQueue_protocol [Fintype ω] [Nonempty ω] (options : ServerOptions)
    (server : Option (Policy Λ)) {locals : ω → Λ} {events : List (Event σ)} {s : State σ ω Λ}
    (hrun : Run options server locals events s) : KeepsProtocol options server events s := by
  obtain ⟨life, hhistories, hsim⟩ := sim_of_run hrun
  have hlives : ∀ t, (actionsOn (some t) events).foldlM Life.step .idle = some (life (some t)) :=
    fun t => hhistories (some t)
  exact {
    fifo := queue_of_run hrun
    lives := fun t => ⟨life (some t), hlives t⟩
    phases := fun t before after hactions => Life.processed_of_finish (hactions ▸ hlives t)
    promise := fun hall hphase hcompleting => by
      obtain ⟨task, _, hok, -⟩ := hsim.finish hall hphase hcompleting
      exact ⟨task, hok⟩
    returns := fun t before after hactions => Life.finish_of_resume (hactions ▸ hlives t)
    untouched := fun t before between after hactions hpush => by
      have hlife := hlives t
      rw [hactions, ← List.cons_append, ← List.append_assoc, List.foldlM_append] at hlife
      obtain ⟨l, hprefix, -⟩ := Option.bind_eq_some_iff.mp hlife
      exact Life.bySession_of_finish hprefix hpush
    terminates := controllerStep_terminates s
    served := fun hfaults hstuck => by
      have hdone : s.completing = true ∧ s._queue = [] := by
        by_contra hpending
        have hpending' : s.completing = false ∨ s._queue ≠ [] := by
          rcases Bool.eq_false_or_eq_true s.completing with htrue | hfalse
          · exact .inr fun hqueue => hpending ⟨htrue, hqueue⟩
          · exact .inl hfalse
        rcases hsim.exists_step hpending' with hfault | ⟨s', hstep⟩
        · exact hfaults hfault
        · exact hstuck s' hstep
      refine ⟨hdone.2, fun t l hl => ?_⟩
      obtain rfl : life (some t) = l := Option.some.inj ((hlives t).symm.trans hl)
      have hstage := hsim.stage t
      cases hlife : life (some t) with
      | queued =>
          rw [hlife] at hstage
          exact absurd (hdone.2 ▸ hstage.2.2) List.not_mem_nil
      | working =>
          rw [hlife] at hstage
          exact nomatch hdone.1.symm.trans hstage.2.2
      | idle | updated | finished | returned => rfl }

theorem taskQueue_protocol_twoBatches :
    ∃ events, ∃ s : State Unit Bool Unit,
      Run TwoBatches.options (some TwoBatches.policy) TwoBatches.locals events s ∧
      .resume ∈ actionsOn (some ()) events ∧
      KeepsProtocol TwoBatches.options (some TwoBatches.policy) events s := by
  obtain ⟨events, s, hrun, ⟨hresumed, -⟩, -⟩ := TwoBatches.exists_run
  exact ⟨events, s, hrun, hresumed,
    taskQueue_protocol TwoBatches.options (some TwoBatches.policy) hrun⟩

end Protocol

end TaskController

end ClientServer
