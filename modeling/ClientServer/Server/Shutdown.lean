import ClientServer.Common.ThreadPoolBase
import ClientServer.Server.TaskProtocol
import Mathlib.Logic.Relation

/-!
# The controller is stopped

`create` hands the workers to a pool with as many threads, and `stop` stores
`_stopped`, stops the pool and joins its threads.  The workers go on by the steps
of `TaskController` meanwhile, but each of them tests `_stopped` for itself
before it looks at the phase, and the barrier opens for all of them only.

So the moment of the store decides.  It is `Balanced` if no worker has passed its
test in the current phase, or all have: then all of them leave at the next test,
or have left.  If one has passed it and another has not, the first waits at the
barrier for the second.
-/

namespace ClientServer

/-- The rest of `onCompletion` where `setNextTask` finds `_stopped` set. -/
def TaskController.State.keep {σ ω Λ : Type} [DecidableEq σ] (s : TaskController.State σ ω Λ) :
    TaskController.State σ ω Λ :=
  { s.setTask s.task.resetIndex with _phase := .PREPROCESSTASK, completing := false }.release

namespace Shutdown

/-- The workers of `start`, `_numberWorkThreads` of them. -/
structure Crew (ω : Type) where
  workers : List ω
  complete : ∀ w, w ∈ workers
  nodup : workers.Nodup
  /-- `_numberWorkThreads` is an `int`. -/
  fits : workers.length < 2 ^ 31

/-- `_maxSize` of the pool. -/
def Crew._maxSize {ω : Type} (crew : Crew ω) : UInt32 := UInt32.ofNat crew.workers.length

/-- Where the thread stands that stops the controller. -/
inductive StopPc where
  | before
  /-- Behind the store of `_stopped`. -/
  | stored
  /-- In `ThreadPoolBase::stop`, behind `notify_all`. -/
  | joining
  | returned
deriving DecidableEq

structure State (σ ω Λ : Type) where
  controller : TaskController.State σ ω Λ
  _stopped : Bool
  _threadPool : ThreadPoolBase.State ω
  /-- The workers `start` has still to push. -/
  toPush : List ω
  stopping : StopPc

variable {σ ω Λ : Type}

namespace State

def initial (crew : Crew ω) (locals : ω → Λ) : State σ ω Λ where
  controller := .initial locals
  _stopped := false
  _threadPool := .initial
  toPush := crew.workers
  stopping := .before

/-- The worker is inside `run`. -/
def Runs (s : State σ ω Λ) (w : ω) : Prop := .run w ∈ s._threadPool._threads

/-- The worker has left `run`, or will not enter it. -/
def Gone (s : State σ ω Λ) (w : ω) : Prop :=
  w ∉ s.toPush ∧ ¬ s.Runs w ∧ (w ∈ s._threadPool._queue → s._threadPool._stopped = true)

/-- The last worker has arrived and `onCompletion` runs. -/
def Completes (s : State σ ω Λ) : Prop :=
  s.controller.completing = true ∨ ∀ w, s.controller.workers w = .waiting

/-- Somebody waits at the barrier for a worker that will not arrive. -/
def Hangs (s : State σ ω Λ) : Prop :=
  ¬ s.Completes ∧ ∃ w w', s.controller.workers w = .waiting ∧ s.Gone w'

/-- No worker is past its test of `_stopped`, or all are. -/
def Balanced (s : State σ ω Λ) : Prop :=
  (∀ w, s.controller.workers w = .ready) ∨ ∀ w, s.controller.workers w ≠ .ready

end State

/-! ## The steps -/

section Steps

variable [DecidableEq σ] [DecidableEq ω] (options : ServerOptions) (server : Option (Policy Λ))
  (crew : Crew ω)

/-- A step of the thread that stops the controller says where it is then. -/
inductive Step (s : State σ ω Λ) : Option StopPc → State σ ω Λ → Prop where
  /-- `push` refuses a worker. -/
  | refuse (w : ω) (rest : List ω) : s.toPush = w :: rest → s._threadPool._queueMutex = .free →
      ¬ s._threadPool.size < crew._maxSize →
      Step s none { s with toPush := rest }
  | count (w : ω) (rest : List ω) : s.toPush = w :: rest → s._threadPool._queueMutex = .free →
      s._threadPool.size < crew._maxSize →
      Step s none { s with _threadPool := s._threadPool.count }
  | emplace (w : ω) (rest : List ω) : s.toPush = w :: rest → s._threadPool._queueMutex = .push →
      Step s none { s with _threadPool := s._threadPool.emplace w, toPush := rest }
  /-- A thread of the pool, outside of `run`. -/
  | thread (_threadPool : ThreadPoolBase.State ω) :
      ThreadPoolBase.Step crew._maxSize ThreadPoolBase.NoneStopped s._threadPool _threadPool →
      Step s none { s with _threadPool }
  /-- A worker finds `_stopped` not set, and reads the phase. -/
  | look (w : ω) : s.Runs w → s.controller.workers w = .ready → s._stopped = false →
      Step s none { s with
        controller := s.controller.setWorker w (.fetching s.controller._phase) }
  /-- A worker finds `_stopped` set and leaves `run`. -/
  | leave (i : Nat) (w : ω) : s._threadPool._threads[i]? = some (.run w) →
      s.controller.workers w = .ready → s._stopped = true →
      Step s none { s with _threadPool := s._threadPool.setThread i .test }
  | arrive (w : ω) : s.controller.workers w = .arriving →
      Step s none { s with controller := s.controller.setWorker w .waiting }
  /-- What the workers, the completion function and the sessions do otherwise. -/
  | work (event : Event σ) (controller : TaskController.State σ ω Λ) :
      TaskController.Step options server s.controller (some event) controller →
      event.action ≠ .take →
      Step s none { s with controller }
  /-- `setNextTask` takes a task. -/
  | take (t : σ) (_queue : List σ) : s.controller.completing = true →
      s.controller._queue = t :: _queue → s._stopped = false →
      Step s none { s with controller := s.controller.take t _queue }
  /-- `setNextTask` returns without one. -/
  | keep : s.controller.completing = true → s._stopped = true →
      Step s none { s with controller := s.controller.keep }
  /-- `create` has returned. -/
  | store : s.toPush = [] → s.stopping = .before →
      Step s (some .stored) { s with _stopped := true, stopping := .stored }
  | stop : s.stopping = .stored → s._threadPool._queueMutex = .free →
      Step s (some .joining) { s with
        _threadPool := { s._threadPool with _stopped := true }
        stopping := .joining }
  | join (rest : List (ThreadPoolBase.ThreadPc ω)) : s.stopping = .joining →
      s._threadPool._threads = .exited :: rest →
      Step s (some .joining) { s with _threadPool := { s._threadPool with _threads := rest } }
  | returns : s.stopping = .joining → s._threadPool._threads = [] →
      Step s (some .returned) { s with
        _threadPool := { s._threadPool with _queue := [] }
        stopping := .returned }

/-- A step that stores `_stopped` at a balanced moment, if it stores it. -/
def BalancedStep (s : State σ ω Λ) (label : Option StopPc) (s' : State σ ω Λ) : Prop :=
  Step options server crew s label s' ∧ (label = some .stored → s.Balanced)

/-- Any run from `create`. -/
abbrev Run (locals : ω → Λ) : List StopPc → State σ ω Λ → Prop :=
  Runs.Run (Step options server crew) (State.initial crew locals)

/-- The runs that are stopped at a balanced moment, if they are. -/
abbrev BalancedRun (locals : ω → Λ) : List StopPc → State σ ω Λ → Prop :=
  Runs.Run (BalancedStep options server crew) (State.initial crew locals)

/-- What may come behind a state. -/
def Leads : State σ ω Λ → State σ ω Λ → Prop :=
  Relation.ReflTransGen fun s s' => ∃ label, Step options server crew s label s'

end Steps

/- Two workers: the first has come to the barrier while the second is in the queue. -/
namespace TwoWorkers

def crew : Crew Bool where
  workers := [false, true]
  complete := by decide
  nodup := by decide
  fits := by decide

def options : ServerOptions := ⟨false, .SORTINPUT⟩

def locals : Bool → Unit := fun _ => ()

abbrev BalancedRun : List StopPc → State Unit Bool Unit → Prop :=
  Shutdown.BalancedRun options none crew locals

/-- The first worker is at the barrier with the empty task. -/
def atBarrier : TaskController.State Unit Bool Unit :=
  ((((TaskController.State.initial locals).setWorker false (.fetching .PREPROCESSTASK)).fetch false
    .PREPROCESSTASK).reread false .PREPROCESSTASK).setWorker false .waiting

/-- The second one is in the queue. -/
def waiting : State Unit Bool Unit :=
  ⟨atBarrier, false, ⟨[.run false, .loop], .free, [true], 2, false⟩, [], .before⟩

theorem silent {actions : List StopPc} {s s' : State Unit Bool Unit} (hrun : BalancedRun actions s)
    (hstep : Step options none crew s none s') : BalancedRun actions s' :=
  List.append_nil actions ▸ hrun.step ⟨hstep, nofun⟩

theorem waiting_reached : BalancedRun [] waiting := by
  have pushed : BalancedRun []
      ⟨.initial locals, false, ⟨[.loop], .free, [false], 1, false⟩, [true], .before⟩ :=
    silent (silent .start (.count false [true] rfl rfl (by decide))) (.emplace false [true] rfl rfl)
  have runs : BalancedRun []
      ⟨.initial locals, false, ⟨[.run false], .free, [], 1, false⟩, [true], .before⟩ :=
    silent (silent (silent pushed (.thread _ (.loop 0 rfl)))
      (.thread _ (.lock 0 rfl rfl rfl nofun)))
      (.thread _ (.take 0 0 false rfl rfl rfl (by decide)))
  have looked := silent runs (.look false List.mem_cons_self rfl rfl)
  have fetched := silent looked (.work ⟨none, .fetch⟩ _ (.fetch false .PREPROCESSTASK rfl) nofun)
  have reread := silent fetched (.work ⟨none, .reread⟩ _ (.reread false .PREPROCESSTASK rfl) nofun)
  have arrived : BalancedRun []
      ⟨atBarrier, false, ⟨[.run false], .free, [], 1, false⟩, [true], .before⟩ :=
    silent reread (.arrive false rfl)
  exact silent (silent arrived (.count true [] rfl rfl (by decide))) (.emplace true [] rfl rfl)

/-- Both are past their tests. -/
def bothPast : TaskController.State Unit Bool Unit :=
  atBarrier.setWorker true (.fetching .PREPROCESSTASK)

theorem past_reached : BalancedRun []
    ⟨bothPast, false, ⟨[.run false, .run true], .free, [], 1, false⟩, [], .before⟩ := by
  -- The pool is full, so that the first look of the thread at the queue is in vain.
  have full : BalancedRun []
      ⟨atBarrier, false, ⟨[.run false, .test], .free, [true], 2, false⟩, [], .before⟩ :=
    silent (silent (silent (silent waiting_reached (.thread _ (.loop 1 rfl)))
      (.thread _ (.lock 1 rfl rfl rfl nofun)))
      (.thread _ (.skip 1 0 true rfl rfl rfl (by decide))))
      (.thread _ (.nothing 1 1 rfl rfl rfl))
  have again : BalancedRun []
      ⟨atBarrier, false, ⟨[.run false, .loop], .free, [true], 1, false⟩, [], .before⟩ :=
    silent (silent full (.thread _ (.test 1 rfl))) (.thread _ (.decrement 1 rfl))
  have runs : BalancedRun []
      ⟨atBarrier, false, ⟨[.run false, .run true], .free, [], 1, false⟩, [], .before⟩ :=
    silent (silent (silent again (.thread _ (.loop 1 rfl))) (.thread _ (.lock 1 rfl rfl rfl nofun)))
      (.thread _ (.take 1 0 true rfl rfl rfl (by decide)))
  exact silent runs (.look true (List.mem_of_getElem? (i := 1) rfl) rfl rfl)

end TwoWorkers

/-! ## Who passes the test -/

variable {s s' : State σ ω Λ}

/-- What a step does to the workers at their tests. -/
inductive Moves (s s' : State σ ω Λ) : Prop where
  | same : (∀ w, s'.controller.workers w = .ready ↔ s.controller.workers w = .ready) → Moves s s'
  | release : s.Completes → (∀ w, s'.controller.workers w = .ready) → Moves s s'
  | pass (w : ω) : s.Runs w → s._stopped = false →
      (∀ w', w' ≠ w → s'.controller.workers w' = s.controller.workers w') → Moves s s'

/-- Behind the store nobody passes the test. -/
theorem Moves.stopped (h : Moves s s') (hstopped : s._stopped = true) :
    (∀ w, s'.controller.workers w = .ready ↔ s.controller.workers w = .ready) ∨
      s.Completes ∧ ∀ w, s'.controller.workers w = .ready := by
  cases h with
  | same hsame => exact .inl hsame
  | release hcompletes hready => exact .inr ⟨hcompletes, hready⟩
  | pass _ _ hlive => exact nomatch hstopped.symm.trans hlive

/-- Behind the store a balanced state stays balanced. -/
theorem Moves.balanced (h : Moves s s') (hstopped : s._stopped = true) (hbalanced : s.Balanced) :
    s'.Balanced := by
  rcases h.stopped hstopped with hsame | ⟨-, hready⟩
  · rcases hbalanced with hready | hpast
    · exact .inl fun w => (hsame w).mpr (hready w)
    · exact .inr fun w hw => hpast w ((hsame w).mp hw)
  · exact .inl hready

/-- Where all workers are at their tests behind the store, they stay there. -/
theorem Moves.ready (h : Moves s s') (hstopped : s._stopped = true)
    (hready : ∀ w, s.controller.workers w = .ready) : ∀ w, s'.controller.workers w = .ready := by
  rcases h.stopped hstopped with hsame | ⟨-, hready'⟩
  · exact fun w => (hsame w).mpr (hready w)
  · exact hready'

section StepMoves

variable [DecidableEq σ] [DecidableEq ω] {options : ServerOptions} {server : Option (Policy Λ)}
  {crew : Crew ω} {label : Option StopPc}

omit [DecidableEq σ] in
/-- A worker between its tests moves. -/
theorem ready_setWorker {c : TaskController.State σ ω Λ} {w : ω} {pc : WorkerPc}
    (hw : c.workers w ≠ .ready) (hpc : pc ≠ .ready) (w' : ω) :
    (c.setWorker w pc).workers w' = .ready ↔ c.workers w' = .ready := by
  show Function.update c.workers w pc w' = .ready ↔ _
  rcases eq_or_ne w' w with rfl | hne
  · rw [Function.update_self]
    exact iff_of_false hpc hw
  · rw [Function.update_of_ne hne]

/-- Nobody comes to its test or passes it, but where the barrier opens. -/
theorem ready_of_work {c c' : TaskController.State σ ω Λ} {event : Event σ}
    (h : TaskController.Step options server c (some event) c') (htake : event.action ≠ .take) :
    (∀ w, c'.workers w = .ready ↔ c.workers w = .ready) ∨
      ((∀ w, c.workers w = .waiting) ∧ ∀ w, c'.workers w = .ready) := by
  cases h with
  | fetch w phase hw =>
      left
      refine ready_setWorker (c := c.setTask c.task.fetchIndex.2) (hw.trans_ne nofun) ?_
      split <;> nofun
  | preprocess w index task hw =>
      exact .inl (ready_setWorker (c := c.setTask task) (hw.trans_ne nofun) nofun)
  | process w index task own hw =>
      exact .inl (ready_setWorker (c := (c.setTask task).setLocals w own) (hw.trans_ne nofun) nofun)
  | reread w phase hw =>
      left
      refine ready_setWorker (hw.trans_ne nofun) ?_
      split <;> nofun
  | sort order hall => exact .inr ⟨hall, fun _ => rfl⟩
  | take => exact absurd rfl htake
  | finish | update | push | resume => exact .inl fun _ => .rfl

theorem moves_of_step (h : Step options server crew s label s') : Moves s s' := by
  cases h with
  | look w hruns _ hlive =>
      exact .pass w hruns hlive fun w' hne => Function.update_of_ne hne _ _
  | arrive w hw => exact .same (ready_setWorker (hw.trans_ne nofun) nofun)
  | work event controller hwork htake =>
      rcases ready_of_work hwork htake with hsame | ⟨hall, hready⟩
      · exact .same hsame
      · exact .release (.inr hall) hready
  | take t _queue hcompleting => exact .release (.inl hcompleting) fun _ => rfl
  | keep hcompleting => exact .release (.inl hcompleting) fun _ => rfl
  | refuse | count | emplace | thread | leave | store | stop | join | returns =>
      exact .same fun _ => .rfl

/-! ## The invariant -/

/-- The thread of `stop` is behind the store of `_stopped`. -/
def StopPc.hasStored : StopPc → Bool
  | before => false
  | stored | joining | returned => true

/-- It is behind the store of `_stopped` of the pool. -/
def StopPc.hasStopped : StopPc → Bool
  | before | stored => false
  | joining | returned => true

structure Inv (crew : Crew ω) (s : State σ ω Λ) : Prop where
  running : ∀ w, s.controller.workers w ≠ .ready → s.Runs w
  size : s._threadPool._threads.length + s.toPush.length ≤ crew.workers.length
  /-- No worker is lost before the store. -/
  placed : s._stopped = false → ∀ w, w ∈ s.toPush ∨ w ∈ s._threadPool._queue ∨ s.Runs w
  created : s.stopping ≠ .before → s.toPush = []
  stored : s._stopped = s.stopping.hasStored
  stopped : s._threadPool._stopped = s.stopping.hasStopped
  free : s._threadPool._stopped = true → s._threadPool._queueMutex = .free
  joined : s.stopping = .returned → s._threadPool._threads = []

omit [DecidableEq σ] [DecidableEq ω] in
theorem Inv.initial (crew : Crew ω) (locals : ω → Λ) :
    Inv crew (State.initial (σ := σ) crew locals) where
  running _ hw := absurd rfl hw
  size := Nat.le_of_eq (Nat.zero_add _)
  placed _ w := .inl (crew.complete w)
  created h := absurd rfl h
  stored := rfl
  stopped := rfl
  free h := nomatch h
  joined h := nomatch h

omit [DecidableEq σ] [DecidableEq ω] in
theorem Inv.stored_of_joining (h : Inv crew s) (hjoining : s.stopping = .joining) :
    s._stopped = true := by
  rw [h.stored, hjoining]
  rfl

/-- Only a worker at its test leaves `run`, and only behind the store. -/
theorem runs_of_step {w : ω} (h : Step options server crew s label s') (hruns : s.Runs w) :
    s'.Runs w ∨ s.controller.workers w = .ready ∧ s._stopped = true := by
  cases h with
  | emplace w' rest => exact .inl (ThreadPoolBase.State.run_mem_emplace hruns _)
  | thread _threadPool hthread => exact .inl (hthread.run_mem hruns)
  | leave i w' hi hready hstopped =>
      rcases eq_or_ne w w' with rfl | hne
      · exact .inr ⟨hready, hstopped⟩
      · refine .inl (ThreadPoolBase.State.mem_setThread hi hruns (fun heq => hne ?_) _)
        exact (ThreadPoolBase.ThreadPc.run.inj heq).symm
  | join rest _ hthreads =>
      have hmem : .run w ∈ ThreadPoolBase.ThreadPc.exited :: rest := hthreads ▸ hruns
      rcases List.mem_cons.mp hmem with heq | hrest
      · exact nomatch heq
      · exact .inl hrest
  | refuse | count | look | arrive | work | take | keep | store | stop | returns =>
      exact .inl hruns

theorem Inv.running_step (h : Inv crew s) (hstep : Step options server crew s label s') (w : ω)
    (hw : s'.controller.workers w ≠ .ready) : s'.Runs w := by
  cases moves_of_step hstep with
  | same hsame =>
      have hpast : s.controller.workers w ≠ .ready := fun hready => hw ((hsame w).mpr hready)
      rcases runs_of_step hstep (h.running w hpast) with hruns | ⟨hready, -⟩
      · exact hruns
      · exact absurd hready hpast
  | release _ hready => exact absurd (hready w) hw
  | pass w' hruns hlive hother =>
      have hruns' : s.Runs w := by
        rcases eq_or_ne w w' with rfl | hne
        · exact hruns
        · exact h.running w (hother w hne ▸ hw)
      rcases runs_of_step hstep hruns' with hruns | ⟨-, hstopped⟩
      · exact hruns
      · exact nomatch hstopped.symm.trans hlive

omit [DecidableEq σ] [DecidableEq ω] in
/-- There is a thread to come for each worker still to be pushed. -/
theorem Inv.size_lt (h : Inv crew s) {w : ω} {rest : List ω} (hpush : s.toPush = w :: rest) :
    s._threadPool.size < crew._maxSize := by
  have hsize := h.size
  have hfits := crew.fits
  rw [hpush, List.length_cons] at hsize
  have hthreads : s._threadPool.size.toNat = s._threadPool._threads.length :=
    UInt32.toNat_ofNat_of_lt' (by show _ < 2 ^ 32; omega)
  have hmax : crew._maxSize.toNat = crew.workers.length :=
    UInt32.toNat_ofNat_of_lt' (by show _ < 2 ^ 32; omega)
  rw [UInt32.lt_iff_toNat_lt, hthreads, hmax]
  omega

theorem Inv.size_step (h : Inv crew s) (hstep : Step options server crew s label s') :
    s'._threadPool._threads.length + s'.toPush.length ≤ crew.workers.length := by
  have hsize := h.size
  cases hstep with
  | refuse w rest hpush =>
      rw [hpush, List.length_cons] at hsize
      exact Nat.le_of_succ_le hsize
  | emplace w rest hpush =>
      have hle := s._threadPool.length_emplace_le w
      rw [hpush, List.length_cons] at hsize
      show (s._threadPool.emplace w)._threads.length + rest.length ≤ _
      omega
  | thread _threadPool hthread =>
      show _threadPool._threads.length + s.toPush.length ≤ _
      rw [hthread.length_threads]
      exact hsize
  | leave =>
      show (s._threadPool._threads.set _ _).length + s.toPush.length ≤ _
      rw [List.length_set]
      exact hsize
  | join rest _ hthreads =>
      rw [hthreads, List.length_cons] at hsize
      show rest.length + s.toPush.length ≤ _
      omega
  | count | look | arrive | work | take | keep | store | stop | returns => exact hsize

theorem Inv.placed_step (h : Inv crew s) (hstep : Step options server crew s label s')
    (hlive : s'._stopped = false) (w : ω) :
    w ∈ s'.toPush ∨ w ∈ s'._threadPool._queue ∨ s'.Runs w := by
  cases hstep with
  | refuse w' rest hpush _ hfull => exact absurd (h.size_lt hpush) hfull
  | emplace w' rest hpush =>
      show w ∈ rest ∨ w ∈ (s._threadPool.emplace w')._queue ∨ _
      rw [ThreadPoolBase.State.queue_emplace]
      rcases h.placed hlive w with hmem | hqueue | hruns
      · rw [hpush] at hmem
        rcases List.mem_cons.mp hmem with rfl | hrest
        · exact .inr (.inl (List.mem_append_right _ (List.mem_singleton_self _)))
        · exact .inl hrest
      · exact .inr (.inl (List.mem_append_left _ hqueue))
      · exact .inr (.inr (ThreadPoolBase.State.run_mem_emplace hruns _))
  | thread _threadPool hthread =>
      rcases h.placed hlive w with hmem | hqueue | hruns
      · exact .inl hmem
      · exact .inr (hthread.queued hqueue)
      · exact .inr (.inr (hthread.run_mem hruns))
  | leave _ _ _ _ hstopped => exact nomatch hstopped.symm.trans hlive
  | join rest hjoining => exact nomatch (h.stored_of_joining hjoining).symm.trans hlive
  | returns hjoining => exact nomatch (h.stored_of_joining hjoining).symm.trans hlive
  | store => exact nomatch hlive
  | count | look | arrive | work | take | keep | stop => exact h.placed hlive w

/-- Where the thread of `stop` is, the flags are. -/
theorem Inv.flags_step (h : Inv crew s) (hstep : Step options server crew s label s') :
    (s'.stopping ≠ .before → s'.toPush = []) ∧ s'._stopped = s'.stopping.hasStored ∧
      s'._threadPool._stopped = s'.stopping.hasStopped := by
  have hfrom : s.toPush ≠ [] → s.stopping = .before := fun hpush => by
    by_contra hne
    exact hpush (h.created hne)
  cases hstep with
  | refuse w rest hpush =>
      have hbefore := hfrom (hpush ▸ List.cons_ne_nil _ _)
      exact ⟨fun hne => absurd hbefore hne, h.stored, h.stopped⟩
  | emplace w rest hpush =>
      have hbefore := hfrom (hpush ▸ List.cons_ne_nil _ _)
      refine ⟨fun hne => absurd hbefore hne, h.stored, ?_⟩
      exact (ThreadPoolBase.State.stopped_emplace _ _).trans h.stopped
  | thread _threadPool hthread => exact ⟨h.created, h.stored, hthread.stopped_eq.trans h.stopped⟩
  | store hpush hbefore =>
      refine ⟨fun _ => hpush, rfl, ?_⟩
      rw [h.stopped, hbefore]
      rfl
  | stop hstored =>
      refine ⟨fun _ => h.created (hstored.trans_ne nofun), ?_, rfl⟩
      rw [h.stored, hstored]
      rfl
  | returns hjoining =>
      have hpast : s.stopping ≠ .before := hjoining.trans_ne nofun
      refine ⟨fun _ => h.created hpast, h.stored_of_joining hjoining, ?_⟩
      rw [h.stopped, hjoining]
      rfl
  | count | look | leave | arrive | work | take | keep | join =>
      exact ⟨h.created, h.stored, h.stopped⟩

theorem Inv.free_step (h : Inv crew s) (hstep : Step options server crew s label s')
    (hstopped : s'._threadPool._stopped = true) : s'._threadPool._queueMutex = .free := by
  have hbehind : s._threadPool._stopped = true → s.toPush = [] := fun hstopped => by
    refine h.created fun hbefore => ?_
    rw [h.stopped, hbefore] at hstopped
    cases hstopped
  cases hstep with
  | count w rest hpush => exact nomatch hpush.symm.trans (hbehind hstopped)
  | emplace => rfl
  | thread _threadPool hthread =>
      have hstopped' := hthread.stopped_eq.symm.trans hstopped
      exact hthread.free hstopped' (h.free hstopped')
  | stop _ hfree => exact hfree
  | refuse | look | leave | arrive | work | take | keep | store | join | returns =>
      exact h.free hstopped

theorem Inv.joined_step (h : Inv crew s) (hstep : Step options server crew s label s')
    (hreturned : s'.stopping = .returned) : s'._threadPool._threads = [] := by
  have hcreated : s.stopping = .returned → s.toPush = [] := fun hreturned =>
    h.created (hreturned.trans_ne nofun)
  cases hstep with
  | emplace w rest hpush => exact nomatch hpush.symm.trans (hcreated hreturned)
  | thread _threadPool hthread =>
      have hlength := hthread.length_threads
      rw [h.joined hreturned] at hlength
      exact List.eq_nil_of_length_eq_zero hlength
  | leave i w hi =>
      rw [h.joined hreturned] at hi
      cases hi
  | join _ hjoining => exact nomatch hjoining.symm.trans hreturned
  | returns _ hthreads => exact hthreads
  | store | stop => exact nomatch hreturned
  | refuse | count | look | arrive | work | take | keep => exact h.joined hreturned

theorem Inv.step (h : Inv crew s) (hstep : Step options server crew s label s') : Inv crew s' := by
  obtain ⟨hcreated, hstored, hstopped⟩ := h.flags_step hstep
  exact {
    running := h.running_step hstep
    size := h.size_step hstep
    placed := h.placed_step hstep
    created := hcreated
    stored := hstored
    stopped := hstopped
    free := h.free_step hstep
    joined := h.joined_step hstep }

end StepMoves

end Shutdown

end ClientServer
