import Mathlib.Data.List.Nodup
import Mathlib.Data.List.Perm.Basic

/-!
# The thread pool

The threads of `createThread` take objects out of the queue and run them until
the pool is stopped.  A step is one access to what they share: the scan of `get`
holds `_queueMutex` but compares one entry a step, since the counter is not under
the lock, and so does `push` between its two looks at the counter.  A thread
blocked in `get` goes on when what it waits for holds.

What `run` does is not said here, nor who stops an object: that of a worker is never
stopped.
-/

namespace ClientServer.ThreadPoolBase

/-- Where a thread stands in the loop of `createThread`. -/
inductive ThreadPc (ρ : Type) where
  | loop
  /-- In `get`; it may hold the lock. -/
  | get
  | run (runnable : ρ)
  /-- In the destructor of `Finally`, in front of its test. -/
  | test
  /-- In the destructor of `Finally`, behind its test. -/
  | decrement
  | exited
deriving DecidableEq

/-- Who holds `_queueMutex`, where that is more than one step. -/
inductive Mutex where
  | free
  /-- `push`, behind `++_totalNumberObjects`. -/
  | push
  /-- A thread in `get`, in front of an entry of the queue. -/
  | get (i position : Nat)
deriving DecidableEq

structure State (ρ : Type) where
  _threads : List (ThreadPc ρ)
  _queueMutex : Mutex
  _queue : List ρ
  _totalNumberObjects : UInt32
  _stopped : Bool

variable {ρ : Type}

namespace State

def initial : State ρ where
  _threads := []
  _queueMutex := .free
  _queue := []
  _totalNumberObjects := 0
  _stopped := false

def size (s : State ρ) : UInt32 := UInt32.ofNat s._threads.length

def setThread (s : State ρ) (i : Nat) (pc : ThreadPc ρ) : State ρ :=
  { s with _threads := s._threads.set i pc }

def createThread (s : State ρ) : State ρ := { s with _threads := s._threads ++ [.loop] }

/-- `push` to the increment. -/
def count (s : State ρ) : State ρ :=
  { s with _totalNumberObjects := s._totalNumberObjects + 1, _queueMutex := .push }

/-- The rest of `push`. -/
def emplace (s : State ρ) (runnable : ρ) : State ρ :=
  let s := if s._totalNumberObjects > s.size then s.createThread else s
  { s with _queue := s._queue ++ [runnable], _queueMutex := .free }

end State

/-- The steps of the threads outside of `run`.  `Stopped` tells the objects with `_stopped`
set. -/
inductive Step (_maxSize : UInt32) (Stopped : ρ → Prop) (s : State ρ) : State ρ → Prop where
  | loop (i : Nat) : s._threads[i]? = some .loop →
      Step _maxSize Stopped s (s.setThread i (if s._stopped then .exited else .get))
  | stopped (i : Nat) : s._threads[i]? = some .get → s._queueMutex = .free → s._stopped = true →
      Step _maxSize Stopped s (s.setThread i .test)
  | lock (i : Nat) : s._threads[i]? = some .get → s._queueMutex = .free → s._stopped = false →
      s._queue ≠ [] → Step _maxSize Stopped s { s with _queueMutex := .get i 0 }
  | take (i position : Nat) (runnable : ρ) : s._threads[i]? = some .get →
      s._queueMutex = .get i position → s._queue[position]? = some runnable →
      ¬ Stopped runnable ∧ s._totalNumberObjects < _maxSize →
      Step _maxSize Stopped s ({ s with
        _queue := s._queue.eraseIdx position
        _queueMutex := .free }.setThread i (.run runnable))
  | skip (i position : Nat) (runnable : ρ) : s._threads[i]? = some .get →
      s._queueMutex = .get i position → s._queue[position]? = some runnable →
      ¬ (¬ Stopped runnable ∧ s._totalNumberObjects < _maxSize) →
      Step _maxSize Stopped s { s with _queueMutex := .get i (position + 1) }
  | nothing (i position : Nat) : s._threads[i]? = some .get →
      s._queueMutex = .get i position → s._queue[position]? = none →
      Step _maxSize Stopped s ({ s with _queueMutex := .free }.setThread i .test)
  | test (i : Nat) : s._threads[i]? = some .test →
      Step _maxSize Stopped s
        (s.setThread i (if s._totalNumberObjects > 0 then .decrement else .loop))
  | decrement (i : Nat) : s._threads[i]? = some .decrement →
      Step _maxSize Stopped s ({ s with
        _totalNumberObjects := s._totalNumberObjects - 1 }.setThread i .loop)

/-- No object is stopped. -/
abbrev NoneStopped (_ : ρ) : Prop := False

/-! ## What the steps keep -/

variable {_maxSize : UInt32} {Stopped : ρ → Prop} {s s' : State ρ} {i : Nat}
  {pc pc' : ThreadPc ρ} {runnable : ρ}

/-- A thread that moves leaves the others where they are. -/
theorem State.mem_setThread (hi : s._threads[i]? = some pc) (hmem : pc' ∈ s._threads)
    (hne : pc ≠ pc') (pc'' : ThreadPc ρ) : pc' ∈ (s.setThread i pc'')._threads := by
  obtain ⟨j, hj⟩ := List.mem_iff_getElem?.mp hmem
  have hij : i ≠ j := by
    rintro rfl
    exact hne (Option.some.inj (hi.symm.trans hj))
  refine List.mem_iff_getElem?.mpr ⟨j, ?_⟩
  exact (List.getElem?_set_ne hij).trans hj

theorem State.setThread_mem (hi : s._threads[i]? = some pc) (pc' : ThreadPc ρ) :
    pc' ∈ (s.setThread i pc')._threads := by
  obtain ⟨hlt, -⟩ := List.getElem?_eq_some_iff.mp hi
  exact List.mem_set hlt pc'

/-- Only its own return ends the run of an object. -/
theorem Step.run_mem (h : Step _maxSize Stopped s s') (hmem : .run runnable ∈ s._threads) :
    .run runnable ∈ s'._threads := by
  cases h with
  | loop i hi => exact State.mem_setThread hi hmem nofun _
  | stopped i hi => exact State.mem_setThread hi hmem nofun _
  | lock => exact hmem
  | take i position r hi => exact State.mem_setThread hi hmem nofun _
  | skip => exact hmem
  | nothing i position hi => exact State.mem_setThread hi hmem nofun _
  | test i hi => exact State.mem_setThread hi hmem nofun _
  | decrement i hi => exact State.mem_setThread hi hmem nofun _

/-- What leaves the queue is run. -/
theorem Step.queued (h : Step _maxSize Stopped s s') (hmem : runnable ∈ s._queue) :
    runnable ∈ s'._queue ∨ .run runnable ∈ s'._threads := by
  cases h with
  | take i position r hi _ hposition =>
      obtain ⟨hlt, hget⟩ := List.getElem?_eq_some_iff.mp hposition
      have hperm : (r :: s._queue.eraseIdx position).Perm s._queue :=
        hget ▸ List.getElem_cons_eraseIdx_perm hlt
      rcases List.mem_cons.mp (hperm.mem_iff.mpr hmem) with rfl | hrest
      · exact .inr (State.setThread_mem hi _)
      · exact .inl hrest
  | loop | stopped | lock | skip | nothing | test | decrement => exact .inl hmem

theorem Step.length_threads (h : Step _maxSize Stopped s s') :
    s'._threads.length = s._threads.length := by
  cases h with
  | lock | skip => rfl
  | loop | stopped | take | nothing | test | decrement => exact List.length_set

theorem Step.stopped_eq (h : Step _maxSize Stopped s s') : s'._stopped = s._stopped := by
  cases h <;> rfl

/-- Behind the stop no thread looks for an object. -/
theorem Step.free (h : Step _maxSize Stopped s s') (hstopped : s._stopped = true)
    (hfree : s._queueMutex = .free) : s'._queueMutex = .free := by
  cases h with
  | lock _ _ _ hlive => exact nomatch hstopped.symm.trans hlive
  | take | nothing => rfl
  | skip _ _ _ _ hheld => exact nomatch hfree.symm.trans hheld
  | loop | stopped | test | decrement => exact hfree

theorem State.run_mem_emplace (hmem : .run runnable ∈ s._threads) (r : ρ) :
    .run runnable ∈ (s.emplace r)._threads := by
  show _ ∈ (if s._totalNumberObjects > s.size then s.createThread else s)._threads
  split
  · exact List.mem_append_left _ hmem
  · exact hmem

theorem State.queue_emplace (s : State ρ) (r : ρ) : (s.emplace r)._queue = s._queue ++ [r] := by
  show (if s._totalNumberObjects > s.size then s.createThread else s)._queue ++ [r] = _
  split <;> rfl

theorem State.stopped_emplace (s : State ρ) (r : ρ) : (s.emplace r)._stopped = s._stopped := by
  show (if s._totalNumberObjects > s.size then s.createThread else s)._stopped = _
  split <;> rfl

/-- `push` creates at most one thread. -/
theorem State.length_emplace_le (s : State ρ) (r : ρ) :
    (s.emplace r)._threads.length ≤ s._threads.length + 1 := by
  show (if s._totalNumberObjects > s.size then s.createThread else s)._threads.length ≤ _
  split
  · exact Nat.le_of_eq List.length_append
  · exact Nat.le_succ _

/-! ## The way out of the loop -/

/-- The steps a thread has in front of it once the pool is stopped. -/
def ThreadPc.left : ThreadPc ρ → Nat
  | run _ | get => 4
  | test => 3
  | decrement => 2
  | loop => 1
  | exited => 0

/-- Behind the stop the thread in front goes on to its end. -/
theorem exists_step {rest : List (ThreadPc ρ)} (hstopped : s._stopped = true)
    (hfree : s._queueMutex = .free) (hthreads : s._threads = pc :: rest) (hexited : pc ≠ .exited)
    (hrun : ∀ runnable, pc ≠ .run runnable) :
    ∃ s' pc', Step _maxSize Stopped s s' ∧ s'._threads = pc' :: rest ∧ pc'.left < pc.left := by
  have hi : s._threads[0]? = some pc := by rw [hthreads]; rfl
  have hset : ∀ pc', (s.setThread 0 pc')._threads = pc' :: rest := fun pc' => by
    rw [State.setThread, hthreads, List.set_cons_zero]
  cases pc with
  | loop =>
      have hnext : Step _maxSize Stopped s _ := .loop 0 hi
      rw [if_pos hstopped] at hnext
      exact ⟨_, _, hnext, hset _, Nat.zero_lt_one⟩
  | get => exact ⟨_, _, .stopped 0 hi hfree hstopped, hset _, Nat.lt_succ_self 3⟩
  | run runnable => exact absurd rfl (hrun runnable)
  | test =>
      refine ⟨_, _, .test 0 hi, hset _, ?_⟩
      split
      · exact Nat.lt_succ_self 2
      · exact Nat.lt_of_sub_pos Nat.two_pos
  | decrement => exact ⟨_, _, .decrement 0 hi, hset _, Nat.lt_succ_self 1⟩
  | exited => exact absurd rfl hexited

end ClientServer.ThreadPoolBase
