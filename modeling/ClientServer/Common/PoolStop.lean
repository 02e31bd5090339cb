import ClientServer.Common.ThreadPoolBase

/-!
# Stopping the pool

`ThreadPoolBase::stop` goes through `_threads` by an iterator that moves on where a
thread is joined and erased, and only there.  A thread that cannot be joined keeps
it where it is, and the thread that calls `stop` is detached and so becomes one.

A join of another thread returns, and nothing else touches `_threads` meanwhile.
-/

namespace ClientServer.ThreadPoolBase

variable {ι ρ : Type}

/-- A `std::thread`, by the thread of execution it stands for, if there is one. -/
structure Thread (ι : Type) where
  id : Option ι
deriving DecidableEq

namespace Thread

def joinable (thread : Thread ι) : Bool := thread.id.isSome

/-- `none` is the id of no thread. -/
def get_id (thread : Thread ι) : Option ι := thread.id

def detach (_thread : Thread ι) : Thread ι := ⟨none⟩

end Thread

/-- What `stop` changes of the pool. -/
structure Stopping (ι ρ : Type) where
  _threads : List (Thread ι)
  _queue : List ρ
  _stopped : Bool

section Stop

variable [DecidableEq ι]

/-- The loop of `stop` from a position of the iterator on, as far as a number of
iterations takes it; `none` where it has not come to the end. -/
def stopLoop (this_id : ι) : (iterations it : Nat) → List (Thread ι) → Option (List (Thread ι))
  | 0, it, _threads => if it < _threads.length then none else some _threads
  | iterations + 1, it, _threads =>
      match _threads[it]? with
      | none => some _threads
      | some thread =>
          if thread.joinable then
            if thread.get_id = some this_id then
              stopLoop this_id iterations it (_threads.set it thread.detach)
            else stopLoop this_id iterations it (_threads.eraseIdx it)
          else stopLoop this_id iterations it _threads

/-- `ThreadPoolBase::stop`, called by a thread. -/
def stop (this_id : ι) (iterations : Nat) (s : Stopping ι ρ) : Option (Stopping ι ρ) :=
  (stopLoop this_id iterations 0 s._threads).map fun _threads =>
    { _threads, _queue := [], _stopped := true }

/-- The thread is joined and erased. -/
def Thread.Joins (this_id : ι) (thread : Thread ι) : Prop :=
  thread.joinable = true ∧ thread.get_id ≠ some this_id

variable {this_id : ι} {thread : Thread ι} {_threads _threads' : List (Thread ι)}
  {iterations it : Nat}

/-- A thread that cannot be joined keeps the iterator where it is. -/
theorem stopLoop_of_not_joinable (hthread : _threads[it]? = some thread)
    (h : thread.joinable = false) (iterations : Nat) :
    stopLoop this_id iterations it _threads = none := by
  induction iterations with
  | zero =>
      obtain ⟨hlt, -⟩ := List.getElem?_eq_some_iff.mp hthread
      rw [stopLoop, if_pos hlt]
  | succ iterations ih =>
      rw [stopLoop, hthread]
      dsimp only
      rw [h, if_neg Bool.false_ne_true]
      exact ih

/-- So does the thread that stops the pool: detached it cannot be joined. -/
theorem stopLoop_of_this (hthread : _threads[it]? = some thread)
    (h : thread.get_id = some this_id) (iterations : Nat) :
    stopLoop this_id iterations it _threads = none := by
  obtain ⟨hlt, -⟩ := List.getElem?_eq_some_iff.mp hthread
  cases iterations with
  | zero => rw [stopLoop, if_pos hlt]
  | succ iterations =>
      have hjoinable : thread.joinable = true := Option.isSome_of_eq_some h
      rw [stopLoop, hthread]
      dsimp only
      rw [if_pos hjoinable, if_pos h]
      exact stopLoop_of_not_joinable (List.getElem?_set_self hlt) rfl iterations

theorem stopLoop_of_joins (h : thread.Joins this_id) (iterations : Nat)
    (_threads : List (Thread ι)) :
    stopLoop this_id (iterations + 1) 0 (thread :: _threads) =
      stopLoop this_id iterations 0 _threads := by
  rw [stopLoop, List.getElem?_cons_zero]
  dsimp only
  rw [if_pos h.1, if_neg h.2, List.eraseIdx_cons_zero]

/-- One iteration for each thread is enough, if all can be joined. -/
theorem stopLoop_length (h : ∀ thread ∈ _threads, thread.Joins this_id) :
    stopLoop this_id _threads.length 0 _threads = some [] := by
  induction _threads with
  | nil => rfl
  | cons thread _threads ih =>
      obtain ⟨hthread, hthreads⟩ := List.forall_mem_cons.mp h
      rw [List.length_cons, stopLoop_of_joins hthread]
      exact ih hthreads

/-- The first thread that cannot be joined is where the loop stays. -/
theorem joins_of_stopLoop (h : stopLoop this_id iterations 0 _threads = some _threads') :
    _threads' = [] ∧ ∀ thread ∈ _threads, thread.Joins this_id := by
  induction _threads generalizing iterations with
  | nil =>
      cases iterations with
      | zero | succ =>
          obtain rfl := Option.some.inj h
          exact ⟨rfl, fun _ hmem => absurd hmem List.not_mem_nil⟩
  | cons thread _threads ih =>
      have hfirst : (thread :: _threads)[0]? = some thread := List.getElem?_cons_zero
      have hjoins : thread.Joins this_id := by
        constructor
        · by_contra hjoinable
          rw [stopLoop_of_not_joinable hfirst (Bool.not_eq_true _ ▸ hjoinable)] at h
          cases h
        · intro hthis
          rw [stopLoop_of_this hfirst hthis] at h
          cases h
      cases iterations with
      | zero => cases h
      | succ iterations =>
          rw [stopLoop_of_joins hjoins] at h
          obtain ⟨hnil, hthreads⟩ := ih h
          exact ⟨hnil, List.forall_mem_cons.mpr ⟨hjoins, hthreads⟩⟩

variable {s s' : Stopping ι ρ}

/-- `stop` leaves nothing. -/
theorem stop_eq_some (h : stop this_id iterations s = some s') :
    s' = { _threads := [], _queue := [], _stopped := true } ∧
      ∀ thread ∈ s._threads, thread.Joins this_id := by
  obtain ⟨_threads, hloop, rfl⟩ := Option.map_eq_some_iff.mp h
  obtain ⟨rfl, hjoins⟩ := joins_of_stopLoop hloop
  exact ⟨rfl, hjoins⟩

/-- It returns where it can join all threads. -/
theorem stop_returns_iff (this_id : ι) (s : Stopping ι ρ) :
    (∃ iterations s', stop this_id iterations s = some s') ↔
      ∀ thread ∈ s._threads, thread.Joins this_id := by
  constructor
  · rintro ⟨iterations, s', hstop⟩
    exact (stop_eq_some hstop).2
  · intro h
    refine ⟨s._threads.length, ⟨[], [], true⟩, ?_⟩
    rw [stop, stopLoop_length h]
    rfl

/-- `stop` ends with the queue empty and no thread left to join just when all threads
can be joined and none of them is the one that calls it. -/
theorem stop_terminates_iff (this_id : ι) (s : Stopping ι ρ) :
    (∃ iterations s', stop this_id iterations s = some s' ∧ s'._queue = [] ∧
      ∀ thread ∈ s'._threads, thread.joinable = false) ↔
    ∀ thread ∈ s._threads, thread.joinable = true ∧ thread.get_id ≠ some this_id := by
  constructor
  · rintro ⟨iterations, s', hstop, -⟩
    exact (stop_returns_iff this_id s).mp ⟨iterations, s', hstop⟩
  · intro h
    obtain ⟨iterations, s', hstop⟩ := (stop_returns_iff this_id s).mpr h
    obtain ⟨rfl, -⟩ := stop_eq_some hstop
    exact ⟨iterations, _, hstop, rfl, fun _ hmem => absurd hmem List.not_mem_nil⟩

/-- A thread of the pool stops it. -/
theorem stop_not_terminates :
    ¬ ∀ (this_id : Nat) (s : Stopping Nat Nat), ∃ iterations s',
      stop this_id iterations s = some s' ∧ s'._queue = [] ∧
        ∀ thread ∈ s'._threads, thread.joinable = false := by
  intro h
  obtain ⟨iterations, s', hstop, -⟩ := h 0 ⟨[⟨some 0⟩], [], false⟩
  have hjoins := (stop_returns_iff _ _).mp ⟨iterations, s', hstop⟩ _ (.head _)
  exact hjoins.2 rfl

end Stop

/-! ## The threads of `createThread` -/

/-- The pool at the call of `stop`: nobody has joined or detached a thread yet, and
the threads are known by their places. -/
def State.stopping (s : State ρ) : Stopping Nat ρ where
  _threads := (List.range s._threads.length).map fun i => ⟨some i⟩
  _queue := s._queue
  _stopped := s._stopped

/-- `stop` returns to any thread but those of the pool. -/
theorem State.stop_returns_iff (s : State ρ) (this_id : Nat) :
    (∃ iterations s', stop this_id iterations s.stopping = some s') ↔
      s._threads.length ≤ this_id := by
  rw [ThreadPoolBase.stop_returns_iff]
  constructor
  · intro h
    by_contra hlt
    have hmem : (⟨some this_id⟩ : Thread Nat) ∈ s.stopping._threads :=
      List.mem_map_of_mem (List.mem_range.mpr (Nat.not_le.mp hlt))
    exact (h _ hmem).2 rfl
  · intro hle thread hmem
    obtain ⟨i, hi, rfl⟩ := List.mem_map.mp hmem
    refine ⟨rfl, fun hthis => ?_⟩
    obtain rfl : i = this_id := Option.some.inj hthis
    exact Nat.not_le.mpr (List.mem_range.mp hi) hle

end ClientServer.ThreadPoolBase
