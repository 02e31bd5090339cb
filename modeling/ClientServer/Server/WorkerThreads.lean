import ClientServer.Common.PoolCounts
import ClientServer.Library.Runs
import ClientServer.Server.Shutdown
import Mathlib.Data.Prod.Lex

/-!
# A thread for each worker

`TaskController::start` pushes as many workers as the pool may have threads, and
a worker does not return before the controller is stopped.  Each push creates a
thread, but with the last one the counter has come to `_maxSize`, and while it
is there the threads find nothing in `get`.  Each turn in vain takes one object
off the counter, though none is finished, and so the next look finds a worker.

The threads that look in vain are never more than the counter: it is at
`_maxSize` when they begin to, and they are fewer than that (`Inv.leaving`).
-/

namespace ClientServer.WorkerThreads

open ThreadPoolBase (Turn Counted Change)
open Shutdown (Crew)
open scoped List

variable {ω : Type}

structure State (ω : Type) where
  _threadPool : ThreadPoolBase.State ω
  /-- The workers `start` has still to push. -/
  toPush : List ω

def initial (crew : Crew ω) : State ω where
  _threadPool := .initial
  toPush := crew.workers

/-- The steps of `start` and of the threads, while no worker returns; a thread
that takes a worker says so. -/
inductive Step (crew : Crew ω) (s : State ω) : Option ω → State ω → Prop where
  /-- `push` refuses a worker. -/
  | refuse (w : ω) (rest : List ω) : s.toPush = w :: rest → s._threadPool._queueMutex = .free →
      ¬ s._threadPool.size < crew._maxSize → Step crew s none { s with toPush := rest }
  | count (w : ω) (rest : List ω) : s.toPush = w :: rest → s._threadPool._queueMutex = .free →
      s._threadPool.size < crew._maxSize →
      Step crew s none { s with _threadPool := s._threadPool.count }
  | emplace (w : ω) (rest : List ω) : s.toPush = w :: rest → s._threadPool._queueMutex = .push →
      Step crew s none { _threadPool := s._threadPool.emplace w, toPush := rest }
  | thread (label : Option (Nat × ω)) (_threadPool : ThreadPoolBase.State ω) :
      Turn crew._maxSize ThreadPoolBase.NoneStopped s._threadPool label _threadPool →
      Step crew s (label.map Prod.snd) { s with _threadPool }

/-- The runs from `start`, with the workers in the order of their dispatch. -/
abbrev Run (crew : Crew ω) : List ω → State ω → Prop := Runs.Run (Step crew) (initial crew)

theorem Crew.maxSize_toNat (crew : Crew ω) : crew._maxSize.toNat = crew.workers.length := by
  have hfits := crew.fits
  exact UInt32.toNat_ofNat_of_lt' (by show _ < 2 ^ 32; omega)

/-! ## What holds along a run -/

variable {crew : Crew ω} {dispatched : List ω} {s s' : State ω} {label : Option ω}

/-- A thread in `get` has passed by a worker. -/
def looking : ThreadPoolBase.Mutex → Nat
  | .get _ (_ + 1) => 1
  | _ => 0

structure Inv (crew : Crew ω) (dispatched : List ω) (s : State ω) : Prop where
  counted : Counted crew._maxSize s._threadPool
  placed : s.toPush ++ s._threadPool._queue ++ dispatched ~ crew.workers
  running : s._threadPool.running ~ dispatched
  threads : s._threadPool._threads.length + s.toPush.length = crew.workers.length
  pushing : s._threadPool._queueMutex = .push → s.toPush ≠ []
  held : s._threadPool.Held
  leaving : s._threadPool.leaving + looking s._threadPool._queueMutex ≤
    s._threadPool._totalNumberObjects.toNat
  lasting : .exited ∉ s._threadPool._threads

theorem Inv.initial (crew : Crew ω) : Inv crew [] (initial crew) where
  counted := .initial _
  placed := by
    show crew.workers ++ [] ++ [] ~ crew.workers
    rw [List.append_nil, List.append_nil]
  running := .refl _
  threads := Nat.zero_add _
  pushing h := nomatch h
  held _ _ h := nomatch h
  leaving := Nat.le_refl 0
  lasting := List.not_mem_nil

/-- Each worker that was pushed has got its thread. -/
theorem Inv.manned (h : Inv crew dispatched s) :
    s._threadPool._queue.length + s._threadPool.running.length =
      s._threadPool._threads.length := by
  have hplaced := h.placed.length_eq
  have hrunning := h.running.length_eq
  have hthreads := h.threads
  rw [List.length_append, List.length_append] at hplaced
  omega

theorem Inv.idle_eq (h : Inv crew dispatched s) :
    s._threadPool.idle = s._threadPool._queue.length := by
  have hsplit := s._threadPool.idle_add_running
  have hmanned := h.manned
  omega

/-- `push` finds room for a worker. -/
theorem Inv.size_lt (h : Inv crew dispatched s) (hpush : s.toPush ≠ []) :
    s._threadPool.size < crew._maxSize := by
  have hthreads := h.threads
  have hpos := List.length_pos_iff.mpr hpush
  rw [h.counted.size_lt_iff, Crew.maxSize_toNat]
  omega

/-- A thread looks in vain only below a counter that has room for it. -/
theorem Inv.leaving_thread (h : Inv crew dispatched s) {_threadPool : ThreadPoolBase.State ω}
    (hstep : ThreadPoolBase.Step crew._maxSize ThreadPoolBase.NoneStopped s._threadPool
      _threadPool) :
    _threadPool.leaving + looking _threadPool._queueMutex ≤
      _threadPool._totalNumberObjects.toNat := by
  have hleaving := h.leaving
  cases hstep.change h.counted.live with
  | move htotal hmutex _ _ heq =>
      rw [htotal, hmutex, heq]
      exact hleaving
  | lock i hfree _ heq =>
      rw [hfree] at hleaving
      subst heq
      exact hleaving
  | skip i position _ hi _ hpassed heq =>
      have hfull : ¬ s._threadPool._totalNumberObjects < crew._maxSize :=
        fun hlt => hpassed ⟨id, hlt⟩
      have hlt := ThreadPoolBase.State.leaving_lt_idle hi
      have hsplit := s._threadPool.idle_add_running
      have hthreads := h.threads
      have hle := UInt32.le_iff_toNat_le.mp (UInt32.not_lt.mp hfull)
      rw [Crew.maxSize_toNat] at hle
      subst heq
      show s._threadPool.leaving + 1 ≤ s._threadPool._totalNumberObjects.toNat
      omega
  | take i position w _ _ htotal hmutex _ _ heq =>
      rw [htotal, hmutex, heq]
      exact Nat.le_of_add_right_le hleaving
  | nothing i position hheld hposition htotal hmutex _ _ heq =>
      -- the queue is not empty, so that the thread has passed by its first entry
      cases position with
      | zero =>
          have hend := List.getElem?_eq_none_iff.mp hposition
          have hnil := List.eq_nil_of_length_eq_zero (Nat.le_zero.mp hend)
          exact absurd hnil (h.held i 0 hheld).2
      | succ position =>
          rw [hheld] at hleaving
          rw [htotal, hmutex, heq]
          exact hleaving
  | zero hzero htotal hmutex _ _ heq =>
      rw [hzero] at hleaving
      have : (0 : UInt32).toNat = 0 := rfl
      omega
  | decrement htotal hmutex _ _ heq =>
      rw [htotal, ThreadPoolBase.toNat_sub_one (by omega), hmutex]
      omega

theorem Inv.thread (h : Inv crew dispatched s) {label : Option (Nat × ω)}
    {_threadPool : ThreadPoolBase.State ω}
    (hturn : Turn crew._maxSize ThreadPoolBase.NoneStopped s._threadPool label _threadPool) :
    Inv crew (dispatched ++ (label.map Prod.snd).toList) { s with _threadPool } := by
  have hlive := h.counted.live
  have hqueue := hturn.queue_perm hlive
  have hrunning : _threadPool.running ~ dispatched ++ (label.map Prod.snd).toList :=
    ((hturn.running_perm hlive).trans (h.running.append_left _)).trans List.perm_append_comm
  constructor
  · exact h.counted.step (fun _ => id) hturn.step
  · calc s.toPush ++ _threadPool._queue ++ (dispatched ++ (label.map Prod.snd).toList)
        _ ~ s.toPush ++ _threadPool._queue ++ ((label.map Prod.snd).toList ++ dispatched) :=
          List.perm_append_comm.append_left _
        _ = s.toPush ++ (_threadPool._queue ++ (label.map Prod.snd).toList) ++ dispatched := by
          simp only [List.append_assoc]
        _ ~ s.toPush ++ s._threadPool._queue ++ dispatched :=
          (hqueue.append_left _).append_right _
        _ ~ crew.workers := h.placed
  · exact hrunning
  · exact hturn.step.length_threads ▸ h.threads
  · exact fun hpush => h.pushing ((hturn.step.push_iff hlive).mp hpush)
  · exact hturn.step.held h.held
  · exact h.leaving_thread hturn.step
  · exact hturn.step.lasting hlive h.lasting

theorem Inv.count (h : Inv crew dispatched s) (hpush : s.toPush ≠ [])
    (hfree : s._threadPool._queueMutex = .free) :
    Inv crew dispatched { s with _threadPool := s._threadPool.count } := by
  have hcounted := h.counted.count hfree (h.size_lt hpush)
  have hleaving := h.leaving
  refine ⟨hcounted, h.placed, h.running, h.threads, fun _ => hpush, nofun, ?_, h.lasting⟩
  have htotal := (hcounted.right (hcounted.room rfl)).total
  show s._threadPool.leaving + 0 ≤ s._threadPool.count._totalNumberObjects.toNat
  rw [htotal]
  exact Nat.le_add_right_of_le (Nat.le_add_left _ _)

/-- The pool gets a thread with each worker. -/
theorem Inv.emplace (h : Inv crew dispatched s) {w : ω} {rest : List ω}
    (hpush : s.toPush = w :: rest) (hmutex : s._threadPool._queueMutex = .push) :
    Inv crew dispatched { _threadPool := s._threadPool.emplace w, toPush := rest } := by
  have hcounted := h.counted.emplace hmutex w
  have hright := h.counted.right (h.counted.room hmutex)
  obtain ⟨hrunning, hleaving, htotal⟩ := s._threadPool.accounts_emplace w
  have hfree := s._threadPool.mutex_emplace w
  have hmanned := h.manned
  have hthreads := h.threads
  have hmore : s._threadPool._totalNumberObjects > s._threadPool.size := by
    have hone : s._threadPool.pushing = 1 := if_pos hmutex
    have hcount := hright.total
    refine UInt32.lt_iff_toNat_lt.mpr ?_
    rw [h.counted.size_toNat]
    omega
  have hcreated : (s._threadPool.emplace w)._threads = s._threadPool._threads ++ [.loop] := by
    rw [ThreadPoolBase.State.threads_emplace, if_pos hmore]
  constructor
  · exact hcounted
  · show rest ++ (s._threadPool.emplace w)._queue ++ dispatched ~ crew.workers
    rw [ThreadPoolBase.State.queue_emplace]
    refine List.Perm.trans (List.Perm.append_right _ ?_) h.placed
    rw [hpush, ← List.append_assoc]
    exact List.perm_append_singleton _ _
  · exact hrunning ▸ h.running
  · show (s._threadPool.emplace w)._threads.length + rest.length = _
    rw [hpush, List.length_cons] at hthreads
    rw [hcreated, List.length_append, List.length_singleton]
    omega
  · exact fun hmutex' => nomatch hfree.symm.trans hmutex'
  · exact fun _ _ hheld => nomatch hfree.symm.trans hheld
  · have hle := h.leaving
    rw [hmutex] at hle
    show (s._threadPool.emplace w).leaving + looking (s._threadPool.emplace w)._queueMutex ≤ _
    rw [hleaving, hfree, htotal]
    exact hle
  · show .exited ∉ (s._threadPool.emplace w)._threads
    rw [hcreated]
    exact fun hmem => (List.mem_append.mp hmem).elim h.lasting (fun hlast => nomatch hlast)

theorem Inv.step (h : Inv crew dispatched s) (hstep : Step crew s label s') :
    Inv crew (dispatched ++ label.toList) s' := by
  cases hstep with
  | refuse w rest hpush _ hfull => exact absurd (h.size_lt (hpush ▸ List.cons_ne_nil _ _)) hfull
  | count w rest hpush hfree =>
      rw [Option.toList_none, List.append_nil]
      exact h.count (hpush ▸ List.cons_ne_nil _ _) hfree
  | emplace w rest hpush hmutex =>
      rw [Option.toList_none, List.append_nil]
      exact h.emplace hpush hmutex
  | thread label _threadPool hturn => exact h.thread hturn

theorem Run.inv (hrun : Run crew dispatched s) : Inv crew dispatched s :=
  hrun.invariant (P := Inv crew) (Inv.initial crew) fun h hstep => h.step hstep

/-! ## The threads come to the workers -/

/-- The steps a thread has in front of it to the end of its turn, but for the
look at the queue. -/
def ahead : ThreadPoolBase.ThreadPc ω → Nat
  | .loop => 3
  | .get => 2
  | .test => 1
  | .run _ | .decrement | .exited => 0

/-- The entries in front of the thread that looks. -/
def toLook (size : Nat) : ThreadPoolBase.Mutex → Nat
  | .free => size + 1
  | .push => 0
  | .get _ position => size - position

/-- Every step of a thread makes something of this less. -/
def measure (s : ThreadPoolBase.State ω) : ℕ ×ₗ ℕ ×ₗ ℕ ×ₗ ℕ :=
  toLex (s._queue.length, toLex (s._totalNumberObjects.toNat,
    toLex ((s._threads.map ahead).sum, toLook s._queue.length s._queueMutex)))

section Measure

variable {s s' : ThreadPoolBase.State ω}

theorem measure_lt (h : s'._queue.length < s._queue.length ∨
    s'._queue.length = s._queue.length ∧
      (s'._totalNumberObjects.toNat < s._totalNumberObjects.toNat ∨
        s'._totalNumberObjects.toNat = s._totalNumberObjects.toNat ∧
          ((s'._threads.map ahead).sum < (s._threads.map ahead).sum ∨
            (s'._threads.map ahead).sum = (s._threads.map ahead).sum ∧
              toLook s'._queue.length s'._queueMutex < toLook s._queue.length s._queueMutex))) :
    measure s' < measure s := by
  simp only [measure, Prod.Lex.toLex_lt_toLex]
  exact h

theorem sum_ahead_lt {i : Nat} {pc : ThreadPoolBase.ThreadPc ω} (hi : s._threads[i]? = some pc)
    {pc' : ThreadPoolBase.ThreadPc ω} (hlt : ahead pc' < ahead pc) :
    (((s.setThread i pc')._threads).map ahead).sum < (s._threads.map ahead).sum := by
  have hsum := Slots.sum_map_set_add ahead hi pc'
  show ((s._threads.set i pc').map ahead).sum < _
  omega

end Measure

/-- A thread that leaves finds the counter above zero. -/
theorem Inv.total_pos (h : Inv crew dispatched s) {i : Nat} {pc : ThreadPoolBase.ThreadPc ω}
    (hi : s._threadPool._threads[i]? = some pc) (hleaves : pc.isLeaving = true) :
    0 < s._threadPool._totalNumberObjects.toNat := by
  have hpos := ThreadPoolBase.State.leaving_pos hi hleaves
  have hleaving := h.leaving
  omega

theorem Inv.measure_lt (h : Inv crew dispatched s) {_threadPool : ThreadPoolBase.State ω}
    (hstep : ThreadPoolBase.Step crew._maxSize ThreadPoolBase.NoneStopped s._threadPool
      _threadPool) :
    measure _threadPool < measure s._threadPool := by
  have hleaving := h.leaving
  refine WorkerThreads.measure_lt ?_
  cases hstep with
  | loop i hi =>
      rw [if_neg (by rw [h.counted.live]; exact Bool.noConfusion)]
      exact .inr ⟨rfl, .inr ⟨rfl, .inl (sum_ahead_lt hi (Nat.lt_succ_self 2))⟩⟩
  | stopped _ _ _ hstopped => exact nomatch h.counted.live.symm.trans hstopped
  | lock i hi hfree _ hqueue =>
      refine .inr ⟨rfl, .inr ⟨rfl, .inr ⟨rfl, ?_⟩⟩⟩
      rw [hfree]
      exact Nat.lt_succ_self _
  | take i position w hi _ hposition =>
      obtain ⟨hlt, -⟩ := List.getElem?_eq_some_iff.mp hposition
      refine .inl ?_
      show (s._threadPool._queue.eraseIdx position).length < _
      rw [List.length_eraseIdx_of_lt hlt]
      omega
  | skip i position w hi hheld hposition =>
      obtain ⟨hlt, -⟩ := List.getElem?_eq_some_iff.mp hposition
      refine .inr ⟨rfl, .inr ⟨rfl, .inr ⟨rfl, ?_⟩⟩⟩
      rw [hheld]
      show s._threadPool._queue.length - (position + 1) < s._threadPool._queue.length - position
      omega
  | nothing i position hi =>
      exact .inr ⟨rfl, .inr ⟨rfl, .inl (sum_ahead_lt hi (Nat.lt_succ_self 1))⟩⟩
  | test i hi =>
      have hpos : s._threadPool._totalNumberObjects > 0 :=
        UInt32.lt_iff_toNat_lt.mpr (h.total_pos hi rfl)
      rw [if_pos hpos]
      exact .inr ⟨rfl, .inr ⟨rfl, .inl (sum_ahead_lt hi Nat.zero_lt_one)⟩⟩
  | decrement i hi =>
      have hpos := h.total_pos hi rfl
      refine .inr ⟨rfl, .inl ?_⟩
      show (s._threadPool._totalNumberObjects - 1).toNat < _
      rw [ThreadPoolBase.toNat_sub_one hpos]
      exact Nat.sub_one_lt_of_lt hpos

/-- While a worker waits, some thread can move. -/
theorem Inv.exists_step (h : Inv crew dispatched s) (hqueue : s._threadPool._queue ≠ [])
    (hmutex : s._threadPool._queueMutex ≠ .push) :
    ∃ _threadPool, ThreadPoolBase.Step crew._maxSize ThreadPoolBase.NoneStopped s._threadPool
      _threadPool := by
  match hheld : s._threadPool._queueMutex with
  | .push => exact absurd hheld hmutex
  | .get i position =>
      have hi := (h.held i position hheld).1
      match hposition : s._threadPool._queue[position]? with
      | none => exact ⟨_, .nothing i position hi hheld hposition⟩
      | some w =>
          by_cases hlt : s._threadPool._totalNumberObjects < crew._maxSize
          · exact ⟨_, .take i position w hi hheld hposition ⟨id, hlt⟩⟩
          · exact ⟨_, .skip i position w hi hheld hposition fun hpassed => hlt hpassed.2⟩
  | .free =>
      have hidle : 0 < s._threadPool.idle := by
        rw [h.idle_eq]
        exact List.length_pos_iff.mpr hqueue
      obtain ⟨pc, hmem, hpc⟩ := List.countP_pos_iff.mp hidle
      obtain ⟨i, hi⟩ := List.mem_iff_getElem?.mp hmem
      cases pc with
      | loop => exact ⟨_, .loop i hi⟩
      | get => exact ⟨_, .lock i hi hheld h.counted.live hqueue⟩
      | run w => exact nomatch hpc
      | test => exact ⟨_, .test i hi⟩
      | decrement => exact ⟨_, .decrement i hi⟩
      | exited => exact absurd hmem h.lasting

/-- The threads alone come to each worker in the queue. -/
theorem Inv.exists_dispatch (h : Inv crew dispatched s) {w : ω}
    (hw : w ∈ s._threadPool._queue) (hmutex : s._threadPool._queueMutex ≠ .push) :
    ∃ _threadPool,
      Relation.ReflTransGen (ThreadPoolBase.Step crew._maxSize ThreadPoolBase.NoneStopped)
        s._threadPool _threadPool ∧ .run w ∈ _threadPool._threads := by
  refine Runs.exists_reflTransGen_of_lt measure
    (P := fun _threadPool => (∃ dispatched, Inv crew dispatched { s with _threadPool }) ∧
      _threadPool._queueMutex ≠ .push ∧
        (w ∈ _threadPool._queue ∨ .run w ∈ _threadPool._threads)) ?_ s._threadPool
    ⟨⟨dispatched, h⟩, hmutex, .inl hw⟩
  rintro _threadPool ⟨⟨dispatched, hinv⟩, hmutex, hw | hrun⟩
  · obtain ⟨_threadPool', hstep⟩ := hinv.exists_step (List.ne_nil_of_mem hw) hmutex
    obtain ⟨label, hturn⟩ := hstep.exists_turn
    refine .inr ⟨_threadPool', hstep, ⟨⟨_, hinv.thread hturn⟩, ?_, hstep.queued hw⟩,
      hinv.measure_lt hstep⟩
    exact fun hpush => hmutex ((hstep.push_iff hinv.counted.live).mp hpush)
  · exact .inl hrun

/-! ## A thread for each worker -/

/-- The workers no thread has taken. -/
def undispatched [DecidableEq ω] (crew : Crew ω) (dispatched : List ω) : List ω :=
  crew.workers.filter fun w => w ∉ dispatched

/-- What `start` relies on, so that all workers come to the barrier. -/
structure OwnThreads [DecidableEq ω] (crew : Crew ω) (dispatched : List ω) (s : State ω) :
    Prop where
  /-- `push` rejects no worker. -/
  accepted : s.toPush ≠ [] → s._threadPool.size < crew._maxSize
  threads : s._threadPool._threads.length + s.toPush.length = crew.workers.length
  /-- The counter does not wrap. -/
  noWrap : .decrement ∈ s._threadPool._threads → 0 < s._threadPool._totalNumberObjects
  once : dispatched.Nodup
  idle : s._threadPool.idle + s.toPush.length = (undispatched crew dispatched).length
  /-- Behind the last push nobody but the threads needs the mutex. -/
  pushed : s.toPush = [] → s._threadPool._queueMutex ≠ .push
  dispatch : ∀ w ∈ undispatched crew dispatched, w ∉ s.toPush →
    s._threadPool._queueMutex ≠ .push →
    ∃ _threadPool,
      Relation.ReflTransGen (ThreadPoolBase.Step crew._maxSize ThreadPoolBase.NoneStopped)
        s._threadPool _threadPool ∧ .run w ∈ _threadPool._threads

section OwnThreads

variable [DecidableEq ω]

theorem Inv.undispatched_perm (h : Inv crew dispatched s) :
    undispatched crew dispatched ~ s.toPush ++ s._threadPool._queue :=
  Slots.filter_notMem_perm h.placed crew.nodup

theorem Inv.ownThreads (h : Inv crew dispatched s) : OwnThreads crew dispatched s := by
  have hundispatched := h.undispatched_perm
  refine ⟨h.size_lt, h.threads, fun hmem => ?_, ?_, ?_, fun hnil hpush => h.pushing hpush hnil, ?_⟩
  · obtain ⟨i, hi⟩ := List.mem_iff_getElem?.mp hmem
    exact UInt32.lt_iff_toNat_lt.mpr (h.total_pos hi rfl)
  · exact (h.placed.nodup_iff.mpr crew.nodup).of_append_right
  · rw [hundispatched.length_eq, List.length_append, h.idle_eq, Nat.add_comm]
  · intro w hw hpushed hmutex
    rcases List.mem_append.mp (hundispatched.subset hw) with htoPush | hqueue
    · exact absurd htoPush hpushed
    · exact h.exists_dispatch hqueue hmutex

/-- Each worker gets a thread of its own, and the threads alone bring it there. -/
theorem own_threads (hrun : Run crew dispatched s) : OwnThreads crew dispatched s :=
  hrun.inv.ownThreads

end OwnThreads

/-- Two workers are pushed before a thread moves. -/
theorem own_threads_twoWorkers : OwnThreads Shutdown.TwoWorkers.crew []
    ⟨⟨[.loop, .loop], .free, [false, true], 2, false⟩, []⟩ := by
  have first : Run Shutdown.TwoWorkers.crew []
      ⟨⟨[.loop], .free, [false], 1, false⟩, [true]⟩ :=
    (Runs.Run.start.step (Step.count false [true] rfl rfl (by decide))).step
      (Step.emplace false [true] rfl rfl)
  exact own_threads ((first.step (Step.count true [] rfl rfl (by decide))).step
    (Step.emplace true [] rfl rfl))

/-! ## Inside the controller -/

section Controller

variable {σ Λ : Type} [DecidableEq σ] [DecidableEq ω] {options : ServerOptions}
  {server : Option (Policy Λ)}

/-- Until the controller is stopped, what the workers and the sessions do leaves
the pool as it is. -/
theorem run_of_shutdown {locals : ω → Λ} {actions : List Shutdown.StopPc}
    {s : Shutdown.State σ ω Λ} (hrun : Shutdown.Run options server crew locals actions s) :
    actions = [] → ∃ dispatched, Run crew dispatched ⟨s._threadPool, s.toPush⟩ := by
  refine fun hnil => ((hrun.invariant (P := fun actions s => Shutdown.Inv crew s ∧ (actions = [] →
    s.stopping = .before ∧ ∃ dispatched, Run crew dispatched ⟨s._threadPool, s.toPush⟩))
    ⟨.initial crew locals, fun _ => ⟨rfl, [], .start⟩⟩ ?_).2 hnil).2
  rintro actions s s' label ⟨hinv, hbefore⟩ hstep
  refine ⟨hinv.step hstep, fun hnil => ?_⟩
  obtain ⟨rfl, hlabel⟩ := List.append_eq_nil_iff.mp hnil
  obtain ⟨hbefore, dispatched, hrun⟩ := hbefore rfl
  cases hstep with
  | refuse w rest hpush hfree hfull =>
      exact ⟨hbefore, _, hrun.step (.refuse w rest hpush hfree hfull)⟩
  | count w rest hpush hfree hlt =>
      exact ⟨hbefore, _, hrun.step (.count w rest hpush hfree hlt)⟩
  | emplace w rest hpush hmutex => exact ⟨hbefore, _, hrun.step (.emplace w rest hpush hmutex)⟩
  | thread _threadPool hthread =>
      obtain ⟨label, hturn⟩ := hthread.exists_turn
      exact ⟨hbefore, _, hrun.step (.thread label _threadPool hturn)⟩
  | leave _ _ _ _ hstopped =>
      rw [hinv.stored, hbefore] at hstopped
      cases hstopped
  | look | arrive | work | take | keep => exact ⟨hbefore, dispatched, hrun⟩
  | store | stop | join | returns => cases hlabel

/-- So it is in every run of the controller up to its stop. -/
theorem workers_own_threads {locals : ω → Λ} {s : Shutdown.State σ ω Λ}
    (hrun : Shutdown.Run options server crew locals [] s) :
    ∃ dispatched, OwnThreads crew dispatched ⟨s._threadPool, s.toPush⟩ := by
  obtain ⟨dispatched, hpool⟩ := run_of_shutdown hrun rfl
  exact ⟨dispatched, hpool.inv.ownThreads⟩

end Controller

end ClientServer.WorkerThreads
