import ClientServer.Common.ThreadPoolBase
import ClientServer.Library.Slots

/-!
# What the counter of the pool counts

`_totalNumberObjects` goes up with every object that `push` accepts, and down
with every turn of a thread that finds it above zero, whether the thread had an
object to run or not.  A turn without an object needs a counter that has come to
`_maxSize`, hence as many threads.  So up to the last thread the counter is
right: it counts the objects in the queue, the ones that are run and the threads
that have run one and are not yet back (`Counted`).  What happens to it behind
the last thread is no matter of these accounts.
-/

namespace ClientServer.ThreadPoolBase

open Slots
open scoped List

variable {ρ : Type}

/-- The object that is run. -/
def ThreadPc.object : ThreadPc ρ → Option ρ
  | run runnable => some runnable
  | _ => none

/-- The thread is in the destructor of `Finally`. -/
def ThreadPc.isLeaving : ThreadPc ρ → Bool
  | test | decrement => true
  | _ => false

namespace State

/-- The objects that are run. -/
def running (s : State ρ) : List ρ := s._threads.filterMap ThreadPc.object

/-- The number of threads in the destructor of `Finally`. -/
def leaving (s : State ρ) : Nat := s._threads.countP ThreadPc.isLeaving

/-- The number of threads that run nothing. -/
def idle (s : State ρ) : Nat := s._threads.countP fun pc => pc.object.isNone

/-- The object of a `push` between its two looks at the counter. -/
def pushing (s : State ρ) : Nat := if s._queueMutex = .push then 1 else 0

end State

section Counts

variable {_maxSize : UInt32} {Stopped : ρ → Prop} {s s' : State ρ} {i : Nat}
  {pc pc' : ThreadPc ρ} {runnable : ρ}

theorem running_setThread (hi : s._threads[i]? = some pc) (pc' : ThreadPc ρ) :
    pc.object.toList ++ (s.setThread i pc').running ~ pc'.object.toList ++ s.running :=
  filterMap_set_perm ThreadPc.object hi pc'

theorem leaving_setThread (hi : s._threads[i]? = some pc) (pc' : ThreadPc ρ) :
    (s.setThread i pc').leaving + pc.isLeaving.toNat = s.leaving + pc'.isLeaving.toNat :=
  countP_set_add ThreadPc.isLeaving hi pc'

theorem running_setThread_of_eq (hi : s._threads[i]? = some pc) (h : pc'.object = pc.object) :
    (s.setThread i pc').running = s.running :=
  filterMap_set_of_eq hi h

theorem State.idle_add_running (s : State ρ) :
    s.idle + s.running.length = s._threads.length := by
  have hsplit := List.length_eq_countP_add_countP (fun pc : ThreadPc ρ => pc.object.isNone)
    (l := s._threads)
  have hrunning : s.running.length =
      s._threads.countP fun pc => decide ¬ pc.object.isNone = true := by
    rw [State.running, List.length_filterMap_eq_countP]
    refine List.countP_congr fun pc _ => ?_
    cases pc.object with
    | none => simp
    | some => simp
  rw [State.idle, hrunning, ← hsplit]

theorem State.leaving_le_idle (s : State ρ) : s.leaving ≤ s.idle := by
  refine List.countP_mono_left fun pc _ h => ?_
  cases pc with
  | test | decrement => rfl
  | loop | get | run | exited => cases h

/-- A thread in `get` is idle and does not leave. -/
theorem State.leaving_lt_idle (hi : s._threads[i]? = some .get) : s.leaving < s.idle := by
  have hle := (s.setThread i .test).leaving_le_idle
  have hleaving := leaving_setThread hi .test
  have hidle : (s.setThread i .test).idle + 1 = s.idle + 1 :=
    countP_set_add (fun pc : ThreadPc ρ => pc.object.isNone) hi .test
  have hone : (s.setThread i .test).leaving = s.leaving + 1 := hleaving
  omega

/-- Above zero the counter does not wrap. -/
theorem toNat_sub_one {n : UInt32} (h : 0 < n.toNat) : (n - 1).toNat = n.toNat - 1 :=
  UInt32.toNat_sub_of_le n 1 (UInt32.le_iff_toNat_le.mpr h)

theorem State.leaving_pos (hi : s._threads[i]? = some pc) (h : pc.isLeaving = true) :
    0 < s.leaving :=
  List.countP_pos_iff.mpr ⟨pc, List.mem_of_getElem? hi, h⟩

/-! ## A step of a thread -/

/-- What a step of a thread does to the accounts of a live pool. -/
inductive Change (_maxSize : UInt32) (Stopped : ρ → Prop) (s s' : State ρ) : Prop where
  | move : s'._totalNumberObjects = s._totalNumberObjects → s'._queueMutex = s._queueMutex →
      s'._queue = s._queue → s'.running = s.running → s'.leaving = s.leaving →
      Change _maxSize Stopped s s'
  | lock (i : Nat) : s._queueMutex = .free → s._queue ≠ [] →
      s' = { s with _queueMutex := .get i 0 } → Change _maxSize Stopped s s'
  | skip (i position : Nat) (runnable : ρ) : s._threads[i]? = some .get →
      s._queueMutex = .get i position →
      ¬ (¬ Stopped runnable ∧ s._totalNumberObjects < _maxSize) →
      s' = { s with _queueMutex := .get i (position + 1) } → Change _maxSize Stopped s s'
  | take (i position : Nat) (runnable : ρ) : s._queueMutex = .get i position →
      s._queue[position]? = some runnable →
      s'._totalNumberObjects = s._totalNumberObjects → s'._queueMutex = .free →
      s'._queue = s._queue.eraseIdx position → s'.running ~ runnable :: s.running →
      s'.leaving = s.leaving → Change _maxSize Stopped s s'
  | nothing (i position : Nat) : s._queueMutex = .get i position → s._queue[position]? = none →
      s'._totalNumberObjects = s._totalNumberObjects → s'._queueMutex = .free →
      s'._queue = s._queue → s'.running = s.running → s'.leaving = s.leaving + 1 →
      Change _maxSize Stopped s s'
  | zero : s._totalNumberObjects = 0 → s'._totalNumberObjects = 0 →
      s'._queueMutex = s._queueMutex → s'._queue = s._queue → s'.running = s.running →
      s'.leaving + 1 = s.leaving → Change _maxSize Stopped s s'
  | decrement : s'._totalNumberObjects = s._totalNumberObjects - 1 →
      s'._queueMutex = s._queueMutex → s'._queue = s._queue → s'.running = s.running →
      s'.leaving + 1 = s.leaving → Change _maxSize Stopped s s'

theorem Step.change (h : Step _maxSize Stopped s s') (hlive : s._stopped = false) :
    Change _maxSize Stopped s s' := by
  cases h with
  | loop i hi =>
      rw [if_neg (by rw [hlive]; exact Bool.noConfusion)]
      exact .move rfl rfl rfl (running_setThread_of_eq hi rfl) (leaving_setThread hi .get)
  | stopped i _ _ hstopped => exact nomatch hlive.symm.trans hstopped
  | lock i hi hfree _ hqueue => exact .lock i hfree hqueue rfl
  | take i position r hi hheld hposition hlt =>
      exact .take i position r hheld hposition rfl rfl rfl (running_setThread hi (.run r))
        (leaving_setThread hi (.run r))
  | skip i position r hi hheld _ hfull => exact .skip i position r hi hheld hfull rfl
  | nothing i position hi hheld hend =>
      exact .nothing i position hheld hend rfl rfl rfl (running_setThread_of_eq hi rfl)
        (leaving_setThread hi .test)
  | test i hi =>
      by_cases hpos : s._totalNumberObjects > 0
      · rw [if_pos hpos]
        have hleaving := leaving_setThread hi .decrement
        exact .move rfl rfl rfl (running_setThread_of_eq hi rfl) (Nat.add_right_cancel hleaving)
      · rw [if_neg hpos]
        have hzero : s._totalNumberObjects = 0 := UInt32.le_zero_iff.mp (UInt32.not_lt.mp hpos)
        exact .zero hzero hzero rfl rfl (running_setThread_of_eq hi rfl)
          (leaving_setThread hi .loop)
  | decrement i hi =>
      exact .decrement rfl rfl rfl (running_setThread_of_eq hi rfl) (leaving_setThread hi .loop)

/-- What a thread takes out of the queue, it runs. -/
theorem Step.objects_perm (hstep : Step _maxSize Stopped s s') (hlive : s._stopped = false) :
    s'._queue ++ s'.running ~ s._queue ++ s.running := by
  cases hstep.change hlive with
  | move _ _ hqueue hrunning | nothing _ _ _ _ _ _ hqueue hrunning
  | zero _ _ _ hqueue hrunning | decrement _ _ hqueue hrunning =>
      rw [hqueue, hrunning]
  | lock i _ _ heq =>
      rw [heq]
      exact .refl _
  | skip i position r _ _ _ heq =>
      rw [heq]
      exact .refl _
  | take i position r _ hposition _ _ hqueue hrunning =>
      obtain ⟨hlt, hget⟩ := List.getElem?_eq_some_iff.mp hposition
      calc s'._queue ++ s'.running
          _ ~ s._queue.eraseIdx position ++ r :: s.running := by
            rw [hqueue]
            exact hrunning.append_left _
          _ ~ r :: s._queue.eraseIdx position ++ s.running := List.perm_middle
          _ ~ s._queue ++ s.running := by
            rw [← hget]
            exact (List.getElem_cons_eraseIdx_perm hlt).append_right _

theorem Step.length_objects (hstep : Step _maxSize Stopped s s') (hlive : s._stopped = false) :
    s'._queue.length + s'.running.length = s._queue.length + s.running.length := by
  rw [← List.length_append, ← List.length_append]
  exact (hstep.objects_perm hlive).length_eq

/-- `push` goes on by itself. -/
theorem Step.push_iff (hstep : Step _maxSize Stopped s s') (hlive : s._stopped = false) :
    s'._queueMutex = .push ↔ s._queueMutex = .push := by
  cases hstep.change hlive with
  | move _ hmutex | zero _ _ hmutex | decrement _ hmutex => rw [hmutex]
  | lock i hfree _ heq =>
      rw [hfree, heq]
      exact ⟨nofun, nofun⟩
  | skip i position r _ hheld _ heq =>
      rw [hheld, heq]
      exact ⟨nofun, nofun⟩
  | take i position r hheld _ _ hmutex | nothing i position hheld _ _ hmutex =>
      rw [hheld, hmutex]
      exact ⟨nofun, nofun⟩

theorem Step.pushing_eq (hstep : Step _maxSize Stopped s s') (hlive : s._stopped = false) :
    s'.pushing = s.pushing := by
  rw [State.pushing, State.pushing, if_congr (hstep.push_iff hlive) rfl rfl]

/-! ## The rest of `push` -/

theorem State.accounts_emplace (s : State ρ) (runnable : ρ) :
    (s.emplace runnable).running = s.running ∧ (s.emplace runnable).leaving = s.leaving ∧
      (s.emplace runnable)._totalNumberObjects = s._totalNumberObjects := by
  show State.running (if _ then _ else _ : State ρ) = _ ∧ State.leaving (if _ then _ else _) = _ ∧
    State._totalNumberObjects (if _ then _ else _) = _
  split
  · refine ⟨?_, ?_, rfl⟩
    · exact List.filterMap_append.trans (List.append_nil _)
    · exact List.countP_append.trans (Nat.add_zero _)
  · exact ⟨rfl, rfl, rfl⟩

theorem State.mutex_emplace (s : State ρ) (runnable : ρ) :
    (s.emplace runnable)._queueMutex = .free := rfl

theorem State.threads_emplace (s : State ρ) (runnable : ρ) :
    (s.emplace runnable)._threads =
      if s._totalNumberObjects > s.size then s._threads ++ [.loop] else s._threads := by
  show (if _ then _ else _ : State ρ)._threads = _
  split
  · rfl
  · rfl

/-! ## Up to the last thread -/

/-- The counter is right. -/
structure Right (s : State ρ) : Prop where
  total : s._totalNumberObjects.toNat =
    s._queue.length + s.running.length + s.leaving + s.pushing
  served : s._queue.length + s.running.length + s.leaving ≤ s._threads.length
  /-- A thread that looks takes the first object. -/
  front : ∀ i position, s._queueMutex = .get i position → position = 0 ∧ s._queue ≠ []

/-- The counter is right as long as the pool may get another thread. -/
structure Counted (_maxSize : UInt32) (s : State ρ) : Prop where
  live : s._stopped = false
  size : s._threads.length ≤ _maxSize.toNat
  room : s._queueMutex = .push → s._threads.length < _maxSize.toNat
  right : s._threads.length < _maxSize.toNat → Right s
  bound : s._queue.length + s.running.length ≤ _maxSize.toNat

theorem Counted.initial (_maxSize : UInt32) : Counted _maxSize (State.initial (ρ := ρ)) where
  live := rfl
  size := Nat.zero_le _
  room h := nomatch h
  right _ := ⟨rfl, Nat.le_refl 0, fun _ _ h => nomatch h⟩
  bound := Nat.zero_le _

theorem Counted.size_toNat (h : Counted _maxSize s) : s.size.toNat = s._threads.length := by
  refine UInt32.toNat_ofNat_of_lt' ?_
  exact Nat.lt_of_le_of_lt h.size _maxSize.toNat_lt

/-- The test of `push`. -/
theorem Counted.size_lt_iff (h : Counted _maxSize s) :
    s.size < _maxSize ↔ s._threads.length < _maxSize.toNat := by
  rw [UInt32.lt_iff_toNat_lt, h.size_toNat]

theorem State.pushing_of_ne (h : s._queueMutex ≠ .push) : s.pushing = 0 := if_neg h

theorem Right.total_le (h : Right s) :
    s._totalNumberObjects.toNat ≤ s._threads.length + s.pushing :=
  h.total ▸ Nat.add_le_add_right h.served _

/-- Nobody looks in vain. -/
theorem Right.total_lt (h : Right s) (hroom : s._threads.length < _maxSize.toNat) {i position : Nat}
    (hheld : s._queueMutex = .get i position) : s._totalNumberObjects < _maxSize := by
  have hle := h.total_le
  rw [State.pushing_of_ne (hheld.trans_ne nofun)] at hle
  exact UInt32.lt_iff_toNat_lt.mpr (Nat.lt_of_le_of_lt hle hroom)

theorem Right.step (hnone : ∀ runnable, ¬ Stopped runnable) (h : Right s)
    (hlive : s._stopped = false) (hroom : s._threads.length < _maxSize.toNat)
    (hstep : Step _maxSize Stopped s s') : Right s' := by
  obtain ⟨htotal, hserved, hfront⟩ := h
  have hlength := hstep.length_threads
  have hobjects := hstep.length_objects hlive
  have hpushing := hstep.pushing_eq hlive
  cases hstep.change hlive with
  | move htotal' hmutex hqueue _ hleaving =>
      refine ⟨?_, by omega, ?_⟩
      · rw [htotal']
        omega
      · rw [hmutex, hqueue]
        exact hfront
  | lock i hfree hqueue heq =>
      subst heq
      refine ⟨?_, hserved, ?_⟩
      · rw [hpushing]
        exact htotal
      · rintro _ _ ⟨⟩
        exact ⟨rfl, hqueue⟩
  | skip i position r _ hheld hfull =>
      exact absurd ⟨hnone r, Right.total_lt ⟨htotal, hserved, hfront⟩ hroom hheld⟩ hfull
  | take i position r hheld _ htotal' hmutex _ _ hleaving =>
      refine ⟨?_, by omega, fun _ _ hheld' => nomatch hmutex.symm.trans hheld'⟩
      rw [htotal']
      omega
  | nothing i position hheld hposition =>
      obtain ⟨rfl, hne⟩ := hfront i position hheld
      have hend := List.getElem?_eq_none_iff.mp hposition
      exact absurd (List.eq_nil_of_length_eq_zero (Nat.le_zero.mp hend)) hne
  | zero hzero _ _ _ _ hleaving =>
      -- a thread that leaves is still counted
      rw [hzero] at htotal
      have : (0 : UInt32).toNat = 0 := rfl
      omega
  | decrement htotal' hmutex hqueue hrunning hleaving =>
      have hless : s'._totalNumberObjects.toNat = s._totalNumberObjects.toNat - 1 := by
        rw [htotal', toNat_sub_one (by omega)]
      refine ⟨by omega, by omega, ?_⟩
      rw [hmutex, hqueue]
      exact hfront

theorem Counted.step (hnone : ∀ runnable, ¬ Stopped runnable) (h : Counted _maxSize s)
    (hstep : Step _maxSize Stopped s s') : Counted _maxSize s' := by
  have hlength := hstep.length_threads
  constructor
  · exact hstep.stopped_eq.trans h.live
  · exact hlength ▸ h.size
  · intro hpush
    exact hlength ▸ h.room ((hstep.push_iff h.live).mp hpush)
  · intro hroom
    rw [hlength] at hroom
    exact (h.right hroom).step hnone h.live hroom hstep
  · rw [hstep.length_objects h.live]
    exact h.bound

/-- `push` accepts an object. -/
theorem Counted.count (h : Counted _maxSize s) (hfree : s._queueMutex = .free)
    (hlt : s.size < _maxSize) : Counted _maxSize s.count := by
  have hroom := h.size_lt_iff.mp hlt
  have hright := h.right hroom
  have hpushing := State.pushing_of_ne (hfree.trans_ne nofun)
  have hfits := hright.total_le
  have hmax := _maxSize.toNat_lt
  refine ⟨h.live, h.size, fun _ => hroom, fun _ => ⟨?_, hright.served, nofun⟩, h.bound⟩
  have hcount : s.count._totalNumberObjects.toNat = s._totalNumberObjects.toNat + 1 := by
    refine (UInt32.toNat_add _ _).trans (Nat.mod_eq_of_lt ?_)
    show _ + 1 < _
    omega
  rw [hcount, hright.total, hpushing]
  rfl

/-- It gets a thread, if the pool has no more of them than objects. -/
theorem Counted.emplace (h : Counted _maxSize s) (hpush : s._queueMutex = .push) (runnable : ρ) :
    Counted _maxSize (s.emplace runnable) := by
  have hroom := h.room hpush
  obtain ⟨htotal, hserved, -⟩ := h.right hroom
  obtain ⟨hrunning, hleaving, htotal'⟩ := s.accounts_emplace runnable
  have hqueue : (s.emplace runnable)._queue.length = s._queue.length + 1 := by
    rw [State.queue_emplace, List.length_append, List.length_singleton]
  have hpushing : s.pushing = 1 := if_pos hpush
  have hthreads : s._queue.length + 1 + s.running.length + s.leaving ≤
        (s.emplace runnable)._threads.length ∧
      (s.emplace runnable)._threads.length ≤ _maxSize.toNat := by
    rw [State.threads_emplace]
    split
    next hmore =>
      rw [List.length_append, List.length_singleton]
      omega
    next hmore =>
      have hle := UInt32.le_iff_toNat_le.mp (UInt32.not_lt.mp hmore)
      rw [h.size_toNat] at hle
      omega
  have hfree := s.mutex_emplace runnable
  refine ⟨?_, hthreads.2, fun hpush' => ?_, fun _ => ⟨?_, ?_, fun _ _ hheld => ?_⟩, ?_⟩
  · rw [State.stopped_emplace]
    exact h.live
  · exact nomatch hfree.symm.trans hpush'
  · rw [htotal', hrunning, hleaving, hqueue, State.pushing_of_ne (hfree.trans_ne nofun)]
    omega
  · rw [hrunning, hleaving, hqueue]
    exact hthreads.1
  · exact nomatch hfree.symm.trans hheld
  · rw [hrunning, hqueue]
    omega

/-- An object is run to its end. -/
theorem Counted.finish (h : Counted _maxSize s) (hi : s._threads[i]? = some (.run runnable)) :
    Counted _maxSize (s.setThread i .test) := by
  have hlength : (s.setThread i .test)._threads.length = s._threads.length := List.length_set
  have hrunning := (running_setThread hi .test).length_eq
  have hleaving : (s.setThread i .test).leaving = s.leaving + 1 := leaving_setThread hi .test
  replace hrunning : (s.setThread i .test).running.length + 1 = s.running.length := hrunning
  refine ⟨h.live, hlength ▸ h.size, ?_, ?_, ?_⟩
  · rw [hlength]
    exact h.room
  · intro hroom
    obtain ⟨htotal, hserved, hfront⟩ := h.right (hlength ▸ hroom)
    refine ⟨?_, ?_, hfront⟩
    · show s._totalNumberObjects.toNat = s._queue.length + _ + _ + s.pushing
      omega
    · show s._queue.length + _ + _ ≤ _
      omega
  · have hbound := h.bound
    show s._queue.length + _ ≤ _
    omega

end Counts

/-! ## Who holds the mutex -/

section Holder

variable {_maxSize : UInt32} {Stopped : ρ → Prop} {s s' : State ρ} {i j : Nat} {pc pc' : ThreadPc ρ}

theorem State.get_setThread (hi : s._threads[i]? = some .get) (hj : s._threads[j]? = some pc)
    (hne : pc ≠ .get) : (s.setThread j pc')._threads[i]? = some .get := by
  have hij : j ≠ i := by
    rintro rfl
    exact hne (Option.some.inj (hj.symm.trans hi))
  exact (List.getElem?_set_ne hij).trans hi

/-- The thread that holds the mutex is in `get`, with something to look at. -/
def State.Held (s : State ρ) : Prop :=
  ∀ i position, s._queueMutex = .get i position → s._threads[i]? = some .get ∧ s._queue ≠ []

theorem Step.held (hstep : Step _maxSize Stopped s s') (h : s.Held) : s'.Held := by
  cases hstep with
  | loop j hj | test j hj | decrement j hj =>
      intro i position hheld
      exact ⟨State.get_setThread (h i position hheld).1 hj nofun, (h i position hheld).2⟩
  | stopped j hj hfree => exact fun i position hheld => nomatch hfree.symm.trans hheld
  | lock j hj _ _ hqueue =>
      rintro _ _ ⟨⟩
      exact ⟨hj, hqueue⟩
  | skip j position r hj hheld =>
      rintro _ _ ⟨⟩
      exact ⟨hj, (h j position hheld).2⟩
  | take | nothing => exact fun i position hheld => nomatch hheld

theorem Step.lasting (hstep : Step _maxSize Stopped s s') (hlive : s._stopped = false)
    (h : .exited ∉ s._threads) : .exited ∉ s'._threads := by
  cases hstep with
  | loop i hi =>
      rw [if_neg (by rw [hlive]; exact Bool.noConfusion)]
      exact fun hmem => (List.mem_or_eq_of_mem_set hmem).elim h nofun
  | stopped | take | nothing | decrement =>
      exact fun hmem => (List.mem_or_eq_of_mem_set hmem).elim h nofun
  | lock | skip => exact h
  | test i hi =>
      refine fun hmem => (List.mem_or_eq_of_mem_set hmem).elim h fun heq => ?_
      split at heq
      · cases heq
      · cases heq

end Holder

/-! ## The object a thread takes -/

section Turns

/-- A step of a thread, with the object that it takes. -/
inductive Turn (_maxSize : UInt32) (Stopped : ρ → Prop) (s : State ρ) :
    Option (Nat × ρ) → State ρ → Prop where
  | get (i : Nat) (runnable : ρ) (s' : State ρ) : Step _maxSize Stopped s s' →
      s._threads[i]? = some .get → s'._threads[i]? = some (.run runnable) →
      Turn _maxSize Stopped s (some (i, runnable)) s'
  | silent (s' : State ρ) : Step _maxSize Stopped s s' → s'._queue = s._queue →
      Turn _maxSize Stopped s none s'

variable {_maxSize : UInt32} {Stopped : ρ → Prop} {s s' : State ρ} {i j : Nat}
  {pc : ThreadPc ρ} {runnable : ρ}

/-- A thread that has come to run an object is the one that has moved. -/
theorem State.run_of_setThread (hi : s._threads[i]? = some .get)
    (hrun : (s.setThread j pc)._threads[i]? = some (.run runnable)) : pc = .run runnable := by
  have hset : (s._threads.set j pc)[i]? = some (.run runnable) := hrun
  rw [List.getElem?_set] at hset
  split at hset
  · split at hset
    · exact Option.some.inj hset
    · cases hset
  · exact nomatch hi.symm.trans hset

theorem Step.running_of_get (h : Step _maxSize Stopped s s') (hi : s._threads[i]? = some .get)
    (hrun : s'._threads[i]? = some (.run runnable)) : s'.running ~ runnable :: s.running := by
  cases h with
  | loop j =>
      have hpc := State.run_of_setThread hi hrun
      split at hpc
      · cases hpc
      · cases hpc
  | stopped j => exact nomatch State.run_of_setThread hi hrun
  | lock | skip => exact nomatch hi.symm.trans hrun
  | take j position r hj =>
      have hpc : ThreadPc.run r = .run runnable :=
        State.run_of_setThread (s := { s with
          _queue := s._queue.eraseIdx position
          _queueMutex := .free }) hi hrun
      cases hpc
      exact running_setThread hj (.run runnable)
  | nothing j => exact nomatch State.run_of_setThread (s := { s with _queueMutex := .free }) hi hrun
  | test j =>
      have hpc := State.run_of_setThread hi hrun
      split at hpc
      · cases hpc
      · cases hpc
  | decrement j =>
      exact nomatch State.run_of_setThread (s := { s with
        _totalNumberObjects := s._totalNumberObjects - 1 }) hi hrun

theorem Turn.step {label : Option (Nat × ρ)} (h : Turn _maxSize Stopped s label s') :
    Step _maxSize Stopped s s' := by
  cases h with
  | get i r _ hstep => exact hstep
  | silent _ hstep => exact hstep

/-- What a thread takes is run. -/
theorem Turn.running_perm {label : Option (Nat × ρ)} (h : Turn _maxSize Stopped s label s')
    (hlive : s._stopped = false) :
    s'.running ~ (label.map Prod.snd).toList ++ s.running := by
  cases h with
  | get i r _ hstep hi hrun => exact hstep.running_of_get hi hrun
  | silent _ hstep hqueue =>
      have hobjects := hstep.objects_perm hlive
      rw [hqueue] at hobjects
      exact (List.perm_append_left_iff _).mp hobjects

/-- What is taken was in the queue. -/
theorem Turn.queue_perm {label : Option (Nat × ρ)} (h : Turn _maxSize Stopped s label s')
    (hlive : s._stopped = false) : s'._queue ++ (label.map Prod.snd).toList ~ s._queue := by
  have hmoved := h.step.objects_perm hlive
  have htaken := (h.running_perm hlive).append_left s'._queue
  rw [← List.append_assoc] at htaken
  exact (List.perm_append_right_iff _).mp (htaken.symm.trans hmoved)

theorem Step.exists_turn (h : Step _maxSize Stopped s s') :
    ∃ label, Turn _maxSize Stopped s label s' := by
  cases h with
  | take i position r hi hheld hposition hlt =>
      obtain ⟨hi', -⟩ := List.getElem?_eq_some_iff.mp hi
      refine ⟨_, .get i r _ (.take i position r hi hheld hposition hlt) hi ?_⟩
      exact List.getElem?_set_self hi'
  | loop i hi => exact ⟨none, .silent _ (.loop i hi) rfl⟩
  | stopped i hi hfree hstopped => exact ⟨none, .silent _ (.stopped i hi hfree hstopped) rfl⟩
  | lock i hi hfree hlive hqueue => exact ⟨none, .silent _ (.lock i hi hfree hlive hqueue) rfl⟩
  | skip i position r hi hheld hposition hfull =>
      exact ⟨none, .silent _ (.skip i position r hi hheld hposition hfull) rfl⟩
  | nothing i position hi hheld hposition =>
      exact ⟨none, .silent _ (.nothing i position hi hheld hposition) rfl⟩
  | test i hi => exact ⟨none, .silent _ (.test i hi) rfl⟩
  | decrement i hi => exact ⟨none, .silent _ (.decrement i hi) rfl⟩

end Turns

end ClientServer.ThreadPoolBase
