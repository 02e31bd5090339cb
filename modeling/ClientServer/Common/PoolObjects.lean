import ClientServer.Common.PoolCounts
import ClientServer.Library.Tally
import Mathlib.Logic.Relation

/-!
# What the counter of the pool is for

`_totalNumberObjects` stands for the objects that are queued, or taken by a thread
whose turn is not over.  But a turn ends in the destructor of `Finally` also where
`get` has returned nothing: because the counter has come to `_maxSize`, because
the objects in the queue are stopped, or because the pool is.  Then the counter
loses an object that is still there.

Objects and the pool may be stopped here, the pool up to `notify_all`.  An object
counts from `++_totalNumberObjects` on.
-/

namespace ClientServer.ThreadPoolBase

open Tally

variable {ρ : Type}

/-- The turns of the threads. -/
def turns : Turns (ThreadPc ρ) where
  busy
    | .run _ | .test | .decrement => true
    | .loop | .get | .exited => false
  past
    | .decrement => true
    | .loop | .get | .run _ | .test | .exited => false
  given
    | .get, .run _ => some true
    | .get, .test => some false
    | _, _ => none
  stays pc := by
    cases pc with
    | loop | get | run | test | decrement | exited => rfl

/-- The pool, with what is asked of its objects and what `get` returned. -/
structure Observed (ρ : Type) where
  pool : State ρ
  /-- The objects with `_stopped` set. -/
  stopped : List ρ
  /-- Whether the last `get` of a thread returned an object. -/
  returned : Nat → Bool

namespace Observed

def initial : Observed ρ where
  pool := .initial
  stopped := []
  returned _ := false

/-- The pool behind a step. -/
def after (m : Observed ρ) (pool : State ρ) : Observed ρ :=
  { m with
    pool
    returned := turns.note m.returned m.pool._threads pool._threads }

/-- The steps of the threads, of the callers of `push` and of those who stop an object
or the pool. -/
inductive Step (_maxSize : UInt32) (m : Observed ρ) : Observed ρ → Prop where
  | refuse : m.pool._queueMutex = .free → ¬ m.pool.size < _maxSize → Step _maxSize m m
  | count : m.pool._queueMutex = .free → m.pool.size < _maxSize →
      Step _maxSize m (m.after m.pool.count)
  | emplace (runnable : ρ) : m.pool._queueMutex = .push →
      Step _maxSize m (m.after (m.pool.emplace runnable))
  | thread (label : Option (Nat × ρ)) (pool : State ρ) :
      Turn _maxSize (· ∈ m.stopped) m.pool label pool → Step _maxSize m (m.after pool)
  /-- `run` returns or throws. -/
  | finish (i : Nat) (runnable : ρ) : m.pool._threads[i]? = some (.run runnable) →
      Step _maxSize m (m.after (m.pool.setThread i .test))
  | stopObject (runnable : ρ) : Step _maxSize m { m with stopped := runnable :: m.stopped }
  | stop : m.pool._queueMutex = .free → Step _maxSize m (m.after { m.pool with _stopped := true })

/-- The objects that are queued, or taken and not yet counted down. -/
def objects (m : Observed ρ) : Nat :=
  m.pool._queue.length + m.pool.pushing + (turns.holders m.returned m.pool._threads).card

/-- The counter is the number of the objects, and no decrement takes it below zero. -/
structure CountsObjects (m : Observed ρ) : Prop where
  total : m.pool._totalNumberObjects.toNat = m.objects
  above : ∀ i : Nat, m.pool._threads[i]? = some .decrement → 0 < m.pool._totalNumberObjects.toNat

/-- A thread to which `get` returned nothing finds the counter at zero when it looks. -/
def Spares (m m' : Observed ρ) : Prop :=
  ∀ i : Nat, m.pool._threads[i]? = some .test → m'.pool._threads[i]? ≠ some .test →
    m.returned i = false → m.pool._totalNumberObjects = 0

/-- Any run. -/
abbrev Reachable (_maxSize : UInt32) : Observed ρ → Prop :=
  Relation.ReflTransGen (Step _maxSize) initial

/-- The runs in which every step spares the counter. -/
abbrev Spared (_maxSize : UInt32) : Observed ρ → Prop :=
  Relation.ReflTransGen (fun m m' => Step _maxSize m m' ∧ Spares m m') initial

/-! ## The steps of a thread -/

section ThreadSteps

variable {_maxSize : UInt32} {Stopped : ρ → Prop} {s s' : State ρ}

/-- No step of a thread begins a `push`, or ends one. -/
theorem mutex_eq_push_iff (h : ThreadPoolBase.Step _maxSize Stopped s s') :
    s'._queueMutex = .push ↔ s._queueMutex = .push := by
  cases h with
  | loop | stopped | test | decrement => exact Iff.rfl
  | lock i _ hfree => exact iff_of_false nofun (hfree.trans_ne nofun)
  | take i position r _ hheld | skip i position r _ hheld =>
      exact iff_of_false nofun (hheld.trans_ne nofun)
  | nothing i position _ hheld => exact iff_of_false nofun (hheld.trans_ne nofun)

theorem pushing_eq (h : ThreadPoolBase.Step _maxSize Stopped s s') : s'.pushing = s.pushing := by
  rw [State.pushing, State.pushing, if_congr (mutex_eq_push_iff h) rfl rfl]

/-- A thread counts nothing up. -/
theorem total_le (h : ThreadPoolBase.Step _maxSize Stopped s s')
    (habove : ∀ i : Nat, s._threads[i]? = some .decrement → 0 < s._totalNumberObjects.toNat) :
    s'._totalNumberObjects.toNat ≤ s._totalNumberObjects.toNat := by
  cases h with
  | decrement i hi =>
      have hdown := toNat_sub_one (habove i hi)
      show (s._totalNumberObjects - 1).toNat ≤ _
      omega
  | loop | stopped | lock | take | skip | nothing | test => exact Nat.le_refl _

end ThreadSteps

/-! ## The counter alone -/

variable {_maxSize : UInt32} {Stopped : ρ → Prop} {m m' : Observed ρ} {pool : State ρ} {i : Nat}
  {pc : ThreadPc ρ}

/-- What the pool does to its counter, and who has an object. -/
def tally (m : Observed ρ) : Tally.State Nat :=
  turns.tally m.returned m.pool._threads m.pool._totalNumberObjects.toNat
    (m.pool._queue.length + m.pool.pushing)

theorem tally_after {counter waiting : Nat} {holders past : Finset Nat}
    (hcounter : pool._totalNumberObjects.toNat = counter)
    (hwaiting : pool._queue.length + pool.pushing = waiting)
    (hholders : turns.holders (turns.note m.returned m.pool._threads pool._threads) pool._threads =
      holders)
    (hpast : places turns.past pool._threads = past) :
    (m.after pool).tally = { counter, waiting, holders, past } :=
  Turns.tally_eq hcounter hwaiting hholders hpast

/-- The threads stay where they are. -/
theorem tally_after_of_threads (hcounter : pool._totalNumberObjects = m.pool._totalNumberObjects)
    (hwaiting : pool._queue.length + pool.pushing = m.pool._queue.length + m.pool.pushing)
    (hthreads : pool._threads = m.pool._threads) : (m.after pool).tally = m.tally := by
  rw [tally, after, hcounter, hwaiting, hthreads]
  exact Turns.tally_self

theorem pushing_eq_zero {mutex : Mutex} (h : pool._queueMutex = mutex) (hmutex : mutex ≠ .push) :
    pool.pushing = 0 := if_neg (h.trans_ne hmutex)

/-- The steps of a thread. -/
theorem follows_thread (hstep : ThreadPoolBase.Step _maxSize Stopped m.pool pool)
    (hspares : Spares m (m.after pool)) :
    Follows (2 ^ 32) m.tally (m.after pool).tally := by
  cases hstep with
  | loop i hi =>
      left
      split
      · exact Turns.tally_set_of_idle hi rfl rfl rfl (.inl rfl)
      · exact Turns.tally_set_of_idle hi rfl rfl rfl (.inl rfl)
  | stopped i hi => exact .inl (Turns.tally_set_of_idle hi rfl rfl rfl (.inr rfl))
  | lock i _ hfree =>
      refine .inl (tally_after_of_threads rfl ?_ rfl)
      rw [pushing_eq_zero hfree nofun]
      rfl
  | skip i position r _ hheld =>
      refine .inl (tally_after_of_threads rfl ?_ rfl)
      rw [pushing_eq_zero hheld nofun]
      rfl
  | nothing i position hi hheld =>
      refine .inl (tally_after rfl ?_ (Turns.holders_set_of_idle hi rfl (.inr rfl))
        (places_set_of_not hi rfl rfl))
      rw [pushing_eq_zero hheld nofun]
      rfl
  | take i position r hi hheld hposition =>
      obtain ⟨hlt, -⟩ := List.getElem?_eq_some_iff.mp hposition
      have hpushing := pushing_eq_zero hheld nofun
      have hwaiting : (m.pool._queue.eraseIdx position).length + 0 = m.tally.waiting - 1 := by
        rw [List.length_eraseIdx_of_lt hlt]
        show _ = m.pool._queue.length + m.pool.pushing - 1
        omega
      refine Follows.of_step (tally_after rfl hwaiting (Turns.holders_set_insert hi rfl rfl)
        (places_set_of_not hi rfl rfl)) (.take i (Turns.notMem_holders hi rfl) ?_) trivial
      show 0 < m.pool._queue.length + m.pool.pushing
      omega
  | test i hi =>
      by_cases hpos : m.pool._totalNumberObjects > 0
      · rw [if_pos hpos] at hspares ⊢
        have hreturned : m.returned i = true := by
          by_contra hnothing
          obtain ⟨hlt, -⟩ := List.getElem?_eq_some_iff.mp hi
          have hmoved : (m.pool._threads.set i .decrement)[i]? ≠ some .test := by
            rw [List.getElem?_set_self hlt]
            exact nofun
          rw [hspares i hi hmoved (Bool.not_eq_true _ ▸ hnothing)] at hpos
          exact absurd hpos (UInt32.lt_irrefl 0)
        exact Follows.of_step (tally_after rfl rfl (Turns.holders_set_of_busy hi rfl rfl rfl)
          (places_set_insert hi rfl)) (.look i hpos) ((Turns.mem_holders_of hi).mpr ⟨rfl, hreturned⟩)
      · rw [if_neg hpos]
        have hzero : m.pool._totalNumberObjects = 0 :=
          UInt32.le_zero_iff.mp (UInt32.not_lt.mp hpos)
        exact Follows.of_step (tally_after rfl rfl (Turns.holders_set_erase hi (.inl rfl))
          (places_set_of_not hi rfl rfl)) (.leave i (congrArg UInt32.toNat hzero)) trivial
  | decrement i hi =>
      exact Follows.of_step (tally_after (UInt32.toNat_sub _ _) rfl
        (Turns.holders_set_erase hi (.inl rfl)) (places_set_erase hi rfl))
        (.decrement i (mem_places.mpr ⟨_, hi, rfl⟩)) trivial

/-- `push` creates the thread that has nothing. -/
theorem tally_emplace (hpush : m.pool._queueMutex = .push) (runnable : ρ) :
    (m.after (m.pool.emplace runnable)).tally = m.tally := by
  obtain ⟨-, -, htotal⟩ := m.pool.accounts_emplace runnable
  have hwaiting : (m.pool.emplace runnable)._queue.length + (m.pool.emplace runnable).pushing =
      m.pool._queue.length + m.pool.pushing := by
    have hpushing : m.pool.pushing = 1 := if_pos hpush
    rw [State.queue_emplace, pushing_eq_zero (m.pool.mutex_emplace runnable) nofun, hpushing,
      List.length_append, List.length_singleton]
  rw [tally, after, htotal, hwaiting, State.threads_emplace]
  split
  · exact Turns.tally_append rfl rfl
  · exact Turns.tally_self

/-- Every step that spares the counter is sound for it. -/
theorem Step.follows (hstep : Step _maxSize m m') (hspares : Spares m m')
    (hroom : m.pool._queueMutex = .free → m.pool.size < _maxSize →
      m.pool._totalNumberObjects.toNat + 1 < 2 ^ 32) : Follows (2 ^ 32) m.tally m'.tally := by
  cases hstep with
  | refuse | stopObject => exact .inl rfl
  | count hfree hlt =>
      have hwaiting : m.pool.count._queue.length + m.pool.count.pushing = m.tally.waiting + 1 := by
        show m.pool._queue.length + 1 = m.pool._queue.length + m.pool.pushing + 1
        rw [pushing_eq_zero hfree nofun]
      exact Follows.of_step (tally_after (UInt32.toNat_add _ _) hwaiting (Turns.holders_self _) rfl)
        .come (hroom hfree hlt)
  | emplace runnable hpush => exact .inl (tally_emplace hpush runnable)
  | thread label pool hturn => exact follows_thread hturn.step hspares
  | finish i r hi =>
      exact .inl (Turns.tally_set_of_busy hi rfl rfl rfl rfl rfl)
  | stop => exact .inl (tally_after_of_threads rfl rfl rfl)

/-! ## The runs -/

/-- The counter counts, and has not come past the threads. -/
structure Counts (_maxSize : UInt32) (m : Observed ρ) : Prop where
  right : Tally.Right (2 ^ 32) m.tally
  served : m.pool._totalNumberObjects.toNat ≤ m.pool._threads.length + m.pool.pushing
  size : m.pool._threads.length ≤ _maxSize.toNat
  room : m.pool._queueMutex = .push → m.pool._threads.length < _maxSize.toNat

namespace Counts

theorem countsObjects (h : Counts _maxSize m) : CountsObjects m where
  total := h.right.counter
  above _ hi := h.right.pos (h.right.past (mem_places.mpr ⟨_, hi, rfl⟩))

theorem initial (_maxSize : UInt32) : Counts _maxSize (Observed.initial (ρ := ρ)) where
  right := ⟨rfl, Finset.Subset.refl ∅, Nat.two_pow_pos 32⟩
  served := Nat.le_refl 0
  size := Nat.zero_le _
  room h := by cases h

theorem toNat_size (h : Counts _maxSize m) : m.pool.size.toNat = m.pool._threads.length :=
  UInt32.toNat_ofNat_of_lt' (Nat.lt_of_le_of_lt h.size _maxSize.toNat_lt)

theorem lt_of_size_lt (h : Counts _maxSize m) (hlt : m.pool.size < _maxSize) :
    m.pool._threads.length < _maxSize.toNat := by
  rw [UInt32.lt_iff_toNat_lt, h.toNat_size] at hlt
  exact hlt

/-- The counter is not at its top where `push` accepts an object. -/
theorem total_lt (h : Counts _maxSize m) (hfree : m.pool._queueMutex = .free)
    (hlt : m.pool.size < _maxSize) : m.pool._totalNumberObjects.toNat + 1 < 2 ^ 32 := by
  have hserved := h.served
  have hroom := h.lt_of_size_lt hlt
  have hmax := _maxSize.toNat_lt
  rw [pushing_eq_zero hfree nofun] at hserved
  omega

/-- There is a thread for each object, until there are `_maxSize`. -/
theorem served_emplace (h : Counts _maxSize m) (hpush : m.pool._queueMutex = .push)
    (runnable : ρ) :
    m.pool._totalNumberObjects.toNat ≤ (m.pool.emplace runnable)._threads.length ∧
      (m.pool.emplace runnable)._threads.length ≤ _maxSize.toNat := by
  have hserved := h.served
  have hlt := h.room hpush
  have hpushing : m.pool.pushing = 1 := if_pos hpush
  rw [State.threads_emplace]
  split
  next hmore =>
    rw [List.length_append, List.length_singleton]
    omega
  next hmore =>
    have hle := UInt32.le_iff_toNat_le.mp (UInt32.not_lt.mp hmore)
    rw [h.toNat_size] at hle
    exact ⟨hle, h.size⟩

theorem step (h : Counts _maxSize m) (hstep : Step _maxSize m m') (hspares : Spares m m') :
    Counts _maxSize m' := by
  have hright := h.right.follows (hstep.follows hspares h.total_lt)
  have habove := h.countsObjects.above
  have hemplace := h.served_emplace
  have hlt' := h.lt_of_size_lt
  have hfits := h.total_lt
  obtain ⟨-, hserved, hsize, hroom⟩ := h
  cases hstep with
  | refuse | stopObject => exact ⟨hright, hserved, hsize, hroom⟩
  | count hfree hlt =>
      have hcount : m.pool.count._totalNumberObjects.toNat =
          m.pool._totalNumberObjects.toNat + 1 := by
        refine (UInt32.toNat_add _ _).trans (Nat.mod_eq_of_lt ?_)
        exact hfits hfree hlt
      rw [pushing_eq_zero hfree nofun] at hserved
      refine ⟨hright, ?_, hsize, fun _ => hlt' hlt⟩
      show m.pool.count._totalNumberObjects.toNat ≤ m.pool._threads.length + 1
      omega
  | emplace runnable hpush =>
      have hfree := m.pool.mutex_emplace runnable
      obtain ⟨-, -, htotal⟩ := m.pool.accounts_emplace runnable
      obtain ⟨hthreads, hmost⟩ := hemplace hpush runnable
      refine ⟨hright, ?_, hmost, fun hpush' => nomatch hfree.symm.trans hpush'⟩
      show (m.pool.emplace runnable)._totalNumberObjects.toNat ≤
        (m.pool.emplace runnable)._threads.length + (m.pool.emplace runnable).pushing
      rw [htotal, pushing_eq_zero hfree nofun]
      exact hthreads
  | thread label pool hturn =>
      have hlength := hturn.step.length_threads
      have hpushing := pushing_eq hturn.step
      have hle := total_le hturn.step habove
      refine ⟨hright, ?_, ?_, fun hpush => ?_⟩
      · show pool._totalNumberObjects.toNat ≤ pool._threads.length + pool.pushing
        omega
      · show pool._threads.length ≤ _
        omega
      · show pool._threads.length < _
        rw [hlength]
        exact hroom ((mutex_eq_push_iff hturn.step).mp hpush)
  | finish i r hi =>
      have hlength : (m.pool.setThread i .test)._threads.length = m.pool._threads.length :=
        List.length_set
      refine ⟨hright, ?_, hlength ▸ hsize, fun hpush => hlength ▸ hroom hpush⟩
      show m.pool._totalNumberObjects.toNat ≤ (m.pool.setThread i .test)._threads.length + m.pool.pushing
      rw [hlength]
      exact hserved
  | stop => exact ⟨hright, hserved, hsize, hroom⟩

end Counts

/-- In the runs in which every step spares the counter it is right in every state. -/
theorem countsObjects_of_spared (hrun : Spared _maxSize m) : CountsObjects m := by
  have hcounts : Counts _maxSize m := by
    induction hrun with
    | refl => exact .initial _maxSize
    | tail _ hstep ih => exact ih.step hstep.1 hstep.2
  exact hcounts.countsObjects

/-! ## Given runs -/

/-- A step of a thread that takes nothing. -/
theorem Step.silent (hstep : ThreadPoolBase.Step _maxSize (· ∈ m.stopped) m.pool pool)
    (hqueue : pool._queue = m.pool._queue) : Step _maxSize m (m.after pool) :=
  .thread none pool (.silent pool hstep hqueue)

theorem spares_of (h : ∀ i < m.pool._threads.length, m.pool._threads[i]? = some .test →
    m.returned i = true) (m' : Observed ρ) : Spares m m' := by
  intro i hi _ hnothing
  have hreturned := h i (List.getElem?_eq_some_iff.mp hi).1 hi
  rw [hnothing] at hreturned
  cases hreturned

/-- An object is pushed, taken and counted down. -/
theorem spared_oneTurn : ∃ m : Observed Nat, Spared 2 m ∧ m.objects = 0 ∧
    m.pool._threads = [.loop] := by
  have hstart : Spared 2 (initial : Observed Nat) := .refl
  have hpush := (hstart.tail ⟨.count rfl (by decide), spares_of (by decide) _⟩).tail
    ⟨.emplace 0 rfl, spares_of (by decide) _⟩
  have hget := (hpush.tail ⟨.silent (.loop 0 rfl) rfl, spares_of (by decide) _⟩).tail
    ⟨.silent (.lock 0 rfl rfl rfl nofun) rfl, spares_of (by decide) _⟩
  have htake := hget.tail ⟨.thread _ _ (.get 0 0 _ (.take 0 0 0 rfl rfl rfl (by decide)) rfl rfl),
    spares_of (by decide) _⟩
  have hfinish := htake.tail ⟨.finish 0 0 rfl, spares_of (by decide) _⟩
  have hdown := (hfinish.tail ⟨.silent (.test 0 rfl) rfl, spares_of (by decide) _⟩).tail
    ⟨.silent (.decrement 0 rfl) rfl, spares_of (by decide) _⟩
  exact ⟨_, hdown, by decide, rfl⟩

/-- The pool has one thread.  It does not take the object, since `get` compares the
counter, which has the object in it, with `_maxSize`, and counts it down. -/
theorem not_countsObjects :
    ¬ ∀ (_maxSize : UInt32) (m : Observed Nat), Reachable _maxSize m → CountsObjects m := by
  intro h
  have hstart : Reachable 1 (initial : Observed Nat) := .refl
  have hpush := (hstart.tail (.count rfl (by decide))).tail (.emplace 0 rfl)
  have hget := (hpush.tail (.silent (.loop 0 rfl) rfl)).tail
    (.silent (.lock 0 rfl rfl rfl nofun) rfl)
  have hskip := hget.tail (.silent (.skip 0 0 0 rfl rfl rfl (by decide)) rfl)
  have hnothing := hskip.tail (.silent (.nothing 0 1 rfl rfl rfl) rfl)
  have hdown := (hnothing.tail (.silent (.test 0 rfl) rfl)).tail (.silent (.decrement 0 rfl) rfl)
  exact absurd (h 1 _ hdown).total (by decide)

end Observed

end ClientServer.ThreadPoolBase
