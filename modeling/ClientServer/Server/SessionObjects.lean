import ClientServer.Common.PoolObjects
import ClientServer.Server.PoolSteps

/-!
# What the counter of the pool of sessions is for

The pool of sessions has the loop of `createThread`, and so the same accounts: a
turn to which `get` gave no session takes one off `_totalNumberObjects` all the
same.  `get` gives none where every session in the queue is stopped or of a type
that has come to its limit.  A session counts from `++_totalNumberObjects` in
`calculateStatus` on, which does not look how many there are.

`pools_countObjects` puts both pools together.
-/

namespace ClientServer

namespace ThreadPoolSessions

open Tally

variable {τ : Type}

/-- The turns of the threads. -/
def turns : Turns (ThreadPc τ) where
  busy
    | .run _ | .running _ | .test | .decrement => true
    | .loop | .get | .waiting | .scan _ | .exited => false
  past
    | .decrement => true
    | .loop | .get | .waiting | .scan _ | .run _ | .running _ | .test | .exited => false
  given
    | .scan _, .run _ => some true
    | .scan _, .test => some false
    | .get, .test => some false
    | _, _ => none
  stays pc := by
    cases pc with
    | loop | get | waiting | scan | run | running | test | decrement | exited => rfl

/-- The session that arrives is counted and not yet in the queue. -/
def ArrivalPc.entering : ArrivalPc τ → Nat
  | none | constructed _ => 0
  | counted _ | condition1 _ _ | condition2 _ _ _ | push _ => 1

/-- The pool, with what `get` returned. -/
structure Observed (τ : Type) where
  pool : State τ
  /-- Whether the last `get` of a thread returned a session. -/
  returned : Nat → Bool

namespace Observed

def initial : Observed τ where
  pool := .initial
  returned _ := false

/-- The pool behind a step. -/
def after (m : Observed τ) (pool : State τ) : Observed τ where
  pool
  returned := turns.note m.returned m.pool._threads pool._threads

/-- The sessions that are queued, or taken and not yet counted down. -/
def objects (m : Observed τ) : Nat :=
  m.pool._queue.length + m.pool.arrival.entering +
    (turns.holders m.returned m.pool._threads).card

/-- The counter is the number of the sessions, and no decrement takes it below zero. -/
structure CountsObjects (m : Observed τ) : Prop where
  total : m.pool._totalNumberObjects.toNat = m.objects
  above : ∀ i : Nat, m.pool._threads[i]? = some .decrement → 0 < m.pool._totalNumberObjects.toNat

section Runs

variable [DecidableEq τ] (limits : Limits τ)

def step (a : Action τ) (m : Observed τ) : Option (Observed τ) :=
  (ThreadPoolSessions.step limits a m.pool).map m.after

/-- A thread to which `get` gave no session finds the counter at zero when it looks, and
no session is counted when the counter is at its top. -/
def Spares : Action τ → Observed τ → Prop
  | .thread i, m => m.pool._threads[i]? = some .test → m.returned i = false →
      m.pool._totalNumberObjects = 0
  | .advance, m => m.pool.arrival.entering = 0 → m.pool._totalNumberObjects.toNat + 1 < 2 ^ 32
  | .arrive _, _ | .push _, _ | .stopRunnable _, _ | .stop, _ => True

instance : ∀ (a : Action τ) (m : Observed τ), Decidable (Spares a m)
  | .thread i, m => inferInstanceAs (Decidable (m.pool._threads[i]? = some .test → _))
  | .advance, m => inferInstanceAs (Decidable (m.pool.arrival.entering = 0 → _))
  | .arrive _, _ | .push _, _ | .stopRunnable _, _ | .stop, _ => inferInstanceAs (Decidable True)

/-- Any run. -/
abbrev Reachable : Observed τ → Prop := Runs.Reached (step limits) (fun _ _ => True) initial

/-- The runs in which every step spares the counter. -/
abbrev Spared : Observed τ → Prop := Runs.Reached (step limits) Spares initial

end Runs

/-! ## The counter alone -/

variable {limits : Limits τ} {m : Observed τ} {pool : State τ} {i : Nat} {pc pc' : ThreadPc τ}

/-- What the pool does to its counter, and who has a session. -/
def tally (m : Observed τ) : Tally.State Nat :=
  turns.tally m.returned m.pool._threads m.pool._totalNumberObjects.toNat
    (m.pool._queue.length + m.pool.arrival.entering)

theorem tally_after {counter waiting : Nat} {holders past : Finset Nat}
    (hcounter : pool._totalNumberObjects.toNat = counter)
    (hwaiting : pool._queue.length + pool.arrival.entering = waiting)
    (hholders : turns.holders (turns.note m.returned m.pool._threads pool._threads) pool._threads =
      holders)
    (hpast : places turns.past pool._threads = past) :
    (m.after pool).tally = { counter, waiting, holders, past } :=
  Turns.tally_eq hcounter hwaiting hholders hpast

/-- Nobody moves. -/
theorem tally_after_of_threads (hcounter : pool._totalNumberObjects = m.pool._totalNumberObjects)
    (hwaiting : pool._queue.length + pool.arrival.entering =
      m.pool._queue.length + m.pool.arrival.entering)
    (hthreads : pool._threads = m.pool._threads) : (m.after pool).tally = m.tally := by
  rw [tally, after, hcounter, hwaiting, hthreads]
  exact Turns.tally_self

/-- The pool gets a thread, which has nothing. -/
theorem tally_createThread (hcounter : pool._totalNumberObjects = m.pool._totalNumberObjects)
    (hwaiting : pool._queue.length + pool.arrival.entering =
      m.pool._queue.length + m.pool.arrival.entering)
    (hthreads : pool._threads = m.pool._threads ++ [.loop]) : (m.after pool).tally = m.tally := by
  rw [tally, after, hcounter, hwaiting, hthreads]
  exact Turns.tally_append rfl rfl

theorem follows_arrival (hstep : ArrivalStep limits m.pool m.pool.arrival pool)
    (hroom : m.pool.arrival.entering = 0 → m.pool._totalNumberObjects.toNat + 1 < 2 ^ 32) :
    Follows (2 ^ 32) m.tally (m.after pool).tally := by
  generalize harrival : m.pool.arrival = arrival at hstep
  have hentering : m.pool.arrival.entering = arrival.entering := by rw [harrival]
  cases hstep with
  | objects =>
      have hwaiting : m.pool._queue.length + 1 = m.tally.waiting + 1 := by
        show _ = m.pool._queue.length + m.pool.arrival.entering + 1
        rw [hentering]
        rfl
      exact Follows.of_step (tally_after (UInt32.toNat_add _ _) hwaiting (Turns.holders_self _) rfl)
        .come (hroom hentering)
  | condition1 | condition2 =>
      refine .inl (tally_after_of_threads rfl ?_ rfl)
      rw [hentering]
      rfl
  | decide hdecision =>
      left
      cases hdecision with
      | createThread =>
          refine tally_createThread rfl ?_ rfl
          rw [hentering]
          rfl
      | objectsOfType | totalObjects | keep =>
          refine tally_after_of_threads rfl ?_ rfl
          rw [hentering]
          rfl

/-- `push` puts the session that arrives into the queue. -/
theorem waiting_enqueue {runnable : Runnable τ} (harrival : m.pool.arrival = .push runnable) :
    (m.pool._queue ++ [runnable]).length + 0 = m.pool._queue.length + m.pool.arrival.entering := by
  rw [harrival, List.length_append]
  rfl

theorem follows_push (hstep : PushStep m.pool i m.pool.arrival pool) :
    (m.after pool).tally = m.tally := by
  generalize harrival : m.pool.arrival = arrival at hstep
  cases hstep with
  | quiet => exact tally_after_of_threads rfl (waiting_enqueue harrival) rfl
  | wake _ hi =>
      exact tally_after rfl (waiting_enqueue harrival) (Turns.holders_set_of_idle hi rfl (.inl rfl))
        (places_set_of_not hi rfl rfl)

/-- `notify_all` -/
theorem tally_notified (m : Observed τ) :
    (m.after { m.pool with
      _stopped := true
      _threads := m.pool._threads.map ThreadPc.notified }).tally = m.tally := by
  refine Turns.tally_map (fun pc => ?_) (fun pc => ?_) fun pc => ?_
  all_goals
    cases pc with
    | loop | get | waiting | scan | run | running | test | decrement | exited => rfl

variable [DecidableEq τ]

theorem follows_thread (hi : m.pool._threads[i]? = some pc)
    (hstep : ThreadStep limits m.pool i pc pool) (hspares : Spares (.thread i) m) :
    Follows (2 ^ 32) m.tally (m.after pool).tally := by
  cases hstep with
  | leave | enter | wait | notified | lock | pass =>
      exact .inl (Turns.tally_set_of_idle hi rfl rfl rfl (.inl rfl))
  | wake | endOfQueue => exact .inl (Turns.tally_set_of_idle hi rfl rfl rfl (.inr rfl))
  | @take position r hr =>
      obtain ⟨hlt, -⟩ := List.getElem?_eq_some_iff.mp hr
      have hwaiting : (m.pool._queue.eraseIdx position).length + m.pool.arrival.entering =
          m.tally.waiting - 1 := by
        rw [List.length_eraseIdx_of_lt hlt]
        show _ = m.pool._queue.length + m.pool.arrival.entering - 1
        omega
      refine Follows.of_step (tally_after rfl hwaiting (Turns.holders_set_insert hi rfl rfl)
        (places_set_of_not hi rfl rfl)) (.take i (Turns.notMem_holders hi rfl) ?_) trivial
      show 0 < m.pool._queue.length + m.pool.arrival.entering
      omega
  | count | uncount =>
      exact .inl (Turns.tally_set_of_busy hi rfl rfl rfl rfl rfl)
  | positive hpos =>
      have hreturned : m.returned i = true := by
        by_contra hnothing
        rw [hspares hi (Bool.not_eq_true _ ▸ hnothing)] at hpos
        exact absurd hpos (UInt32.lt_irrefl 0)
      exact Follows.of_step (tally_after rfl rfl (Turns.holders_set_of_busy hi rfl rfl rfl)
        (places_set_insert hi rfl)) (.look i hpos) ((Turns.mem_holders_of hi).mpr ⟨rfl, hreturned⟩)
  | zero hzero =>
      exact Follows.of_step (tally_after rfl rfl (Turns.holders_set_erase hi (.inl rfl))
        (places_set_of_not hi rfl rfl)) (.leave i (congrArg UInt32.toNat hzero)) trivial
  | decrement =>
      exact Follows.of_step (tally_after (UInt32.toNat_sub _ _) rfl
        (Turns.holders_set_erase hi (.inl rfl)) (places_set_erase hi rfl))
        (.decrement i (mem_places.mpr ⟨_, hi, rfl⟩)) trivial

/-- Every step that spares the counter is sound for it. -/
theorem follows {m' : Observed τ} {a : Action τ} (hspares : Spares a m)
    (hstep : step limits a m = some m') : Follows (2 ^ 32) m.tally m'.tally := by
  obtain ⟨pool, hpool, rfl⟩ := Option.map_eq_some_iff.mp hstep
  cases a with
  | arrive type =>
      obtain ⟨harrival, rfl⟩ := arrive_eq_some hpool
      refine .inl (tally_after_of_threads rfl ?_ rfl)
      rw [harrival]
      rfl
  | advance => exact follows_arrival (arrivalStep_of hpool) hspares
  | push i => exact .inl (follows_push (pushStep_of hpool))
  | thread i =>
      obtain ⟨pc, hi, hthread⟩ := threadStep_of hpool
      exact follows_thread hi hthread hspares
  | stopRunnable id =>
      obtain rfl := Option.some.inj hpool
      exact .inl (tally_after_of_threads rfl rfl rfl)
  | stop =>
      obtain ⟨-, rfl⟩ := stop_eq_some hpool
      exact .inl (tally_notified m)

/-- In the runs in which every step spares the counter it is right in every state. -/
theorem countsObjects_of_spared (hrun : Spared limits m) : CountsObjects m := by
  have hright : Tally.Right (2 ^ 32) m.tally :=
    hrun.invariant (P := fun m => Tally.Right (2 ^ 32) m.tally)
      ⟨rfl, Finset.Subset.refl ∅, Nat.two_pow_pos 32⟩
      fun h hspares hstep => h.follows (follows hspares hstep)
  exact ⟨hright.counter, fun i hi =>
    hright.pos (hright.past (mem_places.mpr ⟨_, hi, rfl⟩))⟩

/-- One TCP session runs and one waits.  A FIFO session comes and goes, and its thread
passes the loop once more. -/
theorem not_countsObjects :
    ¬ ∀ (limits : Limits SessionType) (m : Observed SessionType), Reachable limits m →
      CountsObjects m := by
  intro h
  obtain ⟨m, hrun, hm⟩ : ∃ m : Observed SessionType, Reachable (ServerOptions.limits 10 1 10) m ∧
      (m.pool._totalNumberObjects.toNat, m.objects) = (1, 2) :=
    Runs.exists_reached (arrival .TcpSession ++ moves 0 4 ++ arrival .TcpSession ++
      arrival .FifoSession ++ moves 1 5 ++ moves 1 3 ++ moves 1 6) (by decide)
  obtain ⟨htotal, hobjects⟩ := Prod.mk.inj hm
  have heq := (h _ m hrun).total
  rw [htotal, hobjects] at heq
  cases heq

/-- A session is pushed, run and counted down. -/
theorem spared_oneTurn : ∃ m : Observed SessionType, Spared (ServerOptions.limits 10 1 10) m ∧
    (m.objects, m.pool._threads) = (0, [.loop]) :=
  Runs.exists_reached (arrival .TcpSession ++ moves 0 4 ++ moves 0 3) (by decide)

end Observed

end ThreadPoolSessions

/-! ## Both pools -/

/-- As long as every turn that got nothing ends at a counter of zero, the counter of a
pool is the number of its objects, and is never taken below zero. -/
theorem pools_countObjects (ρ τ : Type) [DecidableEq τ] (_maxSize : UInt32) (limits : Limits τ) :
    (∀ m : ThreadPoolBase.Observed ρ, m.Spared _maxSize → m.CountsObjects) ∧
      ∀ m : ThreadPoolSessions.Observed τ, m.Spared limits → m.CountsObjects :=
  ⟨fun _ hrun => ThreadPoolBase.Observed.countsObjects_of_spared hrun,
    fun _ hrun => ThreadPoolSessions.Observed.countsObjects_of_spared hrun⟩

/-- One object comes and goes. -/
theorem pools_countObjects_oneTurn :
    (∃ m : ThreadPoolBase.Observed Nat, m.pool._threads = [.loop] ∧ m.CountsObjects) ∧
      ∃ m : ThreadPoolSessions.Observed SessionType, m.pool._threads = [.loop] ∧
        m.CountsObjects := by
  obtain ⟨hbase, hsessions⟩ := pools_countObjects Nat SessionType 2 (ServerOptions.limits 10 1 10)
  obtain ⟨m, hrun, -, hthreads⟩ := ThreadPoolBase.Observed.spared_oneTurn
  obtain ⟨m', hrun', hm'⟩ := ThreadPoolSessions.Observed.spared_oneTurn
  exact ⟨⟨m, hthreads, hbase m hrun⟩, m', (Prod.mk.inj hm').2, hsessions m' hrun'⟩

/-- A turn that got nothing takes an object off the counter of either pool. -/
theorem pools_not_countObjects :
    (¬ ∀ (_maxSize : UInt32) (m : ThreadPoolBase.Observed Nat),
      m.Reachable _maxSize → m.CountsObjects) ∧
    ¬ ∀ (limits : Limits SessionType) (m : ThreadPoolSessions.Observed SessionType),
      m.Reachable limits → m.CountsObjects :=
  ⟨ThreadPoolBase.Observed.not_countsObjects, ThreadPoolSessions.Observed.not_countsObjects⟩

end ClientServer
