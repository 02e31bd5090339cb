import ClientServer.Server.SessionLimits
import Mathlib.Algebra.Order.BigOperators.Group.Finset
import Mathlib.Data.Fintype.Basic

/-!
# Sessions no thread is there for

`calculateStatus` compares the objects of the pool with its threads and creates
a thread if there are more objects.  As long as no object is missing in the
counter, there is a thread for each session that may run: the sessions that may
run beside those the threads have are no more than the threads that have none.
Once a pass of the loop that found no session has taken an object off the
counter, a session can be left without a thread.
-/

namespace ClientServer.ThreadPoolSessions

open Slots
open scoped List

variable {τ : Type} {limits : Limits τ}

/-- The thread has no session and is not blocked: it is on the way to look at
the queue from its start. -/
def ThreadPc.isAwake : ThreadPc τ → Bool
  | loop | get | scan _ | test | decrement => true
  | waiting | run _ | running _ | exited => false

/-- The session for which the arrival creates no thread any more. -/
def ArrivalPc.manned : ArrivalPc τ → Option (Runnable τ)
  | condition1 runnable false => some runnable
  | condition2 runnable c1 c2 => if c1 && c2 then Option.none else some runnable
  | push runnable => some runnable
  | _ => Option.none

namespace State

def awake (s : State τ) : Nat := s._threads.countP ThreadPc.isAwake

def waiting (s : State τ) : Nat := s._threads.countP ThreadPc.isWaiting

/-- The sessions which the threads there are have to run. -/
def outstanding (s : State τ) : List (Runnable τ) := s._queue ++ s.arrival.manned.toList

variable [DecidableEq τ]

/-- How many sessions of a type wait to run. -/
def outstandingOf (s : State τ) (type : τ) : Nat :=
  s.outstanding.countP fun r => decide (r.type = type) && !s.runnableStopped r.id

/-- How many of them may run beside those which the threads have. -/
def demandOf (limits : Limits τ) (s : State τ) (type : τ) : Nat :=
  min (s.outstandingOf type)
    ((limits._maxNumberRunningByType type).toNat - s.heldOf type)

def demand (limits : Limits τ) [Fintype τ] (s : State τ) : Nat := ∑ type, s.demandOf limits type

/-- A thread is there for a session that may run. -/
def Attended (limits : Limits τ) (s : State τ) : Prop :=
  s.arrival = .none → s._stopped = false → s.held.length < limits._maxSize.toNat →
    ∀ runnable ∈ s._queue, s.runnableStopped runnable.id = false →
      s.heldOf runnable.type < (limits._maxNumberRunningByType runnable.type).toNat →
      ∃ pc ∈ s._threads, pc.isAwake = true

end State

/-- The arrival is in front of the comparison of the objects with the threads. -/
def ArrivalPc.isCounted : ArrivalPc τ → Bool
  | counted _ => true
  | _ => false

variable [DecidableEq τ]

variable (limits) in
/-- Where the objects are compared with the threads, the counter has the
sessions of the queue, those which threads have and the one that arrives; and
threads take sessions within the limits of the types. -/
def CountsObjects : Action τ → State τ → Prop
  | .advance, s => s.arrival.isCounted = true →
      s._queue.length + s.held.length + 1 ≤ s._totalNumberObjects.toNat
  | a, s => TakesWithin limits a s

instance : ∀ (a : Action τ) (s : State τ), Decidable (CountsObjects limits a s)
  | .advance, s => inferInstanceAs (Decidable (s.arrival.isCounted = true → _))
  | .thread i, s => inferInstanceAs (Decidable (TakesWithin limits (.thread i) s))
  | .arrive _, _ | .push _, _ | .stopRunnable _, _ | .stop, _ => inferInstanceAs (Decidable True)

/-! ## The demand -/

section Demand

variable [Fintype τ] {s s' : State τ}

theorem demand_mono (h : ∀ type, s'.demandOf limits type ≤ s.demandOf limits type) :
    s'.demand limits ≤ s.demand limits :=
  Finset.sum_le_sum fun type _ => h type

/-- The demand of one type grows by one. -/
theorem demand_le_succ (type₀ : τ)
    (h : ∀ type, s'.demandOf limits type ≤ s.demandOf limits type + if type = type₀ then 1 else 0) :
    s'.demand limits ≤ s.demand limits + 1 := by
  calc s'.demand limits
      _ ≤ ∑ type, (s.demandOf limits type + if type = type₀ then 1 else 0) :=
        Finset.sum_le_sum fun type _ => h type
      _ = s.demand limits + 1 := by
        rw [Finset.sum_add_distrib, Finset.sum_ite_eq' Finset.univ type₀]
        simp [State.demand]

/-- The demand of one type falls by one. -/
theorem demand_lt (type₀ : τ)
    (h : ∀ type, s'.demandOf limits type + (if type = type₀ then 1 else 0) ≤
      s.demandOf limits type) : s'.demand limits + 1 ≤ s.demand limits := by
  calc s'.demand limits + 1
      _ = ∑ type, (s'.demandOf limits type + if type = type₀ then 1 else 0) := by
        rw [Finset.sum_add_distrib, Finset.sum_ite_eq' Finset.univ type₀]
        simp [State.demand]
      _ ≤ s.demand limits := Finset.sum_le_sum fun type _ => h type

theorem demand_le_length (s : State τ) : s.demand limits ≤ s.outstanding.length := by
  have hcount : ∀ l : List (Runnable τ),
      ∑ type, l.countP (fun r => decide (r.type = type) && !s.runnableStopped r.id) ≤ l.length := by
    intro l
    induction l with
    | nil => simp
    | cons r l ih =>
        simp only [List.countP_cons, Finset.sum_add_distrib, List.length_cons]
        have hone : ∑ type, (if (decide (r.type = type) && !s.runnableStopped r.id) = true
            then 1 else 0) ≤ 1 := by
          calc ∑ type, (if (decide (r.type = type) && !s.runnableStopped r.id) = true
                then 1 else 0)
              _ ≤ ∑ type, (if r.type = type then 1 else 0) := by
                refine Finset.sum_le_sum fun type _ => ?_
                by_cases ht : r.type = type <;> cases s.runnableStopped r.id <;> simp [ht]
              _ = 1 := by simp
        omega
  exact Nat.le_trans (Finset.sum_le_sum fun type _ => Nat.min_le_left _ _) (hcount _)

theorem exists_demand {type : τ} (h : 0 < s.demandOf limits type) : 0 < s.demand limits :=
  Nat.lt_of_lt_of_le h
    (Finset.single_le_sum (f := s.demandOf limits) (fun _ _ => Nat.zero_le _) (Finset.mem_univ type))

/-- The demand reads the queue, the arrival and the sessions which threads have. -/
theorem demand_congr (houtstanding : s'.outstanding = s.outstanding) (hheld : s'.held = s.held)
    (hstopped : s'.runnableStopped = s.runnableStopped) :
    s'.demand limits = s.demand limits := by
  simp only [State.demand, State.demandOf, State.outstandingOf, State.heldOf, houtstanding, hheld,
    hstopped]

variable {runnable : Runnable τ}

theorem demand_of_taken (houtstanding : runnable :: s'.outstanding ~ s.outstanding)
    (hheld : s'.held ~ runnable :: s.held) (hstopped : s'.runnableStopped = s.runnableStopped)
    (hwaits : s.runnableStopped runnable.id = false)
    (hlt : s.heldOf runnable.type < (limits._maxNumberRunningByType runnable.type).toNat) :
    s'.demand limits + 1 ≤ s.demand limits := by
  refine demand_lt runnable.type fun type => ?_
  have hout := houtstanding.countP_eq fun r => decide (r.type = type) && !s.runnableStopped r.id
  have hheld := hheld.countP_eq fun r => decide (r.type = type)
  rw [List.countP_cons] at hout hheld
  simp only [State.heldOf] at hlt
  simp only [State.demandOf, State.outstandingOf, State.heldOf, hstopped]
  by_cases ht : runnable.type = type
  · subst ht
    simp only [hwaits, decide_true, Bool.not_false, Bool.and_self, if_true] at hout hheld ⊢
    omega
  · simp only [ht, decide_false, Bool.false_and, Bool.false_eq_true, if_false] at hout hheld
    rw [if_neg (Ne.symm ht), hheld, ← hout]
    exact Nat.le_refl _

theorem demand_of_ended (houtstanding : s'.outstanding = s.outstanding)
    (hheld : runnable :: s'.held ~ s.held) (hstopped : s'.runnableStopped = s.runnableStopped) :
    s'.demand limits ≤ s.demand limits + 1 := by
  refine demand_le_succ runnable.type fun type => ?_
  have hheld := hheld.countP_eq fun r => decide (r.type = type)
  rw [List.countP_cons] at hheld
  simp only [State.demandOf, State.outstandingOf, State.heldOf, hstopped, houtstanding]
  by_cases ht : runnable.type = type
  · subst ht
    simp only [decide_true, if_true] at hheld ⊢
    omega
  · simp only [ht, decide_false, Bool.false_eq_true, if_false] at hheld
    rw [if_neg (Ne.symm ht), ← hheld]
    exact Nat.le_refl _

theorem demand_of_arrived (houtstanding : s'.outstanding = s.outstanding ++ [runnable])
    (hheld : s'.held = s.held) (hstopped : s'.runnableStopped = s.runnableStopped) :
    s'.demand limits ≤ s.demand limits + 1 := by
  refine demand_le_succ runnable.type fun type => ?_
  simp only [State.demandOf, State.outstandingOf, State.heldOf, hstopped, houtstanding, hheld,
    List.countP_append, List.countP_singleton]
  by_cases ht : runnable.type = type
  · subst ht
    simp only [if_true]
    split <;> omega
  · simp [ht]

/-- A session of a type that threads have up to its limit adds no demand. -/
theorem demand_of_full (houtstanding : s'.outstanding = s.outstanding ++ [runnable])
    (hheld : s'.held = s.held) (hstopped : s'.runnableStopped = s.runnableStopped)
    (hfull : (limits._maxNumberRunningByType runnable.type).toNat ≤ s.heldOf runnable.type) :
    s'.demand limits ≤ s.demand limits := by
  refine demand_mono fun type => ?_
  simp only [State.heldOf] at hfull
  simp only [State.demandOf, State.outstandingOf, State.heldOf, hstopped, houtstanding, hheld,
    List.countP_append, List.countP_singleton]
  by_cases ht : runnable.type = type
  · subst ht
    omega
  · simp [ht]

end Demand

/-! ## The invariant -/

variable [Fintype τ]

/-- The threads suffice.  The pool is at its size, or the threads without a
session are as many as the sessions that may run; and if any of them is blocked,
the others are as many as the queue is long. -/
structure Manned (limits : Limits τ) (s : State τ) : Prop where
  staff : s.awake + s.waiting + s.held.length = s._threads.length
  demand : s._threads.length = limits._maxSize.toNat ∨ s.demand limits ≤ s.awake + s.waiting
  woken : 0 < s.waiting → s._queue.length ≤ s.awake

namespace Manned

variable {s s' : State τ} {i : Nat} {pc pc' : ThreadPc τ}

theorem initial : Manned limits (State.initial : State τ) where
  staff := rfl
  demand := .inr (by
    exact demand_le_length (State.initial : State τ))
  woken h := absurd h (Nat.lt_irrefl 0)

omit [DecidableEq τ] [Fintype τ] in
/-- A thread moves. -/
theorem counted (hi : s._threads[i]? = some pc) (pc' : ThreadPc τ) :
    (s.setThread i pc').awake + pc.isAwake.toNat = s.awake + pc'.isAwake.toNat ∧
      (s.setThread i pc').waiting + pc.isWaiting.toNat = s.waiting + pc'.isWaiting.toNat :=
  ⟨countP_set_add _ hi pc', countP_set_add _ hi pc'⟩

/-- The threads stay where they are, and the demand does not grow. -/
theorem frame (h : Manned limits s) (hthreads : s'._threads = s._threads)
    (hdemand : s'.demand limits ≤ s.demand limits)
    (hqueue : s'._queue.length ≤ s._queue.length) : Manned limits s' := by
  have hawake : s'.awake = s.awake := by rw [State.awake, hthreads, State.awake]
  have hwaiting : s'.waiting = s.waiting := by rw [State.waiting, hthreads, State.waiting]
  have hheld : s'.held = s.held := by rw [State.held, hthreads, State.held]
  refine ⟨?_, ?_, ?_⟩
  · rw [hawake, hwaiting, hheld, hthreads]
    exact h.staff
  · rw [hawake, hwaiting, hthreads]
    exact h.demand.imp_right (Nat.le_trans hdemand)
  · rw [hawake, hwaiting]
    exact fun hpos => Nat.le_trans hqueue (h.woken hpos)

/-- The arrival gets on, and the threads have the same sessions to run. -/
theorem frame_arrival (h : Manned limits s) (hthreads : s'._threads = s._threads)
    (hqueue : s'._queue = s._queue) (hstopped : s'.runnableStopped = s.runnableStopped)
    (hmanned : s'.arrival.manned = s.arrival.manned) : Manned limits s' := by
  have houtstanding : s'.outstanding = s.outstanding := by
    rw [State.outstanding, hqueue, hmanned, State.outstanding]
  have hheld : s'.held = s.held := by rw [State.held, hthreads, State.held]
  exact h.frame hthreads (Nat.le_of_eq (demand_congr houtstanding hheld hstopped))
    (Nat.le_of_eq (congrArg List.length hqueue))

/-- A thread without a session moves. -/
theorem move (h : Manned limits s) (hi : s._threads[i]? = some pc)
    (hpc : pc.isAwake = true ∧ pc'.isAwake = true ∨
      pc = .waiting ∧ pc'.isAwake = true ∨
      pc.isAwake = true ∧ pc' = .waiting ∧ s._queue = []) :
    Manned limits (s.setThread i pc') := by
  have hnone : ∀ {pc : ThreadPc τ}, pc.isAwake = true → pc.held = none ∧ pc.isWaiting = false := by
    intro pc hawake
    cases pc with
    | loop | get | scan | test | decrement => exact ⟨rfl, rfl⟩
    | waiting | run | running | exited => cases hawake
  have hheld : (s.setThread i pc').held = s.held := by
    refine held_setThread hi ?_
    obtain ⟨h₁, h₂⟩ | ⟨rfl, h₂⟩ | ⟨h₁, rfl, _⟩ := hpc
    · rw [(hnone h₁).1, (hnone h₂).1]
    · exact (hnone h₂).1
    · exact (hnone h₁).1.symm
  have hdemand : (s.setThread i pc').demand limits = s.demand limits := demand_congr rfl hheld rfl
  have hlength : (s.setThread i pc')._threads.length = s._threads.length := List.length_set
  have hstaff := h.staff
  have hd := h.demand
  have hwoken := h.woken
  obtain ⟨ha, hw⟩ := counted hi pc'
  obtain ⟨h₁, h₂⟩ | ⟨rfl, h₂⟩ | ⟨h₁, rfl, hqueue⟩ := hpc
  · rw [h₁, h₂] at ha
    rw [(hnone h₁).2, (hnone h₂).2] at hw
    simp only [Bool.toNat_true, Bool.toNat_false] at ha hw
    refine ⟨by rw [hheld, hlength]; omega, by rw [hdemand, hlength]; omega, ?_⟩
    show _ → s._queue.length ≤ _
    omega
  · rw [h₂] at ha
    rw [(hnone h₂).2] at hw
    simp only [ThreadPc.isAwake, ThreadPc.isWaiting, Bool.toNat_true, Bool.toNat_false] at ha hw
    refine ⟨by rw [hheld, hlength]; omega, by rw [hdemand, hlength]; omega, ?_⟩
    show _ → s._queue.length ≤ _
    omega
  · rw [h₁] at ha
    rw [(hnone h₁).2] at hw
    simp only [ThreadPc.isAwake, ThreadPc.isWaiting, Bool.toNat_true, Bool.toNat_false] at ha hw
    refine ⟨by rw [hheld, hlength]; omega, by rw [hdemand, hlength]; omega, fun _ => ?_⟩
    show s._queue.length ≤ _
    rw [hqueue]
    exact Nat.zero_le _

/-- `get` returns a session. -/
theorem take {position : Nat} {runnable : Runnable τ} (h : Manned limits s)
    (hi : s._threads[i]? = some (.scan position)) (hr : s._queue[position]? = some runnable)
    (he : s.eligible limits runnable = true)
    (hlt : s.heldOf runnable.type < (limits._maxNumberRunningByType runnable.type).toNat) :
    Manned limits ((s.take i position runnable).setThread i (.run runnable)) := by
  obtain ⟨hposition, heq⟩ := List.getElem?_eq_some_iff.mp hr
  have hheld : ((s.take i position runnable).setThread i (.run runnable)).held ~
      runnable :: s.held := filterMap_set_perm ThreadPc.held hi _
  have hqueue : runnable :: s._queue.eraseIdx position ~ s._queue :=
    heq ▸ List.getElem_cons_eraseIdx_perm hposition
  have hwaits : s.runnableStopped runnable.id = false := by
    simp only [State.eligible, Bool.and_eq_true, Bool.not_eq_true'] at he
    exact he.2
  have hdemand : ((s.take i position runnable).setThread i (.run runnable)).demand limits + 1 ≤
      s.demand limits := demand_of_taken
    (hqueue.append_right s.arrival.manned.toList) hheld rfl hwaits hlt
  obtain ⟨hawake, hwaiting⟩ :
      ((s.take i position runnable).setThread i (.run runnable)).awake + 1 = s.awake ∧
      ((s.take i position runnable).setThread i (.run runnable)).waiting = s.waiting :=
    counted (s := s.take i position runnable) hi (.run runnable)
  have hlength : ((s.take i position runnable).setThread i (.run runnable))._threads.length =
      s._threads.length := List.length_set
  have hheldLength := hheld.length_eq
  have hqueueLength := hqueue.length_eq
  rw [List.length_cons] at hheldLength hqueueLength
  have hstaff := h.staff
  have hd := h.demand
  have hwoken := h.woken
  refine ⟨by omega, by omega, fun hpos => ?_⟩
  show (s._queue.eraseIdx position).length ≤ _
  omega

/-- A session ends. -/
theorem uncount {runnable : Runnable τ} (h : Manned limits s)
    (hi : s._threads[i]? = some (.running runnable)) :
    Manned limits ((s.uncountRunning runnable.type).setThread i .test) := by
  have hheld : runnable :: ((s.uncountRunning runnable.type).setThread i .test).held ~ s.held :=
    filterMap_set_perm ThreadPc.held hi _
  have hdemand : ((s.uncountRunning runnable.type).setThread i .test).demand limits ≤
      s.demand limits + 1 := demand_of_ended rfl hheld rfl
  obtain ⟨hawake, hwaiting⟩ :
      ((s.uncountRunning runnable.type).setThread i .test).awake = s.awake + 1 ∧
      ((s.uncountRunning runnable.type).setThread i .test).waiting = s.waiting :=
    counted (s := s.uncountRunning runnable.type) hi .test
  have hlength : ((s.uncountRunning runnable.type).setThread i .test)._threads.length =
      s._threads.length := List.length_set
  have hheldLength := hheld.length_eq
  rw [List.length_cons] at hheldLength
  have hstaff := h.staff
  have hd := h.demand
  have hwoken := h.woken
  refine ⟨by omega, by omega, fun hpos => ?_⟩
  show s._queue.length ≤ _
  omega

/-- A session is counted. -/
theorem count {runnable : Runnable τ} (h : Manned limits s)
    (hi : s._threads[i]? = some (.run runnable)) :
    Manned limits ((s.countRunning runnable.type).setThread i (.running runnable)) := by
  have hheld : ((s.countRunning runnable.type).setThread i (.running runnable)).held = s.held :=
    held_setThread (s := s.countRunning runnable.type) hi rfl
  have hdemand : ((s.countRunning runnable.type).setThread i (.running runnable)).demand limits =
      s.demand limits := demand_congr rfl hheld rfl
  obtain ⟨hawake, hwaiting⟩ :
      ((s.countRunning runnable.type).setThread i (.running runnable)).awake = s.awake ∧
      ((s.countRunning runnable.type).setThread i (.running runnable)).waiting = s.waiting :=
    counted (s := s.countRunning runnable.type) hi (.running runnable)
  have hlength : ((s.countRunning runnable.type).setThread i (.running runnable))._threads.length =
      s._threads.length := List.length_set
  refine ⟨?_, ?_, ?_⟩
  · rw [hawake, hwaiting, hheld, hlength]
    exact h.staff
  · rw [hawake, hwaiting, hdemand, hlength]
    exact h.demand
  · rw [hawake, hwaiting]
    exact h.woken

theorem threadStep (h : Manned limits s) (hlive : s._stopped = false)
    (hok : TakesWithin limits (.thread i) s) (hi : s._threads[i]? = some pc)
    (hstep : ThreadStep limits s i pc s') : Manned limits s' := by
  cases hstep with
  | leave hstopped => rw [hlive] at hstopped; cases hstopped
  | wake _ hstopped => rw [hlive] at hstopped; cases hstopped
  | enter | lock | endOfQueue | pass | positive | zero => exact h.move hi (.inl ⟨rfl, rfl⟩)
  | wait _ _ hqueue => exact h.move hi (.inr (.inr ⟨rfl, rfl, hqueue⟩))
  | notified => exact h.move hi (.inr (.inl ⟨rfl, rfl⟩))
  | take hr he => exact h.take hi hr he (hok _ (taken_eq_some_iff.mpr ⟨_, hi, hr, he⟩))
  | count => exact h.count hi
  | uncount => exact h.uncount hi
  | decrement =>
      have hframe : Manned limits { s with _totalNumberObjects := s._totalNumberObjects - 1 } :=
        ⟨h.staff, h.demand, h.woken⟩
      exact hframe.move hi (.inl ⟨rfl, rfl⟩)

/-- The comparison of the objects with the threads. -/
theorem condition1 {runnable : Runnable τ} (hinv : Inv limits s) (h : Manned limits s)
    (hok : CountsObjects limits .advance s) (harrival : s.arrival = .counted runnable) :
    Manned limits { s with
      arrival := .condition1 runnable (decide (s._totalNumberObjects > s.size)) } := by
  cases hc : decide (s._totalNumberObjects > s.size) with
  | true => exact h.frame_arrival rfl rfl rfl (by rw [harrival]; rfl)
  | false =>
      have hle : s._totalNumberObjects.toNat ≤ s._threads.length := by
        rw [← hinv.toNat_size]
        exact Nat.le_of_not_lt (of_decide_eq_false hc)
      have hcount : s._queue.length + s.held.length + 1 ≤ s._totalNumberObjects.toNat :=
        hok (by simp [harrival, ArrivalPc.isCounted])
      have hlength : ({ s with arrival := .condition1 runnable false } : State τ).demand limits ≤
          _ := demand_le_length _
      simp only [State.outstanding, ArrivalPc.manned, Option.toList_some, List.length_append,
        List.length_singleton] at hlength
      have hstaff := h.staff
      refine ⟨h.staff, .inr ?_, h.woken⟩
      show _ ≤ s.awake + s.waiting
      omega

/-- The comparison of the counter of the type with its limit. -/
theorem condition2 {runnable : Runnable τ} {c : Bool} (hinv : Inv limits s) (h : Manned limits s)
    (harrival : s.arrival = .condition1 runnable c) :
    Manned limits { s with
      arrival := .condition2 runnable c
        (decide (s._numberRunningByType runnable.type <
          limits._maxNumberRunningByType runnable.type)) } := by
  cases c with
  | false => exact h.frame_arrival rfl rfl rfl (by rw [harrival]; rfl)
  | true =>
      cases hc : decide (s._numberRunningByType runnable.type <
          limits._maxNumberRunningByType runnable.type) with
      | true => exact h.frame_arrival rfl rfl rfl (by rw [harrival]; rfl)
      | false =>
          have hfull : (limits._maxNumberRunningByType runnable.type).toNat ≤
              s.heldOf runnable.type := by
            have hge : (limits._maxNumberRunningByType runnable.type).toNat ≤
                (s._numberRunningByType runnable.type).toNat :=
              Nat.le_of_not_lt (of_decide_eq_false hc)
            rw [hinv.toNat_byType] at hge
            exact Nat.le_trans hge (insideRun_sublist_held s).countP_le
          refine h.frame rfl (demand_of_full ?_ rfl rfl hfull) (Nat.le_refl _)
          simp [State.outstanding, harrival, ArrivalPc.manned]

/-- The branches of `calculateStatus`. -/
theorem decision {runnable : Runnable τ} {c₁ c₂ : Bool} {t : State τ}
    {assigned : List (Nat × STATUS)} (hinv : Inv limits s) (h : Manned limits s)
    (harrival : s.arrival = .condition2 runnable c₁ c₂) (hd : Decision limits s runnable c₁ c₂ t) :
    Manned limits { t with arrival := .push runnable, assigned := assigned } := by
  have hkeep : (c₁ && c₂) = false → Manned limits { s with arrival := .push runnable } := by
    intro hc
    refine h.frame_arrival rfl rfl rfl ?_
    simp [harrival, ArrivalPc.manned, hc]
  have hfull : ¬ (c₁ = true ∧ s.size < limits._maxSize) →
      Manned limits { s with arrival := .push runnable } := by
    intro hc
    cases c₁ with
    | false => exact hkeep rfl
    | true =>
        have hsize : s._threads.length = limits._maxSize.toNat := by
          refine Nat.le_antisymm hinv.threads ?_
          rw [← hinv.toNat_size]
          exact Nat.le_of_not_lt fun hlt => hc ⟨rfl, hlt⟩
        exact ⟨h.staff, .inl hsize, h.woken⟩
  cases hd with
  | createThread h₁ h₂ hsize =>
      subst h₁ h₂
      have hheld := held_createThread s
      have houtstanding :
          { s.createThread with arrival := .push runnable, assigned := assigned }.outstanding =
            s.outstanding ++ [runnable] := by
        simp [State.outstanding, State.createThread, harrival, ArrivalPc.manned]
      have hdemand :
          { s.createThread with arrival := .push runnable, assigned := assigned }.demand limits ≤
            s.demand limits + 1 := demand_of_arrived houtstanding hheld rfl
      have hawake : s.createThread.awake = s.awake + 1 := by
        simp [State.awake, State.createThread, ThreadPc.isAwake]
      have hwaiting : s.createThread.waiting = s.waiting := by
        simp [State.waiting, State.createThread, ThreadPc.isWaiting]
      have hlength : s.createThread._threads.length = s._threads.length + 1 := by
        simp [State.createThread]
      have hlt : s._threads.length < limits._maxSize.toNat := by
        rw [← hinv.toNat_size]
        exact hsize
      have hstaff := h.staff
      have hd := h.demand
      refine ⟨?_, .inr ?_, fun hpos => ?_⟩
      · show s.createThread.awake + s.createThread.waiting + s.createThread.held.length =
          s.createThread._threads.length
        rw [hheld]
        omega
      · show _ ≤ s.createThread.awake + s.createThread.waiting
        refine hdemand.trans ?_
        omega
      · show s._queue.length ≤ s.createThread.awake
        have hwoken := h.woken (hwaiting ▸ hpos)
        omega
  | objectsOfType h₂ =>
      have hk := hkeep (by rw [h₂, Bool.and_false])
      exact ⟨hk.staff, hk.demand, hk.woken⟩
  | totalObjects _ hc =>
      have hk := hfull hc
      exact ⟨hk.staff, hk.demand, hk.woken⟩
  | keep _ hc =>
      have hk := hfull hc
      exact ⟨hk.staff, hk.demand, hk.woken⟩

theorem advance (hinv : Inv limits s) (h : Manned limits s)
    (hok : CountsObjects limits .advance s) (hs : s.advance limits = some s') :
    Manned limits s' := by
  have hstep := arrivalStep_of hs
  generalize harrival : s.arrival = arrival at hstep
  cases hstep with
  | objects => exact h.frame_arrival rfl rfl rfl (by rw [harrival]; rfl)
  | condition1 => exact h.condition1 hinv hok harrival
  | condition2 => exact h.condition2 hinv harrival
  | decide hd => exact h.decision hinv harrival hd

theorem push (h : Manned limits s) (hs : s.push i = some s') : Manned limits s' := by
  have hstep := pushStep_of hs
  generalize harrival : s.arrival = arrival at hstep
  have houtstanding : ∀ {runnable}, s.arrival = .push runnable →
      (s.enqueue runnable).outstanding = s.outstanding := by
    intro runnable harrival
    simp [State.outstanding, State.enqueue, harrival, ArrivalPc.manned]
  have hstaff := h.staff
  have hd := h.demand
  cases hstep with
  | quiet hlocked hquiet =>
      rename_i runnable
      have hnone : s.waiting = 0 := by
        rw [State.waiting, List.countP_eq_zero]
        exact List.any_eq_false.mp hquiet
      have hdemand : (s.enqueue runnable).demand limits = s.demand limits :=
        demand_congr (houtstanding harrival) rfl rfl
      exact ⟨hstaff, hdemand ▸ hd, fun hpos => absurd (hnone ▸ hpos) (Nat.lt_irrefl 0)⟩
  | wake hlocked hi =>
      rename_i runnable
      have hheld : ((s.enqueue runnable).setThread i .get).held = s.held :=
        held_setThread (s := s.enqueue runnable) hi rfl
      have hdemand : ((s.enqueue runnable).setThread i .get).demand limits = s.demand limits :=
        demand_congr (houtstanding harrival) hheld rfl
      obtain ⟨hawake, hwaiting⟩ : ((s.enqueue runnable).setThread i .get).awake = s.awake + 1 ∧
          ((s.enqueue runnable).setThread i .get).waiting + 1 = s.waiting :=
        counted (s := s.enqueue runnable) hi .get
      have hlength : ((s.enqueue runnable).setThread i .get)._threads.length =
          s._threads.length := List.length_set
      have hwoken := h.woken (by omega)
      refine ⟨by rw [hheld]; omega, by omega, fun _ => ?_⟩
      show (s._queue ++ [runnable]).length ≤ _
      rw [List.length_append, List.length_singleton]
      omega

/-- A session is stopped. -/
theorem stopRunnable (h : Manned limits s) (id : Nat) :
    Manned limits { s with runnableStopped := Function.update s.runnableStopped id true } := by
  refine h.frame rfl (demand_mono fun type => ?_) (Nat.le_refl _)
  have hle : ∀ runnable : Runnable τ,
      s.runnableStopped runnable.id ≤ Function.update s.runnableStopped id true runnable.id := by
    intro runnable
    by_cases hid : runnable.id = id
    · rw [hid, Function.update_self]
      exact Bool.le_true _
    · rw [Function.update_of_ne hid]
  refine min_le_min_right _ (List.countP_mono_left fun runnable _ hr => ?_)
  have hle := hle runnable
  simp only [Bool.and_eq_true, Bool.not_eq_true'] at hr ⊢
  refine ⟨hr.1, ?_⟩
  rw [hr.2] at hle
  exact Bool.eq_false_of_le_false hle

end Manned

omit [Fintype τ] in
/-- The pool does not start again. -/
theorem live_of_step {a : Action τ} {s s' : State τ} (hs : step limits a s = some s')
    (hlive : s'._stopped = false) : s._stopped = false := by
  cases a with
  | arrive type =>
      obtain ⟨_, rfl⟩ := arrive_eq_some hs
      exact hlive
  | advance =>
      have hstep := arrivalStep_of hs
      generalize s.arrival = arrival at hstep
      cases hstep with
      | objects | condition1 | condition2 => exact hlive
      | decide hd => cases hd <;> exact hlive
  | push i =>
      have hstep := pushStep_of hs
      generalize s.arrival = arrival at hstep
      cases hstep <;> exact hlive
  | thread i =>
      obtain ⟨pc, _, hstep⟩ := threadStep_of hs
      cases hstep <;> exact hlive
  | stopRunnable id =>
      obtain rfl := Option.some.inj hs
      exact hlive
  | stop =>
      obtain ⟨_, rfl⟩ := stop_eq_some hs
      cases hlive

theorem Manned.step {a : Action τ} {s s' : State τ} (hinv : Inv limits s) (h : Manned limits s)
    (hlive : s._stopped = false) (hok : CountsObjects limits a s)
    (hs : step limits a s = some s') (hlive' : s'._stopped = false) : Manned limits s' := by
  cases a with
  | arrive type =>
      obtain ⟨harrival, rfl⟩ := arrive_eq_some hs
      exact h.frame_arrival rfl rfl rfl (by rw [harrival]; rfl)
  | advance => exact h.advance hinv hok hs
  | push i => exact h.push hs
  | thread i =>
      obtain ⟨pc, hi, hstep⟩ := threadStep_of hs
      exact h.threadStep hlive hok hi hstep
  | stopRunnable id =>
      obtain rfl := Option.some.inj hs
      exact h.stopRunnable id
  | stop =>
      obtain ⟨_, rfl⟩ := stop_eq_some hs
      cases hlive'

theorem Manned.attended {s : State τ} (h : s._stopped = false → Manned limits s) :
    s.Attended limits := by
  intro _ hlive hmax runnable hmem hwaits hlt
  have h := h hlive
  have hone : 0 < s.demandOf limits runnable.type := by
    have hout : 0 < s.outstandingOf runnable.type := by
      refine List.countP_pos_iff.mpr ⟨runnable, List.mem_append_left _ hmem, ?_⟩
      simp [hwaits]
    exact Nat.lt_min.mpr ⟨hout, Nat.sub_pos_of_lt hlt⟩
  have hpos := exists_demand hone
  have hqueue := List.length_pos_of_mem hmem
  have hstaff := h.staff
  have hd := h.demand
  have hwoken := h.woken
  have hawake : 0 < s.awake := by omega
  exact List.countP_pos_iff.mp hawake

/-! ## The sessions and the threads -/

theorem attended_of_countsObjects {s : State τ} (hr : Reached limits (CountsObjects limits) s) :
    s.Attended limits := by
  have h : s._stopped = false → Manned limits s :=
    Runs.Reached.invariant_of (P := fun s => s._stopped = false → Manned limits s)
      (fun hr => Reachable.inv hr) (fun _ => .initial)
      (fun hinv h hok hs hlive =>
        (h (live_of_step hs hlive)).step hinv (live_of_step hs hlive) hok hs hlive) hr
  exact Manned.attended h

instance : Fintype SessionType where
  elems := {.TcpSession, .FifoSession}
  complete type := by cases type <;> decide

theorem attended_twoSessions :
    ∃ s : State SessionType, s.held = [⟨0, .TcpSession⟩] ∧ s._queue = [⟨1, .FifoSession⟩] ∧
      s.Attended (ServerOptions.limits 10 1 10) := by
  obtain ⟨s, hr, hs⟩ : ∃ s, Reached (ServerOptions.limits 10 1 10)
      (CountsObjects (ServerOptions.limits 10 1 10)) s ∧
      (s.held, s._queue) = ([⟨0, .TcpSession⟩], [⟨1, .FifoSession⟩]) :=
    Runs.exists_reached (arrival .TcpSession ++ moves 0 4 ++ arrival .FifoSession) (by decide)
  obtain ⟨hheld, hqueue⟩ := Prod.mk.inj hs
  exact ⟨s, hheld, hqueue, attended_of_countsObjects hr⟩

/-- One TCP session runs and one waits.  A FIFO session comes and goes, its
thread passes the loop twice and takes the objects off the counter, and of the
next two FIFO sessions the second gets no thread. -/
theorem attended_fails :
    ∃ s : State SessionType, Reachable (ServerOptions.limits 10 1 10) s ∧
      ¬ s.Attended (ServerOptions.limits 10 1 10) := by
  obtain ⟨s, hr, hs⟩ : ∃ s, Reachable (ServerOptions.limits 10 1 10) s ∧
      ((s.arrival, s._queue), s._stopped, s._threads, s.runnableStopped 4) =
        ((.none, [⟨1, .TcpSession⟩, ⟨4, .FifoSession⟩]), false,
          [.running ⟨0, .TcpSession⟩, .running ⟨3, .FifoSession⟩], false) :=
    Runs.exists_reached (arrival .TcpSession ++ moves 0 4 ++ arrival .TcpSession ++
      arrival .FifoSession ++ moves 1 5 ++ moves 1 3 ++ moves 1 12 ++ arrival .FifoSession ++
      moves 1 5 ++ arrival .FifoSession) (by decide)
  obtain ⟨hs, hs'⟩ := Prod.mk.inj hs
  obtain ⟨harrival, hqueue⟩ := Prod.mk.inj hs
  obtain ⟨hlive, hs'⟩ := Prod.mk.inj hs'
  obtain ⟨hthreads, hwaits⟩ := Prod.mk.inj hs'
  refine ⟨s, hr, fun h => ?_⟩
  have hawake := h harrival hlive (by rw [State.held, hthreads]; decide) ⟨4, .FifoSession⟩
    (by simp [hqueue]) hwaits (by rw [State.heldOf, State.held, hthreads]; decide)
  rw [hthreads] at hawake
  revert hawake
  decide

end ClientServer.ThreadPoolSessions
