import ClientServer.Library.Slots
import ClientServer.Server.ThreadPoolSessions

/-!
# The steps of the pool of sessions

What a step of a thread and a step of an arrival can do, read off `thread`,
`advance` and `push` once, and how a step changes what the threads have.
-/

namespace ClientServer.ThreadPoolSessions

open Slots
open scoped List

variable {τ : Type} {limits : Limits τ}

/-! ## Arrivals -/

/-- The branches of `calculateStatus`. -/
inductive Decision (limits : Limits τ) (s : State τ) (runnable : Runnable τ)
    (condition1 condition2 : Bool) : State τ → Prop where
  | createThread : condition1 = true → condition2 = true → s.size < limits._maxSize →
      Decision limits s runnable condition1 condition2 s.createThread
  | objectsOfType : condition2 = false →
      Decision limits s runnable condition1 condition2 (s.setStatus runnable.id .MAX_OBJECTS_OF_TYPE)
  | totalObjects : condition2 = true → ¬ (condition1 = true ∧ s.size < limits._maxSize) →
      s._numberRunningTotal ≥ limits._maxSize →
      Decision limits s runnable condition1 condition2 (s.setStatus runnable.id .MAX_TOTAL_OBJECTS)
  | keep : condition2 = true → ¬ (condition1 = true ∧ s.size < limits._maxSize) →
      s._numberRunningTotal < limits._maxSize →
      Decision limits s runnable condition1 condition2 s

theorem decision_of (s : State τ) (runnable : Runnable τ) (condition1 condition2 : Bool) :
    Decision limits s runnable condition1 condition2
      (s.decideStatus limits runnable condition1 condition2) := by
  unfold State.decideStatus
  split
  next hc =>
    simp only [Bool.and_eq_true, decide_eq_true_eq] at hc
    exact .createThread hc.1.1 hc.1.2 hc.2
  next hc =>
    cases condition2 with
    | false => exact .objectsOfType rfl
    | true =>
        simp only [Bool.and_true, Bool.and_eq_true, decide_eq_true_eq] at hc
        split
        next hfalse => cases hfalse
        next =>
          split
          next htotal => exact .totalObjects rfl hc htotal
          next htotal => exact .keep rfl hc (UInt32.not_le.mp htotal)

/-- A step of `calculateStatus` from where the arrival stands. -/
inductive ArrivalStep (limits : Limits τ) (s : State τ) : ArrivalPc τ → State τ → Prop where
  | objects {runnable : Runnable τ} :
      ArrivalStep limits s (.constructed runnable)
        { s with
          _totalNumberObjects := s._totalNumberObjects + 1
          arrival := .counted runnable }
  | condition1 {runnable : Runnable τ} :
      ArrivalStep limits s (.counted runnable)
        { s with arrival := .condition1 runnable (decide (s._totalNumberObjects > s.size)) }
  | condition2 {runnable : Runnable τ} {condition1 : Bool} :
      ArrivalStep limits s (.condition1 runnable condition1)
        { s with
          arrival := .condition2 runnable condition1
            (decide (s._numberRunningByType runnable.type <
              limits._maxNumberRunningByType runnable.type)) }
  | decide {runnable : Runnable τ} {condition1 condition2 : Bool} {t : State τ} :
      Decision limits s runnable condition1 condition2 t →
      ArrivalStep limits s (.condition2 runnable condition1 condition2)
        { t with
          arrival := .push runnable
          assigned := t.assigned ++ [(runnable.id, t._status runnable.id)] }

theorem arrivalStep_of {s s' : State τ} (h : s.advance limits = some s') :
    ArrivalStep limits s s.arrival s' := by
  unfold State.advance at h
  split at h
  next => cases h
  next ha =>
    obtain rfl := Option.some.inj h
    rw [ha]
    exact .objects
  next ha =>
    obtain rfl := Option.some.inj h
    rw [ha]
    exact .condition1
  next ha =>
    obtain rfl := Option.some.inj h
    rw [ha]
    exact .condition2
  next ha =>
    obtain rfl := Option.some.inj h
    rw [ha]
    exact .decide (decision_of _ _ _ _)
  next => cases h

/-- A step of `push`. -/
inductive PushStep (s : State τ) (i : Nat) : ArrivalPc τ → State τ → Prop where
  | quiet {runnable : Runnable τ} : s.locked = false →
      s._threads.any ThreadPc.isWaiting = false →
      PushStep s i (.push runnable) (s.enqueue runnable)
  | wake {runnable : Runnable τ} : s.locked = false → s._threads[i]? = some .waiting →
      PushStep s i (.push runnable) ((s.enqueue runnable).setThread i .get)

theorem pushStep_of {s s' : State τ} {i : Nat} (h : s.push i = some s') :
    PushStep s i s.arrival s' := by
  unfold State.push at h
  split at h
  next runnable ha =>
    rw [ha]
    cases hl : s.locked with
    | true => simp [hl] at h
    | false =>
        replace h : (s.enqueue runnable).notifyOne i = some s' := by simpa [hl] using h
        unfold State.notifyOne at h
        cases hw : s._threads.any ThreadPc.isWaiting with
        | false =>
            rw [if_neg (by simpa [State.enqueue] using hw)] at h
            obtain rfl := Option.some.inj h
            exact .quiet hl hw
        | true =>
            rw [if_pos (by simpa [State.enqueue] using hw)] at h
            split at h
            next hi =>
              obtain rfl := Option.some.inj h
              exact .wake hl hi
            next => cases h
  next => cases h

theorem arrive_eq_some {s s' : State τ} {type : τ} (h : s.arrive type = some s') :
    s.arrival = .none ∧ s' = { s with
      arrived := s.arrived + 1
      arrival := .constructed ⟨s.arrived, type⟩
      told := s.told ++ [(s.arrived, s._status s.arrived)] } := by
  unfold State.arrive at h
  split at h
  next ha => exact ⟨ha, (Option.some.inj h).symm⟩
  next => cases h

/-! ## What the threads have -/

theorem ThreadPc.held_of_inside {pc : ThreadPc τ} {runnable : Runnable τ}
    (h : pc.inside = some runnable) : pc.held = some runnable := by
  cases pc with
  | running r => exact h
  | loop | get | waiting | scan | run | test | decrement | exited => cases h

theorem insideRun_sublist_held (s : State τ) : s.insideRun <+ s.held :=
  filterMap_sublist_of ThreadPc.held_of_inside _

theorem filterMap_notified {α : Type} {f : ThreadPc τ → Option α} (hf : f .waiting = f .get)
    (threads : List (ThreadPc τ)) :
    (threads.map ThreadPc.notified).filterMap f = threads.filterMap f := by
  rw [List.filterMap_map]
  refine List.filterMap_congr fun pc _ => ?_
  cases pc with
  | waiting => exact hf.symm
  | loop | get | scan | run | running | test | decrement | exited => rfl

section SetThread

variable {s : State τ} {i : Nat} {pc pc' : ThreadPc τ}

theorem insideRun_setThread (hi : s._threads[i]? = some pc) (h : pc'.inside = pc.inside) :
    (s.setThread i pc').insideRun = s.insideRun :=
  filterMap_set_of_eq hi h

theorem held_setThread (hi : s._threads[i]? = some pc) (h : pc'.held = pc.held) :
    (s.setThread i pc').held = s.held :=
  filterMap_set_of_eq hi h

/-- The other threads stay where they are. -/
theorem threads_setThread {j : Nat} {pc₁ : ThreadPc τ}
    (hj : (s.setThread i pc')._threads[j]? = some pc₁) :
    j = i ∧ pc₁ = pc' ∨ j ≠ i ∧ s._threads[j]? = some pc₁ := by
  rw [State.setThread, List.getElem?_set] at hj
  split at hj
  next hij =>
    split at hj
    next => exact .inl ⟨hij.symm, (Option.some.inj hj).symm⟩
    next => cases hj
  next hij => exact .inr ⟨fun h => hij h.symm, hj⟩

end SetThread

/-! ## Threads -/

variable [DecidableEq τ]

/-- A step of a thread from where it stands. -/
inductive ThreadStep (limits : Limits τ) (s : State τ) (i : Nat) : ThreadPc τ → State τ → Prop where
  | leave : s._stopped = true → ThreadStep limits s i .loop (s.setThread i .exited)
  | enter : s._stopped = false → ThreadStep limits s i .loop (s.setThread i .get)
  | wake : s.locked = false → s._stopped = true →
      ThreadStep limits s i .get (s.setThread i .test)
  | wait : s.locked = false → s._stopped = false → s._queue = [] →
      ThreadStep limits s i .get (s.setThread i .waiting)
  | notified : ThreadStep limits s i .waiting (s.setThread i .get)
  | lock : s.locked = false → s._stopped = false → s._queue ≠ [] →
      ThreadStep limits s i .get (s.setThread i (.scan 0))
  | endOfQueue {position : Nat} : s._queue.length ≤ position →
      ThreadStep limits s i (.scan position) (s.setThread i .test)
  | take {position : Nat} {runnable : Runnable τ} : s._queue[position]? = some runnable →
      s.eligible limits runnable = true →
      ThreadStep limits s i (.scan position) ((s.take i position runnable).setThread i (.run runnable))
  | pass {position : Nat} {runnable : Runnable τ} : s._queue[position]? = some runnable →
      s.eligible limits runnable = false →
      ThreadStep limits s i (.scan position) (s.setThread i (.scan (position + 1)))
  | count {runnable : Runnable τ} :
      ThreadStep limits s i (.run runnable)
        ((s.countRunning runnable.type).setThread i (.running runnable))
  | uncount {runnable : Runnable τ} :
      ThreadStep limits s i (.running runnable) ((s.uncountRunning runnable.type).setThread i .test)
  | positive : 0 < s._totalNumberObjects → ThreadStep limits s i .test (s.setThread i .decrement)
  | zero : s._totalNumberObjects = 0 → ThreadStep limits s i .test (s.setThread i .loop)
  | decrement :
      ThreadStep limits s i .decrement
        ({ s with _totalNumberObjects := s._totalNumberObjects - 1 }.setThread i .loop)

theorem threadStep_of {s s' : State τ} {i : Nat} (h : s.thread limits i = some s') :
    ∃ pc, s._threads[i]? = some pc ∧ ThreadStep limits s i pc s' := by
  unfold State.thread at h
  split at h
  next => cases h
  next hi =>
    obtain rfl := Option.some.inj h
    refine ⟨_, hi, ?_⟩
    cases hs : s._stopped with
    | true => exact .leave hs
    | false => exact .enter hs
  next hi =>
    refine ⟨_, hi, ?_⟩
    cases hl : s.locked with
    | true => simp [hl] at h
    | false =>
        cases hs : s._stopped with
        | true =>
            obtain rfl : _ = s' := by simpa [hl, hs] using h
            exact .wake hl hs
        | false =>
            obtain rfl : _ = s' := by simpa [hl, hs] using h
            split
            next hq => exact .wait hl hs hq
            next hq => exact .lock hl hs hq
  next hi =>
    obtain rfl := Option.some.inj h
    exact ⟨_, hi, .notified⟩
  next position hi =>
    refine ⟨_, hi, ?_⟩
    split at h
    next hr =>
      obtain rfl := Option.some.inj h
      exact .endOfQueue (List.getElem?_eq_none_iff.mp hr)
    next runnable hr =>
      cases he : s.eligible limits runnable with
      | true =>
          obtain rfl : _ = s' := by simpa [he] using h
          exact .take hr he
      | false =>
          obtain rfl : _ = s' := by simpa [he] using h
          exact .pass hr he
  next runnable hi =>
    obtain rfl := Option.some.inj h
    exact ⟨_, hi, .count⟩
  next runnable hi =>
    obtain rfl := Option.some.inj h
    exact ⟨_, hi, .uncount⟩
  next hi =>
    obtain rfl := Option.some.inj h
    refine ⟨_, hi, ?_⟩
    split
    next hpos => exact .positive hpos
    next hpos =>
      refine .zero (UInt32.toNat_inj.mp ?_)
      have : ¬ 0 < s._totalNumberObjects.toNat := hpos
      simpa using this
  next hi =>
    obtain rfl := Option.some.inj h
    exact ⟨_, hi, .decrement⟩
  next => cases h

theorem stop_eq_some {s s' : State τ} (h : step limits .stop s = some s') :
    s.locked = false ∧ s' = { s with
      _stopped := true
      _threads := s._threads.map ThreadPc.notified } := by
  cases hl : s.locked with
  | true => simp [step, hl] at h
  | false => exact ⟨rfl, by simpa [step, hl] using h.symm⟩

/-- The session which the next step of a thread takes out of the queue. -/
def State.taken (limits : Limits τ) (s : State τ) (i : Nat) : Option (Runnable τ) :=
  match s._threads[i]? with
  | some (.scan position) => (s._queue[position]?).filter (s.eligible limits)
  | _ => none

omit [DecidableEq τ] in
theorem taken_eq_some_iff {s : State τ} {i : Nat} {runnable : Runnable τ} :
    s.taken limits i = some runnable ↔ ∃ position, s._threads[i]? = some (.scan position) ∧
      s._queue[position]? = some runnable ∧ s.eligible limits runnable = true := by
  unfold State.taken
  split
  next position hi => simp [Option.filter_eq_some_iff, hi]
  next hi =>
    constructor
    · intro h
      cases h
    · intro h
      obtain ⟨position, hthis, _⟩ := h
      exact absurd hthis (hi position)

/-! ## Given runs -/

/-- A client arrives and its session is pushed. -/
def arrival (type : τ) : List (Action τ) := .arrive type :: List.replicate 4 .advance ++ [.push 0]

/-- A thread takes a number of steps. -/
def moves (i n : Nat) : List (Action τ) := List.replicate n (.thread i)

end ClientServer.ThreadPoolSessions
