import ClientServer.Common.Header
import ClientServer.Common.PoolCounts
import ClientServer.Library.Runs

/-!
# Who is admitted to the pool

`push` compares the number of threads with `_maxSize`, and a thread does not end
before the pool is stopped.  So the pool that has come to `_maxSize` threads
admits nobody any more, also when its threads have nothing to run.  Until then
it admits everybody, and there are fewer objects that are not yet finished than
`_maxSize`: `push_rejects_iff`.

The runnables are numbered in the order of the calls.  The run of a runnable
ends when it likes to, by a return or by an exception.
-/

namespace ClientServer

open scoped List

namespace PoolAdmission

/-- A call of `push` is decided, a thread gets a runnable, or has run it. -/
inductive Event where
  | push (runnable : Nat) (_status : STATUS)
  | get (i runnable : Nat)
  | finish (i runnable : Nat)

structure State where
  _threadPool : ThreadPoolBase.State Nat
  /-- The calls of `push` that have returned. -/
  pushed : Nat

def initial : State where
  _threadPool := .initial
  pushed := 0

inductive Step (_maxSize : UInt32) (s : State) : Option Event → State → Prop where
  | refuse : s._threadPool._queueMutex = .free → ¬ s._threadPool.size < _maxSize →
      Step _maxSize s (some (.push s.pushed .MAX_TOTAL_OBJECTS)) { s with pushed := s.pushed + 1 }
  | count : s._threadPool._queueMutex = .free → s._threadPool.size < _maxSize →
      Step _maxSize s (some (.push s.pushed .NONE)) { s with _threadPool := s._threadPool.count }
  | emplace : s._threadPool._queueMutex = .push →
      Step _maxSize s none
        { _threadPool := s._threadPool.emplace s.pushed, pushed := s.pushed + 1 }
  | thread (label : Option (Nat × Nat)) (_threadPool : ThreadPoolBase.State Nat) :
      ThreadPoolBase.Turn _maxSize ThreadPoolBase.NoneStopped s._threadPool label _threadPool →
      Step _maxSize s (label.map fun (i, runnable) => .get i runnable) { s with _threadPool }
  | finish (i runnable : Nat) : s._threadPool._threads[i]? = some (.run runnable) →
      Step _maxSize s (some (.finish i runnable))
        { s with _threadPool := s._threadPool.setThread i .test }

/-- Any calls of `push`, with the threads of the pool beside them. -/
abbrev Run (_maxSize : UInt32) : List Event → State → Prop :=
  Runs.Run (Step _maxSize) initial

/-! ## What has become of a runnable -/

namespace Event

def accepts : Event → Option Nat
  | push runnable .NONE => some runnable
  | _ => none

def rejects : Event → Option Nat
  | push runnable .MAX_TOTAL_OBJECTS => some runnable
  | _ => none

def gets : Event → Option Nat
  | get _ runnable => some runnable
  | _ => none

def finishes : Event → Option Nat
  | finish _ runnable => some runnable
  | _ => none

end Event

def accepted (events : List Event) : List Nat := events.filterMap Event.accepts

def rejected (events : List Event) : List Nat := events.filterMap Event.rejects

/-- The runnables that threads have taken. -/
def taken (events : List Event) : List Nat := events.filterMap Event.gets

def finished (events : List Event) : List Nat := events.filterMap Event.finishes

/-- The accepted runnables that have not yet finished. -/
def unfinished (events : List Event) : List Nat :=
  (accepted events).filter fun runnable => runnable ∉ finished events

namespace State

/-- The runnable of a call of `push` that is behind its test. -/
def entering (s : State) : List Nat := if s._threadPool._queueMutex = .push then [s.pushed] else []

/-- The pool may get another thread, or has a runnable for each that has none. -/
def Manned (_maxSize : UInt32) (s : State) : Prop :=
  s._threadPool._threads.length < _maxSize.toNat ∨
    s._threadPool._queue.length = s._threadPool.idle

end State

/-! ## The accounts -/

variable {_maxSize : UInt32} {s s' : State} {events : List Event} {label : Option Event}

structure Inv (_maxSize : UInt32) (events : List Event) (s : State) : Prop where
  counted : ThreadPoolBase.Counted _maxSize s._threadPool
  objects : s.entering ++ (s._threadPool._queue ++ s._threadPool.running) ++ finished events ~
    accepted events
  took : taken events ~ s._threadPool.running ++ finished events
  calls : accepted events ++ rejected events ~ List.range (s.pushed + s.entering.length)

theorem Inv.initial (_maxSize : UInt32) : Inv _maxSize [] PoolAdmission.initial where
  counted := .initial _maxSize
  objects := .refl _
  took := .refl _
  calls := .refl _

theorem entering_of_ne (h : s._threadPool._queueMutex ≠ .push) : s.entering = [] := if_neg h

theorem entering_of_push (h : s._threadPool._queueMutex = .push) : s.entering = [s.pushed] :=
  if_pos h

theorem Inv.counted_step (h : Inv _maxSize events s) (hstep : Step _maxSize s label s') :
    ThreadPoolBase.Counted _maxSize s'._threadPool := by
  cases hstep with
  | refuse => exact h.counted
  | count hfree hlt => exact h.counted.count hfree hlt
  | emplace hpush => exact h.counted.emplace hpush s.pushed
  | thread label _threadPool hturn => exact h.counted.step (fun _ => id) hturn.step
  | finish i runnable hi => exact h.counted.finish hi

/-- What a label adds to the accounts. -/
theorem filterMap_append_toList (f : Event → Option Nat) (events : List Event)
    (label : Option Event) :
    (events ++ label.toList).filterMap f = events.filterMap f ++ (label.bind f).toList := by
  rw [List.filterMap_append]
  cases label with
  | none => rfl
  | some event =>
      show _ ++ [event].filterMap f = _ ++ (f event).toList
      cases h : f event with
      | none => rw [List.filterMap_cons_none h]; rfl
      | some runnable => rw [List.filterMap_cons_some h]; rfl

theorem entering_thread {label : Option (Nat × Nat)} {_threadPool : ThreadPoolBase.State Nat}
    (hturn : ThreadPoolBase.Turn _maxSize ThreadPoolBase.NoneStopped s._threadPool label
      _threadPool)
    (hlive : s._threadPool._stopped = false) : State.entering { s with _threadPool } = s.entering :=
  if_congr (hturn.step.push_iff hlive) rfl rfl

theorem Inv.objects_step (h : Inv _maxSize events s) (hstep : Step _maxSize s label s') :
    s'.entering ++ (s'._threadPool._queue ++ s'._threadPool.running) ++
      finished (events ++ label.toList) ~ accepted (events ++ label.toList) := by
  refine List.perm_iff_count.mpr fun n => ?_
  have hobjects := h.objects.count_eq n
  rw [finished, accepted, filterMap_append_toList, filterMap_append_toList]
  rw [finished, accepted] at hobjects
  simp only [List.count_append] at hobjects ⊢
  cases hstep with
  | refuse hfree =>
      have hentering := entering_of_ne (s := { s with pushed := s.pushed + 1 })
        (hfree.trans_ne nofun)
      rw [entering_of_ne (hfree.trans_ne nofun)] at hobjects
      rw [hentering]
      exact hobjects
  | count hfree =>
      have hentering := entering_of_push (s := { s with _threadPool := s._threadPool.count }) rfl
      rw [entering_of_ne (hfree.trans_ne nofun)] at hobjects
      rw [hentering]
      show _ + (s._threadPool._queue.count n + s._threadPool.running.count n) + _ =
        _ + [s.pushed].count n
      rw [List.count_nil] at hobjects
      simp only [Option.bind_some, Event.finishes, Option.toList_none, List.count_nil]
      omega
  | emplace hpush =>
      have hentering := entering_of_ne
        (s := { _threadPool := s._threadPool.emplace s.pushed, pushed := s.pushed + 1 }) nofun
      obtain ⟨hrunning, -⟩ := s._threadPool.accounts_emplace s.pushed
      rw [entering_of_push hpush] at hobjects
      rw [hentering, ThreadPoolBase.State.queue_emplace, hrunning, List.count_append]
      simp only [Option.bind_none, Option.toList_none, List.count_nil]
      omega
  | thread label _threadPool hturn =>
      have hmoved := (hturn.step.objects_perm h.counted.live).count_eq n
      rw [entering_thread hturn h.counted.live]
      simp only [List.count_append] at hmoved
      cases label with
      | none | some =>
          show _ + (_threadPool._queue.count n + _threadPool.running.count n) + _ = _
          simp only [Option.map_none, Option.map_some, Option.bind_none, Option.bind_some,
            Event.finishes, Event.accepts, Option.toList_none, List.count_nil]
          omega
  | finish i runnable hi =>
      have hrunning := (ThreadPoolBase.running_setThread hi .test).count_eq n
      simp only [ThreadPoolBase.ThreadPc.object, Option.toList_some, Option.toList_none,
        List.count_append, List.count_nil] at hrunning
      show s.entering.count n + (s._threadPool._queue.count n +
        (s._threadPool.setThread i .test).running.count n) + (_ + [runnable].count n) =
        _ + [].count n
      rw [List.count_nil]
      omega

/-- What a thread has taken it runs or has run. -/
theorem Inv.took_step (h : Inv _maxSize events s) (hstep : Step _maxSize s label s') :
    taken (events ++ label.toList) ~
      s'._threadPool.running ++ finished (events ++ label.toList) := by
  refine List.perm_iff_count.mpr fun n => ?_
  have htook := h.took.count_eq n
  rw [taken, finished, filterMap_append_toList, filterMap_append_toList]
  rw [taken, finished] at htook
  simp only [List.count_append] at htook ⊢
  cases hstep with
  | refuse | count => exact htook
  | emplace =>
      obtain ⟨hrunning, -⟩ := s._threadPool.accounts_emplace s.pushed
      rw [hrunning]
      exact htook
  | thread label _threadPool hturn =>
      have hrunning := (hturn.running_perm h.counted.live).count_eq n
      rw [List.count_append] at hrunning
      cases label with
      | none =>
          rw [Option.map_none, Option.toList_none, List.count_nil] at hrunning
          show _ + 0 = _threadPool.running.count n + (_ + 0)
          omega
      | some get =>
          show _ + [get.2].count n = _threadPool.running.count n + (_ + 0)
          replace hrunning : _ = [get.2].count n + _ := hrunning
          omega
  | finish i runnable hi =>
      have hrunning := (ThreadPoolBase.running_setThread hi .test).count_eq n
      simp only [ThreadPoolBase.ThreadPc.object, Option.toList_some, Option.toList_none,
        List.count_append, List.count_nil] at hrunning
      show _ + [].count n =
        (s._threadPool.setThread i .test).running.count n + (_ + [runnable].count n)
      rw [List.count_nil]
      omega

/-- Each call is decided once. -/
theorem Inv.calls_step (h : Inv _maxSize events s) (hstep : Step _maxSize s label s') :
    accepted (events ++ label.toList) ++ rejected (events ++ label.toList) ~
      List.range (s'.pushed + s'.entering.length) := by
  have hcalls := h.calls
  rw [accepted, rejected, filterMap_append_toList, filterMap_append_toList]
  rw [accepted, rejected] at hcalls
  cases hstep with
  | refuse hfree =>
      have hentering := entering_of_ne (s := { s with pushed := s.pushed + 1 })
        (hfree.trans_ne nofun)
      rw [entering_of_ne (hfree.trans_ne nofun)] at hcalls
      rw [hentering]
      show (_ ++ []) ++ (_ ++ [s.pushed]) ~ List.range (s.pushed + 1)
      rw [List.range_succ, List.append_nil, ← List.append_assoc]
      exact hcalls.append_right _
  | count hfree =>
      have hentering := entering_of_push (s := { s with _threadPool := s._threadPool.count }) rfl
      rw [entering_of_ne (hfree.trans_ne nofun)] at hcalls
      rw [hentering]
      show (_ ++ [s.pushed]) ++ (_ ++ []) ~ List.range (s.pushed + 1)
      rw [List.range_succ, List.append_nil]
      refine List.Perm.trans ?_ (hcalls.append_right _)
      rw [List.append_assoc, List.append_assoc]
      exact List.perm_append_comm.append_left _
  | emplace hpush =>
      have hentering := entering_of_ne
        (s := { _threadPool := s._threadPool.emplace s.pushed, pushed := s.pushed + 1 }) nofun
      rw [entering_of_push hpush] at hcalls
      rw [hentering]
      show (_ ++ []) ++ (_ ++ []) ~ List.range (s.pushed + 1)
      rw [List.append_nil, List.append_nil]
      exact hcalls
  | thread label _threadPool hturn =>
      rw [entering_thread hturn h.counted.live]
      cases label with
      | none | some =>
          show (_ ++ []) ++ (_ ++ []) ~ List.range (s.pushed + _)
          rw [List.append_nil, List.append_nil]
          exact hcalls
  | finish =>
      show (_ ++ []) ++ (_ ++ []) ~ List.range (s.pushed + s.entering.length)
      rw [List.append_nil, List.append_nil]
      exact hcalls

theorem Inv.step (h : Inv _maxSize events s) (hstep : Step _maxSize s label s') :
    Inv _maxSize (events ++ label.toList) s' where
  counted := h.counted_step hstep
  objects := h.objects_step hstep
  took := h.took_step hstep
  calls := h.calls_step hstep

theorem Run.inv (hrun : Run _maxSize events s) : Inv _maxSize events s :=
  hrun.invariant (P := Inv _maxSize) (Inv.initial _maxSize) fun h hstep => h.step hstep

/-! ## Admission -/

/-- What the pool does with the runnables of a run. -/
structure Handled (events : List Event) (s : State) : Prop where
  /-- An accepted runnable is in the queue until a thread takes it. -/
  placed : s.entering ++ s._threadPool._queue ++ taken events ~ accepted events
  once : (accepted events).Nodup
  rejected : ∀ runnable ∈ rejected events,
    runnable ∉ s._threadPool._queue ∧ runnable ∉ taken events ∧
      .run runnable ∉ s._threadPool._threads

theorem Inv.nodup (h : Inv _maxSize events s) : (accepted events ++ rejected events).Nodup :=
  h.calls.nodup_iff.mpr List.nodup_range

theorem Inv.handled (h : Inv _maxSize events s) : Handled events s := by
  have hplaced : s.entering ++ s._threadPool._queue ++ taken events ~ accepted events := by
    refine (h.took.append_left _).trans ?_
    have hobjects := h.objects
    simp only [List.append_assoc] at hobjects ⊢
    exact hobjects
  refine ⟨hplaced, h.nodup.of_append_left, fun runnable hrejected => ?_⟩
  have hnot : runnable ∉ accepted events := fun haccepted =>
    List.disjoint_of_nodup_append h.nodup haccepted hrejected
  have htaken : runnable ∉ taken events := fun hmem =>
    hnot (hplaced.subset (List.mem_append_right _ hmem))
  refine ⟨fun hmem => ?_, htaken, fun hmem => ?_⟩
  · exact hnot (hplaced.subset (List.mem_append_left _ (List.mem_append_right _ hmem)))
  · refine htaken (h.took.symm.subset (List.mem_append_left _ ?_))
    exact List.mem_filterMap.mpr ⟨_, hmem, rfl⟩

/-- A call of `push` rejects its runnable if `_maxSize` of them are unfinished. -/
def Conforms (_maxSize : UInt32) (before : List Event) (_status : STATUS) : Prop :=
  _status = .MAX_TOTAL_OBJECTS ↔ (unfinished before).length = _maxSize.toNat

/-- Every call of the run conforms. -/
def AllConform (_maxSize : UInt32) (events : List Event) : Prop :=
  ∀ before runnable _status after, events = before ++ .push runnable _status :: after →
    Conforms _maxSize before _status

theorem AllConform.append (h : AllConform _maxSize events) {event : Event}
    (hevent : ∀ runnable _status, event = .push runnable _status →
      Conforms _maxSize events _status) : AllConform _maxSize (events ++ [event]) := by
  intro before runnable _status after heq
  rcases List.eq_nil_or_concat after with rfl | ⟨front, last, rfl⟩
  · obtain ⟨rfl, hlast⟩ := List.append_inj' heq rfl
    exact hevent runnable _status (List.singleton_inj.mp hlast)
  · rw [List.concat_eq_append, ← List.cons_append, ← List.append_assoc] at heq
    exact h before runnable _status front (List.append_inj' heq rfl).1

/- One thread may be created. -/
namespace OneThread

/-- A step along a given run. -/
theorem next {before behind : List Event} {s s' : State} {label : Option Event}
    (hrun : Run 1 before s) (hstep : Step 1 s label s') (h : before ++ label.toList = behind) :
    Run 1 behind s' :=
  h ▸ hrun.step hstep

/-- A thread moves. -/
theorem silent {events : List Event} {pool pool' : ThreadPoolBase.State Nat} {pushed : Nat}
    (hrun : Run 1 events ⟨pool, pushed⟩)
    (hstep : ThreadPoolBase.Step 1 ThreadPoolBase.NoneStopped pool pool')
    (hqueue : pool'._queue = pool._queue) : Run 1 events ⟨pool', pushed⟩ :=
  next hrun (.thread none pool' (.silent pool' hstep hqueue)) (List.append_nil _)

theorem running : Run 1 [.push 0 .NONE, .get 0 0] ⟨⟨[.run 0], .free, [], 0, false⟩, 1⟩ := by
  have accepted : Run 1 [.push 0 .NONE] ⟨⟨[], .push, [], 1, false⟩, 0⟩ :=
    next .start (.count rfl (by decide)) rfl
  have pushed : Run 1 [.push 0 .NONE] ⟨⟨[.loop], .free, [0], 1, false⟩, 1⟩ :=
    next accepted (.emplace rfl) rfl
  -- The counter has come to `_maxSize`, so that the first look at the queue is in vain.
  have inVain : Run 1 [.push 0 .NONE] ⟨⟨[.test], .free, [0], 1, false⟩, 1⟩ :=
    silent (silent (silent (silent pushed (.loop 0 rfl) rfl) (.lock 0 rfl rfl rfl nofun) rfl)
      (.skip 0 0 0 rfl rfl rfl (by decide)) rfl) (.nothing 0 1 rfl rfl rfl) rfl
  have again : Run 1 [.push 0 .NONE] ⟨⟨[.get], .get 0 0, [0], 0, false⟩, 1⟩ :=
    silent (silent (silent (silent inVain (.test 0 rfl) rfl) (.decrement 0 rfl) rfl)
      (.loop 0 rfl) rfl) (.lock 0 rfl rfl rfl nofun) rfl
  exact next again (.thread (some (0, 0)) _
    (.get 0 0 _ (.take 0 0 0 rfl rfl rfl (by decide)) rfl rfl)) rfl

end OneThread

end PoolAdmission

end ClientServer
