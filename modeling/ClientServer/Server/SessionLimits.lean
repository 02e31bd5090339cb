import ClientServer.Server.PoolAccounts

/-!
# The limits of the types

`get` compares the counter of a type with its limit, but the counter moves only
when the thread that took a session is inside `run`.  Between the two another
thread can take a session of the type too.
-/

namespace ClientServer.ThreadPoolSessions

open Slots
open scoped List

variable {τ : Type} [DecidableEq τ] (limits : Limits τ)

/-- The sessions of a type which threads have taken and not left. -/
def State.heldOf (s : State τ) (type : τ) : Nat := s.held.countP fun r => r.type = type

/-- A thread takes a session only while the threads have fewer sessions of its
type than may run. -/
def TakesWithin : Action τ → State τ → Prop
  | .thread i, s => ∀ runnable ∈ s.taken limits i,
      s.heldOf runnable.type < (limits._maxNumberRunningByType runnable.type).toNat
  | _, _ => True

instance : ∀ (a : Action τ) (s : State τ), Decidable (TakesWithin limits a s)
  | .thread i, s => inferInstanceAs (Decidable (∀ runnable ∈ s.taken limits i, _))
  | .arrive _, _ | .advance, _ | .push _, _ | .stopRunnable _, _ | .stop, _ => inferInstanceAs (Decidable True)

def HeldWithin (s : State τ) : Prop :=
  ∀ type, s.heldOf type ≤ (limits._maxNumberRunningByType type).toNat

variable {limits}

section Steps

variable {s s' : State τ} {i : Nat} {pc : ThreadPc τ}

theorem heldWithin_of_held_eq (h : HeldWithin limits s) (heq : s'.held = s.held) :
    HeldWithin limits s' := by
  intro type
  rw [State.heldOf, heq]
  exact h type

theorem heldWithin_take {position : Nat} {runnable : Runnable τ} (h : HeldWithin limits s)
    (hi : s._threads[i]? = some (.scan position))
    (hlt : s.heldOf runnable.type < (limits._maxNumberRunningByType runnable.type).toNat) :
    HeldWithin limits ((s.take i position runnable).setThread i (.run runnable)) := by
  intro type
  have hperm : ((s.take i position runnable).setThread i (.run runnable)).held ~
      runnable :: s.held := filterMap_set_perm ThreadPc.held hi _
  rw [State.heldOf, hperm.countP_eq, List.countP_cons]
  by_cases ht : runnable.type = type
  · subst ht
    simpa [State.heldOf] using hlt
  · simpa [State.heldOf, ht] using h type

theorem heldWithin_uncount {runnable : Runnable τ} (h : HeldWithin limits s)
    (hi : s._threads[i]? = some (.running runnable)) :
    HeldWithin limits ((s.uncountRunning runnable.type).setThread i .test) := by
  intro type
  have hperm : runnable :: ((s.uncountRunning runnable.type).setThread i .test).held ~
      s.held := filterMap_set_perm ThreadPc.held hi _
  refine Nat.le_trans ?_ (h type)
  rw [State.heldOf, State.heldOf, ← hperm.countP_eq]
  exact (List.sublist_cons_self _ _).countP_le

theorem heldWithin_threadStep (h : HeldWithin limits s) (hok : TakesWithin limits (.thread i) s)
    (hi : s._threads[i]? = some pc) (hstep : ThreadStep limits s i pc s') :
    HeldWithin limits s' := by
  cases hstep with
  | leave | enter | wake | wait | notified | lock | endOfQueue | pass | positive | zero =>
      exact heldWithin_of_held_eq h (held_setThread hi rfl)
  | take hr he => exact heldWithin_take h hi (hok _ (taken_eq_some_iff.mpr ⟨_, hi, hr, he⟩))
  | count => exact heldWithin_of_held_eq h (filterMap_set_of_eq hi rfl)
  | uncount => exact heldWithin_uncount h hi
  | decrement => exact heldWithin_of_held_eq h (filterMap_set_of_eq hi rfl)

omit [DecidableEq τ] in
theorem held_createThread (s : State τ) : s.createThread.held = s.held := by
  simp [State.held, State.createThread, ThreadPc.held]

omit [DecidableEq τ] in
theorem held_advance (hs : s.advance limits = some s') : s'.held = s.held := by
  have hstep := arrivalStep_of hs
  generalize s.arrival = arrival at hstep
  cases hstep with
  | objects | condition1 | condition2 => rfl
  | decide hdecision =>
      cases hdecision with
      | createThread => exact held_createThread s
      | objectsOfType | totalObjects | keep => rfl

omit [DecidableEq τ] in
theorem held_push (hs : s.push i = some s') : s'.held = s.held := by
  have hstep := pushStep_of hs
  generalize s.arrival = arrival at hstep
  cases hstep with
  | quiet => rfl
  | wake _ hi => exact held_setThread hi rfl

theorem heldWithin_step {a : Action τ} (h : HeldWithin limits s) (hok : TakesWithin limits a s)
    (hs : step limits a s = some s') : HeldWithin limits s' := by
  cases a with
  | arrive type =>
      obtain ⟨_, rfl⟩ := arrive_eq_some hs
      exact heldWithin_of_held_eq h rfl
  | advance => exact heldWithin_of_held_eq h (held_advance hs)
  | push i => exact heldWithin_of_held_eq h (held_push hs)
  | thread i =>
      obtain ⟨pc, hi, hstep⟩ := threadStep_of hs
      exact heldWithin_threadStep h hok hi hstep
  | stopRunnable id =>
      obtain rfl := Option.some.inj hs
      exact heldWithin_of_held_eq h rfl
  | stop =>
      obtain ⟨_, rfl⟩ := stop_eq_some hs
      exact heldWithin_of_held_eq h (filterMap_notified rfl _)

end Steps

theorem Reached.heldWithin {s : State τ} (hr : Reached limits (TakesWithin limits) s) :
    HeldWithin limits s :=
  Runs.Reached.invariant (fun _ => Nat.zero_le _) (fun h hok hs => heldWithin_step h hok hs) hr

/-- `maxNumberRunningByType` bounds the sessions of a type inside `run`. -/
theorem limitOfType_holds_of_takesWithin {s : State τ}
    (hr : Reached limits (TakesWithin limits) s) (type : τ) :
    s.insideRun.countP (fun r => r.type = type) ≤
      (limits._maxNumberRunningByType type).toNat :=
  Nat.le_trans (insideRun_sublist_held s).countP_le (hr.heldWithin type)

theorem limitOfType_holds_twoSessions :
    ∃ s : State SessionType, s.insideRun = [⟨0, .TcpSession⟩] ∧ s._queue = [⟨1, .TcpSession⟩] ∧
      s.insideRun.countP (fun r => r.type = .TcpSession) ≤ 1 := by
  obtain ⟨s, hr, hs⟩ : ∃ s, Reached (ServerOptions.limits 10 1 10)
      (TakesWithin (ServerOptions.limits 10 1 10)) s ∧
      (s.insideRun, s._queue) = ([⟨0, .TcpSession⟩], [⟨1, .TcpSession⟩]) :=
    Runs.exists_reached (arrival .TcpSession ++ moves 0 4 ++ arrival .TcpSession) (by decide)
  exact ⟨s, congrArg Prod.fst hs, congrArg Prod.snd hs,
    limitOfType_holds_of_takesWithin hr .TcpSession⟩

/-- Two sessions run where one may: the second was taken before the first was
counted. -/
theorem limitOfType_exceeded :
    ∃ s : State SessionType, Reachable (ServerOptions.limits 10 1 10) s ∧
      ((ServerOptions.limits 10 1 10)._maxNumberRunningByType .TcpSession).toNat <
        s.insideRun.countP fun r => r.type = .TcpSession := by
  obtain ⟨s, hr, hs⟩ : ∃ s, Reachable (ServerOptions.limits 10 1 10) s ∧
      s.insideRun = [⟨0, .TcpSession⟩, ⟨1, .TcpSession⟩] :=
    Runs.exists_reached (arrival .TcpSession ++ moves 0 3 ++ arrival .TcpSession ++ moves 1 4 ++
      moves 0 1) (by decide)
  refine ⟨s, hr, ?_⟩
  rw [hs]
  decide

end ClientServer.ThreadPoolSessions
