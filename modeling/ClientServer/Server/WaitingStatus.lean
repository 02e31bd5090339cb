import ClientServer.Server.PoolSteps

/-!
# What a client is told about waiting

The constructor of a session sends its status before `startSession` has the pool
calculate it, so that a client is told `NONE` whatever the pool finds.
-/

namespace ClientServer.ThreadPoolSessions

variable {τ : Type} [DecidableEq τ] (limits : Limits τ)

/-- Where `calculateStatus` looks at a counter of the sessions inside `run`,
there is room for one more. -/
def State.FindsRoom (s : State τ) : ArrivalPc τ → Prop
  | .condition1 runnable _ =>
      s._numberRunningByType runnable.type < limits._maxNumberRunningByType runnable.type
  | .condition2 _ _ _ => s._numberRunningTotal < limits._maxSize
  | _ => True

def FindsRoom : Action τ → State τ → Prop
  | .advance, s => s.FindsRoom limits s.arrival
  | _, _ => True

instance (s : State τ) : ∀ arrival, Decidable (s.FindsRoom limits arrival)
  | .condition1 runnable _ => inferInstanceAs (Decidable
      (s._numberRunningByType runnable.type < limits._maxNumberRunningByType runnable.type))
  | .condition2 _ _ _ => inferInstanceAs (Decidable (s._numberRunningTotal < limits._maxSize))
  | .none | .constructed _ | .counted _ | .push _ => inferInstanceAs (Decidable True)

instance : ∀ (a : Action τ) (s : State τ), Decidable (FindsRoom limits a s)
  | .advance, s => inferInstanceAs (Decidable (s.FindsRoom limits s.arrival))
  | .arrive _, _ | .push _, _ | .thread _, _ | .stopRunnable _, _ | .stop, _ => inferInstanceAs (Decidable True)

/-- No session has to wait. -/
structure NoneWaits (s : State τ) : Prop where
  status : ∀ id, s._status id = .NONE
  told : ∀ p ∈ s.told, p.2 = .NONE
  assigned : ∀ p ∈ s.assigned, p.2 = .NONE
  condition2 : ∀ {runnable : Runnable τ} {condition1 condition2 : Bool},
    s.arrival = .condition2 runnable condition1 condition2 → condition2 = true

variable {limits}

namespace NoneWaits

variable {s s' : State τ}

omit [DecidableEq τ] in
theorem initial : NoneWaits (State.initial : State τ) where
  status _ := rfl
  told _ h := by cases h
  assigned _ h := by cases h
  condition2 h := by cases h

omit [DecidableEq τ] in
theorem advance (h : NoneWaits s) (hok : FindsRoom limits .advance s)
    (hs : s.advance limits = some s') : NoneWaits s' := by
  have hstep := arrivalStep_of hs
  have hroom : s.FindsRoom limits s.arrival := hok
  generalize harrival : s.arrival = arrival at hstep hroom
  cases hstep with
  | objects => exact { h with condition2 := fun h => by cases h }
  | condition1 => exact { h with condition2 := fun h => by cases h }
  | condition2 =>
      refine { h with condition2 := fun h => ?_ }
      cases h
      exact decide_eq_true hroom
  | decide hdecision =>
      have hc := h.condition2 harrival
      cases hdecision with
      | createThread =>
          refine { h with assigned := ?_, condition2 := fun h => by cases h }
          exact List.forall_mem_append.mpr ⟨h.assigned, List.forall_mem_singleton.mpr (h.status _)⟩
      | objectsOfType hfalse => rw [hc] at hfalse; cases hfalse
      | totalObjects _ _ htotal => exact absurd hroom (UInt32.not_lt.mpr htotal)
      | keep =>
          refine { h with assigned := ?_, condition2 := fun h => by cases h }
          exact List.forall_mem_append.mpr ⟨h.assigned, List.forall_mem_singleton.mpr (h.status _)⟩

omit [DecidableEq τ] in
theorem push {i : Nat} (h : NoneWaits s) (hs : s.push i = some s') : NoneWaits s' := by
  have hstep := pushStep_of hs
  generalize s.arrival = arrival at hstep
  cases hstep with
  | quiet | wake => exact { h with condition2 := fun h => by cases h }

/-- A step of a thread leaves the statuses and the arrival alone. -/
theorem thread {i : Nat} (h : NoneWaits s) (hs : s.thread limits i = some s') : NoneWaits s' := by
  obtain ⟨pc, _, hstep⟩ := threadStep_of hs
  cases hstep <;> exact { h with }

theorem step {a : Action τ} (h : NoneWaits s) (hok : FindsRoom limits a s)
    (hs : step limits a s = some s') : NoneWaits s' := by
  cases a with
  | arrive type =>
      obtain ⟨_, rfl⟩ := arrive_eq_some hs
      refine { h with told := ?_, condition2 := fun h => by cases h }
      exact List.forall_mem_append.mpr ⟨h.told, List.forall_mem_singleton.mpr (h.status _)⟩
  | advance => exact h.advance hok hs
  | push i => exact h.push hs
  | thread i => exact h.thread hs
  | stopRunnable id =>
      obtain rfl := Option.some.inj hs
      exact { h with }
  | stop =>
      obtain ⟨_, rfl⟩ := stop_eq_some hs
      exact { h with }

end NoneWaits

/-- The status in the message to the client of a session is the status which
`calculateStatus` leaves the session with. -/
def State.ToldAssigned (s : State τ) : Prop :=
  ∀ id status status', (id, status) ∈ s.told → (id, status') ∈ s.assigned → status = status'

theorem toldAssigned_of_findsRoom {s : State τ} (hr : Reached limits (FindsRoom limits) s) :
    s.ToldAssigned := by
  have h : NoneWaits s :=
    Runs.Reached.invariant NoneWaits.initial (fun h hok hs => h.step hok hs) hr
  intro id status status' htold hassigned
  exact (h.told _ htold).trans (h.assigned _ hassigned).symm

theorem toldAssigned_twoSessions :
    ∃ s : State SessionType, s.assigned = [(0, .NONE), (1, .NONE)] ∧ s.ToldAssigned := by
  obtain ⟨s, hr, hs⟩ : ∃ s, Reached (ServerOptions.limits 10 1 10)
      (FindsRoom (ServerOptions.limits 10 1 10)) s ∧ s.assigned = [(0, .NONE), (1, .NONE)] :=
    Runs.exists_reached (arrival .TcpSession ++ moves 0 4 ++ arrival .FifoSession) (by decide)
  exact ⟨s, hs, toldAssigned_of_findsRoom hr⟩

/-- The second client is told `NONE` and waits. -/
theorem toldAssigned_fails :
    ∃ s : State SessionType, Reachable (ServerOptions.limits 10 1 10) s ∧ ¬ s.ToldAssigned := by
  obtain ⟨s, hr, hs⟩ : ∃ s, Reachable (ServerOptions.limits 10 1 10) s ∧
      (s.told, s.assigned) =
        ([(0, .NONE), (1, .NONE)], [(0, .NONE), (1, .MAX_OBJECTS_OF_TYPE)]) :=
    Runs.exists_reached (arrival .TcpSession ++ moves 0 4 ++ arrival .TcpSession) (by decide)
  obtain ⟨htold, hassigned⟩ := Prod.mk.inj hs
  refine ⟨s, hr, fun h => ?_⟩
  have heq := h 1 .NONE .MAX_OBJECTS_OF_TYPE (by simp [htold]) (by simp [hassigned])
  cases heq

end ClientServer.ThreadPoolSessions
