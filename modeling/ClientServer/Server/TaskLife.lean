import ClientServer.Common.Header
import ClientServer.Common.Utility

/-!
# The life of a task

What a task goes through, in its own terms: a session fills it with a batch and
pushes it, the controller takes it, the workers handle each index of the batch
once in a first phase and, after a sort, once in a second one, the promise is
fulfilled, and the session goes on.  Nothing here says who does it or what else
goes on meanwhile.

`Life.step` is the automaton, `Life.History` what the actions up to a point of
the life look like.
-/

namespace ClientServer

inductive Phase where
  | PREPROCESSTASK | PROCESSTASK
deriving DecidableEq, Repr

inductive Action where
  | update (header : HEADER) (request : Bytes)
  | push
  | take
  | fetch
  | handle (phase : Phase) (index : Nat)
  | reread
  | sort
  | finish
  | resume
deriving DecidableEq

/-- The number of requests in a batch. -/
def batchSize (request : Bytes) : Nat := (completeLines 10 request).length

/-- The life of a task.  While it is worked on it has the indices handled in the
phase. -/
inductive Life where
  | idle
  | updated (header : HEADER) (request : Bytes)
  | queued (header : HEADER) (request : Bytes)
  | working (phase : Phase) (header : HEADER) (request : Bytes) (handled : List Nat)
  | finished (header : HEADER) (request : Bytes)
  | returned (header : HEADER) (request : Bytes)
deriving DecidableEq

namespace Life

/-- What may happen at each point.  Workers touch the task in its two phases
only, each phase handles each index once, and a phase ends when it has handled
all of them. -/
def step : Life → Action → Option Life
  | idle, .update header request => some (updated header request)
  | returned _ _, .update header request => some (updated header request)
  | updated header request, .push => some (queued header request)
  | queued header request, .take => some (working .PREPROCESSTASK header request [])
  | working phase header request handled, .fetch => some (working phase header request handled)
  | working phase header request handled, .reread => some (working phase header request handled)
  | working phase header request handled, .handle phase' index =>
      if phase' = phase ∧ index < batchSize request ∧ index ∉ handled then
        some (working phase header request (handled ++ [index]))
      else none
  | working .PREPROCESSTASK header request handled, .sort =>
      if handled.Perm (List.range (batchSize request)) then
        some (working .PROCESSTASK header request [])
      else none
  | working .PROCESSTASK header request handled, .finish =>
      if handled.Perm (List.range (batchSize request)) then some (finished header request)
      else none
  | finished header request, .resume => some (returned header request)
  | _, _ => none

/-- The life of a task as it starts.  The task of no session is an empty batch
the workers find when they start. -/
def start {σ : Type} : Option σ → Life
  | some _ => idle
  | none => working .PREPROCESSTASK
      ⟨.SESSION, 0, 0, .NONE, .NONE, .NONE, 0, 0⟩ [] []

/-- The batch the task holds. -/
def batch : Life → Option (HEADER × Bytes)
  | idle => none
  | updated header request | queued header request | working _ header request _
  | finished header request | returned header request => some (header, request)

end Life

/-! ## Histories -/

/-- What a worker may do to a task in a phase. -/
def Action.touches (phase : Phase) : Action → Bool
  | fetch | reread => true
  | handle phase' _ => phase' = phase
  | _ => false

/-- The indices handled, in order. -/
def handledIn (actions : List Action) : List Nat :=
  actions.filterMap fun
    | .handle _ index => some index
    | _ => none

/-- Actions of the workers in one phase, which handle these indices. -/
structure Handles (phase : Phase) (actions : List Action) (handled : List Nat) : Prop where
  touches : ∀ action ∈ actions, action.touches phase = true
  handledIn : handledIn actions = handled

/-- A whole phase over a batch: workers only, and each index handled once. -/
def PhaseOver (phase : Phase) (request : Bytes) (actions : List Action) : Prop :=
  ∃ handled, Handles phase actions handled ∧ handled.Perm (List.range (batchSize request))

/-- What a batch goes through before it is finished. -/
def Processed (header : HEADER) (request : Bytes) (actions : List Action) : Prop :=
  ∃ pre post, actions = [.update header request, .push, .take] ++ pre ++ [.sort] ++ post ∧
    PhaseOver .PREPROCESSTASK request pre ∧ PhaseOver .PROCESSTASK request post

namespace Life

/-- The last batch in the history of a task at a point of its life. -/
def History : Life → List Action → Prop
  | idle, actions => actions = []
  | updated header request, actions => ∃ before, actions = before ++ [.update header request]
  | queued header request, actions =>
      ∃ before, actions = before ++ [.update header request, .push]
  | working .PREPROCESSTASK header request handled, actions => ∃ before pre,
      actions = before ++ ([.update header request, .push, .take] ++ pre) ∧
        Handles .PREPROCESSTASK pre handled
  | working .PROCESSTASK header request handled, actions => ∃ before pre post,
      actions = before ++ ([.update header request, .push, .take] ++ pre ++ [.sort] ++ post) ∧
        PhaseOver .PREPROCESSTASK request pre ∧ Handles .PROCESSTASK post handled
  | finished header request, actions => ∃ before batch,
      actions = before ++ batch ++ [.finish] ∧ Processed header request batch
  | returned header request, actions => ∃ before batch,
      actions = before ++ batch ++ [.finish, .resume] ∧ Processed header request batch

theorem handles_nil (phase : Phase) : Handles phase [] [] :=
  ⟨fun _ hmem => absurd hmem List.not_mem_nil, rfl⟩

/-- One more action of the phase. -/
theorem Handles.append {phase : Phase} {actions : List Action} {handled : List Nat}
    (h : Handles phase actions handled) {action : Action} (htouches : action.touches phase = true) :
    Handles phase (actions ++ [action]) (handled ++ handledIn [action]) := by
  constructor
  · intro a ha
    rcases List.mem_append.mp ha with ha | ha
    · exact h.touches a ha
    · obtain rfl := List.mem_singleton.mp ha
      exact htouches
  · rw [handledIn, List.filterMap_append, ← handledIn, h.handledIn]
    rfl

/-- Looking at the counter handles nothing. -/
theorem handles_look {phase : Phase} {actions : List Action} {handled : List Nat}
    (h : Handles phase actions handled) {action : Action}
    (haction : action = .fetch ∨ action = .reread) : Handles phase (actions ++ [action]) handled := by
  have hnone : handledIn [action] = [] := by
    rcases haction with rfl | rfl <;> rfl
  have htouches : action.touches phase = true := by
    rcases haction with rfl | rfl <;> rfl
  have happend := Handles.append h htouches
  rwa [hnone, List.append_nil] at happend

theorem handles_handle {phase : Phase} {actions : List Action} {handled : List Nat}
    (h : Handles phase actions handled) (index : Nat) :
    Handles phase (actions ++ [.handle phase index]) (handled ++ [index]) :=
  Handles.append h (decide_eq_true rfl)

section Working

variable {phase phase' : Phase} {header : HEADER} {request : Bytes} {handled : List Nat} {l : Life}

theorem step_fetch : (working phase header request handled).step .fetch =
    some (working phase header request handled) := by
  cases phase <;> rfl

theorem step_reread : (working phase header request handled).step .reread =
    some (working phase header request handled) := by
  cases phase <;> rfl

theorem step_handle {index : Nat}
    (h : (working phase header request handled).step (.handle phase' index) = some l) :
    phase' = phase ∧ index < batchSize request ∧
      l = working phase header request (handled ++ [index]) := by
  have hstep : (working phase header request handled).step (.handle phase' index) =
      if phase' = phase ∧ index < batchSize request ∧ index ∉ handled then
        some (working phase header request (handled ++ [index]))
      else none := by
    cases phase <;> rfl
  rw [hstep] at h
  split at h
  · next hcond => exact ⟨hcond.1, hcond.2.1, (Option.some.inj h).symm⟩
  · exact nomatch h

theorem step_sort (h : (working phase header request handled).step .sort = some l) :
    phase = .PREPROCESSTASK ∧ handled.Perm (List.range (batchSize request)) ∧
      l = working .PROCESSTASK header request [] := by
  cases phase with
  | PREPROCESSTASK =>
      change (if handled.Perm (List.range (batchSize request)) then _ else none) = some l at h
      split at h
      · next hperm => exact ⟨rfl, hperm, (Option.some.inj h).symm⟩
      · exact nomatch h
  | PROCESSTASK => exact nomatch h

theorem step_finish (h : (working phase header request handled).step .finish = some l) :
    phase = .PROCESSTASK ∧ handled.Perm (List.range (batchSize request)) ∧
      l = finished header request := by
  cases phase with
  | PREPROCESSTASK => exact nomatch h
  | PROCESSTASK =>
      change (if handled.Perm (List.range (batchSize request)) then _ else none) = some l at h
      split at h
      · next hperm => exact ⟨rfl, hperm, (Option.some.inj h).symm⟩
      · exact nomatch h

/-- While a task is worked on, workers touch it or the phase ends. -/
theorem step_working {action : Action}
    (h : (working phase header request handled).step action = some l) {actions : List Action}
    (hhandles : Handles phase actions handled) :
    (∃ handled', l = working phase header request handled' ∧
      Handles phase (actions ++ [action]) handled') ∨ action = .sort ∨ action = .finish := by
  cases action with
  | fetch =>
      obtain rfl := Option.some.inj (step_fetch.symm.trans h)
      exact .inl ⟨handled, rfl, handles_look hhandles (.inl rfl)⟩
  | reread =>
      obtain rfl := Option.some.inj (step_reread.symm.trans h)
      exact .inl ⟨handled, rfl, handles_look hhandles (.inr rfl)⟩
  | handle phase' index =>
      obtain ⟨rfl, -, rfl⟩ := step_handle h
      exact .inl ⟨handled ++ [index], rfl, handles_handle hhandles index⟩
  | sort => exact .inr (.inl rfl)
  | finish => exact .inr (.inr rfl)
  | update | push | take | resume => cases phase <;> exact nomatch h

end Working

/-- One action appends itself to the history. -/
theorem History.step {l l' : Life} {actions : List Action} (h : l.History actions)
    {action : Action} (hstep : l.step action = some l') : l'.History (actions ++ [action]) := by
  cases l with
  | idle =>
      cases action with
      | update header request =>
          obtain rfl := Option.some.inj hstep
          exact ⟨actions, rfl⟩
      | push | take | fetch | handle | reread | sort | finish | resume => exact nomatch hstep
  | updated header request =>
      cases action with
      | push =>
          obtain rfl := Option.some.inj hstep
          obtain ⟨before, rfl⟩ := h
          exact ⟨before, List.append_assoc ..⟩
      | update | take | fetch | handle | reread | sort | finish | resume => exact nomatch hstep
  | queued header request =>
      cases action with
      | take =>
          obtain rfl := Option.some.inj hstep
          obtain ⟨before, rfl⟩ := h
          exact ⟨before, [], List.append_assoc .., handles_nil _⟩
      | update | push | fetch | handle | reread | sort | finish | resume => exact nomatch hstep
  | working phase header request handled =>
      cases phase with
      | PREPROCESSTASK =>
          obtain ⟨before, pre, rfl, hpre⟩ := h
          rcases step_working hstep hpre with ⟨handled', rfl, hpre'⟩ | rfl | rfl
          · exact ⟨before, pre ++ [action], by simp only [List.append_assoc], hpre'⟩
          · obtain ⟨-, hperm, rfl⟩ := step_sort hstep
            exact ⟨before, pre, [], by simp only [List.append_assoc, List.append_nil],
              ⟨handled, hpre, hperm⟩, handles_nil _⟩
          · exact nomatch (step_finish hstep).1
      | PROCESSTASK =>
          obtain ⟨before, pre, post, rfl, hpre, hpost⟩ := h
          rcases step_working hstep hpost with ⟨handled', rfl, hpost'⟩ | rfl | rfl
          · exact ⟨before, pre, post ++ [action], by simp only [List.append_assoc], hpre, hpost'⟩
          · exact nomatch (step_sort hstep).1
          · obtain ⟨-, hperm, rfl⟩ := step_finish hstep
            exact ⟨before, _, rfl, pre, post, rfl, hpre, handled, hpost, hperm⟩
  | finished header request =>
      cases action with
      | resume =>
          obtain rfl := Option.some.inj hstep
          obtain ⟨before, batch, rfl, hbatch⟩ := h
          exact ⟨before, batch, List.append_assoc .., hbatch⟩
      | update | push | take | fetch | handle | reread | sort | finish => exact nomatch hstep
  | returned header request =>
      cases action with
      | update header' request' =>
          obtain rfl := Option.some.inj hstep
          exact ⟨actions, rfl⟩
      | push | take | fetch | handle | reread | sort | finish | resume => exact nomatch hstep

/-- The history of a life that has come this far. -/
theorem history {actions : List Action} {l : Life} (h : actions.foldlM step idle = some l) :
    l.History actions := by
  induction actions using List.reverseRecOn generalizing l with
  | nil =>
      obtain rfl := Option.some.inj h
      rfl
  | append_singleton actions action ih =>
      rw [List.foldlM_append] at h
      obtain ⟨before, hbefore, hstep⟩ := Option.bind_eq_some_iff.mp h
      obtain ⟨after, hafter, hl⟩ := Option.bind_eq_some_iff.mp hstep
      obtain rfl : after = l := Option.some.inj hl
      exact (ih hbefore).step hafter

/-! ## What the automaton says -/

/-- The life before and after an action. -/
theorem around {before after : List Action} {action : Action} {l : Life}
    (h : (before ++ action :: after).foldlM step idle = some l) :
    ∃ l₁ l₂ : Life, l₁.History before ∧ l₁.step action = some l₂ ∧ after.foldlM step l₂ = some l := by
  rw [List.foldlM_append] at h
  obtain ⟨l₁, hbefore, hrest⟩ := Option.bind_eq_some_iff.mp h
  obtain ⟨l₂, hstep, hafter⟩ := Option.bind_eq_some_iff.mp hrest
  exact ⟨l₁, l₂, history hbefore, hstep, hafter⟩

/-- What can be finished has gone through each phase once. -/
theorem History.finish {l l' : Life} {before : List Action} (h : l.History before)
    (hstep : l.step .finish = some l') :
    ∃ earlier header request batch, before = earlier ++ batch ∧ Processed header request batch ∧
      l' = finished header request := by
  cases l with
  | working phase header request handled =>
      cases phase with
      | PREPROCESSTASK => exact nomatch hstep
      | PROCESSTASK =>
          obtain ⟨earlier, pre, post, hbefore, hpre, hpost⟩ := h
          obtain ⟨-, hperm, hl'⟩ := step_finish hstep
          exact ⟨earlier, header, request, _, hbefore, ⟨pre, post, rfl, hpre, handled, hpost, hperm⟩,
            hl'⟩
  | idle | updated | queued | finished | returned => exact nomatch hstep

/-- What is finished has gone through each phase once, behind its last `update`. -/
theorem processed_of_finish {before after : List Action} {l : Life}
    (h : (before ++ .finish :: after).foldlM step idle = some l) :
    ∃ earlier header request batch, before = earlier ++ batch ∧ Processed header request batch := by
  obtain ⟨l₁, l₂, hhistory, hstep, -⟩ := around h
  obtain ⟨earlier, header, request, batch, hbefore, hbatch, -⟩ := hhistory.finish hstep
  exact ⟨earlier, header, request, batch, hbefore, hbatch⟩

/-- What a session returns with has just been finished. -/
theorem finish_of_resume {before after : List Action} {l : Life}
    (h : (before ++ .resume :: after).foldlM step idle = some l) :
    ∃ earlier header request batch, before = earlier ++ batch ++ [.finish] ∧
      Processed header request batch := by
  obtain ⟨l₁, l₂, hhistory, hstep, -⟩ := around h
  cases l₁ with
  | finished header request =>
      obtain ⟨earlier, batch, hbefore, hbatch⟩ := hhistory
      exact ⟨earlier, header, request, batch, hbefore, hbatch⟩
  | working phase => cases phase <;> exact nomatch hstep
  | idle | updated | queued | returned => exact nomatch hstep

/-- The session has the task to itself. -/
def owned : Life → Bool
  | idle | updated _ _ | finished _ _ | returned _ _ => true
  | queued _ _ | working _ _ _ _ => false

/-- Until it is pushed again only the session acts on it. -/
theorem bySession_of_owned {l l' : Life} (howned : l.owned = true) {actions : List Action}
    (h : actions.foldlM step l = some l') (hpush : .push ∉ actions) :
    ∀ action ∈ actions, action = .resume ∨ ∃ header request, action = .update header request := by
  induction actions generalizing l with
  | nil => exact fun _ hmem => absurd hmem List.not_mem_nil
  | cons action actions ih =>
      obtain ⟨next, hstep, hrest⟩ := Option.bind_eq_some_iff.mp h
      obtain ⟨hne, hpush⟩ := List.ne_and_not_mem_of_not_mem_cons hpush
      have haction : (action = .resume ∨ ∃ header request, action = .update header request) ∧
          next.owned = true := by
        cases l with
        | idle =>
            cases action with
            | update header request =>
                obtain rfl := Option.some.inj hstep
                exact ⟨.inr ⟨header, request, rfl⟩, rfl⟩
            | push | take | fetch | handle | reread | sort | finish | resume =>
                exact nomatch hstep
        | returned =>
            cases action with
            | update header request =>
                obtain rfl := Option.some.inj hstep
                exact ⟨.inr ⟨header, request, rfl⟩, rfl⟩
            | push | take | fetch | handle | reread | sort | finish | resume =>
                exact nomatch hstep
        | finished =>
            cases action with
            | resume =>
                obtain rfl := Option.some.inj hstep
                exact ⟨.inl rfl, rfl⟩
            | update | push | take | fetch | handle | reread | sort | finish =>
                exact nomatch hstep
        | updated =>
            cases action with
            | push => exact absurd rfl hne
            | update | take | fetch | handle | reread | sort | finish | resume =>
                exact nomatch hstep
        | queued | working => exact nomatch howned
      intro a hmem
      rcases List.mem_cons.mp hmem with rfl | hmem
      · exact haction.1
      · exact ih haction.2 hrest hpush a hmem

/-- Between its end and the next `push` only the session acts on a task. -/
theorem bySession_of_finish {before after : List Action} {l : Life}
    (h : (before ++ .finish :: after).foldlM step idle = some l) (hpush : .push ∉ after) :
    ∀ action ∈ after, action = .resume ∨ ∃ header request, action = .update header request := by
  obtain ⟨l₁, l₂, hhistory, hstep, hafter⟩ := around h
  obtain ⟨_, header, request, _, -, -, rfl⟩ := hhistory.finish hstep
  exact bySession_of_owned rfl hafter hpush

end Life

end ClientServer
