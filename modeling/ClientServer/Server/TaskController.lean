import ClientServer.Library.Runs
import ClientServer.Library.SharedCounter
import ClientServer.Server.Task
import ClientServer.Server.TaskLife

/-!
# The task controller

Workers handle one task at a time, in two phases with a barrier after each.  The
last worker to arrive runs `onCompletion`, while all others wait: it sorts
between the phases, and after the second one it fulfils the promise and blocks
until the queue has another task.  Sessions update their tasks, push them and
wait for the promise meanwhile.

A step is what one thread does without the others being able to tell its parts
apart; `_index` is read and written once a step.  A step that ends in a fault is
not a step: the process is gone.  The controller is not stopped.

`TaskProtocol` shows that the controller keeps every task to its `Life`.
-/

namespace ClientServer

/-- Where a worker stands in `Worker::run`.  In the inner loop it has the phase
it read at the top of the outer one. -/
inductive WorkerPc where
  | ready
  | fetching (phase : Phase)
  | handling (phase : Phase) (index : Nat)
  | rereading (phase : Phase)
  | arriving
  | waiting
deriving DecidableEq

/-- Where a session stands: before its first request, behind `update`, in
`future.get()`, or behind `processTask`. -/
inductive SessionPc where
  | idle
  | updated (header : HEADER) (request : Bytes)
  | waiting (header : HEADER) (request : Bytes)
  | returned (header : HEADER) (request : Bytes)
deriving DecidableEq

/-- What happens, and to the task of which session.  The task the controller
starts with has no session. -/
structure Event (σ : Type) where
  task : Option σ
  action : Action

/-- What happened to one task. -/
def actionsOn {σ : Type} [DecidableEq σ] (task : Option σ) (events : List (Event σ)) :
    List Action :=
  events.filterMap fun event => if event.task = task then some event.action else none

/-! ## The controller -/

namespace TaskController

structure State (σ ω Λ : Type) where
  /-- The task of each session, and the one the controller starts with. -/
  tasks : Option σ → Task
  sessions : σ → SessionPc
  _queue : List σ
  /-- Whose task `_task` points to. -/
  _task : Option σ
  _phase : Phase
  /-- `onCompletion` has finished the task and is in `setNextTask`. -/
  completing : Bool
  workers : ω → WorkerPc
  /-- The static members of each worker thread. -/
  locals : ω → Λ

variable {σ ω Λ : Type} [DecidableEq σ] [DecidableEq ω]

namespace State

def initial (locals : ω → Λ) : State σ ω Λ where
  tasks _ := Task.initial
  sessions _ := .idle
  _queue := []
  _task := none
  _phase := .PREPROCESSTASK
  completing := false
  workers _ := .ready
  locals := locals

/-- `*_task` -/
def task (s : State σ ω Λ) : Task := s.tasks s._task

def setTask (s : State σ ω Λ) (task : Task) : State σ ω Λ :=
  { s with tasks := Function.update s.tasks s._task task }

def setWorker (s : State σ ω Λ) (w : ω) (pc : WorkerPc) : State σ ω Λ :=
  { s with workers := Function.update s.workers w pc }

def setLocals (s : State σ ω Λ) (w : ω) (own : Λ) : State σ ω Λ :=
  { s with locals := Function.update s.locals w own }

def setSession (s : State σ ω Λ) (t : σ) (pc : SessionPc) : State σ ω Λ :=
  { s with sessions := Function.update s.sessions t pc }

/-- `fetch_add`, and the comparison behind it. -/
def fetch (s : State σ ω Λ) (w : ω) (phase : Phase) : State σ ω Λ :=
  let (index, task) := s.task.fetchIndex
  (s.setTask task).setWorker w
    (if index < task._size then .handling phase index else .rereading phase)

/-- The condition of the inner loop. -/
def reread (s : State σ ω Λ) (w : ω) (phase : Phase) : State σ ω Λ :=
  s.setWorker w (if s.task.anyLeft then .fetching phase else .arriving)

/-- The barrier opens. -/
def release (s : State σ ω Λ) : State σ ω Λ := { s with workers := fun _ => .ready }

/-- `onCompletion` in the first phase. -/
def sort (s : State σ ω Λ) (order : List Nat) : State σ ω Λ :=
  { s.setTask (s.task.sortIndices order).resetIndex with _phase := .PROCESSTASK }.release

/-- `onCompletion` in the second phase, to the end of `finish`. -/
def finish (s : State σ ω Λ) (task : Task) : State σ ω Λ :=
  { s.setTask task with completing := true }

/-- The rest of `onCompletion` in the second phase. -/
def take (s : State σ ω Λ) (t : σ) (_queue : List σ) : State σ ω Λ :=
  { s with
    tasks := Function.update s.tasks (some t) (s.tasks (some t)).resetIndex
    _queue
    _task := some t
    _phase := .PREPROCESSTASK
    completing := false }.release

def update (options : ServerOptions) (s : State σ ω Λ) (t : σ) (header : HEADER)
    (request : Bytes) : State σ ω Λ :=
  { s with
    tasks := Function.update s.tasks (some t) ((s.tasks (some t)).update options header request)
  }.setSession t (.updated header request)

def push (s : State σ ω Λ) (t : σ) (header : HEADER) (request : Bytes) : State σ ω Λ :=
  { s with _queue := s._queue ++ [t] }.setSession t (.waiting header request)

end State

theorem State.fetch_of_lt {s : State σ ω Λ} (h : s.task._index < s.task._size) (w : ω)
    (phase : Phase) : s.fetch w phase =
      (s.setTask s.task.fetchIndex.2).setWorker w (.handling phase s.task._index) := by
  show State.setWorker _ _ (if s.task._index < s.task._size then _ else _) = _
  rw [if_pos h]
  rfl

theorem State.fetch_of_ge {s : State σ ω Λ} (h : s.task._size ≤ s.task._index) (w : ω)
    (phase : Phase) : s.fetch w phase =
      (s.setTask s.task.fetchIndex.2).setWorker w (.rereading phase) := by
  show State.setWorker _ _ (if s.task._index < s.task._size then _ else _) = _
  rw [if_neg (Nat.not_lt.mpr h)]
  rfl

section Steps

variable (options : ServerOptions) (server : Option (Policy Λ))

/-- The steps of the workers, of the completion function and of the sessions. -/
inductive Step : State σ ω Λ → Option (Event σ) → State σ ω Λ → Prop where
  /-- `_phase` is read at the top of the loop. -/
  | look {s : State σ ω Λ} (w : ω) : s.workers w = .ready →
      Step s none (s.setWorker w (.fetching s._phase))
  | fetch {s : State σ ω Λ} (w : ω) (phase : Phase) : s.workers w = .fetching phase →
      Step s (some ⟨s._task, .fetch⟩) (s.fetch w phase)
  | preprocess {s : State σ ω Λ} (w : ω) (index : Nat) (task : Task) :
      s.workers w = .handling .PREPROCESSTASK index →
      s.task.preprocessAt options index = .ok task →
      Step s (some ⟨s._task, .handle .PREPROCESSTASK index⟩)
        ((s.setTask task).setWorker w (.rereading .PREPROCESSTASK))
  | process {s : State σ ω Λ} (w : ω) (index : Nat) (task : Task) (own : Λ) :
      s.workers w = .handling .PROCESSTASK index →
      s.task.processAt options server index (s.locals w) = .ok (task, own) →
      Step s (some ⟨s._task, .handle .PROCESSTASK index⟩)
        (((s.setTask task).setLocals w own).setWorker w (.rereading .PROCESSTASK))
  | reread {s : State σ ω Λ} (w : ω) (phase : Phase) : s.workers w = .rereading phase →
      Step s (some ⟨s._task, .reread⟩) (s.reread w phase)
  | arrive {s : State σ ω Λ} (w : ω) : s.workers w = .arriving →
      Step s none (s.setWorker w .waiting)
  | sort {s : State σ ω Λ} (order : List Nat) : (∀ w, s.workers w = .waiting) →
      s._phase = .PREPROCESSTASK → s.task.SortedBy order →
      Step s (some ⟨s._task, .sort⟩) (s.sort order)
  | finish {s : State σ ω Λ} (task : Task) : (∀ w, s.workers w = .waiting) →
      s._phase = .PROCESSTASK → s.completing = false → s.task.finish = .ok task →
      Step s (some ⟨s._task, .finish⟩) (s.finish task)
  | take {s : State σ ω Λ} (t : σ) (_queue : List σ) : s.completing = true →
      s._queue = t :: _queue →
      Step s (some ⟨some t, .take⟩) (s.take t _queue)
  | update {s : State σ ω Λ} (t : σ) (header : HEADER) (request : Bytes) :
      (s.sessions t = .idle ∨ ∃ header' request', s.sessions t = .returned header' request') →
      Step s (some ⟨some t, .update header request⟩) (s.update options t header request)
  | push {s : State σ ω Λ} (t : σ) (header : HEADER) (request : Bytes) :
      s.sessions t = .updated header request →
      Step s (some ⟨some t, .push⟩) (s.push t header request)
  | resume {s : State σ ω Λ} (t : σ) (header : HEADER) (request : Bytes) :
      s.sessions t = .waiting header request → (s.tasks (some t))._promise = true →
      Step s (some ⟨some t, .resume⟩) (s.setSession t (.returned header request))

/-- The runs of a controller whose worker threads start with these members. -/
abbrev Run (locals : ω → Λ) : List (Event σ) → State σ ω Λ → Prop :=
  Runs.Run (Step options server) (State.initial locals)

end Steps

/-! ### A step after the other -/

/-- Whose turn it is. -/
inductive Turn (σ ω : Type) where
  | worker (w : ω)
  | completion (order : List Nat)
  | session (t : σ) (header : HEADER) (request : Bytes)

section Turns

variable (options : ServerOptions) (server : Option (Policy Λ)) [Fintype ω]

/-- The next step of a worker. -/
def workerTurn (s : State σ ω Λ) (w : ω) : Option (Option (Event σ) × State σ ω Λ) :=
  match s.workers w with
  | .ready => some (none, s.setWorker w (.fetching s._phase))
  | .fetching phase => some (some ⟨s._task, .fetch⟩, s.fetch w phase)
  | .handling .PREPROCESSTASK index =>
      match s.task.preprocessAt options index with
      | .ok task => some (some ⟨s._task, .handle .PREPROCESSTASK index⟩,
          (s.setTask task).setWorker w (.rereading .PREPROCESSTASK))
      | .error _ => none
  | .handling .PROCESSTASK index =>
      match s.task.processAt options server index (s.locals w) with
      | .ok (task, own) => some (some ⟨s._task, .handle .PROCESSTASK index⟩,
          ((s.setTask task).setLocals w own).setWorker w (.rereading .PROCESSTASK))
      | .error _ => none
  | .rereading phase => some (some ⟨s._task, .reread⟩, s.reread w phase)
  | .arriving => some (none, s.setWorker w .waiting)
  | .waiting => none

/-- The next step of `onCompletion`. -/
def completionTurn (s : State σ ω Λ) (order : List Nat) :
    Option (Option (Event σ) × State σ ω Λ) :=
  if s.completing then
    match s._queue with
    | t :: _queue => some (some ⟨some t, .take⟩, s.take t _queue)
    | [] => none
  else if ∀ w, s.workers w = .waiting then
    match s._phase with
    | .PREPROCESSTASK =>
        if s.task.SortedBy order then some (some ⟨s._task, .sort⟩, s.sort order) else none
    | .PROCESSTASK =>
        match s.task.finish with
        | .ok task => some (some ⟨s._task, .finish⟩, s.finish task)
        | .error _ => none
  else none

/-- The next step of a session. -/
def sessionTurn (s : State σ ω Λ) (t : σ) (header : HEADER) (request : Bytes) :
    Option (Option (Event σ) × State σ ω Λ) :=
  match s.sessions t with
  | .idle | .returned _ _ =>
      some (some ⟨some t, .update header request⟩, s.update options t header request)
  | .updated header request => some (some ⟨some t, .push⟩, s.push t header request)
  | .waiting header request =>
      if (s.tasks (some t))._promise then
        some (some ⟨some t, .resume⟩, s.setSession t (.returned header request))
      else none

def turn : Turn σ ω → State σ ω Λ → Option (Option (Event σ) × State σ ω Λ)
  | .worker w, s => workerTurn options server s w
  | .completion order, s => completionTurn s order
  | .session t header request, s => sessionTurn options s t header request

variable {options server}

theorem turn_step {a : Turn σ ω} {s s' : State σ ω Λ} {label : Option (Event σ)}
    (h : turn options server a s = some (label, s')) : Step options server s label s' := by
  cases a with
  | worker w =>
      simp only [turn, workerTurn] at h
      split at h
      next hw =>
        cases h
        exact .look w hw
      next phase hw =>
        cases h
        exact .fetch w phase hw
      next index hw =>
        split at h
        next task hok =>
          cases h
          exact .preprocess w index task hw hok
        next => cases h
      next index hw =>
        split at h
        next task own hok =>
          cases h
          exact .process w index task own hw hok
        next => cases h
      next phase hw =>
        cases h
        exact .reread w phase hw
      next hw =>
        cases h
        exact .arrive w hw
      next => cases h
  | completion order =>
      simp only [turn, completionTurn] at h
      split at h
      next hcompleting =>
        split at h
        next t _queue hqueue =>
          cases h
          exact .take t _queue hcompleting hqueue
        next => cases h
      next hcompleting =>
        rw [Bool.not_eq_true] at hcompleting
        split at h
        next hall =>
          split at h
          next hphase =>
            split at h
            next horder =>
              cases h
              exact .sort order hall hphase horder
            next => cases h
          next hphase =>
            split at h
            next task hok =>
              cases h
              exact .finish task hall hphase hcompleting hok
            next => cases h
        next => cases h
  | session t header request =>
      simp only [turn, sessionTurn] at h
      split at h
      next hidle =>
        cases h
        exact .update t header request (.inl hidle)
      next hreturned =>
        cases h
        exact .update t header request (.inr ⟨_, _, hreturned⟩)
      next hupdated =>
        cases h
        exact .push t _ _ hupdated
      next hwaiting =>
        split at h
        next hpromise =>
          cases h
          exact .resume t _ _ hwaiting hpromise
        next => cases h

end Turns

/- Two workers and one session: the empty task the controller starts with, a batch of two
lines, and another one of two lines, which the sort puts in the other order, up to its end. -/
namespace TwoBatches

def options : ServerOptions := ⟨false, .SORTINPUT⟩

def answer (input : Bytes) (_ : SIZETUPLE) (_ : Bool) : Bytes := input ++ bytes "\n"

def policy : Policy Unit := fun request diagnostics _ =>
  .ok (answer request._input request._sizeKey diagnostics, ())

def header : HEADER := ⟨.SESSION, 4, 0, .NONE, .NONE, .NONE, 0, 0⟩

def first : Bytes := bytes "[0]a\n[1]b\n"

def second : Bytes := bytes "[0]size=2x1\n[1]size=1x1\n"

/-- Both workers find no index. -/
def empty : List (Turn Unit Bool) :=
  [.worker false, .worker false, .worker true, .worker true, .worker false, .worker true,
    .worker true, .worker false]

/-- Each worker handles one of two indices, the second one first. -/
def phase : List (Turn Unit Bool) :=
  [.worker false, .worker true, .worker false, .worker true, .worker true, .worker false,
    .worker false, .worker true, .worker false, .worker true]

def turns : List (Turn Unit Bool) :=
  empty ++ [.completion []] ++ empty ++ [.completion []] ++
    [.session () header first, .session () header first, .completion []] ++
    phase ++ [.completion [0, 1]] ++ phase ++ [.completion []] ++
    [.session () header [], .session () header second, .session () header second,
      .completion []] ++
    phase ++ [.completion [1, 0]] ++ phase

def locals : Bool → Unit := fun _ => ()

/-- The first batch is over, and the second one is about to be. -/
def AtEnd (events : List (Event Unit)) (s : State Unit Bool Unit) : Prop :=
  .resume ∈ actionsOn (some ()) events ∧ (∀ w, s.workers w = .waiting) ∧
    s._phase = .PROCESSTASK ∧ s.completing = false ∧ s._task = some ()

instance (events : List (Event Unit)) (s : State Unit Bool Unit) : Decidable (AtEnd events s) :=
  inferInstanceAs (Decidable (_ ∧ _))

theorem exists_run : ∃ events s, Run options (some policy) locals events s ∧ AtEnd events s ∧
    s.task._response = [bytes "[0]size=2x1\n", bytes "[1]size=1x1\n"] := by
  have htrace : (Runs.trace (turn options (some policy)) turns [] (State.initial locals)).map
      (fun (events, s) => (decide (AtEnd events s), s.task._response)) =
      some (true, [bytes "[0]size=2x1\n", bytes "[1]size=1x1\n"]) := by
    decide +kernel
  obtain ⟨⟨events, s⟩, hs, heq⟩ := Option.map_eq_some_iff.mp htrace
  obtain ⟨hend, hresponse⟩ := Prod.mk.inj heq
  have hrun : Run options (some policy) locals ([] : List (Event Unit)) (State.initial locals) :=
    .start
  exact ⟨events, s, hrun.trace turn_step hs, of_decide_eq_true hend, hresponse⟩

end TwoBatches

end TaskController

/-- `Session::buildReply`, up to the compression. -/
def Session.responseData (task : Task) : Bytes :=
  task._response.foldl (fun _responseData entry => _responseData ++ entry) []

end ClientServer
