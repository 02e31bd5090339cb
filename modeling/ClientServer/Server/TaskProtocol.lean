import ClientServer.Server.TaskController

/-!
# The controller keeps to the lives of its tasks

`Sim` relates a state of the controller to the points the tasks have reached in
their lives.  Every step of the controller is a step of the one life it concerns
and keeps the relation, so along every run the history of each task is one that
`Life` accepts.  The queue is first in, first out, the promise is never fulfilled
twice, and nothing is forgotten: while a task is queued or worked on, somebody
can go on.
-/

namespace ClientServer

/-- Where a worker stands in the sharing of the indices. -/
def WorkerPc.position : WorkerPc → SharedCounter.Position
  | ready | fetching _ => .starting
  | handling _ index => .holding index
  | rereading _ => .checking
  | arriving | waiting => .left

/-- The phase a worker has read. -/
def WorkerPc.phase : WorkerPc → Option Phase
  | fetching phase | handling phase _ | rereading phase => some phase
  | ready | arriving | waiting => none

namespace TaskController

variable {σ ω Λ : Type} {s s' : State σ ω Λ} {life : Option σ → Life}

/-- What a session and its task look like at a point of the life of the task. -/
def Stage (s : State σ ω Λ) (t : σ) : Life → Prop
  | .idle => s.sessions t = .idle
  | .updated header request =>
      s.sessions t = .updated header request ∧ (s.tasks (some t))._promise = false
  | .queued header request =>
      s.sessions t = .waiting header request ∧ (s.tasks (some t))._promise = false ∧
        t ∈ s._queue
  | .working _ header request _ =>
      s.sessions t = .waiting header request ∧ s._task = some t ∧ s.completing = false
  | .finished header request =>
      s.sessions t = .waiting header request ∧ (s.tasks (some t))._promise = true
  | .returned header request => s.sessions t = .returned header request

/-- The controller and the lives of the tasks. -/
structure Sim (s : State σ ω Λ) (life : Option σ → Life) : Prop where
  stage : ∀ t, Stage s t (life (some t))
  size : ∀ t header request, (life t).batch = some (header, request) →
    (s.tasks t)._size = batchSize request
  nodup : s._queue.Nodup
  queued : ∀ t ∈ s._queue, ∃ header request, life (some t) = .queued header request
  phase : ∀ w phase, (s.workers w).phase = some phase → phase = s._phase
  working : s.completing = false → ∃ header request handled,
    life s._task = .working s._phase header request handled ∧ s.task._promise = false ∧
      SharedCounter.Inv (batchSize request) s.task._index handled
        (WorkerPc.position ∘ s.workers)
  completing : s.completing = true → s._phase = .PROCESSTASK ∧ ∀ w, s.workers w = .waiting

theorem Sim.initial (locals : ω → Λ) : Sim (State.initial (σ := σ) locals) Life.start where
  stage _ := rfl
  size t header request hbatch := by
    cases t with
    | none =>
        obtain ⟨-, rfl⟩ := Prod.ext_iff.mp (Option.some.inj hbatch)
        rfl
    | some t => exact nomatch hbatch
  nodup := List.nodup_nil
  queued t ht := absurd ht List.not_mem_nil
  phase w phase hphase := nomatch hphase
  working _ := ⟨_, _, _, rfl, rfl, SharedCounter.Inv.start _ fun _ => rfl⟩
  completing h := nomatch h

/-! ## Where a session is, its task is -/

section Inversion

variable {t : σ} {header : HEADER} {request : Bytes}

theorem Sim.idle_or_returned (h : Sim s life)
    (hsession : s.sessions t = .idle ∨ ∃ header request, s.sessions t = .returned header request) :
    life (some t) = .idle ∨ ∃ header request, life (some t) = .returned header request := by
  have hstage := h.stage t
  cases hlife : life (some t) with
  | idle => exact .inl rfl
  | returned header request => exact .inr ⟨header, request, rfl⟩
  | updated | queued | working | finished =>
      rw [hlife] at hstage
      rcases hsession with hsession | ⟨_, _, hsession⟩ <;>
        exact nomatch hstage.1.symm.trans hsession

theorem Sim.updated (h : Sim s life) (hsession : s.sessions t = .updated header request) :
    life (some t) = .updated header request := by
  have hstage := h.stage t
  cases hlife : life (some t) with
  | updated header' request' =>
      rw [hlife] at hstage
      obtain ⟨rfl, rfl⟩ := SessionPc.updated.inj (hstage.1.symm.trans hsession)
      rfl
  | idle | returned =>
      rw [hlife] at hstage
      exact nomatch (show s.sessions t = _ from hstage).symm.trans hsession
  | queued | working | finished =>
      rw [hlife] at hstage
      exact nomatch hstage.1.symm.trans hsession

theorem Sim.returned (h : Sim s life) (hsession : s.sessions t = .returned header request) :
    life (some t) = .returned header request := by
  have hstage := h.stage t
  cases hlife : life (some t) with
  | returned header' request' =>
      rw [hlife] at hstage
      obtain ⟨rfl, rfl⟩ :=
        SessionPc.returned.inj ((show s.sessions t = _ from hstage).symm.trans hsession)
      rfl
  | idle =>
      rw [hlife] at hstage
      exact nomatch (show s.sessions t = _ from hstage).symm.trans hsession
  | updated | queued | working | finished =>
      rw [hlife] at hstage
      exact nomatch hstage.1.symm.trans hsession

/-- A session whose promise is fulfilled has a finished task. -/
theorem Sim.finished (h : Sim s life) (hsession : s.sessions t = .waiting header request)
    (hpromise : (s.tasks (some t))._promise = true) :
    life (some t) = .finished header request := by
  have hstage := h.stage t
  cases hlife : life (some t) with
  | finished header' request' =>
      rw [hlife] at hstage
      obtain ⟨rfl, rfl⟩ := SessionPc.waiting.inj (hstage.1.symm.trans hsession)
      rfl
  | idle | returned =>
      rw [hlife] at hstage
      exact nomatch (show s.sessions t = _ from hstage).symm.trans hsession
  | updated =>
      rw [hlife] at hstage
      exact nomatch hstage.1.symm.trans hsession
  | queued =>
      rw [hlife] at hstage
      exact nomatch hstage.2.1.symm.trans hpromise
  | working =>
      rw [hlife] at hstage
      obtain ⟨_, _, _, -, hfalse, -⟩ := h.working hstage.2.2
      rw [State.task, hstage.2.1] at hfalse
      exact nomatch hfalse.symm.trans hpromise

end Inversion

/-- What a point of the life looks like does not depend on anything else. -/
theorem Stage.frame {t : σ} {l : Life} (hstage : Stage s t l)
    (hsession : s'.sessions t = s.sessions t)
    (hpromise : (s'.tasks (some t))._promise = (s.tasks (some t))._promise)
    (hqueue : t ∈ s._queue → t ∈ s'._queue)
    (htask : s._task = some t → s.completing = false →
      s'._task = some t ∧ s'.completing = false) : Stage s' t l := by
  cases l with
  | idle => exact hsession.trans hstage
  | updated => exact ⟨hsession.trans hstage.1, hpromise.trans hstage.2⟩
  | queued => exact ⟨hsession.trans hstage.1, hpromise.trans hstage.2.1, hqueue hstage.2.2⟩
  | working => exact ⟨hsession.trans hstage.1, htask hstage.2.1 hstage.2.2⟩
  | finished => exact ⟨hsession.trans hstage.1, hpromise.trans hstage.2⟩
  | returned => exact hsession.trans hstage

/-! ## Steps of the workers -/

/-- A worker that is not in the barrier has a task to work on. -/
theorem Sim.not_completing (h : Sim s life) {w : ω} (hw : s.workers w ≠ .waiting) :
    s.completing = false := by
  cases hcompleting : s.completing with
  | false => rfl
  | true => exact absurd ((h.completing hcompleting).2 w) hw

theorem Sim.setLocals [DecidableEq ω] (h : Sim s life) (w : ω) (own : Λ) : Sim (s.setLocals w own) life :=
  ⟨h.stage, h.size, h.nodup, h.queued, h.phase, h.working, h.completing⟩

theorem Sim.not_completing_of_phase (h : Sim s life) (hphase : s._phase = .PREPROCESSTASK) :
    s.completing = false := by
  cases hcompleting : s.completing with
  | false => rfl
  | true => exact nomatch hphase.symm.trans (h.completing hcompleting).1

/-- At the barrier every index has been handled. -/
theorem Sim.barrier [Nonempty ω] (h : Sim s life) (hall : ∀ w, s.workers w = .waiting)
    (hcompleting : s.completing = false) :
    ∃ header request handled, life s._task = .working s._phase header request handled ∧
      s.task._promise = false ∧ handled.Perm (List.range (batchSize request)) := by
  obtain ⟨header, request, handled, hlife, hpromise, hinv⟩ := h.working hcompleting
  refine ⟨header, request, handled, hlife, hpromise, hinv.perm fun w => ?_⟩
  exact congrArg WorkerPc.position (hall w)

variable [DecidableEq σ]

/-- A label moves the life of its task, and no other. -/
def Follows (life : Option σ → Life) : Option (Event σ) → (Option σ → Life) → Prop
  | none, life' => life' = life
  | some event, life' => ∃ l, (life event.task).step event.action = some l ∧
      life' = Function.update life event.task l

/-- The task the controller holds changes, but keeps its size and its promise. -/
theorem Sim.onTask (h : Sim s life) (hcompleting : s.completing = false) {phase phase' : Phase}
    {header : HEADER} {request : Bytes} {handled handled' : List Nat}
    (hlife : life s._task = .working phase header request handled) (task : Task)
    (hsize : task._size = s.task._size) (hpromise : task._promise = s.task._promise)
    {workers : ω → WorkerPc}
    (hphase : ∀ w read, (workers w).phase = some read → read = phase')
    (hinv : SharedCounter.Inv (batchSize request) task._index handled'
      (WorkerPc.position ∘ workers)) :
    Sim { s.setTask task with _phase := phase', workers := workers }
      (Function.update life s._task (.working phase' header request handled')) := by
  have hpromises : ∀ t, (Function.update s.tasks s._task task t)._promise =
      (s.tasks t)._promise := by
    intro t
    rcases eq_or_ne t s._task with rfl | hne
    · rw [Function.update_self]
      exact hpromise
    · rw [Function.update_of_ne hne]
  refine ⟨fun t => ?_, fun t header' request' hbatch => ?_, h.nodup, fun t ht => ?_, hphase,
    fun _ => ?_, fun htrue => ?_⟩
  · have hstage : Stage s t (Function.update life s._task
        (.working phase' header request handled') (some t)) := by
      rcases eq_or_ne (some t) s._task with heq | hne
      · rw [heq, Function.update_self]
        have hold := h.stage t
        rw [heq, hlife] at hold
        exact hold
      · rw [Function.update_of_ne hne]
        exact h.stage t
    exact hstage.frame rfl (hpromises (some t)) id fun htask hfalse => ⟨htask, hfalse⟩
  · show (Function.update s.tasks s._task task t)._size = batchSize request'
    rcases eq_or_ne t s._task with rfl | hne
    · rw [Function.update_self] at hbatch ⊢
      rw [hsize]
      exact h.size s._task header' request' (by rw [hlife]; exact hbatch)
    · rw [Function.update_of_ne hne] at hbatch ⊢
      exact h.size t header' request' hbatch
  · obtain ⟨header', request', hqueued⟩ := h.queued t ht
    have hne : some t ≠ s._task := by
      rintro heq
      rw [heq, hlife] at hqueued
      exact nomatch hqueued
    exact ⟨header', request', by rw [Function.update_of_ne hne, hqueued]⟩
  · obtain ⟨_, _, _, -, hfalse, -⟩ := h.working hcompleting
    refine ⟨header, request, handled', Function.update_self .., ?_, ?_⟩
    · exact (hpromises s._task).trans hfalse
    · show SharedCounter.Inv _ (Function.update s.tasks s._task task s._task)._index _ _
      rw [Function.update_self]
      exact hinv
  · exact nomatch hcompleting.symm.trans htrue

section Workers

variable [DecidableEq ω]

theorem position_update (workers : ω → WorkerPc) (w : ω) (pc : WorkerPc) :
    WorkerPc.position ∘ Function.update workers w pc =
      Function.update (WorkerPc.position ∘ workers) w pc.position :=
  Function.comp_update ..

/-- A worker moves, and changes nothing of the task but what both phases may
change. -/
theorem Sim.worker (h : Sim s life) (hcompleting : s.completing = false) {header : HEADER}
    {request : Bytes} {handled handled' : List Nat}
    (hlife : life s._task = .working s._phase header request handled) (task : Task)
    (hsize : task._size = s.task._size) (hpromise : task._promise = s.task._promise) {w : ω}
    {pc : WorkerPc} (hphase : ∀ phase, pc.phase = some phase → phase = s._phase)
    (hinv : SharedCounter.Inv (batchSize request) task._index handled'
      (Function.update (WorkerPc.position ∘ s.workers) w pc.position)) :
    Sim ((s.setTask task).setWorker w pc)
      (Function.update life s._task (.working s._phase header request handled')) := by
  refine h.onTask hcompleting hlife task hsize hpromise ?_ ?_
  · intro w' phase hw'
    rcases eq_or_ne w' w with rfl | hne
    · rw [Function.update_self] at hw'
      exact hphase phase hw'
    · rw [Function.update_of_ne hne] at hw'
      exact h.phase w' phase hw'
  · rw [position_update]
    exact hinv

/-- A worker moves without touching the task. -/
theorem Sim.setWorker (h : Sim s life) (hcompleting : s.completing = false) {w : ω}
    {pc : WorkerPc} (hphase : ∀ phase, pc.phase = some phase → phase = s._phase)
    (hinv : ∀ {size : Nat} {handled : List Nat},
      SharedCounter.Inv size s.task._index handled (WorkerPc.position ∘ s.workers) →
      s.task._size = size →
      SharedCounter.Inv size s.task._index handled
        (Function.update (WorkerPc.position ∘ s.workers) w pc.position)) :
    Sim (s.setWorker w pc) life := by
  obtain ⟨header, request, handled, hlife, -, hold⟩ := h.working hcompleting
  have hsize : s.task._size = batchSize request :=
    h.size s._task header request (by rw [hlife]; rfl)
  have hsim := h.worker hcompleting hlife s.task rfl rfl hphase (hinv hold hsize)
  rw [← hlife, Function.update_eq_self] at hsim
  have hsame : s.setTask s.task = s := by
    rw [State.setTask, State.task, Function.update_eq_self]
  rwa [hsame] at hsim

/-- A worker takes an index off the counter, which may be past the end. -/
theorem Sim.fetch (h : Sim s life) {w : ω} {phase : Phase} (hw : s.workers w = .fetching phase) :
    ∃ life', Follows life (some ⟨s._task, .fetch⟩) life' ∧ Sim (s.fetch w phase) life' := by
  have hcompleting := h.not_completing (w := w) (by rw [hw]; nofun)
  obtain ⟨header, request, handled, hlife, -, hinv⟩ := h.working hcompleting
  have hsize : s.task._size = batchSize request :=
    h.size s._task header request (by rw [hlife]; rfl)
  have hphase : phase = s._phase := h.phase w phase (by rw [hw]; rfl)
  have hholds : ∀ i, (WorkerPc.position ∘ s.workers) w ≠ .holding i := by
    intro i
    rw [Function.comp_apply, hw]
    nofun
  refine ⟨_, ⟨.working s._phase header request handled, by rw [hlife]; rfl, rfl⟩, ?_⟩
  rcases Nat.lt_or_ge s.task._index s.task._size with hlt | hge
  · rw [State.fetch_of_lt hlt]
    refine h.worker hcompleting hlife s.task.fetchIndex.2 rfl rfl ?_ (hinv.fetch hholds (hsize ▸ hlt))
    rintro _ ⟨⟩
    exact hphase
  · rw [State.fetch_of_ge hge]
    refine h.worker hcompleting hlife s.task.fetchIndex.2 rfl rfl ?_ (hinv.fetch_none hholds (hsize ▸ hge))
    rintro _ ⟨⟩
    exact hphase

/-- A worker handles the index it took. -/
theorem Sim.handle (h : Sim s life) {w : ω} {phase : Phase} {index : Nat} (task : Task)
    (hw : s.workers w = .handling phase index) (hsize : task._size = s.task._size)
    (hpromise : task._promise = s.task._promise) (hindex : task._index = s.task._index) :
    ∃ life', Follows life (some ⟨s._task, .handle phase index⟩) life' ∧
      Sim ((s.setTask task).setWorker w (.rereading phase)) life' := by
  have hcompleting := h.not_completing (w := w) (by rw [hw]; nofun)
  obtain ⟨header, request, handled, hlife, -, hinv⟩ := h.working hcompleting
  have hphase : phase = s._phase := h.phase w phase (by rw [hw]; rfl)
  have hposition : (WorkerPc.position ∘ s.workers) w = .holding index :=
    congrArg WorkerPc.position hw
  obtain ⟨hlt, -, hnew⟩ := hinv.holding_lt w index hposition
  refine ⟨_, ⟨.working s._phase header request (handled ++ [index]), ?_, rfl⟩, ?_⟩
  · rw [hlife]
    exact if_pos ⟨hphase, hlt, hnew⟩
  · refine h.worker hcompleting hlife task hsize hpromise ?_ (hindex ▸ hinv.handle hposition)
    rintro _ ⟨⟩
    exact hphase

/-- A worker reads the counter once more. -/
theorem Sim.reread (h : Sim s life) {w : ω} {phase : Phase}
    (hw : s.workers w = .rereading phase) :
    ∃ life', Follows life (some ⟨s._task, .reread⟩) life' ∧ Sim (s.reread w phase) life' := by
  have hcompleting := h.not_completing (w := w) (by rw [hw]; nofun)
  obtain ⟨header, request, handled, hlife, -, -⟩ := h.working hcompleting
  have hphase : phase = s._phase := h.phase w phase (by rw [hw]; rfl)
  have hholds : ∀ i, (WorkerPc.position ∘ s.workers) w ≠ .holding i := by
    intro i
    rw [Function.comp_apply, hw]
    nofun
  refine ⟨life, ⟨life s._task, ?_, (Function.update_eq_self ..).symm⟩, ?_⟩
  · rw [hlife]
    rfl
  · cases hleft : s.task.anyLeft with
    | true =>
        rw [State.reread, hleft]
        refine h.setWorker hcompleting ?_ fun hinv _ => hinv.move hholds nofun nofun
        rintro _ ⟨⟩
        exact hphase
    | false =>
        rw [State.reread, hleft]
        refine h.setWorker hcompleting nofun fun hinv hsize => hinv.move hholds nofun fun _ => ?_
        exact hsize ▸ Nat.not_lt.mp (of_decide_eq_false hleft)

end Workers

/-! ## The completion function -/

/-- The task is sorted between the phases. -/
theorem Sim.sort [Nonempty ω] (h : Sim s life) (hall : ∀ w, s.workers w = .waiting)
    (hphase : s._phase = .PREPROCESSTASK) (order : List Nat) :
    ∃ life', Follows life (some ⟨s._task, .sort⟩) life' ∧ Sim (s.sort order) life' := by
  have hcompleting := h.not_completing_of_phase hphase
  obtain ⟨header, request, handled, hlife, -, hperm⟩ := h.barrier hall hcompleting
  rw [hphase] at hlife
  refine ⟨_, ⟨.working .PROCESSTASK header request [], by rw [hlife]; exact if_pos hperm, rfl⟩, ?_⟩
  exact h.onTask hcompleting hlife (s.task.sortIndices order).resetIndex rfl rfl nofun
    (SharedCounter.Inv.start _ fun _ => rfl)

/-- The promise of the task is fulfilled, for the first time. -/
theorem Sim.finish [Nonempty ω] (h : Sim s life) (hall : ∀ w, s.workers w = .waiting)
    (hphase : s._phase = .PROCESSTASK) (hcompleting : s.completing = false) :
    ∃ task life', s.task.finish = .ok task ∧
      Follows life (some ⟨s._task, .finish⟩) life' ∧ Sim (s.finish task) life' := by
  obtain ⟨header, request, handled, hlife, hpromise, hperm⟩ := h.barrier hall hcompleting
  rw [hphase] at hlife
  refine ⟨{ s.task with _promise := true }, _, ?_,
    ⟨.finished header request, by rw [hlife]; exact if_pos hperm, rfl⟩, ?_⟩
  · rw [Task.finish, hpromise]
    rfl
  refine ⟨fun t => ?_, fun t header' request' hbatch => ?_, h.nodup, fun t ht => ?_, h.phase,
    (nomatch ·), fun _ => ⟨hphase, hall⟩⟩
  · rcases eq_or_ne (some t) s._task with heq | hne
    · have hold := h.stage t
      rw [heq, hlife] at hold
      rw [heq, Function.update_self]
      refine ⟨hold.1, ?_⟩
      show (Function.update s.tasks s._task _ (some t))._promise = true
      rw [heq, Function.update_self]
    · rw [Function.update_of_ne hne]
      refine (h.stage t).frame rfl ?_ id fun htask _ => absurd htask.symm hne
      exact congrArg Task._promise (Function.update_of_ne hne ..)
  · show (Function.update s.tasks s._task _ t)._size = batchSize request'
    rcases eq_or_ne t s._task with rfl | hne
    · rw [Function.update_self] at hbatch ⊢
      exact h.size s._task header' request' (by rw [hlife]; exact hbatch)
    · rw [Function.update_of_ne hne] at hbatch ⊢
      exact h.size t header' request' hbatch
  · obtain ⟨header', request', hqueued⟩ := h.queued t ht
    have hne : some t ≠ s._task := by
      rintro heq
      rw [heq, hlife] at hqueued
      exact nomatch hqueued
    exact ⟨header', request', by rw [Function.update_of_ne hne, hqueued]⟩

/-- The controller takes the task at the front of the queue. -/
theorem Sim.take (h : Sim s life) {t : σ} {_queue : List σ} (hcompleting : s.completing = true)
    (hqueue : s._queue = t :: _queue) :
    ∃ life', Follows life (some ⟨some t, .take⟩) life' ∧ Sim (s.take t _queue) life' := by
  obtain ⟨header, request, hlife⟩ := h.queued t (hqueue ▸ List.mem_cons_self)
  have hnodup := h.nodup
  rw [hqueue] at hnodup
  obtain ⟨hnew, hnodup⟩ := List.nodup_cons.mp hnodup
  have hstage := h.stage t
  rw [hlife] at hstage
  have htasks : ∀ t', ((s.take t _queue).tasks t')._promise = (s.tasks t')._promise ∧
      ((s.take t _queue).tasks t')._size = (s.tasks t')._size := by
    intro t'
    show (Function.update s.tasks (some t) (s.tasks (some t)).resetIndex t')._promise = _ ∧
      (Function.update s.tasks (some t) (s.tasks (some t)).resetIndex t')._size = _
    rcases eq_or_ne t' (some t) with rfl | hne
    · rw [Function.update_self]
      exact ⟨rfl, rfl⟩
    · rw [Function.update_of_ne hne]
      exact ⟨rfl, rfl⟩
  refine ⟨_, ⟨.working .PREPROCESSTASK header request [], by rw [hlife]; rfl, rfl⟩, ?_⟩
  refine ⟨fun t' => ?_, fun t' header' request' hbatch => ?_, hnodup, fun t' ht' => ?_, nofun,
    fun _ => ?_, (nomatch ·)⟩
  · rcases eq_or_ne (some t') (some t) with heq | hne
    · obtain rfl := Option.some.inj heq
      rw [Function.update_self]
      exact ⟨hstage.1, rfl, rfl⟩
    · rw [Function.update_of_ne hne]
      refine (h.stage t').frame rfl (htasks (some t')).1 (fun hmem => ?_) fun _ hfalse =>
        nomatch hcompleting.symm.trans hfalse
      rw [hqueue] at hmem
      exact (List.mem_cons.mp hmem).resolve_left fun heq => hne (congrArg some heq)
  · rw [(htasks t').2]
    rcases eq_or_ne t' (some t) with rfl | hne
    · rw [Function.update_self] at hbatch
      exact h.size (some t) header' request' (by rw [hlife]; exact hbatch)
    · rw [Function.update_of_ne hne] at hbatch
      exact h.size t' header' request' hbatch
  · obtain ⟨header', request', hqueued⟩ := h.queued t' (hqueue ▸ List.mem_cons_of_mem t ht')
    have hne : some t' ≠ some t := fun heq => hnew (Option.some.inj heq ▸ ht')
    exact ⟨header', request', by rw [Function.update_of_ne hne, hqueued]⟩
  · refine ⟨header, request, [], Function.update_self .., ?_, ?_⟩
    · exact (htasks (some t)).1.trans hstage.2.1
    · show SharedCounter.Inv _
        (Function.update s.tasks (some t) (s.tasks (some t)).resetIndex (some t))._index _ _
      rw [Function.update_self]
      exact SharedCounter.Inv.start _ fun _ => rfl

/-! ## Steps of the sessions -/

/-- A session changes its task while the controller does not work on it. -/
theorem Sim.session (h : Sim s life) {t : σ} {l : Life}
    (hidle : ∀ phase header request handled,
      life (some t) ≠ .working phase header request handled)
    (hstage : Stage s' t l)
    (hsize : ∀ header request, l.batch = some (header, request) →
      (s'.tasks (some t))._size = batchSize request)
    (hsessions : ∀ t' ≠ t, s'.sessions t' = s.sessions t')
    (htasks : ∀ t' ≠ some t, s'.tasks t' = s.tasks t')
    (hqueue : ∀ t' ∈ s._queue, t' ∈ s'._queue) (hnodup : s'._queue.Nodup)
    (hqueued : ∀ t' ∈ s'._queue, (t' = t ∧ ∃ header request, l = .queued header request) ∨
      (t' ≠ t ∧ t' ∈ s._queue))
    (hcontroller : s'._task = s._task ∧ s'._phase = s._phase ∧ s'.completing = s.completing ∧
      s'.workers = s.workers) :
    Sim s' (Function.update life (some t) l) := by
  obtain ⟨hheld, hphase, hcompleting, hworkers⟩ := hcontroller
  refine ⟨fun t' => ?_, fun t' header request hbatch => ?_, hnodup, fun t' ht' => ?_,
    fun w phase hw => ?_, fun hfalse => ?_, fun htrue => ?_⟩
  · rcases eq_or_ne t' t with rfl | hne
    · rw [Function.update_self]
      exact hstage
    · have hne' : some t' ≠ some t := fun heq => hne (Option.some.inj heq)
      rw [Function.update_of_ne hne']
      refine (h.stage t').frame (hsessions t' hne) ?_ (hqueue t') fun htask hfalse => ?_
      · rw [htasks _ hne']
      · exact ⟨hheld.trans htask, hcompleting.trans hfalse⟩
  · rcases eq_or_ne t' (some t) with rfl | hne
    · rw [Function.update_self] at hbatch
      exact hsize header request hbatch
    · rw [Function.update_of_ne hne] at hbatch
      rw [htasks t' hne]
      exact h.size t' header request hbatch
  · rcases hqueued t' ht' with ⟨rfl, header, request, rfl⟩ | ⟨hne, hmem⟩
    · exact ⟨header, request, Function.update_self ..⟩
    · obtain ⟨header, request, hlife⟩ := h.queued t' hmem
      have hne' : some t' ≠ some t := fun heq => hne (Option.some.inj heq)
      exact ⟨header, request, by rw [Function.update_of_ne hne', hlife]⟩
  · rw [hphase]
    rw [hworkers] at hw
    exact h.phase w phase hw
  · obtain ⟨header, request, handled, hlife, hpromise, hinv⟩ :=
      h.working (hcompleting.symm.trans hfalse)
    have hne : s._task ≠ some t := by
      intro heq
      rw [heq] at hlife
      exact hidle _ _ _ _ hlife
    have htask : s'.task = s.task := by
      rw [State.task, hheld, htasks _ hne, State.task]
    refine ⟨header, request, handled, ?_, ?_, ?_⟩
    · rw [hheld, hphase, Function.update_of_ne hne, hlife]
    · rw [htask, hpromise]
    · rw [htask, hworkers]
      exact hinv
  · obtain ⟨hprocess, hall⟩ := h.completing (hcompleting.symm.trans htrue)
    rw [hphase, hworkers]
    exact ⟨hprocess, hall⟩

/-- A session arms its task again. -/
theorem Sim.update (options : ServerOptions) (h : Sim s life) {t : σ} (header : HEADER)
    (request : Bytes)
    (hsession : s.sessions t = .idle ∨ ∃ header request, s.sessions t = .returned header request) :
    ∃ life', Follows life (some ⟨some t, .update header request⟩) life' ∧
      Sim (s.update options t header request) life' := by
  have hlife := h.idle_or_returned hsession
  have htask : (s.update options t header request).tasks (some t) =
      (s.tasks (some t)).update options header request := Function.update_self ..
  refine ⟨_, ⟨.updated header request, ?_, rfl⟩, ?_⟩
  · rcases hlife with hlife | ⟨_, _, hlife⟩ <;>
    · rw [hlife]
      rfl
  · refine h.session ?_ ⟨Function.update_self .., ?_⟩ ?_ (fun t' hne => Function.update_of_ne hne ..)
      (fun t' hne => Function.update_of_ne hne ..) (fun _ => id) h.nodup ?_ ⟨rfl, rfl, rfl, rfl⟩
    · rintro _ _ _ _ hworking
      rcases hlife with hlife | ⟨_, _, hlife⟩ <;> exact nomatch hlife.symm.trans hworking
    · rw [htask]
      rfl
    · rintro header' request' hbatch
      obtain ⟨rfl, rfl⟩ := Prod.ext_iff.mp (Option.some.inj hbatch)
      rw [htask]
      exact (Task.holds_update options header request _).size
    · intro t' ht'
      refine .inr ⟨?_, ht'⟩
      rintro rfl
      obtain ⟨_, _, hqueued⟩ := h.queued t' ht'
      rcases hlife with hlife | ⟨_, _, hlife⟩ <;> exact nomatch hlife.symm.trans hqueued

/-- A session puts its task at the end of the queue. -/
theorem Sim.push (h : Sim s life) {t : σ} {header : HEADER} {request : Bytes}
    (hsession : s.sessions t = .updated header request) :
    ∃ life', Follows life (some ⟨some t, .push⟩) life' ∧ Sim (s.push t header request) life' := by
  have hlife := h.updated hsession
  have hstage := h.stage t
  rw [hlife] at hstage
  have hnew : t ∉ s._queue := by
    intro hmem
    obtain ⟨_, _, hqueued⟩ := h.queued t hmem
    exact nomatch hlife.symm.trans hqueued
  refine ⟨_, ⟨.queued header request, by rw [hlife]; rfl, rfl⟩, ?_⟩
  refine h.session ?_ ⟨Function.update_self .., hstage.2, ?_⟩ ?_
    (fun t' hne => Function.update_of_ne hne ..) (fun _ _ => rfl)
    (fun _ => List.mem_append_left _) ?_ ?_ ⟨rfl, rfl, rfl, rfl⟩
  · rintro _ _ _ _ hworking
    exact nomatch hlife.symm.trans hworking
  · exact List.mem_append_right _ (List.mem_singleton_self t)
  · rintro header' request' hbatch
    exact h.size (some t) header' request' (by rw [hlife]; exact hbatch)
  · refine List.nodup_append.mpr ⟨h.nodup, List.nodup_singleton t, ?_⟩
    rintro t' ht' _ hmem rfl
    exact hnew (List.mem_singleton.mp hmem ▸ ht')
  · intro t' ht'
    rcases List.mem_append.mp ht' with hmem | hmem
    · exact .inr ⟨fun heq => hnew (heq ▸ hmem), hmem⟩
    · exact .inl ⟨List.mem_singleton.mp hmem, header, request, rfl⟩

/-- A session returns from `processTask`. -/
theorem Sim.resume (h : Sim s life) {t : σ} {header : HEADER} {request : Bytes}
    (hsession : s.sessions t = .waiting header request)
    (hpromise : (s.tasks (some t))._promise = true) :
    ∃ life', Follows life (some ⟨some t, .resume⟩) life' ∧
      Sim (s.setSession t (.returned header request)) life' := by
  have hlife := h.finished hsession hpromise
  refine ⟨_, ⟨.returned header request, by rw [hlife]; rfl, rfl⟩, ?_⟩
  refine h.session ?_ (Function.update_self ..) ?_ (fun t' hne => Function.update_of_ne hne ..)
    (fun _ _ => rfl) (fun _ => id) h.nodup ?_ ⟨rfl, rfl, rfl, rfl⟩
  · rintro _ _ _ _ hworking
    exact nomatch hlife.symm.trans hworking
  · rintro header' request' hbatch
    exact h.size (some t) header' request' (by rw [hlife]; exact hbatch)
  · intro t' ht'
    refine .inr ⟨?_, ht'⟩
    rintro rfl
    obtain ⟨_, _, hqueued⟩ := h.queued t' ht'
    exact nomatch hlife.symm.trans hqueued

/-! ## Steps and runs -/

section Runs

variable [DecidableEq ω] [Nonempty ω] {options : ServerOptions} {server : Option (Policy Λ)}

/-- Every step of the controller is a step of the life it concerns. -/
theorem Sim.step (h : Sim s life) {label : Option (Event σ)}
    (hstep : Step options server s label s') :
    ∃ life', Follows life label life' ∧ Sim s' life' := by
  cases hstep with
  | look w hw =>
      refine ⟨life, rfl, h.setWorker (h.not_completing (by rw [hw]; nofun)) ?_ fun hinv _ => ?_⟩
      · rintro _ ⟨⟩
        rfl
      · refine hinv.move (fun i => ?_) nofun nofun
        rw [Function.comp_apply, hw]
        nofun
  | fetch w phase hw => exact h.fetch hw
  | preprocess w index task hw hok =>
      obtain ⟨requests, rfl⟩ := Task.preprocessAt_ok hok
      exact h.handle _ hw rfl rfl rfl
  | process w index task own hw hok =>
      obtain ⟨response, rfl⟩ := Task.processAt_ok hok
      obtain ⟨life', hfollows, hsim⟩ := h.handle { s.task with _response := response } hw rfl rfl rfl
      exact ⟨life', hfollows, hsim.setLocals w own⟩
  | reread w phase hw => exact h.reread hw
  | arrive w hw =>
      refine ⟨life, rfl, h.setWorker (h.not_completing (by rw [hw]; nofun)) nofun
        fun hinv _ => ?_⟩
      refine hinv.move (fun i => ?_) nofun fun _ => hinv.left_ge w ?_
      · rw [Function.comp_apply, hw]
        nofun
      · rw [Function.comp_apply, hw]
        rfl
  | sort order hall hphase _ => exact h.sort hall hphase order
  | finish task hall hphase hcompleting hok =>
      obtain ⟨task', life', hok', hfollows, hsim⟩ := h.finish hall hphase hcompleting
      obtain rfl : task' = task := Except.ok.inj (hok'.symm.trans hok)
      exact ⟨life', hfollows, hsim⟩
  | take t _queue hcompleting hqueue => exact h.take hcompleting hqueue
  | update t header request hsession => exact h.update options header request hsession
  | push t header request hsession => exact h.push hsession
  | resume t header request hsession hpromise => exact h.resume hsession hpromise

theorem actionsOn_append (t : Option σ) (events events' : List (Event σ)) :
    actionsOn t (events ++ events') = actionsOn t events ++ actionsOn t events' :=
  List.filterMap_append ..

/-- Histories follow labels. -/
theorem Follows.history {life' : Option σ → Life} {label : Option (Event σ)}
    (hfollows : Follows life label life') (t : Option σ) :
    (actionsOn t label.toList).foldlM Life.step (life t) = some (life' t) := by
  cases label with
  | none =>
      obtain rfl : life' = life := hfollows
      rfl
  | some event =>
      obtain ⟨l, hstep, rfl⟩ := hfollows
      rcases eq_or_ne t event.task with rfl | hne
      · have hactions : actionsOn event.task [event] = [event.action] := by
          simp only [actionsOn, List.filterMap_cons, if_true, List.filterMap_nil]
        rw [Option.toList_some, hactions, Function.update_self]
        simp only [List.foldlM_cons, hstep]
        rfl
      · have hactions : actionsOn t [event] = [] := by
          simp only [actionsOn, List.filterMap_cons, if_neg hne.symm, List.filterMap_nil]
        rw [Option.toList_some, hactions, Function.update_of_ne hne]
        rfl

/-- The histories lead each task to its point of the life. -/
def Histories (events : List (Event σ)) (life : Option σ → Life) : Prop :=
  ∀ t, (actionsOn t events).foldlM Life.step (Life.start t) = some (life t)

theorem Histories.append {events : List (Event σ)} (h : Histories events life)
    {life' : Option σ → Life} {label : Option (Event σ)} (hfollows : Follows life label life') :
    Histories (events ++ label.toList) life' := by
  intro t
  rw [actionsOn_append, List.foldlM_append, h t]
  exact hfollows.history t

/-- Along every run the tasks live as `Life` allows. -/
theorem sim_of_run {locals : ω → Λ} {events : List (Event σ)} {s : State σ ω Λ}
    (hrun : Run options server locals events s) : ∃ life, Histories events life ∧ Sim s life := by
  refine Runs.Run.invariant (P := fun events s => ∃ life, Histories events life ∧ Sim s life)
    ⟨Life.start, fun _ => rfl, Sim.initial locals⟩ ?_ hrun
  rintro events s s' label ⟨life, hhistories, hsim⟩ hstep
  obtain ⟨life', hfollows, hsim'⟩ := hsim.step hstep
  exact ⟨life', hhistories.append hfollows, hsim'⟩

end Runs

/-! ## The queue -/

/-- The sessions whose tasks were pushed. -/
def pushed (events : List (Event σ)) : List σ :=
  events.filterMap fun event => if event.action = .push then event.task else none

/-- The sessions whose tasks were taken. -/
def taken (events : List (Event σ)) : List σ :=
  events.filterMap fun event => if event.action = .take then event.task else none

section Queue

variable [DecidableEq ω] {options : ServerOptions} {server : Option (Policy Λ)}

/-- What a step puts into the queue stands at its end, what it takes stood in
front. -/
theorem queue_step {label : Option (Event σ)} (hstep : Step options server s label s') :
    s._queue ++ pushed label.toList = taken label.toList ++ s'._queue := by
  cases hstep with
  | take t _queue _ hqueue => rw [hqueue]; simp [pushed, taken, State.take, State.release]
  | push t header request _ => simp [pushed, taken, State.push, State.setSession]
  | look | fetch | preprocess | process | reread | arrive | sort | finish | update | resume =>
      exact List.append_nil _

/-- The queue holds what was pushed and has not been taken, in this order. -/
theorem queue_of_run {locals : ω → Λ} {events : List (Event σ)} {s : State σ ω Λ}
    (hrun : Run options server locals events s) : pushed events = taken events ++ s._queue := by
  refine Runs.Run.invariant (P := fun events s => pushed events = taken events ++ s._queue)
    rfl ?_ hrun
  intro events s s' label hqueue hstep
  show (events ++ label.toList).filterMap _ = (events ++ label.toList).filterMap _ ++ _
  rw [List.filterMap_append, List.filterMap_append, List.append_assoc]
  calc pushed events ++ pushed label.toList
      = taken events ++ (s._queue ++ pushed label.toList) := by rw [hqueue, List.append_assoc]
    _ = taken events ++ (taken label.toList ++ s'._queue) := by rw [queue_step hstep]

end Queue

end TaskController

end ClientServer
