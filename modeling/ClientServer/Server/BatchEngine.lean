import ClientServer.Server.TaskProtocol

/-!
# The batch engine

What stands in the task at each point of its life, under a policy that is a
function: `DataAt`.  Each step of the controller keeps it, so when a task is
about to be finished every row has been preprocessed once before the sort and
processed once after it, and its response is the list of replies of the policy,
whatever the schedule, the sort and the batches before.
-/

namespace ClientServer

variable {σ ω Λ : Type} {options : ServerOptions} {policy : Policy Λ}

/-- The lines of a batch. -/
abbrev linesOf (request : Bytes) : List Bytes := completeLines 10 request

/-! ## The task at a point of its life -/

namespace Task

/-- The task holds this batch. -/
abbrev HoldsBatch (options : ServerOptions) (header : HEADER) (request : Bytes) (task : Task) :
    Prop :=
  task.Holds options (linesOf request) (isDiagnosticsEnabled header)

/-- The rows of these indices have their replies. -/
def RepliedIn (functional : FunctionalPolicy options._useRegex policy) (header : HEADER)
    (request : Bytes) (handled : List Nat) (task : Task) : Prop :=
  ∀ index ∈ handled, ∀ row, task.rowAt options index = some row →
    task.RepliedAt (replyTo functional (isDiagnosticsEnabled header)) (linesOf request) row

/-- Every row has its reply. -/
def Replied (functional : FunctionalPolicy options._useRegex policy) (header : HEADER)
    (request : Bytes) (task : Task) : Prop :=
  ∀ row < (linesOf request).length,
    task.RepliedAt (replyTo functional (isDiagnosticsEnabled header)) (linesOf request) row

/-- The size keys of these rows are in place. -/
def KeyedIn (options : ServerOptions) (rows : List Nat) (task : Task) : Prop :=
  ∀ row ∈ rows, task.KeyedAt options._useRegex row

/-- What a task holds at a point of its life. -/
def DataAt (functional : FunctionalPolicy options._useRegex policy) (task : Task) : Life → Prop
  | .idle => True
  | .updated header request | .queued header request => task.HoldsBatch options header request
  | .working .PREPROCESSTASK header request handled =>
      task.HoldsBatch options header request ∧ task.KeyedIn options handled
  | .working .PROCESSTASK header request handled =>
      task.HoldsBatch options header request ∧
        task.KeyedIn options (List.range (batchSize request)) ∧
        task.RepliedIn functional header request handled
  | .finished header request | .returned header request =>
      task.HoldsBatch options header request ∧ task.Replied functional header request

variable {functional : FunctionalPolicy options._useRegex policy} {task : Task} {header : HEADER}
  {request : Bytes} {handled : List Nat}

/-- Neither the counter nor the promise is part of it. -/
theorem DataAt.frame {life : Life} (h : task.DataAt functional life) (_promise : Bool)
    (_index : Nat) : DataAt functional { task with _promise, _index } life := by
  cases life with
  | idle => trivial
  | updated | queued => exact ⟨h.size, h.inputs, h.response, h.diagnostics, h.sorted⟩
  | working phase header request handled =>
      cases phase with
      | PREPROCESSTASK =>
          exact ⟨⟨h.1.size, h.1.inputs, h.1.response, h.1.diagnostics, h.1.sorted⟩, h.2⟩
      | PROCESSTASK =>
          exact ⟨⟨h.1.size, h.1.inputs, h.1.response, h.1.diagnostics, h.1.sorted⟩, h.2⟩
  | finished | returned =>
      exact ⟨⟨h.1.size, h.1.inputs, h.1.response, h.1.diagnostics, h.1.sorted⟩, h.2⟩

/-- The empty batch the workers find when they start. -/
theorem dataAt_start (t : Option σ) : Task.initial.DataAt functional (Life.start t) := by
  cases t with
  | none =>
      refine ⟨⟨rfl, ?_, rfl, rfl, fun _ => List.Perm.refl []⟩, ?_⟩
      · exact fun i hi => absurd hi (Nat.not_lt_zero i)
      · exact fun row hrow => absurd hrow List.not_mem_nil
  | some t => trivial

/-- A row is preprocessed. -/
theorem DataAt.preprocess
    (h : task.DataAt functional (.working .PREPROCESSTASK header request handled)) {index : Nat}
    (hindex : index < batchSize request) {task' : Task}
    (hok : task.preprocessAt options index = .ok task') :
    task'.DataAt functional (.working .PREPROCESSTASK header request (handled ++ [index])) := by
  obtain ⟨hholds, hkeyed⟩ := h
  have hkey := hasSizeKey_of_preprocessAt hholds hindex hok
  obtain ⟨_, hok', hholds', hkeyedIndex, hkept⟩ := hholds.preprocessAt hindex hkey
  obtain rfl := Except.ok.inj (hok'.symm.trans hok)
  refine ⟨hholds', fun row hrow => ?_⟩
  rcases List.mem_append.mp hrow with hrow | hrow
  · exact hkept row (hkeyed row hrow)
  · obtain rfl := List.mem_singleton.mp hrow
    exact hkeyedIndex

/-- A row is processed. -/
theorem DataAt.process {locals : Λ} (hinv : functional.Inv locals)
    (h : task.DataAt functional (.working .PROCESSTASK header request handled)) {index : Nat}
    (hindex : index < batchSize request) {task' : Task} {locals' : Λ}
    (hok : task.processAt options (some policy) index locals = .ok (task', locals')) :
    task'.DataAt functional (.working .PROCESSTASK header request (handled ++ [index])) ∧
      functional.Inv locals' := by
  obtain ⟨hholds, hkeyed, hreplied⟩ := h
  have hkeyed' : ∀ i < (linesOf request).length, task.KeyedAt options._useRegex i :=
    fun i hi => hkeyed i (List.mem_range.mpr hi)
  obtain ⟨_, _, row, hrow, hok', hinv', hholds', ⟨response, hframe⟩, hrepliedRow, hkept⟩ :=
    hholds.processAt functional hkeyed' hindex hinv
  obtain ⟨rfl, rfl⟩ := Prod.ext_iff.mp (Except.ok.inj (hok'.symm.trans hok))
  refine ⟨⟨hholds', ?_, ?_⟩, hinv'⟩
  · rw [hframe]
    exact hkeyed
  · intro i hi row' hrow'
    have hsame : task.rowAt options i = some row' := by
      rw [hframe] at hrow'
      exact hrow'
    rcases List.mem_append.mp hi with hi | hi
    · exact hkept row' (hreplied i hi row' hsame)
    · obtain rfl := List.mem_singleton.mp hi
      obtain rfl : row = row' := Option.some.inj (hrow.symm.trans hsame)
      exact hrepliedRow

/-- The sort ends the first phase. -/
theorem DataAt.sort (h : task.DataAt functional (.working .PREPROCESSTASK header request handled))
    (hperm : handled.Perm (List.range (batchSize request))) {order : List Nat}
    (horder : task.SortedBy order) :
    (task.sortIndices order).DataAt functional (.working .PROCESSTASK header request []) := by
  obtain ⟨hholds, hkeyed⟩ := h
  refine ⟨hholds.sortIndices horder, fun row hrow => ?_, fun i hi => absurd hi List.not_mem_nil⟩
  exact hkeyed row (hperm.mem_iff.mpr hrow)

/-- The end of the second phase: every row is visited at some index. -/
theorem DataAt.replied
    (h : task.DataAt functional (.working .PROCESSTASK header request handled))
    (hperm : handled.Perm (List.range (batchSize request))) :
    task.HoldsBatch options header request ∧ task.Replied functional header request := by
  obtain ⟨hholds, -, hreplied⟩ := h
  refine ⟨hholds, fun row hrow => ?_⟩
  obtain ⟨index, hindex, hrowAt⟩ := hholds.exists_rowAt hrow
  exact hreplied index (hperm.mem_iff.mpr (List.mem_range.mpr hindex)) row hrowAt

end Task

namespace TaskController

/-! ## The controller -/

section Engine

variable [DecidableEq σ] {functional : FunctionalPolicy options._useRegex policy}
  {s s' : State σ ω Λ} {life : Option σ → Life}

/-- The threads keep what the policy needs, the tasks hold what they should. -/
structure Data (functional : FunctionalPolicy options._useRegex policy) (s : State σ ω Λ)
    (life : Option σ → Life) : Prop where
  locals : ∀ w, functional.Inv (s.locals w)
  tasks : ∀ t, (s.tasks t).DataAt functional (life t)

/-- A step on one task. -/
theorem Data.onTask (h : Data functional s life) {t : Option σ} {l : Life} {task : Task}
    (hdata : task.DataAt functional l) (htasks : s'.tasks = Function.update s.tasks t task)
    (hlocals : ∀ w, functional.Inv (s'.locals w)) :
    Data functional s' (Function.update life t l) := by
  refine ⟨hlocals, fun t' => ?_⟩
  rw [htasks]
  rcases eq_or_ne t' t with rfl | hne
  · rw [Function.update_self, Function.update_self]
    exact hdata
  · rw [Function.update_of_ne hne, Function.update_of_ne hne]
    exact h.tasks t'

/-- A step that moves a task on in its life without changing it. -/
theorem Data.onLife (h : Data functional s life) {t : Option σ} {l : Life}
    (hdata : (s.tasks t).DataAt functional l) (htasks : s'.tasks = s.tasks)
    (hlocals : s'.locals = s.locals) : Data functional s' (Function.update life t l) := by
  refine h.onTask hdata ?_ ?_
  · rw [htasks, Function.update_eq_self]
  · rw [hlocals]
    exact h.locals

/-- What a task holds at a point of its life, and where its life goes from there. -/
theorem Data.moves (h : Data functional s life) {t : Option σ} {l l' : Life} {action : Action}
    {life' : Option σ → Life} (hlife : life t = l) (hnext : l.step action = some l')
    (hfollows : Follows life (some ⟨t, action⟩) life') :
    (s.tasks t).DataAt functional l ∧ life' = Function.update life t l' := by
  obtain ⟨l₁, hl, hlife'⟩ := hfollows
  obtain rfl : l' = l₁ := Option.some.inj (hnext.symm.trans (hlife ▸ hl))
  exact ⟨hlife ▸ h.tasks t, hlife'⟩

/-- What the workers and the completion function find in the task they are at. -/
theorem Data.working (h : Data functional s life) (hsim : Sim s life)
    (hcompleting : s.completing = false) {action : Action} {life' : Option σ → Life}
    (hfollows : Follows life (some ⟨s._task, action⟩) life') :
    ∃ header request handled l,
      s.task.DataAt functional (.working s._phase header request handled) ∧
        (Life.working s._phase header request handled).step action = some l ∧
          life' = Function.update life s._task l := by
  obtain ⟨header, request, handled, hlife, -, -⟩ := hsim.working hcompleting
  obtain ⟨l, hl, hlife'⟩ := hfollows
  have hdata := h.tasks s._task
  rw [hlife] at hl hdata
  exact ⟨header, request, handled, l, hdata, hl, hlife'⟩

variable [DecidableEq ω]

/-- Every step keeps the data in order. -/
theorem Data.step (hsim : Sim s life) (h : Data functional s life) {label : Option (Event σ)}
    (hstep : Step options (some policy) s label s') {life' : Option σ → Life}
    (hfollows : Follows life label life') : Data functional s' life' := by
  cases hstep with
  | look w hw | arrive w hw =>
      obtain rfl : life' = life := hfollows
      exact ⟨h.locals, h.tasks⟩
  | fetch w phase hw =>
      obtain ⟨header, request, handled, l, hdata, hl, rfl⟩ :=
        h.working hsim (hsim.not_completing (w := w) (by rw [hw]; nofun)) hfollows
      obtain rfl := Option.some.inj (Life.step_fetch.symm.trans hl)
      exact h.onTask (hdata.frame s.task._promise (s.task._index + 1)) rfl h.locals
  | preprocess w index task hw hok =>
      obtain ⟨header, request, handled, l, hdata, hl, rfl⟩ :=
        h.working hsim (hsim.not_completing (w := w) (by rw [hw]; nofun)) hfollows
      obtain ⟨hphase, hindex, rfl⟩ := Life.step_handle hl
      rw [← hphase] at hdata ⊢
      exact h.onTask (hdata.preprocess hindex hok) rfl h.locals
  | process w index task own hw hok =>
      obtain ⟨header, request, handled, l, hdata, hl, rfl⟩ :=
        h.working hsim (hsim.not_completing (w := w) (by rw [hw]; nofun)) hfollows
      obtain ⟨hphase, hindex, rfl⟩ := Life.step_handle hl
      rw [← hphase] at hdata ⊢
      obtain ⟨hdata', hown⟩ := hdata.process (h.locals w) hindex hok
      refine h.onTask hdata' rfl fun w' => ?_
      show functional.Inv (Function.update s.locals w own w')
      rcases eq_or_ne w' w with rfl | hne
      · rw [Function.update_self]
        exact hown
      · rw [Function.update_of_ne hne]
        exact h.locals w'
  | reread w phase hw =>
      obtain ⟨header, request, handled, l, hdata, hl, rfl⟩ :=
        h.working hsim (hsim.not_completing (w := w) (by rw [hw]; nofun)) hfollows
      obtain rfl := Option.some.inj (Life.step_reread.symm.trans hl)
      exact h.onLife hdata rfl rfl
  | sort order hall hphase horder =>
      obtain ⟨header, request, handled, l, hdata, hl, rfl⟩ :=
        h.working hsim (hsim.not_completing_of_phase hphase) hfollows
      obtain ⟨-, hperm, rfl⟩ := Life.step_sort hl
      rw [hphase] at hdata
      exact h.onTask ((hdata.sort hperm horder).frame s.task._promise 0) rfl h.locals
  | finish task hall hphase hcompleting hok =>
      obtain ⟨header, request, handled, l, hdata, hl, rfl⟩ := h.working hsim hcompleting hfollows
      obtain ⟨-, hperm, rfl⟩ := Life.step_finish hl
      rw [hphase] at hdata
      have hfinished : s.task.DataAt functional (.finished header request) := hdata.replied hperm
      obtain rfl := Task.finish_ok hok
      exact h.onTask (hfinished.frame true s.task._index) rfl h.locals
  | take t _queue hcompleting hqueue =>
      obtain ⟨header, request, hlife⟩ := hsim.queued t (hqueue ▸ List.mem_cons_self)
      obtain ⟨hdata, rfl⟩ := h.moves hlife rfl hfollows
      have hworking : (s.tasks (some t)).DataAt functional
          (.working .PREPROCESSTASK header request []) :=
        ⟨hdata, fun row hrow => absurd hrow List.not_mem_nil⟩
      exact h.onTask (hworking.frame (s.tasks (some t))._promise 0) rfl h.locals
  | update t header request hsession =>
      have hupdated := Task.holds_update options header request (s.tasks (some t))
      rcases hsim.idle_or_returned hsession with hlife | ⟨_, _, hlife⟩
      · obtain ⟨-, rfl⟩ := h.moves hlife rfl hfollows
        exact h.onTask hupdated rfl h.locals
      · obtain ⟨-, rfl⟩ := h.moves hlife rfl hfollows
        exact h.onTask hupdated rfl h.locals
  | push t header request hsession =>
      obtain ⟨hdata, rfl⟩ := h.moves (hsim.updated hsession) rfl hfollows
      exact h.onLife hdata rfl rfl
  | resume t header request hsession hpromise =>
      obtain ⟨hdata, rfl⟩ := h.moves (hsim.finished hsession hpromise) rfl hfollows
      exact h.onLife hdata rfl rfl

/-- Along every run the tasks hold what they should. -/
theorem data_of_run [Nonempty ω] (functional : FunctionalPolicy options._useRegex policy) {locals : ω → Λ}
    (hinv : ∀ w, functional.Inv (locals w)) {events : List (Event σ)}
    (hrun : Run options (some policy) locals events s) :
    ∃ life, Histories events life ∧ Sim s life ∧ Data functional s life := by
  refine Runs.Run.invariant
    (P := fun events s => ∃ life, Histories events life ∧ Sim s life ∧ Data functional s life)
    ⟨Life.start, fun _ => rfl, Sim.initial locals, hinv, Task.dataAt_start⟩ ?_ hrun
  rintro events s s' label ⟨life, hhistories, hsim, hdata⟩ hstep
  obtain ⟨life', hfollows, hsim'⟩ := hsim.step hstep
  exact ⟨life', hhistories.append hfollows, hsim', hdata.step hsim hstep hfollows⟩

end Engine

/-! ## Correctness -/

/-- The concatenation is the one of the rows in order. -/
theorem responseData_eq (task : Task) : Session.responseData task = task._response.flatten := by
  have hfoldl : ∀ (entries : List Bytes) (_responseData : Bytes),
      entries.foldl (fun _responseData entry => _responseData ++ entry) _responseData =
        _responseData ++ entries.flatten := by
    intro entries
    induction entries with
    | nil => exact fun _ => (List.append_nil _).symm
    | cons entry entries ih =>
        intro _responseData
        rw [List.foldl_cons, ih, List.flatten_cons, List.append_assoc]
  exact hfoldl task._response []

/-- When a task is about to be finished, each index of its batch has been
preprocessed once before the sort and processed once behind it, and each row has
the reply of the policy to its request with the size key of its text.  What
`buildReply` puts together afterwards is the list of replies in order. -/
theorem batchEngine_correct [DecidableEq σ] [DecidableEq ω] [Nonempty ω]
    (functional : FunctionalPolicy options._useRegex policy) {locals : ω → Λ}
    (hinv : ∀ w, functional.Inv (locals w)) {events : List (Event σ)} {s : State σ ω Λ}
    (hrun : Run options (some policy) locals events s) :
    (∀ t, (∀ w, s.workers w = .waiting) → s._phase = .PROCESSTASK → s.completing = false →
      s._task = some t → ∃ header request earlier batch,
        s.sessions t = .waiting header request ∧
        actionsOn (some t) events = earlier ++ batch ∧ Processed header request batch ∧
        s.task._response.length = (linesOf request).length ∧
        ∀ i (hi : i < (linesOf request).length), ∃ sizeKey,
          createSizeKey options._useRegex (linesOf request)[i] = .ok sizeKey ∧
          s.task._response[i]? = some
            (functional.answer (linesOf request)[i] sizeKey (isDiagnosticsEnabled header))) ∧
    ∀ t header request, s.sessions t = .returned header request →
      Session.responseData (s.tasks (some t)) = ((linesOf request).map
        (Task.replyTo functional (isDiagnosticsEnabled header))).flatten := by
  obtain ⟨life, hhistories, hsim, hdata⟩ := data_of_run functional hinv hrun
  constructor
  · intro t hall hphase hcompleting htask
    obtain ⟨header, request, handled, hlife, -, hperm⟩ := hsim.barrier hall hcompleting
    rw [hphase] at hlife
    have hworking := hdata.tasks s._task
    rw [hlife] at hworking
    obtain ⟨hholds, hreplied⟩ := hworking.replied hperm
    have hresponse : s.task._response = _ := hholds.response_eq hreplied
    rw [htask] at hlife
    have hhistory := Life.history (hhistories (some t))
    rw [hlife] at hhistory
    obtain ⟨earlier, pre, post, hactions, hpre, hpost⟩ := hhistory
    have hstage := hsim.stage t
    rw [hlife] at hstage
    refine ⟨header, request, earlier, _, hstage.1, hactions,
      ⟨pre, post, rfl, hpre, handled, hpost, hperm⟩, ?_, fun i hi => ?_⟩
    · rw [hresponse, List.length_map]
    · obtain ⟨row, hrow, hkey⟩ := hworking.2.1 i (List.mem_range.mpr hi)
      have hinput : row._input = (linesOf request)[i] := by
        have hinputs := hholds.inputs i hi
        rw [hrow] at hinputs
        exact Option.some.inj hinputs
      have hsizeKey : createSizeKey options._useRegex (linesOf request)[i] = .ok row._sizeKey :=
        hinput ▸ hkey
      refine ⟨row._sizeKey, hsizeKey, ?_⟩
      rw [hresponse, List.getElem?_map, List.getElem?_eq_getElem hi, Option.map_some,
        Task.replyTo, hsizeKey]
  · intro t header request hsession
    have hreturned := hdata.tasks (some t)
    rw [hsim.returned hsession] at hreturned
    rw [responseData_eq, hreturned.1.response_eq hreturned.2]

theorem batchEngine_correct_twoBatches :
    ∃ events, ∃ s : State Unit Bool Unit,
      Run TwoBatches.options (some TwoBatches.policy) TwoBatches.locals events s ∧
      .resume ∈ actionsOn (some ()) events ∧
      s.task._response = [bytes "[0]size=2x1\n", bytes "[1]size=1x1\n"] ∧
      ∃ header request earlier batch, s.sessions () = .waiting header request ∧
        actionsOn (some ()) events = earlier ++ batch ∧
        Processed header request batch ∧
        s.task._response.length = (linesOf request).length ∧
        ∀ i (hi : i < (linesOf request).length), ∃ sizeKey,
          createSizeKey false (linesOf request)[i] = .ok sizeKey ∧
          s.task._response[i]? = some (TwoBatches.answer (linesOf request)[i] sizeKey
            (isDiagnosticsEnabled header)) := by
  obtain ⟨events, s, hrun, ⟨hresumed, hall, hphase, hcompleting, htask⟩, hresponse⟩ :=
    TwoBatches.exists_run
  refine ⟨events, s, hrun, hresumed, hresponse, ?_⟩
  exact (batchEngine_correct (FunctionalPolicy.ofFunction false TwoBatches.answer)
    (fun _ => trivial) hrun).1 () hall hphase hcompleting htask

end TaskController

end ClientServer
