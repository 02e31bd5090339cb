import ClientServer.Server.Task
import Mathlib.Data.List.Perm.Basic

/-!
# A batch from beginning to end

The two phases of a task as the workers run them, each index handled once, by
any thread and in any order.  `Worker::run` is `noexcept`, so an exception of
either phase ends the process.
-/

namespace ClientServer

/-- The preprocessing phase of `Worker::run`, over the indices in the order in
which they are handled. -/
def Worker.preprocess (options : ServerOptions) (order : List Nat) (task : Task) : Call Task :=
  noexcept (order.foldlM (fun task index => task.preprocessAt options index) task)

/-- A thread handles an index of the processing phase. -/
def processStep {Λ τ : Type} [DecidableEq τ] (options : ServerOptions)
    (server : Option (Policy Λ)) : Task × (τ → Λ) → τ × Nat → Call (Task × (τ → Λ)) :=
  fun (task, locals) (thread, index) => do
    let (task, own) ← task.processAt options server index (locals thread)
    return (task, Function.update locals thread own)

/-- The processing phase of `Worker::run`, over the indices in the order in which
they are handled, each with the thread that handles it. -/
def Worker.process {Λ τ : Type} [DecidableEq τ] (options : ServerOptions)
    (server : Option (Policy Λ)) (schedule : List (τ × Nat)) (task : Task) (locals : τ → Λ) :
    Call (Task × (τ → Λ)) :=
  noexcept (schedule.foldlM (processStep options server) (task, locals))

theorem noexcept_eq_ok {α : Type _} {call : Call α} {a : α} :
    noexcept call = .ok a ↔ call = .ok a := by
  cases call <;> simp [noexcept]

/-! ## Preprocessing -/

section Preprocess

variable {options : ServerOptions} {lines : List Bytes} {diagnostics : Bool}

/-- A phase that returns has found a size key in every line it handled. -/
theorem hasSizeKey_of_preprocess {order : List Nat} {task task' : Task}
    (h : task.Holds options lines diagnostics)
    (hrun : order.foldlM (fun task index => task.preprocessAt options index) task = .ok task') :
    ∀ i (hi : i < lines.length), i ∈ order → HasSizeKey options._useRegex lines[i] := by
  induction order generalizing task with
  | nil =>
      intro i hi hmem
      exact absurd hmem List.not_mem_nil
  | cons index order ih =>
      rw [List.foldlM_cons] at hrun
      obtain ⟨next, hstep, hrest⟩ := Outcome.bind_eq_ok.mp hrun
      rcases Nat.lt_or_ge index lines.length with hlt | hge
      · have hkey := Task.hasSizeKey_of_preprocessAt h hlt hstep
        obtain ⟨next', hstep', hholds, -⟩ := h.preprocessAt hlt hkey
        obtain rfl : next = next' := Except.ok.inj (hstep.symm.trans hstep')
        intro i hi hmem
        rcases List.mem_cons.mp hmem with rfl | hmem
        · exact hkey
        · exact ih hholds hrest i hi hmem
      · obtain rfl : task = next := by
          rw [Task.preprocessAt_of_ge (h.size ▸ hge)] at hstep
          exact Except.ok.inj hstep
        intro i hi hmem
        rcases List.mem_cons.mp hmem with rfl | hmem
        · exact absurd hi (Nat.not_lt.mpr hge)
        · exact ih h hrest i hi hmem

/-- Where every line has a size key the phase returns, with the keys in place. -/
theorem preprocess_of_hasSizeKey (hkeys : ∀ line ∈ lines, HasSizeKey options._useRegex line)
    (order : List Nat) {task : Task} (h : task.Holds options lines diagnostics) :
    ∃ task', order.foldlM (fun task index => task.preprocessAt options index) task = .ok task' ∧
      task'.Holds options lines diagnostics ∧
      ∀ i < lines.length, i ∈ order ∨ task.KeyedAt options._useRegex i →
        task'.KeyedAt options._useRegex i := by
  induction order generalizing task with
  | nil =>
      refine ⟨task, rfl, h, ?_⟩
      rintro i - (hmem | hkeyed)
      · exact absurd hmem List.not_mem_nil
      · exact hkeyed
  | cons index order ih =>
      rcases Nat.lt_or_ge index lines.length with hlt | hge
      · obtain ⟨next, hstep, hholds, hkeyedIndex, hkept⟩ :=
          h.preprocessAt hlt (hkeys _ (List.getElem_mem hlt))
        obtain ⟨task', hrest, hholds', hkeyed'⟩ := ih hholds
        refine ⟨task', by rw [List.foldlM_cons, hstep]; exact hrest, hholds', ?_⟩
        rintro i hi (hmem | hkeyed)
        · rcases List.mem_cons.mp hmem with rfl | hmem
          · exact hkeyed' i hi (.inr hkeyedIndex)
          · exact hkeyed' i hi (.inl hmem)
        · exact hkeyed' i hi (.inr (hkept i hkeyed))
      · obtain ⟨task', hrest, hholds', hkeyed'⟩ := ih h
        refine ⟨task', ?_, hholds', ?_⟩
        · rw [List.foldlM_cons, Task.preprocessAt_of_ge (h.size ▸ hge)]
          exact hrest
        · rintro i hi (hmem | hkeyed)
          · rcases List.mem_cons.mp hmem with rfl | hmem
            · exact absurd hi (Nat.not_lt.mpr hge)
            · exact hkeyed' i hi (.inl hmem)
          · exact hkeyed' i hi (.inr hkeyed)

end Preprocess

/-! ## Processing -/

section Process

variable {options : ServerOptions} {lines : List Bytes} {diagnostics : Bool} {Λ τ : Type}
  [DecidableEq τ] {policy : Policy Λ}

/-- Every index handled gives its row the reply of the policy, whatever thread
handles it. -/
theorem process_of_functional (functional : FunctionalPolicy options._useRegex policy)
    (schedule : List (τ × Nat)) {task : Task} (h : task.Holds options lines diagnostics)
    (hkeyed : ∀ i < lines.length, task.KeyedAt options._useRegex i) {locals : τ → Λ}
    (hinv : ∀ thread, functional.Inv (locals thread)) :
    ∃ task' locals', schedule.foldlM (processStep options (some policy)) (task, locals) =
        .ok (task', locals') ∧
      task'.Holds options lines diagnostics ∧ (∀ thread, functional.Inv (locals' thread)) ∧
      (∃ response, task' = { task with _response := response }) ∧
      ∀ row, (∃ index ∈ schedule.map Prod.snd, index < lines.length ∧
          task.rowAt options index = some row) ∨
        task.RepliedAt (Task.replyTo functional diagnostics) lines row →
        task'.RepliedAt (Task.replyTo functional diagnostics) lines row := by
  induction schedule generalizing task locals with
  | nil =>
      refine ⟨task, locals, rfl, h, hinv, ⟨task._response, rfl⟩, ?_⟩
      rintro row (⟨index, hmem, -⟩ | hreplied)
      · exact absurd hmem List.not_mem_nil
      · exact hreplied
  | cons head schedule ih =>
      obtain ⟨thread, index⟩ := head
      rcases Nat.lt_or_ge index lines.length with hlt | hge
      · obtain ⟨next, own, row, hrow, hstep, hown, hholds, ⟨response, hnext⟩, hreplied, hkept⟩ :=
          h.processAt functional hkeyed hlt (hinv thread)
        have hkeyed' : ∀ i < lines.length, next.KeyedAt options._useRegex i := by
          rw [hnext]
          exact hkeyed
        have hinv' : ∀ other, functional.Inv (Function.update locals thread own other) := by
          intro other
          rcases eq_or_ne other thread with rfl | hne
          · rw [Function.update_self]
            exact hown
          · rw [Function.update_of_ne hne]
            exact hinv other
        obtain ⟨task', locals', hrest, hholds', hinv'', ⟨response', htask'⟩, hreplied'⟩ :=
          ih hholds hkeyed' hinv'
        refine ⟨task', locals', ?_, hholds', hinv'', ⟨response', by rw [htask', hnext]⟩, ?_⟩
        · have hhead : processStep options (some policy) (task, locals) (thread, index) =
              .ok (next, Function.update locals thread own) := by
            simp only [processStep, hstep, Outcome.ok_bind, Outcome.pure_eq_ok]
          rw [List.foldlM_cons, hhead, Outcome.ok_bind, hrest]
        · rintro i (⟨index', hmem, hlt', hrow'⟩ | hi)
          · rcases List.mem_cons.mp hmem with rfl | hmem
            · obtain rfl : row = i := Option.some.inj (hrow.symm.trans hrow')
              exact hreplied' row (.inr hreplied)
            · exact hreplied' i (.inl ⟨index', hmem, hlt', by rw [hnext]; exact hrow'⟩)
          · exact hreplied' i (.inr (hkept i hi))
      · obtain ⟨task', locals', hrest, hholds', hinv', hframe, hreplied'⟩ := ih h hkeyed hinv
        refine ⟨task', locals', ?_, hholds', hinv', hframe, ?_⟩
        · have hhead : processStep options (some policy) (task, locals) (thread, index) =
              .ok (task, locals) := by
            simp only [processStep, Task.processAt_of_ge (h.size ▸ hge), Outcome.ok_bind,
              Outcome.pure_eq_ok, Function.update_eq_self]
          rw [List.foldlM_cons, hhead, Outcome.ok_bind, hrest]
        · rintro i (⟨index', hmem, hlt', hrow'⟩ | hi)
          · rcases List.mem_cons.mp hmem with rfl | hmem
            · exact absurd hlt' (Nat.not_lt.mpr hge)
            · exact hreplied' i (.inl ⟨index', hmem, hlt', hrow'⟩)
          · exact hreplied' i (.inr hi)

end Process

end ClientServer
