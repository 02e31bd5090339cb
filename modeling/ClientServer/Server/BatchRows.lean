import ClientServer.Server.Schedule

/-!
# The rows of a batch

`split` makes a row of whatever stands behind the last delimiter.
`splitReuseVector`, which `Task::update` takes the rows of a batch with, writes
that row and leaves it out of the number it returns.  So a batch has a reply to
every line exactly if it ends in a newline or is empty.
-/

namespace ClientServer

section SplitReuseVector

variable {ρ : Type _} (emplaced : ρ) (assign : ρ → Bytes → ρ) (view : ρ → Bytes)

/-- The rows in use of a reused vector are the rows of `split`. -/
def SplitsAlike (delim : UInt8) (keepDelim : Bool) (rows : List ρ) (input : Bytes) : Prop :=
  let result := splitReuseVector emplaced assign delim keepDelim [] 0 rows input
  result.1 = (split delim keepDelim [] input).length ∧
    (result.2.take result.1).map view = split delim keepDelim [] input

instance (delim : UInt8) (keepDelim : Bool) (rows : List ρ) (input : Bytes) :
    Decidable (SplitsAlike emplaced assign view delim keepDelim rows input) :=
  inferInstanceAs (Decidable (_ ∧ _))

variable {emplaced assign view} (hview : ∀ row input, view (assign row input) = input)
include hview

/-- The row behind the last delimiter is the one that is not counted. -/
theorem splitsAlike_iff (delim : UInt8) (keepDelim : Bool) (rows : List ρ) (input : Bytes) :
    SplitsAlike emplaced assign view delim keepDelim rows input ↔ Terminated delim input := by
  obtain ⟨hcount, -, hrows⟩ := @splitReuseVector_rows ρ emplaced assign view hview delim keepDelim
    input [] 0 rows (Nat.zero_le _)
  have hlength := length_split delim keepDelim [] input
  rw [Nat.zero_add] at hcount
  rw [List.take_zero, List.map_nil, List.nil_append, hcount] at hrows
  simp only [SplitsAlike, hcount, hrows]
  by_cases hterminated : Terminated delim input
  · simp only [hterminated, implies_true, and_true, if_true, Nat.add_zero] at hlength
    rw [← hlength, List.take_length]
    simp only [hterminated, and_self]
  · simp only [hterminated, false_and, if_false] at hlength
    simp only [hterminated, iff_false]
    omega

end SplitReuseVector

/-- The rows of `split` are the complete lines and the one that is not complete. -/
theorem split_eq_completeLines_iff (delim : UInt8) (input : Bytes) :
    split delim false [] input = completeLines delim input ↔ Terminated delim input := by
  have hlength := length_split delim false [] input
  have hlines := length_completeLines delim input
  constructor
  · intro heq
    by_contra hterminated
    rw [heq, hlines, if_neg (fun h => hterminated h.1)] at hlength
    omega
  · intro hterminated
    have htake := take_split delim [] input
    rw [if_pos ⟨hterminated, fun _ => rfl⟩, Nat.add_zero] at hlength
    rw [← hlength, List.take_length] at htake
    rw [htake]
    cases completeLines delim input <;> simp

section Batch

variable {Λ τ : Type} [DecidableEq τ] {options : ServerOptions} {policy : Policy Λ}
  (functional : FunctionalPolicy options._useRegex policy)

/-- A batch that returns has the replies to its complete lines. -/
theorem response_of_runBatch {schedule : Schedule τ} {header : HEADER} {request : Bytes}
    {task task' : Task} (hvalid : schedule.Valid options header request task)
    {locals locals' : τ → Λ} (hinv : ∀ thread, functional.Inv (locals thread))
    (hrun : runBatch options (some policy) schedule header request task locals =
      .ok (task', locals')) :
    task'._response = (completeLines 10 request).map
      (Task.replyTo functional (isDiagnosticsEnabled header)) := by
  obtain ⟨_, _, hrun', hresponse⟩ := runBatch_of_functional functional hvalid
    (hasSizeKey_of_runBatch hvalid hrun) hinv
  obtain ⟨rfl, -⟩ := Prod.ext_iff.mp (Except.ok.inj (hrun'.symm.trans hrun))
  exact hresponse

/-- `update` counts the rows of `split`. -/
theorem size_update_iff (header : HEADER) (request : Bytes) (task : Task) :
    (task.update options header request)._size = (split 10 false [] request).length ↔
      Terminated 10 request := by
  rw [(Task.holds_update options header request task).size, length_completeLines, length_split]
  by_cases hterminated : Terminated 10 request <;> simp [hterminated]

end Batch

/-- `splitReuseVector` yields what `split` yields, and a batch that returns has
one reply for each row of `split`, exactly if the text ends with the delimiter or
is empty. -/
theorem rows_kept_iff {ρ : Type} {emplaced : ρ} {assign : ρ → Bytes → ρ} {view : ρ → Bytes}
    (hview : ∀ row input, view (assign row input) = input) (delim : UInt8) (keepDelim : Bool)
    (rows : List ρ) (request : Bytes) :
    (SplitsAlike emplaced assign view delim keepDelim rows request ↔ Terminated delim request) ∧
    ∀ (options : ServerOptions) (header : HEADER) (task : Task),
      ((task.update options header request)._size = (split 10 false [] request).length ↔
        Terminated 10 request) ∧
      ∀ {Λ τ : Type} [DecidableEq τ] {policy : Policy Λ}
        (functional : FunctionalPolicy options._useRegex policy) {schedule : Schedule τ}
        {locals locals' : τ → Λ} {task' : Task}, schedule.Valid options header request task →
        (∀ thread, functional.Inv (locals thread)) →
        runBatch options (some policy) schedule header request task locals =
          .ok (task', locals') →
        (task'._response = (split 10 false [] request).map
          (Task.replyTo functional (isDiagnosticsEnabled header)) ↔ Terminated 10 request) := by
  refine ⟨splitsAlike_iff hview delim keepDelim rows request, fun options header task =>
    ⟨size_update_iff header request task, ?_⟩⟩
  intro Λ τ _ policy functional schedule locals locals' task' hvalid hinv hrun
  have hresponse := response_of_runBatch functional hvalid hinv hrun
  constructor
  · intro heq
    have hsize := congrArg List.length (hresponse.symm.trans heq)
    rw [List.length_map, List.length_map] at hsize
    rw [← @size_update_iff options header request task, ← hsize]
    exact (Task.holds_update options header request task).size
  · intro hterminated
    rw [hresponse, (split_eq_completeLines_iff 10 request).mpr hterminated]

open TwoRequests in
theorem rows_kept_twoRequests :
    (SplitsAlike ([] : Bytes) (fun _ input => input) id 10 false [bytes "old"] request ↔
      Terminated 10 request) ∧
    ∃ task' locals',
      runBatch ⟨false, .NOSORTINPUT⟩ (some (NoSortInputPolicy moneyText _mapBySize false)) unsorted
        header request Task.initial (fun _ => .initial) = .ok (task', locals') ∧
      (task'._response = (split 10 false [] request).map
        (Task.replyTo (NoSortInputPolicy.functional moneyText _mapBySize false)
          (isDiagnosticsEnabled header)) ↔ Terminated 10 request) := by
  have hkeys : ∀ line ∈ completeLines 10 request, HasSizeKey false line := by
    decide +kernel
  have hinv : ∀ _ : Bool, (NoSortInputPolicy.functional moneyText _mapBySize false).Inv
      ThreadLocals.initial := fun _ =>
    @ThreadLocals.Reachable.coherent moneyText _mapBySize false _ .initial
  obtain ⟨task', locals', hrun, -⟩ := runBatch_of_functional
    (NoSortInputPolicy.functional moneyText _mapBySize false) unsorted_valid hkeys hinv
  obtain ⟨halike, hbatch⟩ := @rows_kept_iff Bytes [] (fun _ input => input) id
    (fun _ _ => rfl) 10 false [bytes "old"] request
  exact ⟨halike, task', locals', hrun, (hbatch _ _ _).2 (NoSortInputPolicy.functional moneyText
    _mapBySize false) unsorted_valid hinv hrun⟩

/-- A batch of one line without a newline has no row and no reply. -/
theorem rows_dropped :
    ¬ SplitsAlike ([] : Bytes) (fun _ input => input) id 10 false [] (bytes "[0]kw=kippa") ∧
      (split 10 false [] (bytes "[0]kw=kippa")).length = 1 ∧
      ∃ task', runBatch ⟨false, .ECHOPOLICY⟩ (some EchoPolicy) (⟨[], [], []⟩ : Schedule Unit)
        TwoRequests.header (bytes "[0]kw=kippa") Task.initial (fun _ => .initial) =
          .ok (task', fun _ => .initial) ∧ task'._response = [] := by
  refine ⟨by decide +kernel, by decide +kernel, _, rfl, by decide +kernel⟩

end ClientServer
