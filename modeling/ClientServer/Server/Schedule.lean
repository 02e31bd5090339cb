import ClientServer.Server.Batch

/-!
# Batches under a schedule

A whole batch: `update`, the two phases, and the sort between them.  A schedule
says in which order the indices are handled, which thread handles each of them,
and which of the orders `std::sort` may leave it leaves.
-/

namespace ClientServer

structure Schedule (τ : Type) where
  preprocess : List Nat
  sorted : List Nat
  process : List (τ × Nat)

/-- A batch from `update` to the end of the second phase. -/
def runBatch {Λ τ : Type} [DecidableEq τ] (options : ServerOptions) (server : Option (Policy Λ))
    (schedule : Schedule τ) (header : HEADER) (request : Bytes) (task : Task) (locals : τ → Λ) :
    Call (Task × (τ → Λ)) := do
  let task ← Worker.preprocess options schedule.preprocess (task.update options header request)
  Worker.process options server schedule.process (task.sortIndices schedule.sorted) locals

/-- Each phase handles every index of the batch once, and the order between them
is one `std::sort` may leave. -/
structure Schedule.Valid {τ : Type} (options : ServerOptions) (header : HEADER) (request : Bytes)
    (task : Task) (schedule : Schedule τ) : Prop where
  preprocess : schedule.preprocess.Perm (List.range (completeLines 10 request).length)
  sorted : ∀ task', Worker.preprocess options schedule.preprocess
    (task.update options header request) = .ok task' → task'.SortedBy schedule.sorted
  process : (schedule.process.map Prod.snd).Perm (List.range (completeLines 10 request).length)

/- Two requests, and an ad for one of them. -/
namespace TwoRequests

/-- Exact where the sum is a multiple of ten cents. -/
def moneyText (money : Int) : Bytes :=
  intText (money / 100) ++ bytes "." ++ intText (money % 100 / 10)

def ad : Ad where
  _id := bytes "1005"
  _sizeKey := (300, 600)
  _bids := [⟨bytes "alliance", 190⟩, ⟨bytes "httpserverrequest", 10⟩]
  _defaultBid := 190
  _input := bytes "1005, 300, 600, 1.9, [\"httpserverrequest\", 0.1, \"alliance\", 0.0]"

def _mapBySize : SizeMap := [((300, 600), [ad])]

def header : HEADER :=
  ⟨.SESSION, 58, 0, .NONE, .NONE, .NONE, 0, 0⟩

def request : Bytes :=
  bytes "[0]size=300x600&kw=alliance+disk\n[1]size=234x60&kw=kippa\n"

/-- Two threads handle the indices, the sort turns the rows around. -/
def sorted : Schedule Bool := ⟨[1, 0], [1, 0], [(true, 0), (false, 1)]⟩

/-- One thread handles the last row first. -/
def unsorted : Schedule Bool := ⟨[0, 1], [], [(false, 1), (false, 0)]⟩

theorem sorted_valid : sorted.Valid ⟨false, .SORTINPUT⟩ header request Task.initial where
  preprocess := by decide +kernel
  sorted := by
    intro task' hpreprocess
    have hsorted : ((Worker.preprocess ⟨false, .SORTINPUT⟩ [1, 0] (Task.initial.update
        ⟨false, .SORTINPUT⟩ header request)).toOption.all fun task =>
          decide (task.SortedBy [1, 0])) = true := by
      decide +kernel
    rw [show Worker.preprocess _ [1, 0] _ = _ from hpreprocess] at hsorted
    exact of_decide_eq_true hsorted
  process := by decide +kernel

theorem unsorted_valid : unsorted.Valid ⟨false, .NOSORTINPUT⟩ header request Task.initial where
  preprocess := by decide +kernel
  sorted := by
    intro task' hpreprocess
    have hsorted : ((Worker.preprocess ⟨false, .NOSORTINPUT⟩ [0, 1] (Task.initial.update
        ⟨false, .NOSORTINPUT⟩ header request)).toOption.all fun task =>
          decide (task.SortedBy [])) = true := by
      decide +kernel
    rw [show Worker.preprocess _ [0, 1] _ = _ from hpreprocess] at hsorted
    exact of_decide_eq_true hsorted
  process := by decide +kernel

end TwoRequests

/-! ## What a batch needs to return -/

section Batch

variable {options : ServerOptions} {header : HEADER} {request : Bytes} {task : Task} {Λ τ : Type}
  [DecidableEq τ] {schedule : Schedule τ}

/-- A batch that returns has found a size key in each of its lines. -/
theorem hasSizeKey_of_runBatch {server : Option (Policy Λ)} {locals : τ → Λ}
    {result : Task × (τ → Λ)} (hvalid : schedule.Valid options header request task)
    (hrun : runBatch options server schedule header request task locals = .ok result) :
    ∀ line ∈ completeLines 10 request, HasSizeKey options._useRegex line := by
  intro line hline
  obtain ⟨preprocessed, hpreprocess, -⟩ := Outcome.bind_eq_ok.mp hrun
  obtain ⟨i, hi, rfl⟩ := List.mem_iff_getElem.mp hline
  have hmem : i ∈ schedule.preprocess := hvalid.preprocess.mem_iff.mpr (List.mem_range.mpr hi)
  exact hasSizeKey_of_preprocess (Task.holds_update options header request task)
    (noexcept_eq_ok.mp hpreprocess) i hi hmem

/-- Where every line has a size key the batch returns, and its response is the
list of replies. -/
theorem runBatch_of_functional {policy : Policy Λ}
    (functional : FunctionalPolicy options._useRegex policy)
    (hvalid : schedule.Valid options header request task)
    (hkeys : ∀ line ∈ completeLines 10 request, HasSizeKey options._useRegex line)
    {locals : τ → Λ} (hinv : ∀ thread, functional.Inv (locals thread)) :
    ∃ task' locals',
      runBatch options (some policy) schedule header request task locals = .ok (task', locals') ∧
      task'._response = (completeLines 10 request).map
        (Task.replyTo functional (isDiagnosticsEnabled header)) := by
  obtain ⟨preprocessed, hpreprocess, hholds, hkeyed⟩ :=
    preprocess_of_hasSizeKey hkeys schedule.preprocess
      (Task.holds_update options header request task)
  have hreturns := noexcept_eq_ok.mpr hpreprocess
  have hholds' := hholds.sortIndices (hvalid.sorted preprocessed hreturns)
  have hkeyed' : ∀ i < (completeLines 10 request).length,
      (preprocessed.sortIndices schedule.sorted).KeyedAt options._useRegex i := by
    intro i hi
    exact hkeyed i hi (.inl (hvalid.preprocess.mem_iff.mpr (List.mem_range.mpr hi)))
  obtain ⟨task', locals', hprocess, hholds'', -, -, hreplied⟩ :=
    process_of_functional functional schedule.process hholds' hkeyed' hinv
  refine ⟨task', locals', ?_, hholds''.response_eq ?_⟩
  · exact Outcome.bind_eq_ok.mpr ⟨preprocessed, hreturns, noexcept_eq_ok.mpr hprocess⟩
  · intro row hrow
    obtain ⟨index, hindex, hrowAt⟩ := hholds'.exists_rowAt hrow
    have hmem : index ∈ schedule.process.map Prod.snd :=
      hvalid.process.mem_iff.mpr (List.mem_range.mpr hindex)
    exact hreplied row (.inl ⟨index, hmem, hindex, hrowAt⟩)

/-! ## The policies of a server -/

/-- Every policy a server can have is functional on the threads it can have. -/
theorem functional_of_setPolicy {moneyText : Int → Bytes} {_mapBySize : SizeMap}
    {policy : Policy ThreadLocals} (hpolicy : setPolicy moneyText _mapBySize options = .ok policy) :
    ∃ functional : FunctionalPolicy options._useRegex policy,
      ∀ locals : ThreadLocals, locals.Reachable moneyText _mapBySize options._useRegex →
        functional.Inv locals := by
  unfold setPolicy at hpolicy
  cases henum : options._policyEnum with
  | SORTINPUT =>
      rw [henum] at hpolicy
      obtain rfl := Except.ok.inj hpolicy
      exact ⟨SortInputPolicy.functional moneyText _mapBySize _, fun _ h => h.coherent⟩
  | NOSORTINPUT =>
      rw [henum] at hpolicy
      obtain rfl := Except.ok.inj hpolicy
      exact ⟨NoSortInputPolicy.functional moneyText _mapBySize _, fun _ h => h.coherent⟩
  | ECHOPOLICY =>
      rw [henum] at hpolicy
      obtain rfl := Except.ok.inj hpolicy
      exact ⟨EchoPolicy.functional _, fun _ _ => trivial⟩
  | NONE =>
      rw [henum] at hpolicy
      exact absurd hpolicy (by simp)

end Batch

/-- A batch returns under any policy, schedule and thread history exactly when
each of its lines has a size key; else the server is gone. -/
theorem batch_returns_iff (moneyText : Int → Bytes) (_mapBySize : SizeMap)
    (options : ServerOptions) (header : HEADER) (request : Bytes) (task : Task)
    {policy : Policy ThreadLocals} (hpolicy : setPolicy moneyText _mapBySize options = .ok policy)
    {τ : Type} [DecidableEq τ] {schedule : Schedule τ}
    (hvalid : schedule.Valid options header request task) {locals : τ → ThreadLocals}
    (hreachable : ∀ thread,
      (locals thread).Reachable moneyText _mapBySize options._useRegex) :
    (∃ result, runBatch options (some policy) schedule header request task locals = .ok result) ↔
      ∀ line ∈ completeLines 10 request, HasSizeKey options._useRegex line := by
  constructor
  · rintro ⟨result, hrun⟩
    exact hasSizeKey_of_runBatch hvalid hrun
  · intro hkeys
    obtain ⟨functional, hinv⟩ := functional_of_setPolicy hpolicy
    obtain ⟨task', locals', hrun, -⟩ := runBatch_of_functional functional hvalid hkeys
      fun thread => hinv (locals thread) (hreachable thread)
    exact ⟨(task', locals'), hrun⟩

open TwoRequests in
theorem batch_returns_twoRequests :
    (∃ result, runBatch ⟨false, .SORTINPUT⟩ (some (SortInputPolicy moneyText _mapBySize)) sorted
        header request Task.initial (fun _ => .initial) = .ok result) ↔
      ∀ line ∈ completeLines 10 request, HasSizeKey false line :=
  batch_returns_iff moneyText _mapBySize ⟨false, .SORTINPUT⟩ header request Task.initial rfl
    sorted_valid fun _ => .initial

/- One request line with the marker and without a number. -/
namespace NoNumber

def request : Bytes := bytes "size=\n"

def schedule : Schedule Unit := ⟨[0], [0], [((), 0)]⟩

/-- The pass over the keys ends the server whatever the policy is. -/
theorem not_returns {options : ServerOptions} (policy : Policy ThreadLocals)
    (hterminate : Worker.preprocess options schedule.preprocess
      (Task.initial.update options TwoRequests.header request) = .error .terminate) :
    ¬ ∃ result, runBatch options (some policy) schedule TwoRequests.header request Task.initial
      (fun _ => .initial) = .ok result := by
  rintro ⟨result, hrun⟩
  rw [runBatch, hterminate] at hrun
  exact absurd hrun (by simp)

end NoNumber

open TwoRequests NoNumber in
/-- A line that has the marker and no number takes the server down under every
policy. -/
theorem batch_terminates :
    (¬ ∃ result, runBatch ⟨false, .SORTINPUT⟩ (some (SortInputPolicy moneyText _mapBySize))
        schedule header NoNumber.request Task.initial (fun _ => .initial) = .ok result) ∧
      (¬ ∃ result, runBatch ⟨false, .NOSORTINPUT⟩
        (some (NoSortInputPolicy moneyText _mapBySize false)) schedule header NoNumber.request
        Task.initial (fun _ => .initial) = .ok result) ∧
      ¬ ∃ result, runBatch ⟨false, .ECHOPOLICY⟩ (some EchoPolicy) schedule header
        NoNumber.request Task.initial (fun _ => .initial) = .ok result := by
  refine ⟨not_returns _ ?_, not_returns _ ?_, not_returns _ ?_⟩
  · decide +kernel
  · decide +kernel
  · decide +kernel

/-! ## Sorted and unsorted -/

/-- The size key of a line, where it has one. -/
def sizeKeyOf (_useRegex : Bool) (line : Bytes) : SIZETUPLE :=
  (createSizeKey _useRegex line).toOption.getD ZERO_SIZE

/-- The replies to a batch when the ads are looked up for every line. -/
def uncachedReplies (moneyText : Int → Bytes) (_mapBySize : SizeMap) (_useRegex : Bool)
    (header : HEADER) (request : Bytes) : List Bytes :=
  (completeLines 10 request).map fun line =>
    uncachedReply moneyText _mapBySize (sizeKeyOf _useRegex line) line
      (isDiagnosticsEnabled header)

/-- A policy that answers like the lookup replies like it. -/
theorem replyTo_eq_uncachedReply {moneyText : Int → Bytes} {_mapBySize : SizeMap}
    {_useRegex : Bool} {policy : Policy ThreadLocals}
    (functional : FunctionalPolicy _useRegex policy)
    (hanswer : functional.answer = fun input sizeKey diagnostics =>
      uncachedReply moneyText _mapBySize sizeKey input diagnostics)
    {line : Bytes} (hkey : HasSizeKey _useRegex line) (diagnostics : Bool) :
    Task.replyTo functional diagnostics line =
      uncachedReply moneyText _mapBySize (sizeKeyOf _useRegex line) line diagnostics := by
  obtain ⟨sizeKey, hok⟩ := createSizeKey_isOk_iff.mpr hkey
  have hsizeKey : sizeKeyOf _useRegex line = sizeKey := by
    rw [sizeKeyOf, hok]
    rfl
  rw [Task.replyTo, hok, hsizeKey, hanswer]

/-- Under both policies, any two schedules and any histories of the threads and
the tasks, a batch of requests with size keys returns with the replies the
lookup gives. -/
theorem sorted_eq_unsorted (moneyText : Int → Bytes) (_mapBySize : SizeMap) (_useRegex : Bool)
    (header : HEADER) (request : Bytes)
    (hkeys : ∀ line ∈ completeLines 10 request, ∃ sizeKey,
      createSizeKey _useRegex line = .ok sizeKey)
    {τ τ' : Type} [DecidableEq τ] [DecidableEq τ'] (task task' : Task)
    {schedule : Schedule τ} {schedule' : Schedule τ'}
    (hvalid : schedule.Valid ⟨_useRegex, .SORTINPUT⟩ header request task)
    (hvalid' : schedule'.Valid ⟨_useRegex, .NOSORTINPUT⟩ header request task')
    {locals : τ → ThreadLocals} {locals' : τ' → ThreadLocals}
    (hreachable : ∀ thread, (locals thread).Reachable moneyText _mapBySize _useRegex)
    (hreachable' : ∀ thread, (locals' thread).Reachable moneyText _mapBySize _useRegex) :
    ∃ sorted unsorted,
      runBatch ⟨_useRegex, .SORTINPUT⟩ (some (SortInputPolicy moneyText _mapBySize)) schedule
        header request task locals = .ok sorted ∧
      runBatch ⟨_useRegex, .NOSORTINPUT⟩
        (some (NoSortInputPolicy moneyText _mapBySize _useRegex)) schedule' header request task'
        locals' = .ok unsorted ∧
      sorted.1._response = unsorted.1._response ∧
      unsorted.1._response =
        uncachedReplies moneyText _mapBySize _useRegex header request := by
  have hkeys' : ∀ line ∈ completeLines 10 request, HasSizeKey _useRegex line := fun line hline =>
    createSizeKey_isOk_iff.mp (hkeys line hline)
  obtain ⟨sorted, own, hsorted, hresponse⟩ := runBatch_of_functional
    (SortInputPolicy.functional moneyText _mapBySize _useRegex) hvalid hkeys' fun thread =>
      (hreachable thread).coherent
  obtain ⟨unsorted, own', hunsorted, hresponse'⟩ := runBatch_of_functional
    (NoSortInputPolicy.functional moneyText _mapBySize _useRegex) hvalid' hkeys' fun thread =>
      (hreachable' thread).coherent
  have hreplies : sorted._response =
      uncachedReplies moneyText _mapBySize _useRegex header request := by
    rw [hresponse]
    exact List.map_congr_left fun line hline =>
      replyTo_eq_uncachedReply _ rfl (hkeys' line hline) _
  have hreplies' : unsorted._response =
      uncachedReplies moneyText _mapBySize _useRegex header request := by
    rw [hresponse']
    exact List.map_congr_left fun line hline =>
      replyTo_eq_uncachedReply _ rfl (hkeys' line hline) _
  exact ⟨(sorted, own), (unsorted, own'), hsorted, hunsorted, hreplies.trans hreplies'.symm,
    hreplies'⟩

open TwoRequests in
theorem sorted_eq_unsorted_twoRequests :
    ∃ sorted' unsorted',
      runBatch ⟨false, .SORTINPUT⟩ (some (SortInputPolicy moneyText _mapBySize)) sorted
        header request Task.initial (fun _ => .initial) = .ok sorted' ∧
      runBatch ⟨false, .NOSORTINPUT⟩ (some (NoSortInputPolicy moneyText _mapBySize false)) unsorted
        header request Task.initial (fun _ => .initial) = .ok unsorted' ∧
      sorted'.1._response = unsorted'.1._response ∧
      unsorted'.1._response = uncachedReplies moneyText _mapBySize false header request := by
  refine sorted_eq_unsorted moneyText _mapBySize false header request ?_ Task.initial Task.initial
    sorted_valid unsorted_valid (fun _ => .initial) fun _ => .initial
  intro line hline
  exact createSizeKey_isOk_iff.mpr (by revert line; decide +kernel)

end ClientServer
