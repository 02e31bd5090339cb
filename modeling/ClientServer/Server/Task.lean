import ClientServer.Server.Policy

/-!
# Tasks

A task is a batch of requests in vectors that its session uses again for the
next batch.  `preprocessNext` and `processNext` are three steps each: they fetch
an index from the counter all workers share, do the work at that index, and read
the counter once more to see whether any is left.

`Holds`, `KeyedAt` and `RepliedAt` say what a task has to do with its batch;
the lemmas say how each operation moves between them.
-/

namespace ClientServer

structure Task where
  _requests : List Request
  _size : Nat
  _sortedIndices : List Nat
  _response : List Bytes
  /-- The promise holds its value. -/
  _promise : Bool
  _index : Nat
  _diagnostics : Bool
deriving DecidableEq

/-- A task as its constructor leaves it. -/
def Task.initial : Task where
  _requests := []
  _size := 0
  _sortedIndices := []
  _response := []
  _promise := false
  _index := 0
  _diagnostics := false

namespace Task

/-! ## The operations -/

/-- `std::tuple` compares the widths first. -/
def sizeLess (key key' : SIZETUPLE) : Bool :=
  key.1 < key'.1 || (key.1 == key'.1 && key.2 < key'.2)

/-- A row `emplace_back` makes. -/
def newRequest : Request := { _sizeKey := ZERO_SIZE, _input := [] }

/-- `Request::operator=` leaves the size key alone. -/
def assignInput (request : Request) (input : Bytes) : Request :=
  { request with _input := input }

/-- `vector::resize`. -/
def resizeVector (vector : List Bytes) (size : Nat) : List Bytes :=
  vector.take size ++ List.replicate (size - vector.length) []

def update (options : ServerOptions) (header : HEADER) (request : Bytes) (task : Task) : Task :=
  let (_size, _requests) :=
    splitReuseVector newRequest assignInput 10 false [] 0 task._requests request
  { task with
    _promise := false
    _diagnostics := isDiagnosticsEnabled header
    _size
    _requests
    _sortedIndices :=
      if options._policyEnum = .SORTINPUT then List.range _size else task._sortedIndices
    _response := resizeVector task._response _size }

/-- The size key of a row. -/
def keyOf (task : Task) (index : Nat) : SIZETUPLE :=
  (task._requests[index]?).elim ZERO_SIZE Request._sizeKey

/-- An order `sortIndices` may leave: `std::sort` does not say which of several
rows with the same key comes first.  The comparison takes its two indices as `int`s, and a
batch has fewer than 2^31 rows. -/
def SortedBy (task : Task) (order : List Nat) : Prop :=
  order.Perm task._sortedIndices ∧
    order.Pairwise fun i j => sizeLess (task.keyOf j) (task.keyOf i) = false

instance (task : Task) (order : List Nat) : Decidable (task.SortedBy order) :=
  inferInstanceAs (Decidable (_ ∧ _))

/-- `sortIndices`, with the order it leaves. -/
def sortIndices (task : Task) (order : List Nat) : Task := { task with _sortedIndices := order }

def resetIndex (task : Task) : Task := { task with _index := 0 }

/-- `_index.fetch_add(1)` -/
def fetchIndex (task : Task) : Nat × Task :=
  (task._index, { task with _index := task._index + 1 })

/-- The last statement of `preprocessNext` and `processNext`. -/
def anyLeft (task : Task) : Bool := task._index < task._size

/-- `preprocessNext` at the index it fetched. -/
def preprocessAt (options : ServerOptions) (index : Nat) (task : Task) : Call Task :=
  if index < task._size then
    match task._requests[index]? with
    | none => .error .outOfBounds
    | some request => do
        let _sizeKey ← createSizeKey options._useRegex request._input
        return { task with _requests := task._requests.set index { request with _sizeKey } }
  else .ok task

/-- The row `processNext` works on at the index it fetched. -/
def rowAt (options : ServerOptions) (index : Nat) (task : Task) : Option Nat :=
  match options._policyEnum with
  | .SORTINPUT => task._sortedIndices[index]?
  | _ => some index

/-- `processNext` at the index it fetched; `none` is a server that is gone. -/
def processAt {Λ : Type} (options : ServerOptions) (server : Option (Policy Λ)) (index : Nat)
    (task : Task) (locals : Λ) : Call (Task × Λ) :=
  if index < task._size then
    match server with
    | none => .ok (task, locals)
    | some policy =>
        match task.rowAt options index with
        | none => .error .outOfBounds
        | some row =>
            match task._requests[row]? with
            | none => .error .outOfBounds
            | some request => do
                let (response, locals) ← policy request task._diagnostics locals
                if row < task._response.length then
                  return ({ task with _response := task._response.set row response }, locals)
                else throw .outOfBounds
  else .ok (task, locals)

/-- `finish` -/
def finish (task : Task) : Call Task :=
  if task._promise then .error .promiseAlreadySatisfied else .ok { task with _promise := true }

/-! ## A task and its batch -/

/-- The task holds a batch of these lines. -/
structure Holds (options : ServerOptions) (lines : List Bytes) (diagnostics : Bool)
    (task : Task) : Prop where
  size : task._size = lines.length
  inputs : ∀ i (h : i < lines.length), (task._requests[i]?).map Request._input = some lines[i]
  response : task._response.length = lines.length
  diagnostics : task._diagnostics = diagnostics
  sorted : options._policyEnum = .SORTINPUT → task._sortedIndices.Perm (List.range lines.length)

/-- The row has the size key of its text. -/
def KeyedAt (_useRegex : Bool) (task : Task) (i : Nat) : Prop :=
  ∃ request, task._requests[i]? = some request ∧ request.Keyed _useRegex

/-- The reply of a policy to a line of a batch. -/
def replyTo {Λ : Type} {_useRegex : Bool} {policy : Policy Λ}
    (functional : FunctionalPolicy _useRegex policy) (diagnostics : Bool) (line : Bytes) : Bytes :=
  match createSizeKey _useRegex line with
  | .ok sizeKey => functional.answer line sizeKey diagnostics
  | .error _ => []

/-- The reply to a row stands in its place. -/
def RepliedAt (reply : Bytes → Bytes) (lines : List Bytes) (task : Task) (i : Nat) : Prop :=
  task._response[i]? = lines[i]?.map reply

theorem length_resizeVector (vector : List Bytes) (size : Nat) :
    (resizeVector vector size).length = size := by
  simp [resizeVector]
  omega

/-- `update` puts the complete lines of the request into the task, whatever the
batch before left in it. -/
theorem holds_update (options : ServerOptions) (header : HEADER) (request : Bytes) (task : Task) :
    (task.update options header request).Holds options (completeLines 10 request)
      (isDiagnosticsEnabled header) := by
  obtain ⟨hsize, hle, hrows⟩ := @splitReuseVector_spec Request newRequest assignInput
    Request._input (fun _ _ => rfl) 10 request [] 0 task._requests (Nat.zero_le _)
  rw [Nat.zero_add] at hsize
  rw [hsize, List.take_zero, List.map_nil, List.nil_append] at hrows
  have hinputs : ∀ i (h : i < (completeLines 10 request).length),
      ((task.update options header request)._requests[i]?).map Request._input =
        some (completeLines 10 request)[i] := by
    intro i h
    have hget := congrArg (fun rows => rows[i]?) hrows
    simp only [List.getElem?_map, List.getElem?_take, h, if_true] at hget
    refine hget.trans ?_
    rw [List.getElem?_modifyHead, List.getElem?_eq_getElem h]
    simp
  exact {
    size := hsize
    inputs := hinputs
    response := (length_resizeVector _ _).trans hsize
    diagnostics := rfl
    sorted := fun hpolicy => by
      simp only [update, hpolicy, if_true]
      rw [← hsize] }

/-! ## What the operations change -/

theorem preprocessAt_ok {options : ServerOptions} {index : Nat} {task task' : Task}
    (h : task.preprocessAt options index = .ok task') :
    ∃ requests, task' = { task with _requests := requests } := by
  unfold preprocessAt at h
  split at h
  · cases hrequest : task._requests[index]? with
    | none =>
        rw [hrequest] at h
        exact absurd h (by simp)
    | some request =>
        rw [hrequest] at h
        obtain ⟨_sizeKey, -, htask⟩ := Outcome.bind_eq_ok.mp h
        exact ⟨_, (Except.ok.inj htask).symm⟩
  · exact ⟨task._requests, (Except.ok.inj h).symm⟩

theorem processAt_ok {Λ : Type} {options : ServerOptions} {server : Option (Policy Λ)}
    {index : Nat} {task task' : Task} {locals locals' : Λ}
    (h : task.processAt options server index locals = .ok (task', locals')) :
    ∃ response, task' = { task with _response := response } := by
  unfold processAt at h
  split at h
  · split at h
    · exact ⟨task._response, (Prod.ext_iff.mp (Except.ok.inj h)).1.symm⟩
    · split at h
      · exact absurd h (by simp)
      · split at h
        · exact absurd h (by simp)
        · obtain ⟨⟨response, locals⟩, -, hset⟩ := Outcome.bind_eq_ok.mp h
          dsimp only at hset
          split at hset
          · exact ⟨_, (Prod.ext_iff.mp (Except.ok.inj hset)).1.symm⟩
          · exact absurd hset (by simp)
  · exact ⟨task._response, (Prod.ext_iff.mp (Except.ok.inj h)).1.symm⟩

theorem finish_ok {task task' : Task} (h : task.finish = .ok task') :
    task' = { task with _promise := true } := by
  unfold finish at h
  split at h
  · exact absurd h (by simp)
  · exact (Except.ok.inj h).symm

/-! ## Preprocessing a row -/

variable {options : ServerOptions} {lines : List Bytes} {diagnostics : Bool} {task : Task}

/-- Past the end of the batch nothing is done. -/
theorem preprocessAt_of_ge {index : Nat} (h : task._size ≤ index) :
    task.preprocessAt options index = .ok task := if_neg (Nat.not_lt.mpr h)

theorem Holds.request (h : task.Holds options lines diagnostics) {i : Nat}
    (hi : i < lines.length) :
    ∃ request, task._requests[i]? = some request ∧ request._input = lines[i] :=
  Option.map_eq_some_iff.mp (h.inputs i hi)

theorem Holds.preprocessAt_eq (h : task.Holds options lines diagnostics) {index : Nat}
    (hindex : index < lines.length) :
    ∃ request, task._requests[index]? = some request ∧
      task.preprocessAt options index =
        (createSizeKey options._useRegex lines[index]).map fun _sizeKey =>
          { task with _requests := task._requests.set index { request with _sizeKey } } := by
  obtain ⟨request, hrequest, hinput⟩ := h.request hindex
  refine ⟨request, hrequest, ?_⟩
  rw [preprocessAt, if_pos (h.size ▸ hindex), hrequest, ← hinput]
  dsimp only
  cases createSizeKey options._useRegex request._input <;> rfl

/-- A row that could be preprocessed has a size key. -/
theorem hasSizeKey_of_preprocessAt (h : task.Holds options lines diagnostics) {index : Nat}
    (hindex : index < lines.length) {task' : Task}
    (hok : task.preprocessAt options index = .ok task') :
    HasSizeKey options._useRegex lines[index] := by
  obtain ⟨request, -, heq⟩ := h.preprocessAt_eq hindex
  rw [heq] at hok
  rcases createSizeKey_cases options._useRegex lines[index] with ⟨hkey, -⟩ | ⟨-, ec, herror⟩
  · exact hkey
  · rw [herror] at hok
    exact absurd hok (by simp [Except.map])

/-- A row with a size key gets it; the batch and the keys of the other rows stay. -/
theorem Holds.preprocessAt (h : task.Holds options lines diagnostics) {index : Nat}
    (hindex : index < lines.length) (hkey : HasSizeKey options._useRegex lines[index]) :
    ∃ task', task.preprocessAt options index = .ok task' ∧
      task'.Holds options lines diagnostics ∧ task'.KeyedAt options._useRegex index ∧
      ∀ i, task.KeyedAt options._useRegex i → task'.KeyedAt options._useRegex i := by
  obtain ⟨request, hrequest, heq⟩ := h.preprocessAt_eq hindex
  obtain ⟨_sizeKey, hok⟩ := createSizeKey_isOk_iff.mpr hkey
  have hinput : request._input = lines[index] := by
    have := h.inputs index hindex
    rw [hrequest] at this
    exact Option.some.inj this
  have hlength : index < task._requests.length := (List.getElem?_eq_some_iff.mp hrequest).1
  have hkeyed : KeyedAt options._useRegex
      { task with _requests := task._requests.set index { request with _sizeKey } } index := by
    refine ⟨{ request with _sizeKey }, List.getElem?_set_self hlength, ?_⟩
    show createSizeKey options._useRegex request._input = .ok _sizeKey
    rw [hinput, hok]
  refine ⟨_, by rw [heq, hok]; rfl, ?_, hkeyed, ?_⟩
  · refine ⟨h.size, fun i hi => ?_, h.response, h.diagnostics, h.sorted⟩
    rcases eq_or_ne index i with rfl | hne
    · show ((task._requests.set index _)[index]?).map _ = _
      rw [List.getElem?_set_self hlength]
      exact congrArg some hinput
    · show ((task._requests.set index _)[i]?).map _ = _
      rw [List.getElem?_set_ne hne]
      exact h.inputs i hi
  · rintro i ⟨old, hold, holdKeyed⟩
    rcases eq_or_ne index i with rfl | hne
    · exact hkeyed
    · refine ⟨old, ?_, holdKeyed⟩
      show (task._requests.set index _)[i]? = _
      rw [List.getElem?_set_ne hne, hold]

/-! ## Processing a row -/

section Process

variable {Λ : Type} {policy : Policy Λ} (functional : FunctionalPolicy options._useRegex policy)

/-- The rows are visited in the sorted order, or in their own. -/
theorem Holds.rowAt (h : task.Holds options lines diagnostics) {index : Nat}
    (hindex : index < lines.length) :
    ∃ row, task.rowAt options index = some row ∧ row < lines.length := by
  unfold Task.rowAt
  cases hpolicy : options._policyEnum with
  | SORTINPUT =>
      have hperm := h.sorted hpolicy
      have hlength : index < task._sortedIndices.length := by
        rw [hperm.length_eq, List.length_range]
        exact hindex
      refine ⟨task._sortedIndices[index], List.getElem?_eq_getElem hlength, ?_⟩
      exact List.mem_range.mp (hperm.subset (List.getElem_mem hlength))
  | NOSORTINPUT => exact ⟨index, rfl, hindex⟩
  | ECHOPOLICY => exact ⟨index, rfl, hindex⟩
  | NONE => exact ⟨index, rfl, hindex⟩

/-- Every row is visited at some index. -/
theorem Holds.exists_rowAt (h : task.Holds options lines diagnostics) {row : Nat}
    (hrow : row < lines.length) :
    ∃ index < lines.length, task.rowAt options index = some row := by
  unfold Task.rowAt
  cases hpolicy : options._policyEnum with
  | SORTINPUT =>
      have hperm := h.sorted hpolicy
      obtain ⟨index, hindex, hget⟩ :=
        List.mem_iff_getElem.mp (hperm.mem_iff.mpr (List.mem_range.mpr hrow))
      refine ⟨index, ?_, List.getElem?_eq_some_iff.mpr ⟨hindex, hget⟩⟩
      rwa [hperm.length_eq, List.length_range] at hindex
  | NOSORTINPUT => exact ⟨row, hrow, rfl⟩
  | ECHOPOLICY => exact ⟨row, hrow, rfl⟩
  | NONE => exact ⟨row, hrow, rfl⟩

theorem processAt_of_ge {server : Option (Policy Λ)} {index : Nat} (h : task._size ≤ index)
    (locals : Λ) : task.processAt options server index locals = .ok (task, locals) :=
  if_neg (Nat.not_lt.mpr h)

/-- The reply of the policy is put into the place of the row. -/
theorem Holds.processAt_eq (h : task.Holds options lines diagnostics) {index row : Nat}
    (hindex : index < lines.length) (hrow : task.rowAt options index = some row)
    (hlt : row < lines.length) {request : Request} (hrequest : task._requests[row]? = some request)
    {locals locals' : Λ} {reply : Bytes}
    (hreply : policy request diagnostics locals = .ok (reply, locals')) :
    task.processAt options (some policy) index locals =
      .ok ({ task with _response := task._response.set row reply }, locals') := by
  have hresponse : row < task._response.length := h.response ▸ hlt
  simp only [Task.processAt, if_pos (h.size ▸ hindex), hrow, hrequest, h.diagnostics, hreply,
    Outcome.ok_bind, if_pos hresponse, Outcome.pure_eq_ok]

theorem Holds.setResponse (h : task.Holds options lines diagnostics) (row : Nat) (reply : Bytes) :
    Holds options lines diagnostics { task with _response := task._response.set row reply } :=
  ⟨h.size, h.inputs, (List.length_set ..).trans h.response, h.diagnostics, h.sorted⟩

/-- The row visited gets the reply of the policy; everything else stays. -/
theorem Holds.processAt (h : task.Holds options lines diagnostics)
    (hkeyed : ∀ i < lines.length, task.KeyedAt options._useRegex i) {index : Nat}
    (hindex : index < lines.length) {locals : Λ} (hinv : functional.Inv locals) :
    ∃ task' locals' row, task.rowAt options index = some row ∧
      task.processAt options (some policy) index locals = .ok (task', locals') ∧
      functional.Inv locals' ∧ task'.Holds options lines diagnostics ∧
      (∃ response, task' = { task with _response := response }) ∧
      task'.RepliedAt (replyTo functional diagnostics) lines row ∧
      ∀ i, task.RepliedAt (replyTo functional diagnostics) lines i →
        task'.RepliedAt (replyTo functional diagnostics) lines i := by
  obtain ⟨row, hrow, hlt⟩ := h.rowAt hindex
  obtain ⟨request, hrequest, hkey⟩ := hkeyed row hlt
  have hinput : request._input = lines[row] := by
    have := h.inputs row hlt
    rw [hrequest] at this
    exact Option.some.inj this
  have hreplyTo : functional.answer request._input request._sizeKey diagnostics =
      replyTo functional diagnostics lines[row] := by
    rw [← hinput, replyTo, show createSizeKey options._useRegex request._input = _ from hkey]
  obtain ⟨locals', hreply, hinv'⟩ := functional.answers request diagnostics hkey hinv
  rw [hreplyTo] at hreply
  have hreplied : RepliedAt (replyTo functional diagnostics) lines
      { task with
        _response := task._response.set row (replyTo functional diagnostics lines[row]) }
      row := by
    show (task._response.set row _)[row]? = _
    rw [List.getElem?_set_self (h.response ▸ hlt), List.getElem?_eq_getElem hlt]
    rfl
  refine ⟨_, locals', row, hrow, h.processAt_eq hindex hrow hlt hrequest hreply, hinv',
    h.setResponse row _, ⟨_, rfl⟩, hreplied, ?_⟩
  intro i hi
  rcases eq_or_ne row i with rfl | hne
  · exact hreplied
  · show (task._response.set row _)[i]? = _
    rw [List.getElem?_set_ne hne]
    exact hi

/-- Sorting changes the order of the visits only. -/
theorem Holds.sortIndices (h : task.Holds options lines diagnostics) {order : List Nat}
    (horder : task.SortedBy order) : (task.sortIndices order).Holds options lines diagnostics :=
  ⟨h.size, h.inputs, h.response, h.diagnostics, fun hpolicy => horder.1.trans (h.sorted hpolicy)⟩

/-- Once every row has its reply, the response is the list of replies. -/
theorem Holds.response_eq (h : task.Holds options lines diagnostics) {reply : Bytes → Bytes}
    (hreplied : ∀ i < lines.length, task.RepliedAt reply lines i) :
    task._response = lines.map reply := by
  refine List.ext_getElem? fun i => ?_
  rw [List.getElem?_map]
  rcases Nat.lt_or_ge i lines.length with hlt | hge
  · exact hreplied i hlt
  · rw [List.getElem?_eq_none (h.response ▸ hge), List.getElem?_eq_none hge]
    rfl

end Process

end Task

end ClientServer
