import ClientServer.Client.SourceLines

/-!
# Where the batches are cut

`createSubtask` puts requests into the batch until it comes to the size of a
subtask, or the line was the last.  `Batches` says what that makes of the
requests of a pass: whole requests, in order, cut at the one with which the batch
comes to the size.  Where the size is zero a batch is one request.

The invariant follows the builder through the pass.  The flag of the reader is
set with the last line, so that the pass does not end on a full batch with
nothing behind it.
-/

namespace ClientServer.TaskBuilder

/-! ## Batches -/

/-- The requests of the lines. -/
def requests (views : List Bytes) : List Bytes :=
  views.zipIdx.map fun (view, index) => numberedRow index view

/-- Requests to which the next is added.  Where the size is zero, none. -/
def Short (size : Nat) (group : List Bytes) : Prop :=
  group.flatten.length < size ∨ size = 0 ∧ group = []

theorem Short.nil (size : Nat) : Short size [] := by
  cases size with
  | zero => exact .inr ⟨rfl, rfl⟩
  | succ size => exact .inl (Nat.zero_lt_succ size)

/-- The batches in front of the last one, with what `createSubtask` returns. -/
inductive Filled (size : Nat) : List (Bytes × STATUS) → List Bytes → Prop where
  | nil : Filled size [] []
  | cut {cuts : List (Bytes × STATUS)} {done group : List Bytes} {request : Bytes} :
      Filled size cuts done → Short size group → size ≤ (group ++ [request]).flatten.length →
      Filled size (cuts ++ [((group ++ [request]).flatten, .SUBTASK_DONE)])
        (done ++ (group ++ [request]))

/-- The batches of a pass. -/
inductive Batches (size : Nat) : List (Bytes × STATUS) → List Bytes → Prop where
  | none : Batches size [] []
  | last {cuts : List (Bytes × STATUS)} {done group : List Bytes} {request : Bytes} :
      Filled size cuts done → Short size group →
      Batches size (cuts ++ [((group ++ [request]).flatten, .TASK_DONE)])
        (done ++ (group ++ [request]))

theorem Filled.flatten {size : Nat} {cuts : List (Bytes × STATUS)} {done : List Bytes}
    (h : Filled size cuts done) : (cuts.map Prod.fst).flatten = done.flatten := by
  induction h with
  | nil => rfl
  | cut _ _ _ ih => simp [ih]

/-- The batches are the requests one behind the other. -/
theorem Batches.flatten {size : Nat} {cuts : List (Bytes × STATUS)} {done : List Bytes}
    (h : Batches size cuts done) : (cuts.map Prod.fst).flatten = done.flatten := by
  cases h with
  | none => rfl
  | last hfilled => simp [hfilled.flatten]

theorem Filled.eq_nil {size : Nat} {cuts : List (Bytes × STATUS)} (h : Filled size cuts []) :
    cuts = [] := by
  generalize hdone : ([] : List Bytes) = done at h
  cases h with
  | nil => rfl
  | cut =>
      have := congrArg List.length hdone
      simp at this

theorem length_requests (views : List Bytes) : (requests views).length = views.length := by
  rw [requests, List.length_map, List.length_zipIdx]

theorem take_requests_succ {views : List Bytes} {n : Nat} {view : Bytes}
    (h : views[n]? = some view) :
    (requests views).take (n + 1) = (requests views).take n ++ [numberedRow n view] := by
  rw [List.take_add_one, requests, List.getElem?_map, List.getElem?_zipIdx, h]
  simp

/-! ## The steps of a pass -/

/-- The batch that is encrypted, and the status that `createSubtask` returns. -/
def cut (a : Action) (s s' : State) : Option (Bytes × STATUS) :=
  match a with
  | .compressEncrypt _ _ => if s'.built = s.built then none else some (s._batch, s'._status)
  | .run | .openSource _ _ | .wakeRun | .client | .sent _ | .wakeClient => none

/-- A step of the builder or of the client until the source is opened again. -/
def PassStep (setup : ClientSetup) (s : State) (label : Option (Bytes × STATUS)) (s' : State) :
    Prop :=
  ∃ a, a.opens = false ∧ step setup a s = some s' ∧ label = cut a s s'

/-- The calls of `createSubtask` from a state on, with what they encrypt and return. -/
abbrev PassRun (setup : ClientSetup) (start : State) : List (Bytes × STATUS) → State → Prop :=
  Runs.Run (PassStep setup) start

variable {setup : ClientSetup} {views : List Bytes} {cuts : List (Bytes × STATUS)} {s s' : State}

/-! ## What holds in a pass -/

/-- The size at which a batch is cut. -/
abbrev size (setup : ClientSetup) : Nat := State.maxSubtaskSize setup.options

/-- The batch has the requests behind those that are cut off. -/
structure Gathered (setup : ClientSetup) (views : List Bytes) (cuts : List (Bytes × STATUS))
    (s : State) (n : Nat) (done group : List Bytes) : Prop where
  requests : done ++ group = (requests views).take n
  filled : Filled (size setup) cuts done
  batch : s._batch = group.flatten

/-- The reader is in front of the line with this number. -/
def Behind (views : List Bytes) (reader : Lines) (n : Nat) : Prop :=
  reader.ReadsExactly n (views.drop n)

/-- What is read where the builder stands. -/
def Cutting (setup : ClientSetup) (views : List Bytes) (cuts : List (Bytes × STATUS))
    (s : State) : RunPc → Prop
  | .createSubtask reader => ∃ n, Behind views reader n ∧
      Filled (size setup) cuts ((requests views).take n) ∧ (n < views.length ∨ views = [])
  | .getLine reader => ∃ n done group, Behind views reader n ∧
      Gathered setup views cuts s n done group ∧ Short (size setup) group ∧
      (n < views.length ∨ views = [])
  | .compressEncrypt reader alldone | .lock reader alldone _ => ∃ n done group request,
      Behind views reader n ∧ Gathered setup views cuts s n done (group ++ [request]) ∧
      Short (size setup) group ∧ (alldone = true ↔ views.length ≤ n) ∧
      (alldone = false → size setup ≤ (group ++ [request]).flatten.length)
  | .loop | .clear | .source | .wait | .waiting | .notified | .caught | .left | .released => True

structure Cuts (setup : ClientSetup) (views : List Bytes) (cuts : List (Bytes × STATUS))
    (s : State) : Prop where
  cutting : Cutting setup views cuts s s.run
  begun : (∃ n, Filled (size setup) cuts ((requests views).take n)) ∨
    Batches (size setup) cuts (requests views)
  ended : s.run.stage = .wait → s._stopped = false → Batches (size setup) cuts (requests views)

theorem Cuts.start {reader : Lines} (hreader : reader.ReadsExactly 0 views)
    (hrun : s.run = .createSubtask reader) : Cuts setup views [] s := by
  have hnil : Filled (size setup) [] ((requests views).take 0) := .nil
  refine ⟨?_, .inl ⟨0, hnil⟩, fun hstage => ?_⟩
  · rw [hrun]
    refine ⟨0, hreader, hnil, ?_⟩
    cases views with
    | nil => exact .inr rfl
    | cons => exact .inl (Nat.zero_lt_succ _)
  · rw [hrun] at hstage
    cases hstage

theorem compressEncrypt_of_lock {a : Action} (ha : a.ofBuilder = true) {reader : Lines}
    {alldone : Bool} {header : HEADER} (hpc : s.run = .lock reader alldone header)
    (hs : step setup a s = some s') : ∃ drawn work, a = .compressEncrypt drawn work := by
  cases a with
  | compressEncrypt drawn work => exact ⟨drawn, work, rfl⟩
  | run =>
      rw [step, State.runStep, hpc] at hs
      cases hs
  | openSource _ _ | wakeRun =>
      rw [step, hpc] at hs
      cases hs
  | client | sent _ | wakeClient => cases ha

/-- The batch is cut off. -/
theorem Cuts.lock (h : Cuts setup views cuts s) {a : Action} (ha : a.ofBuilder = true)
    {reader : Lines} {alldone : Bool} {header : HEADER}
    (hpc : s.run = .lock reader alldone header) (hs : step setup a s = some s') :
    Cuts setup views (cuts ++ (cut a s s').toList) s' := by
  have hcutting := h.cutting
  rw [hpc] at hcutting
  obtain ⟨n, done, group, request, hbehind, ⟨hrequests, hfilled, hbatch⟩, hshort, hend⟩ := hcutting
  obtain ⟨halldone, hfull⟩ := hend
  obtain ⟨drawn, work, rfl⟩ := compressEncrypt_of_lock ha hpc hs
  rcases lock_step ha hpc hs with ⟨-, hstopped, hbuilt, hrun⟩ | ⟨hbuilt, hrun⟩ |
    ⟨subtask, -, -, -, -, hbuilt, hstatus, hrun⟩
  · rw [cut, if_pos hbuilt, Option.toList_none, List.append_nil]
    refine ⟨by rw [hrun]; trivial, h.begun, fun _ hlive => ?_⟩
    exact nomatch hstopped.symm.trans hlive
  · rw [cut, if_pos hbuilt, Option.toList_none, List.append_nil]
    refine ⟨by rw [hrun]; trivial, h.begun, fun hstage => ?_⟩
    rw [hrun] at hstage
    cases hstage
  · have hlabel : cut (.compressEncrypt drawn work) s s' =
        some ((group ++ [request]).flatten, s'._status) := by
      rw [cut, if_neg (by rw [hbuilt]; simp), hbatch]
    rw [hlabel, Option.toList_some, hstatus]
    cases alldone with
    | true =>
        have hall := hrequests
        rw [List.take_of_length_le (by rw [length_requests]; exact halldone.mp rfl)] at hall
        have hbatches := @Batches.last _ _ _ _ request hfilled hshort
        rw [hall] at hbatches
        exact ⟨by rw [hrun]; trivial, .inr hbatches, fun _ _ => hbatches⟩
    | false =>
        have hmore : n < views.length := by
          by_contra hle
          exact nomatch halldone.mpr (Nat.not_lt.mp hle)
        have hcut := hfilled.cut hshort (hfull rfl)
        rw [hrequests] at hcut
        rw [if_neg Bool.false_ne_true] at hrun
        refine ⟨?_, .inl ⟨n, hcut⟩, fun hstage => ?_⟩
        · rw [hrun]
          exact ⟨n, hbehind, hcut, .inl hmore⟩
        · rw [hrun] at hstage
          cases hstage

/-- A request is put into the batch, or there is no line. -/
theorem Cuts.getLine (hcount : views.length ≤ TASK_MAX_SIZE) (h : Cuts setup views cuts s)
    {reader : Lines} (hpc : s.run = .getLine reader) (hs : s.getLine setup reader = some s') :
    Cuts setup views cuts s' := by
  have hcutting := h.cutting
  rw [hpc] at hcutting
  obtain ⟨n, done, group, hbehind, ⟨hrequests, hfilled, hbatch⟩, hshort, hmore⟩ := hcutting
  unfold State.getLine at hs
  split at hs
  next fault _ =>
    rw [throws_eq_some hs]
    exact ⟨trivial, h.begun, fun hstage => by cases hstage⟩
  next view reader' hread =>
    obtain rfl := Option.some.inj hs
    obtain rfl := hmore.resolve_left (Nat.not_lt.mpr (Lines.ReadsExactly.noLine hbehind hread))
    have hnil : done ++ group = [] := hrequests.trans List.take_nil
    obtain ⟨rfl, -⟩ := List.append_eq_nil_iff.mp hnil
    obtain rfl := hfilled.eq_nil
    exact ⟨trivial, h.begun, fun _ _ => .none⟩
  next view reader' hread =>
    obtain ⟨hview, hindex, hlast, hbehind'⟩ := Lines.ReadsExactly.next hbehind hread
    have hn := (List.getElem?_eq_some_iff.mp hview).1
    rw [hindex, copyRequestWithId_view (Nat.lt_of_lt_of_le hn hcount)] at hs
    obtain rfl := Option.some.inj hs
    have hgathered (run : RunPc) : Gathered setup views cuts
        { s with _batch := s._batch ++ numberedRow n view, run := run } (n + 1) done
        (group ++ [numberedRow n view]) := by
      refine ⟨?_, hfilled, ?_⟩
      · rw [← List.append_assoc, hrequests, take_requests_succ hview]
      · rw [hbatch, List.flatten_append, List.flatten_singleton]
    have hlength := congrArg List.length (hgathered .loop).batch
    split
    next hcut =>
      refine ⟨⟨n + 1, done, group, _, hbehind', hgathered _, hshort, hlast, fun hfalse => ?_⟩,
        h.begun, fun hstage => by cases hstage⟩
      rw [hfalse] at hcut
      exact hlength ▸ hcut.resolve_right Bool.false_ne_true
    next hcut =>
      rw [not_or, hlast, Nat.not_le, Nat.not_le] at hcut
      exact ⟨⟨n + 1, done, _, hbehind', hgathered _, .inl (hlength ▸ hcut.1), .inl hcut.2⟩, h.begun,
        fun hstage => by cases hstage⟩

theorem Gathered.frame {n : Nat} {done group : List Bytes}
    (h : Gathered setup views cuts s n done group) (hbatch : s'._batch = s._batch) :
    Gathered setup views cuts s' n done group :=
  ⟨h.requests, h.filled, hbatch.trans h.batch⟩

theorem Cutting.frame {pc : RunPc} (h : Cutting setup views cuts s pc)
    (hbatch : s'._batch = s._batch) : Cutting setup views cuts s' pc := by
  cases pc with
  | createSubtask => exact h
  | getLine reader =>
      obtain ⟨n, done, group, hbehind, hgathered, hrest⟩ := h
      exact ⟨n, done, group, hbehind, hgathered.frame hbatch, hrest⟩
  | compressEncrypt | lock =>
      obtain ⟨n, done, group, request, hbehind, hgathered, hrest⟩ := h
      exact ⟨n, done, group, request, hbehind, hgathered.frame hbatch, hrest⟩
  | loop | clear | source | wait | waiting | notified | caught | left | released => trivial

/-- A step of the builder where it neither reads nor encrypts. -/
theorem Cuts.runStep (h : Cuts setup views cuts s) (hplain : s.run.makes = false)
    (hs : RunStep setup s s.run s') : Cuts setup views cuts s' := by
  have hcutting := h.cutting
  have hended := h.ended
  generalize s.run = pc at hs hcutting hended hplain
  cases hs with
  | leaves | enters | resumes | stores | releases | clears =>
      exact ⟨trivial, h.begun, fun hstage => by cases hstage⟩
  | begins =>
      obtain ⟨n, hbehind, hfilled, hmore⟩ := hcutting
      exact ⟨⟨n, _, [], hbehind, ⟨List.append_nil _, hfilled, rfl⟩, .nil _, hmore⟩, h.begun,
        fun hstage => by cases hstage⟩
  | readsStatus =>
      obtain ⟨n, done, group, request, hbehind, hgathered, hrest⟩ := hcutting
      exact ⟨⟨n, done, group, request, hbehind, hgathered.frame rfl, hrest⟩, h.begun,
        fun hstage => by cases hstage⟩
  | blocks hwait =>
      refine ⟨trivial, h.begun, fun _ => hended ?_⟩
      obtain rfl | rfl := hwait <;> rfl
  | wakes => exact ⟨trivial, h.begun, fun _ => hended rfl⟩
  | _ => cases hplain

theorem Cuts.client (h : Cuts setup views cuts s) {pc : ClientPc}
    (hs : ClientStep setup s pc s') : Cuts setup views cuts s' := by
  obtain ⟨-, hbatch, hlive, hrun⟩ := hs.frame
  refine ⟨?_, h.begun, fun hstage hstopped => h.ended ?_ (hlive hstopped)⟩
  · rcases hrun with hrun | ⟨-, hrun⟩
    · rw [hrun]
      exact h.cutting.frame hbatch
    · rw [hrun]
      trivial
  · rcases hrun with hrun | ⟨hwaiting, -⟩
    · rwa [hrun] at hstage
    · rw [hwaiting]
      rfl

/-- Only the lock is followed by a label. -/
theorem cut_of_run {a : Action} (ha : a.ofBuilder = true)
    (hpc : ∀ reader alldone header, s.run ≠ .lock reader alldone header)
    (hs : step setup a s = some s') : cut a s s' = none := by
  cases a with
  | compressEncrypt drawn work =>
      rw [step] at hs
      split at hs
      next hlock => exact absurd hlock (hpc _ _ _)
      next => cases hs
  | run | openSource | wakeRun => rfl
  | client | sent _ | wakeClient => cases ha

/-- A step of the builder that cuts nothing off. -/
theorem Cuts.builder (hcount : views.length ≤ TASK_MAX_SIZE) (h : Cuts setup views cuts s)
    {a : Action} (ha : a.ofBuilder = true) (hopens : a.opens = false)
    (hpc : ∀ reader alldone header, s.run ≠ .lock reader alldone header)
    (hs : step setup a s = some s') : Cuts setup views cuts s' := by
  have hstep := builder_step ha hs
  cases hrun : s.run with
  | lock reader alldone header => exact absurd hrun (hpc _ _ _)
  | source =>
      cases a with
      | run =>
          rw [TaskBuilder.step, State.runStep, hrun] at hs
          cases hs
      | compressEncrypt | wakeRun =>
          rw [TaskBuilder.step, hrun] at hs
          cases hs
      | openSource => cases hopens
      | client | sent _ | wakeClient => cases ha
  | getLine reader =>
      cases a with
      | run =>
          rw [TaskBuilder.step, State.runStep, hrun] at hs
          exact h.getLine hcount hrun hs
      | compressEncrypt | wakeRun =>
          rw [TaskBuilder.step, hrun] at hs
          cases hs
      | openSource => cases hopens
      | client | sent _ | wakeClient => cases ha
  | _ => exact h.runStep (by rw [hrun]; rfl) hstep

theorem Cuts.step (hcount : views.length ≤ TASK_MAX_SIZE) (h : Cuts setup views cuts s)
    {label : Option (Bytes × STATUS)} (hs : PassStep setup s label s') :
    Cuts setup views (cuts ++ label.toList) s' := by
  obtain ⟨a, hopens, hs, rfl⟩ := hs
  cases ha : a.ofBuilder with
  | false =>
      have hlabel : cut a s s' = none := by
        cases a with
        | client | sent | wakeClient => rfl
        | run | openSource | compressEncrypt | wakeRun => cases ha
      rw [hlabel, Option.toList_none, List.append_nil]
      exact h.client (client_step ha hs)
  | true =>
      by_cases hlock : ∃ reader alldone header, s.run = .lock reader alldone header
      · obtain ⟨reader, alldone, header, hpc⟩ := hlock
        exact h.lock ha hpc hs
      · have hpc : ∀ reader alldone header, s.run ≠ .lock reader alldone header :=
          fun reader alldone header hpc => hlock ⟨reader, alldone, header, hpc⟩
        rw [cut_of_run ha hpc hs, Option.toList_none, List.append_nil]
        exact h.builder hcount ha hopens hpc hs

theorem PassRun.inv {start : State} {reader : Lines} (hcount : views.length ≤ TASK_MAX_SIZE)
    (hreader : reader.ReadsExactly 0 views) (hstart : start.run = .createSubtask reader)
    (hrun : PassRun setup start cuts s) : Cuts setup views cuts s :=
  hrun.invariant (P := Cuts setup views) (Cuts.start hreader hstart) fun h hs => h.step hcount hs

/-! ## The end of a pass -/

/-- A builder that is on its way through the pass. -/
structure OnTheWay (setup : ClientSetup) (start s : State) : Prop where
  run : ∃ cuts, PassRun setup start cuts s
  live : s._stopped = false
  index : s._subtaskIndex.toNat ≤ s._subtasks.length

theorem length_assignSubtask {_subtasks _subtasks' : List Subtask} {index : Nat} {subtask : Subtask}
    (h : State.assignSubtask _subtasks index subtask = some _subtasks') :
    index < _subtasks'.length ∧ _subtasks.length ≤ _subtasks'.length := by
  rw [State.assignSubtask] at h
  split at h
  next hlt =>
    cases h
    rw [List.length_set]
    exact ⟨hlt, Nat.le_refl _⟩
  next =>
    split at h
    next hindex =>
      cases h
      rw [List.length_append, List.length_singleton]
      omega
    next => cases h

/-- The place of the next subtask is there or behind the last one. -/
theorem index_le_of_runStep {pc : RunPc} (hindex : s._subtaskIndex.toNat ≤ s._subtasks.length)
    (hs : RunStep setup s pc s') : s'._subtaskIndex.toNat ≤ s'._subtasks.length := by
  cases hs with
  | taskDone _ _ hassign => exact hindex.trans (length_assignSubtask hassign).2
  | subtaskDone _ hassign =>
      have hlt := (length_assignSubtask hassign).1
      show (s._subtaskIndex + 1).toNat ≤ _
      rw [UInt32.toNat_add]
      exact (Nat.mod_le _ _).trans hlt
  | _ => exact hindex

theorem OnTheWay.going (start : State) : Going setup (OnTheWay setup start) where
  keeps {s s' a} h ha hopens hs := by
    obtain ⟨cuts, hrun⟩ := h.run
    have hstep := builder_step ha hs
    exact ⟨⟨_, hrun.step ⟨a, hopens, hs, rfl⟩⟩, hstep.stopped.trans h.live,
      index_le_of_runStep h.index hstep⟩
  sleeps h hlocked := by
    obtain ⟨cuts, hrun⟩ := h.run
    exact ⟨⟨_, hrun.step ⟨.client, rfl, client_of_locked hlocked, rfl⟩⟩, h.live, h.index⟩
  live h := h.live
  index h _ := h.index

/-- A pass over lines that can be encrypted comes to its end. -/
theorem exists_passRun {start : State} {reader : Lines} (hcount : views.length ≤ TASK_MAX_SIZE)
    (hencrypts : Encrypts setup) (hreader : reader.ReadsExactly 0 views)
    (hstart : start.run = .createSubtask reader) (hlive : start._stopped = false)
    (hindex : start._subtaskIndex.toNat ≤ start._subtasks.length) :
    ∃ cuts s, PassRun setup start cuts s ∧ s._stopped = false ∧ s.run = .wait := by
  have hfirst : step setup .run start =
      some { start with _batch := [], run := .getLine reader } := by
    rw [step, State.runStep, hstart]
  have hway := (OnTheWay.going start).keeps ⟨⟨[], .start⟩, hlive, hindex⟩ rfl rfl hfirst
  cases views with
  | nil =>
      rw [Lines.ReadsExactly] at hreader
      have hsecond : step setup .run { start with _batch := [], run := .getLine reader } =
          some { start with _batch := [], run := .wait } := by
        simp only [step, State.runStep, State.getLine, hreader]
      obtain ⟨cuts, hrun⟩ := ((OnTheWay.going start).keeps hway rfl rfl hsecond).run
      exact ⟨cuts, _, hrun, hlive, rfl⟩
  | cons view rest =>
      obtain ⟨s, h, hwait, -⟩ := (OnTheWay.going start).pass hcount hencrypts hway rfl
        (n := 0) hreader (Nat.zero_add _)
      obtain ⟨cuts, hrun⟩ := h.run
      exact ⟨cuts, s, hrun, h.live, hwait⟩

theorem Reached.index_le {allowed : Action → State → Prop} (h : Reached setup allowed s)
    {reader : Lines} (hrun : s.run = .createSubtask reader) (hlive : s._stopped = false) :
    s._subtaskIndex.toNat ≤ s._subtasks.length := by
  have hstage : s.run.stage = .pass := by
    rw [hrun]
    rfl
  obtain h | ⟨-, hstopped⟩ := h.phase.of_pass hstage
  · have hbuilt := h.built
    rw [hrun] at hbuilt
    exact hbuilt.1.index_le
  · cases hlive.symm.trans hstopped

/-! ## All passes -/

/-- What becomes of the lines when the builder comes to `createSubtask`. -/
structure CutsLines (setup : ClientSetup) (views : List Bytes) (start : State) : Prop where
  /-- On the way, and whatever the client does, the batches are those of the first lines. -/
  batches : ∀ {cuts : List (Bytes × STATUS)} {s : State}, PassRun setup start cuts s →
    (∃ n, Filled (size setup) cuts ((requests views).take n)) ∨
      Batches (size setup) cuts (requests views)
  ended : ∀ {cuts : List (Bytes × STATUS)} {s : State}, PassRun setup start cuts s →
    s.run.stage = .wait → s._stopped = false →
      Batches (size setup) cuts (requests views) ∧
      (cuts.map Prod.fst).flatten = (requests views).flatten
  ends : start._stopped = false → Encrypts setup →
    ∃ cuts s, PassRun setup start cuts s ∧ s._stopped = false ∧ s.run = .wait

/-- For any lines that the reader delivers and the table of numbers has room for,
and every size of the buffer, the smallest included, where the difference wraps. -/
theorem createSubtask_batches {start : State} {reader : Lines}
    (hreach : Reachable setup start) (hstart : start.run = .createSubtask reader)
    (hreader : reader.ReadsExactly 0 views) (hcount : views.length ≤ TASK_MAX_SIZE) :
    CutsLines setup views start where
  batches hrun := (hrun.inv hcount hreader hstart).begun
  ended hrun hwait hlive := by
    have hbatches := (hrun.inv hcount hreader hstart).ended hwait hlive
    exact ⟨hbatches, hbatches.flatten⟩
  ends hlive hencrypts :=
    exists_passRun hcount hencrypts hreader hstart hlive (hreach.index_le hstart hlive)

/-! ### Batches of one request -/

namespace TwoLines

def reader : Lines := StringLines.new [0, 0, 0, 0] (bytes "a\nb\n") 10 true

def start : State := { State.initial [] with run := .createSubtask reader }

def passStep (a : Action) (s : State) : Option (Option (Bytes × STATUS) × State) :=
  if a.opens then none else (step lineByLine a s).map fun s' => (cut a s s', s')

theorem passStep_spec {a : Action} {label : Option (Bytes × STATUS)}
    (h : passStep a s = some (label, s')) : PassStep lineByLine s label s' := by
  rw [passStep] at h
  split at h
  next => cases h
  next hopens =>
    obtain ⟨s₁, hs, h⟩ := Option.map_eq_some_iff.mp h
    obtain ⟨rfl, rfl⟩ := Prod.mk.inj h
    exact ⟨a, Bool.not_eq_true _ ▸ hopens, hs, rfl⟩

/-- Two passes of the loop make a batch of each line. -/
theorem exists_run : ∃ s, PassRun lineByLine start
    [(bytes "[0]a\n", .SUBTASK_DONE), (bytes "[1]b\n", .TASK_DONE)] s ∧
      (s.run, s._stopped) = (.wait, false) := by
  have htrace : (Runs.trace passStep (oneLine ++ oneLine) [] start).map
      (fun (cuts, s) => (cuts, s.run, s._stopped)) =
      some ([(bytes "[0]a\n", .SUBTASK_DONE), (bytes "[1]b\n", .TASK_DONE)], .wait, false) := by
    decide +kernel
  obtain ⟨⟨cuts, s⟩, hs, heq⟩ := Option.map_eq_some_iff.mp htrace
  obtain ⟨rfl, hended⟩ := Prod.mk.inj heq
  have hrun : PassRun lineByLine start [] start := .start
  exact ⟨s, hrun.trace passStep_spec hs, hended⟩

theorem readsExactly : reader.ReadsExactly 0 [bytes "a\n", bytes "b\n"] :=
  (Lines.readsExactly_new_iff (by decide +kernel) (by decide +kernel) true).mpr (by decide +kernel)

end TwoLines

theorem createSubtask_batches_twoLines :
    CutsLines lineByLine [bytes "a\n", bytes "b\n"] TwoLines.start ∧
    ∃ cuts s, PassRun lineByLine TwoLines.start cuts s ∧ s._stopped = false ∧ s.run = .wait := by
  have hreach : Reachable lineByLine TwoLines.start :=
    ⟨[], Runs.reached_of_foldlM (opening [0, 0, 0, 0] (some (bytes "a\nb\n"))) rfl⟩
  have h := createSubtask_batches hreach rfl TwoLines.readsExactly (by decide)
  exact ⟨h, h.ends rfl fun s text => ⟨ShortRequest.drawn, ShortRequest.work, _, rfl⟩⟩

/-- Where the buffer is as large as a header the first batch is not the last one,
and without its last line it is no shorter than the size of a subtask. -/
theorem createSubtask_batches_strict :
    TwoLines.reader.ReadsExactly 0 [bytes "a\n", bytes "b\n"] ∧
    ∃ s, PassRun lineByLine TwoLines.start
      [(bytes "[0]a\n", .SUBTASK_DONE), (bytes "[1]b\n", .TASK_DONE)] s ∧
      (s.run, s._stopped) = (.wait, false) ∧
      ∀ group : List Bytes, (group ++ [bytes "[0]a\n"]).flatten = bytes "[0]a\n" →
        ¬ group.flatten.length < size lineByLine := by
  obtain ⟨s, hrun, hended⟩ := TwoLines.exists_run
  exact ⟨TwoLines.readsExactly, s, hrun, hended, fun group _ => Nat.not_lt_zero _⟩

end ClientServer.TaskBuilder
