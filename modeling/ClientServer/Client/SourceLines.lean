import ClientServer.Client.PassEnds
import Mathlib.Data.List.Forall2

/-!
# The lines in the subtasks

Where the reader hands out the lines of the source one by one, the subtasks of a
pass carry these lines with their numbers, in order, whatever the size a subtask
is cut at.  The invariant follows the builder through the pass: what is built
carries the rows in front of the batch, the batch is the rows up to the reader.
-/

namespace ClientServer.TaskBuilder

/-- The data of a subtask comes from a text. -/
def Seals (setup : ClientSetup) (subtask : Subtask) (text : Bytes) : Prop :=
  ∃ drawn work, ∃ s : State,
    State.encrypted setup drawn work (s.header setup) text = .ok subtask._data

/-- Each of the subtasks has been made of some of the rows, in order. -/
def Carries (setup : ClientSetup) (subtasks : List Subtask) (rows : List (Bytes × Nat)) : Prop :=
  ∃ groups : List (List (Bytes × Nat)), groups.flatten = rows ∧
    List.Forall₂ (fun subtask group => Seals setup subtask (rowsText group)) subtasks groups

/-- The reader is in front of the line with this number. -/
def Ahead (lines : List Bytes) (reader : Lines) (n : Nat) : Prop :=
  reader.ReadsExactly n ((lines.drop n).map (· ++ [10]))

/-- The reader of a pass yields exactly the lines. -/
def Yields (lines : List Bytes) : Action → State → Prop
  | .openSource _buffer file, _ => ∀ reader, FileLines.new _buffer file 10 true = .ok reader →
      Ahead lines reader 0
  | _, _ => True

/-- The batch is made of the rows behind those in the subtasks. -/
structure Batched (setup : ClientSetup) (lines : List Bytes) (s : State) (n : Nat)
    (done group : List (Bytes × Nat)) : Prop where
  rows : done ++ group = lines.zipIdx.take n
  carries : Carries setup s.built done
  batch : s._batch = rowsText group

/-- What is read where the builder stands is in the subtasks and in the batch.  A
batch that is begun is not left before the last line. -/
def Covers (setup : ClientSetup) (lines : List Bytes) (s : State) : RunPc → Prop
  | .source => s.built = []
  | .createSubtask reader =>
      ∃ n, Ahead lines reader n ∧ Carries setup s.built (lines.zipIdx.take n)
  | .getLine reader => ∃ n done group, Ahead lines reader n ∧
      Batched setup lines s n done group ∧ (group = [] ∨ n < lines.length)
  | .compressEncrypt reader alldone => ∃ n done group, Ahead lines reader n ∧
      Batched setup lines s n done group ∧ (alldone = true → lines.length ≤ n)
  | .lock reader alldone header => (∃ n done group, Ahead lines reader n ∧
      Batched setup lines s n done group ∧ (alldone = true → lines.length ≤ n)) ∧
      ∃ s₀ : State, header = s₀.header setup
  | .loop | .clear | .wait | .waiting | .notified | .caught | .left | .released => True

variable {setup : ClientSetup} {lines : List Bytes} {s s' : State}

/-! ## One line -/

theorem Carries.nil : Carries setup [] [] := ⟨[], rfl, .nil⟩

theorem Carries.append {subtasks : List Subtask} {rows group : List (Bytes × Nat)}
    (h : Carries setup subtasks rows) {subtask : Subtask}
    (hseals : Seals setup subtask (rowsText group)) :
    Carries setup (subtasks ++ [subtask]) (rows ++ group) := by
  obtain ⟨groups, rfl, hgroups⟩ := h
  refine ⟨groups ++ [group], by simp, ?_⟩
  exact List.rel_append hgroups (.cons hseals .nil)

theorem Ahead.views {reader : Lines} {n : Nat} (h : Ahead lines reader n) :
    reader.ReadsExactly n ((lines.map (· ++ [10])).drop n) :=
  List.map_drop .. ▸ h

/-- What the reader hands out is the next line. -/
theorem Ahead.read {reader reader' : Lines} {n : Nat} {view : Bytes} (h : Ahead lines reader n)
    (hread : reader.getLineImpl = .ok (true, view, reader')) :
    ∃ line, lines[n]? = some line ∧ view = line ++ [10] ∧ reader'._index = n ∧
      (reader'._last = true ↔ lines.length ≤ n + 1) ∧ Ahead lines reader' (n + 1) := by
  obtain ⟨hview, hindex, hlast, hnext⟩ := h.views.next hread
  rw [List.getElem?_map] at hview
  obtain ⟨line, hline, rfl⟩ := Option.map_eq_some_iff.mp hview
  rw [List.length_map] at hlast
  rw [← List.map_drop] at hnext
  exact ⟨line, hline, rfl, hindex, hlast, hnext⟩

/-- It hands out all lines. -/
theorem Ahead.noLine {reader reader' : Lines} {n : Nat} {view : Bytes} (h : Ahead lines reader n)
    (hread : reader.getLineImpl = .ok (false, view, reader')) : lines.length ≤ n := by
  have hle := h.views.noLine hread
  rwa [List.length_map] at hle

theorem copyRequestWithId_eq {n : Nat} (hn : n < TASK_MAX_SIZE) (_batch line : Bytes) :
    State.copyRequestWithId _batch (line ++ [10]) n =
      .ok (_batch ++ (numberedRow n line ++ [10])) := by
  rw [copyRequestWithId_view hn, numberedRow, numberedRow, List.append_assoc]

theorem Batched.append {n : Nat} {done group : List (Bytes × Nat)}
    (h : Batched setup lines s n done group) {line : Bytes} (hline : lines[n]? = some line)
    (run : RunPc) :
    Batched setup lines { s with _batch := s._batch ++ (numberedRow n line ++ [10]), run := run }
      (n + 1) done (group ++ [(line, n)]) where
  rows := by
    rw [← List.append_assoc, h.rows, List.take_add_one, List.getElem?_zipIdx, hline]
    simp
  carries := h.carries
  batch := by
    show s._batch ++ _ = _
    rw [h.batch, rowsText_append]
    simp [rowsText]

/-! ## The builder -/

/-- The locked part of `compressEncryptSubtask`, with what the subtask is made of. -/
theorem lock_step {a : Action} {reader : Lines} {alldone : Bool} {header : HEADER}
    (ha : a.ofBuilder = true) (hpc : s.run = .lock reader alldone header)
    (hs : step setup a s = some s') :
    (s._stopped = true ∧ s'._stopped = true ∧ s'.built = s.built ∧ s'.run = .wait) ∨
      (s'.built = s.built ∧ s'.run = .caught) ∨
      ∃ subtask drawn work, s'._stopped = s._stopped ∧
        State.encrypted setup drawn work header s._batch = .ok subtask._data ∧
        s'.built = s.built ++ [subtask] ∧
        s'._status = (if alldone then .TASK_DONE else .SUBTASK_DONE) ∧
        s'.run = if alldone then .wait else .createSubtask reader := by
  cases a with
  | compressEncrypt drawn work =>
      simp only [step, hpc, State.compressEncryptSubtask, Option.ite_none_left_eq_some] at hs
      replace hs := hs.2
      split at hs
      next hstopped =>
        obtain rfl := Option.some.inj hs
        exact .inl ⟨hstopped, hstopped, rfl, rfl⟩
      next =>
        split at hs
        next fault _ =>
          rw [throws_eq_some hs]
          exact .inr (.inl ⟨rfl, rfl⟩)
        next dataView hencrypted =>
          split at hs
          next => cases hs
          next _subtasks _ =>
            refine .inr (.inr ⟨⟨dataView, { header with field1Size := dataView.length }⟩, drawn,
              work, ?_⟩)
            cases alldone with
            | true =>
                obtain rfl := Option.some.inj hs
                exact ⟨rfl, hencrypted, rfl, rfl, rfl⟩
            | false =>
                obtain rfl := Option.some.inj hs
                exact ⟨rfl, hencrypted, rfl, rfl, rfl⟩
  | run =>
      rw [step, State.runStep, hpc] at hs
      cases hs
  | openSource _buffer file =>
      rw [step, hpc] at hs
      cases hs
  | wakeRun =>
      rw [step, hpc] at hs
      cases hs
  | client | sent _ | wakeClient => cases ha

/-- What the builder reaches covers the lines, and a pass ends with all of them. -/
structure Follows (setup : ClientSetup) (lines : List Bytes) (s : State) : Prop where
  covers : Covers setup lines s s.run
  ended : s.run.stage = .wait → s._stopped = false → Carries setup s.built lines.zipIdx

theorem Follows.lock (h : Follows setup lines s) {a : Action} (ha : a.ofBuilder = true)
    {reader : Lines} {alldone : Bool} {header : HEADER}
    (hpc : s.run = .lock reader alldone header) (hs : step setup a s = some s') :
    Follows setup lines s' := by
  have hcovers := h.covers
  rw [hpc] at hcovers
  obtain ⟨⟨n, done, group, hahead, hbatched, hall⟩, s₀, rfl⟩ := hcovers
  rcases lock_step ha hpc hs with ⟨-, hstopped, -, hrun⟩ | ⟨-, hrun⟩ |
    ⟨subtask, drawn, work, -, hencrypted, hbuilt, -, hrun⟩
  · refine ⟨by rw [hrun]; trivial, fun _ hlive => ?_⟩
    rw [hstopped] at hlive
    cases hlive
  · refine ⟨by rw [hrun]; trivial, fun hstage => ?_⟩
    rw [hrun] at hstage
    cases hstage
  · rw [hbatched.batch] at hencrypted
    have hseals : Seals setup subtask (rowsText group) := ⟨drawn, work, s₀, hencrypted⟩
    have hcarries := hbatched.carries.append hseals
    rw [hbatched.rows, ← hbuilt] at hcarries
    cases alldone with
    | true =>
        refine ⟨by rw [hrun]; trivial, fun _ _ => ?_⟩
        rwa [List.take_of_length_le (by rw [List.length_zipIdx]; exact hall rfl)] at hcarries
    | false =>
        rw [if_neg Bool.false_ne_true] at hrun
        refine ⟨by rw [hrun]; exact ⟨n, hahead, hcarries⟩, fun hstage => ?_⟩
        rw [hrun] at hstage
        cases hstage

theorem Follows.source (h : Follows setup lines s) {a : Action} (ha : a.ofBuilder = true)
    (hyields : Yields lines a s) (hpc : s.run = .source) (hs : step setup a s = some s') :
    Follows setup lines s' := by
  have hbuilt := h.covers
  rw [hpc] at hbuilt
  cases a with
  | openSource _buffer file =>
      simp only [step, hpc, State.openSource] at hs
      split at hs
      next reader hopen =>
        obtain rfl := Option.some.inj hs
        refine ⟨⟨0, hyields reader hopen, ?_⟩, fun hstage => ?_⟩
        · show Carries setup s.built _
          rw [show s.built = [] from hbuilt, List.take_zero]
          exact .nil
        · cases hstage
      next fault _ =>
        rw [throws_eq_some hs]
        exact ⟨trivial, fun hstage => by cases hstage⟩
  | run =>
      rw [step, State.runStep, hpc] at hs
      cases hs
  | compressEncrypt drawn work =>
      rw [step, hpc] at hs
      cases hs
  | wakeRun =>
      rw [step, hpc] at hs
      cases hs
  | client | sent _ | wakeClient => cases ha

/-- A call of `getLine`: there is no more line, or the next one is put into the
batch. -/
theorem Follows.getLine (hcount : lines.length ≤ TASK_MAX_SIZE) (h : Follows setup lines s)
    {reader : Lines} (hpc : s.run = .getLine reader) (hs : s.getLine setup reader = some s') :
    Follows setup lines s' := by
  have hcovers := h.covers
  rw [hpc] at hcovers
  obtain ⟨n, done, group, hahead, hbatched, hbegun⟩ := hcovers
  unfold State.getLine at hs
  split at hs
  next fault _ =>
    rw [throws_eq_some hs]
    exact ⟨trivial, fun hstage => by cases hstage⟩
  next view reader' hread =>
    obtain rfl := Option.some.inj hs
    have hle := hahead.noLine hread
    obtain rfl := hbegun.resolve_right (Nat.not_lt.mpr hle)
    refine ⟨trivial, fun _ _ => ?_⟩
    have hrows := hbatched.rows
    rw [List.append_nil, List.take_of_length_le (by rwa [List.length_zipIdx])] at hrows
    exact hrows ▸ hbatched.carries
  next view reader' hread =>
    obtain ⟨line, hline, rfl, hindex, hlast, hahead'⟩ := hahead.read hread
    have hn := (List.getElem?_eq_some_iff.mp hline).1
    rw [hindex, copyRequestWithId_eq (Nat.lt_of_lt_of_le hn hcount)] at hs
    obtain rfl := Option.some.inj hs
    split
    next =>
      refine ⟨⟨n + 1, done, _, hahead', hbatched.append hline _, hlast.mp⟩, fun hstage => ?_⟩
      cases hstage
    next hmore =>
      rw [not_or, hlast, Nat.not_le (a := lines.length)] at hmore
      refine ⟨⟨n + 1, done, _, hahead', hbatched.append hline _, .inr hmore.2⟩, fun hstage => ?_⟩
      cases hstage

/-- The builder opens the source, reads a line or makes a subtask. -/
def RunPc.makes : RunPc → Bool
  | source | getLine _ | lock _ _ _ => true
  | loop | clear | createSubtask _ | compressEncrypt _ _ | wait | waiting | notified | caught
  | left | released => false

/-- A step of the builder anywhere else. -/
theorem Follows.runStep (h : Follows setup lines s) (hplain : s.run.makes = false)
    (hs : RunStep setup s s.run s') : Follows setup lines s' := by
  have hcovers := h.covers
  have hended := h.ended
  generalize s.run = pc at hs hcovers hended hplain
  cases hs with
  | leaves | enters | resumes | stores | releases =>
      exact ⟨trivial, fun hstage => by cases hstage⟩
  | clears => exact ⟨rfl, fun hstage => by cases hstage⟩
  | begins =>
      obtain ⟨n, hahead, hcarries⟩ := hcovers
      refine ⟨⟨n, _, [], hahead, ⟨List.append_nil _, hcarries, rfl⟩, .inl rfl⟩, fun hstage => ?_⟩
      cases hstage
  | readsStatus =>
      obtain ⟨n, done, group, hahead, hbatched, hall⟩ := hcovers
      refine ⟨⟨⟨n, done, group, hahead, ⟨hbatched.rows, hbatched.carries, hbatched.batch⟩, hall⟩,
        s, rfl⟩, fun hstage => ?_⟩
      cases hstage
  | blocks hwait =>
      refine ⟨trivial, fun _ => hended ?_⟩
      obtain rfl | rfl := hwait <;> rfl
  | wakes => exact ⟨trivial, fun _ => hended rfl⟩
  | _ => cases hplain

theorem Follows.builder (hcount : lines.length ≤ TASK_MAX_SIZE) (h : Follows setup lines s)
    {a : Action} (ha : a.ofBuilder = true) (hyields : Yields lines a s)
    (hs : step setup a s = some s') : Follows setup lines s' := by
  cases hpc : s.run with
  | source => exact h.source ha hyields hpc hs
  | lock reader alldone header => exact h.lock ha hpc hs
  | getLine reader =>
      cases a with
      | run =>
          rw [step, State.runStep, hpc] at hs
          exact h.getLine hcount hpc hs
      | openSource _ _ | compressEncrypt _ _ | wakeRun =>
          rw [step, hpc] at hs
          cases hs
      | client | sent _ | wakeClient => cases ha
  | _ => exact h.runStep (by rw [hpc]; rfl) (builder_step ha hs)

/-! ## The client -/

theorem notifyResume_cases (s : State) :
    s.notifyResume.run = s.run ∨ s.run = .waiting ∧ s.notifyResume.run = .notified := by
  show (if s.run = .waiting then RunPc.notified else s.run) = s.run ∨ s.run = .waiting ∧
    (if s.run = .waiting then RunPc.notified else s.run) = .notified
  cases Classical.em (s.run = .waiting) with
  | inl h =>
      rw [if_pos h]
      exact .inr ⟨h, rfl⟩
  | inr h =>
      rw [if_neg h]
      exact .inl rfl

/-- The client changes nothing of what the builder builds; it only wakes it. -/
theorem ClientStep.frame {pc : ClientPc} (hs : ClientStep setup s pc s') :
    s'.built = s.built ∧ s'._batch = s._batch ∧ (s'._stopped = false → s._stopped = false) ∧
      (s'.run = s.run ∨ s.run = .waiting ∧ s'.run = .notified) := by
  cases hs with
  | resumes =>
      show s.resume.built = _ ∧ s.resume._batch = _ ∧ (s.resume._stopped = false → _) ∧
        (s.resume.run = _ ∨ _ ∧ s.resume.run = _)
      rw [State.resume]
      split
      next => exact ⟨rfl, rfl, id, .inl rfl⟩
      next => exact ⟨rfl, rfl, id, notifyResume_cases _⟩
  | stops => exact ⟨rfl, rfl, (fun hlive => by cases hlive), notifyResume_cases _⟩
  | _ => exact ⟨rfl, rfl, id, .inl rfl⟩

theorem Batched.frame {n : Nat} {done group : List (Bytes × Nat)}
    (h : Batched setup lines s n done group) (hbuilt : s'.built = s.built)
    (hbatch : s'._batch = s._batch) : Batched setup lines s' n done group where
  rows := h.rows
  carries := hbuilt ▸ h.carries
  batch := hbatch.trans h.batch

theorem Covers.frame {pc : RunPc} (h : Covers setup lines s pc) (hbuilt : s'.built = s.built)
    (hbatch : s'._batch = s._batch) : Covers setup lines s' pc := by
  cases pc with
  | source => exact hbuilt.trans h
  | createSubtask reader =>
      obtain ⟨n, hahead, hcarries⟩ := h
      exact ⟨n, hahead, hbuilt ▸ hcarries⟩
  | getLine reader | compressEncrypt reader alldone =>
      obtain ⟨n, done, group, hahead, hbatched, hend⟩ := h
      exact ⟨n, done, group, hahead, hbatched.frame hbuilt hbatch, hend⟩
  | lock reader alldone header =>
      obtain ⟨⟨n, done, group, hahead, hbatched, hend⟩, hheader⟩ := h
      exact ⟨⟨n, done, group, hahead, hbatched.frame hbuilt hbatch, hend⟩, hheader⟩
  | loop | clear | wait | waiting | notified | caught | left | released => trivial

theorem Follows.client (h : Follows setup lines s) {pc : ClientPc}
    (hs : ClientStep setup s pc s') : Follows setup lines s' := by
  obtain ⟨hbuilt, hbatch, hlive, hrun⟩ := hs.frame
  constructor
  · rcases hrun with hrun | ⟨-, hrun⟩
    · rw [hrun]
      exact h.covers.frame hbuilt hbatch
    · rw [hrun]
      trivial
  · intro hstage hstopped
    rw [hbuilt]
    refine h.ended ?_ (hlive hstopped)
    rcases hrun with hrun | ⟨hwaiting, -⟩
    · rwa [hrun] at hstage
    · rw [hwaiting]
      rfl

theorem Follows.initial (_task : List Subtask) : Follows setup lines (State.initial _task) where
  covers := trivial
  ended hstage := by cases hstage

theorem Reached.follows (hcount : lines.length ≤ TASK_MAX_SIZE)
    (h : Reached setup (Yields lines) s) : Follows setup lines s := by
  obtain ⟨_task, h⟩ := h
  refine h.invariant (Follows.initial _task) fun {a} _ _ hfollows hyields hs => ?_
  cases ha : a.ofBuilder with
  | true => exact hfollows.builder hcount ha hyields hs
  | false => exact hfollows.client (client_step ha hs)

/-! ## What the client sends -/

/-- What the client has taken carries all lines. -/
structure TakenAll (setup : ClientSetup) (lines : List Bytes) (s : State) : Prop where
  returned : ∀ {size : Nat}, s.client = .returned size .TASK_DONE →
    Carries setup s.taken lines.zipIdx
  sending : ∀ {size i : Nat}, s.client = .sending size i → Carries setup s.taken lines.zipIdx

theorem TakenAll.runStep {pc : RunPc} (h : TakenAll setup lines s) (hs : RunStep setup s pc s') :
    TakenAll setup lines s' := by
  obtain ⟨-, htaken, hclient⟩ := hs.frame
  rcases hclient with hclient | ⟨-, hclient⟩
  · constructor
    · intro size hsize
      rw [htaken]
      exact h.returned (hclient.symm.trans hsize)
    · intro size i hsize
      rw [htaken]
      exact h.sending (hclient.symm.trans hsize)
  · constructor
    · intro size hsize
      cases hclient.symm.trans hsize
    · intro size i hsize
      cases hclient.symm.trans hsize

theorem TakenAll.clientStep (hphase : Phase setup s) (hfollows : Follows setup lines s)
    (h : TakenAll setup lines s) (hs : ClientStep setup s s.client s') :
    TakenAll setup lines s' := by
  generalize hpc : s.client = pc at hs
  cases hs with
  | takes hgetTask =>
      rw [← hpc] at hgetTask
      constructor
      · intro size hsize
        obtain ⟨rfl, hstatus⟩ := ClientPc.returned.inj hsize
        have hdone := hphase.done_of_getTask hgetTask hstatus
        exact hfollows.ended hdone.stage hdone.stopped
      · intro size i hsize
        cases hsize
  | resumes hstatus =>
      rw [(hphase.returned_status hpc).resolve_right hstatus] at hpc
      constructor
      · intro size hsize
        cases hsize
      · intro size i hsize
        show Carries setup s.resume.taken _
        rw [(resume_frame s).2]
        exact h.returned hpc
  | keeps hstatus =>
      rw [(hphase.returned_status hpc).resolve_right hstatus] at hpc
      constructor
      · intro size hsize
        cases hsize
      · intro size i hsize
        exact h.returned hpc
  | sends =>
      constructor
      · intro size hsize
        cases hsize
      · intro size i hsize
        exact h.sending hpc
  | _ => exact ⟨nofun, nofun⟩

theorem Reached.takenAll (hcount : lines.length ≤ TASK_MAX_SIZE)
    (h : Reached setup (Yields lines) s) : TakenAll setup lines s := by
  obtain ⟨_task, h⟩ := h
  refine (h.invariant (P := fun s => Phase setup s ∧ Follows setup lines s ∧ TakenAll setup lines s)
    ⟨Phase.initial _task, Follows.initial _task, ⟨nofun, nofun⟩⟩ ?_).2.2
  intro a s s' ⟨hphase, hfollows, htaken⟩ hyields hs
  refine ⟨hphase.step hs, ?_⟩
  cases ha : a.ofBuilder with
  | true =>
      exact ⟨hfollows.builder hcount ha hyields hs, htaken.runStep (builder_step ha hs)⟩
  | false =>
      have hs' := client_step ha hs
      exact ⟨hfollows.client hs', htaken.clientStep hphase hfollows hs'⟩

/-- The subtasks of a task: what is built once the pass has ended, and what the
client took and sends. -/
inductive Offers (s : State) : List Subtask → Prop where
  | built : s.run.stage = .wait → s._stopped = false → Offers s s.built
  | returned {size : Nat} : s.client = .returned size .TASK_DONE → Offers s (s._task.take size)
  | sending {size i : Nat} : s.client = .sending size i → Offers s (s._task.take size)

theorem Reached.carries (hcount : lines.length ≤ TASK_MAX_SIZE)
    (h : Reached setup (Yields lines) s) {subtasks : List Subtask} (hoffers : Offers s subtasks) :
    Carries setup subtasks lines.zipIdx := by
  cases hoffers with
  | built hstage hstopped => exact (h.follows hcount).ended hstage hstopped
  | returned hclient =>
      rw [(h.taken.returned hclient).take]
      exact (h.takenAll hcount).returned hclient
  | sending hclient =>
      rw [(h.taken.sending hclient).take]
      exact (h.takenAll hcount).sending hclient

/-! ## A pass comes to its end -/

theorem Reached.next {allowed : Action → State → Prop} (h : Reached setup allowed s) {a : Action}
    (ha : allowed a s) (hs : step setup a s = some s') : Reached setup allowed s' := by
  obtain ⟨_task, h⟩ := h
  exact ⟨_task, h.step ha hs⟩

/-- A builder in a pass, with a client that has not begun. -/
structure Alone (setup : ClientSetup) (lines : List Bytes) (s : State) : Prop where
  reached : Reached setup (Yields lines) s
  client : s.client = .processTask
  stopped : s._stopped = false

theorem Alone.building (h : Alone setup lines s) (hstage : s.run.stage = .pass) : Building s :=
  (h.reached.phase.of_pass hstage).resolve_right fun hstopped => by
    cases h.client.symm.trans hstopped.1

/-- The builder goes on alone. -/
theorem Alone.going : Going setup (Alone setup lines) where
  keeps {s s' a} h ha hopens hs := by
    have hyields : Yields lines a s := by
      cases a with
      | openSource => cases hopens
      | run | compressEncrypt | wakeRun | client | sent | wakeClient => trivial
    have hstep := builder_step ha hs
    refine ⟨h.reached.next hyields hs, ?_, hstep.stopped.trans h.stopped⟩
    rcases hstep.frame.2.2 with hclient | ⟨hwaiting, -⟩
    · exact hclient.trans h.client
    · exact nomatch h.client.symm.trans hwaiting
  live h := h.stopped
  sleeps h hlocked := by
    rw [State.locked, h.client] at hlocked
    cases hlocked
  index h hrun := by
    have hbuilt := (h.building (by rw [hrun]; rfl)).built
    rw [hrun] at hbuilt
    exact hbuilt.1.index_le

/-- A pass over the lines can come to its end. -/
theorem exists_pass (hcount : lines.length ≤ TASK_MAX_SIZE) (hencrypts : Encrypts setup)
    {_buffer : Bytes} {file : Option Bytes} {reader : Lines}
    (hopen : FileLines.new _buffer file 10 true = .ok reader) (hahead : Ahead lines reader 0) :
    ∃ s, Alone setup lines s ∧ s.run = .wait ∧ (lines ≠ [] → s._status = .TASK_DONE) := by
  let entered : State := { State.initial [] with run := .source }
  have hentered : Reached setup (Yields lines) entered :=
    ⟨[], .step (a := .run) (.step (a := .run) .start trivial rfl) trivial rfl⟩
  have hyields : Yields lines (.openSource _buffer file) entered := by
    intro reader' hopen'
    obtain rfl := Except.ok.inj (hopen.symm.trans hopen')
    exact hahead
  have hopens : step setup (.openSource _buffer file) entered =
      some { entered with run := .createSubtask reader } := by
    show entered.openSource _buffer file = _
    rw [State.openSource, hopen]
  have hopened := hentered.next hyields hopens
  have halone : Alone setup lines { entered with run := .getLine reader } :=
    ⟨@Reached.next setup _ _ _ hopened .run trivial rfl, rfl, rfl⟩
  cases hlines : lines with
  | nil =>
      subst hlines
      have hstep : step setup .run { entered with run := .getLine reader } =
          some { entered with run := .wait } := by
        have hread : reader.getLineImpl = .ok (false, [], reader) := hahead
        show State.getLine setup _ reader = _
        rw [State.getLine, hread]
      exact ⟨_, ⟨@Reached.next setup _ _ _ halone.reached .run trivial hstep, rfl, rfl⟩, rfl,
        fun hne => absurd rfl hne⟩
  | cons line rest =>
      have hleft : 0 + (rest.length + 1) = (lines.map (· ++ [10])).length := by
        rw [hlines, List.length_map, List.length_cons, Nat.zero_add]
      obtain ⟨s, hs, hwait, hdone⟩ := Alone.going.pass (by rwa [List.length_map]) hencrypts halone
        rfl hahead.views hleft
      rw [← hlines]
      exact ⟨s, hs, hwait, fun _ => hdone⟩

/-- Where there are lines the client can get the task. -/
theorem exists_offers (hcount : lines.length ≤ TASK_MAX_SIZE) (hencrypts : Encrypts setup)
    {_buffer : Bytes} {file : Option Bytes} {reader : Lines}
    (hopen : FileLines.new _buffer file 10 true = .ok reader) (hahead : Ahead lines reader 0) :
    ∃ s subtasks, Reached setup (Yields lines) s ∧ Offers s subtasks ∧
      (lines ≠ [] → ∃ size, s.client = .returned size .TASK_DONE) := by
  obtain ⟨s, hs, hwait, hdone⟩ := exists_pass hcount hencrypts hopen hahead
  cases Classical.em (lines = []) with
  | inl hnil =>
      refine ⟨s, s.built, hs.reached, .built ?_ hs.stopped, fun hne => absurd hnil hne⟩
      rw [hwait]
      rfl
  | inr hne =>
      have hfinds : step setup .client s = some { s with client := .getTask } := by
        rw [step, State.clientStep, hs.client, hwait]
        rfl
      have htakes : step setup .client { s with client := .getTask } = some { s with
          _task := s._subtasks
          _subtasks := s._task
          taken := s.built
          client := .returned (s._subtaskIndex + 1).toNat .TASK_DONE } := by
        simp only [step, State.clientStep, State.getTask, State.ready, hdone hne, if_true]
      have hgetTask : Reached setup (Yields lines) { s with client := .getTask } :=
        @Reached.next setup _ _ _ hs.reached .client trivial hfinds
      exact ⟨_, _, @Reached.next setup _ _ _ hgetTask .client trivial htakes, .returned rfl,
        fun _ => ⟨_, rfl⟩⟩

end ClientServer.TaskBuilder
