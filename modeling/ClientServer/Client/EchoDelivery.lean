import ClientServer.Client.Delivery
import ClientServer.Client.EchoEndToEnd

/-!
# What an echo server makes of the data stream

The client cuts its source into subtasks and encrypts them, and an echo server
answers each.  Where each text the client prints is the response to the text of the
subtask of the same number, what has been printed is a part of the source from its
beginning, cut between two lines; once every reply is printed it is the source.
-/

namespace ClientServer

open TaskBuilder (Offers Yields)

/-! ## The headers of the subtasks -/

namespace TaskBuilder

/-- The statuses of a builder. -/
def Working (_status : STATUS) : Prop :=
  _status = .NONE ∨ _status = .SUBTASK_DONE ∨ _status = .TASK_DONE ∨ _status = .ERROR ∨
    _status = .STOPPED

/-- A header that `compressEncryptSubtask` made. -/
def Heads (setup : ClientSetup) (header : HEADER) : Prop :=
  ∃ s₀ : State, Working s₀._status ∧ header = s₀.header setup

/-- A subtask with the header it was encrypted with. -/
def Headed (setup : ClientSetup) (subtask : Subtask) : Prop :=
  ∃ drawn work header _batch, Heads setup header ∧
    State.encrypted setup drawn work header _batch = .ok subtask._data ∧
    subtask._header = { header with field1Size := subtask._data.length }

structure HeadsAll (setup : ClientSetup) (s : State) : Prop where
  status : Working s._status
  lock : ∀ {lines : Lines} {alldone : Bool} {header : HEADER},
    s.run = .lock lines alldone header → Heads setup header
  built : ∀ subtask ∈ s.built, Headed setup subtask
  taken : ∀ subtask ∈ s.taken, Headed setup subtask

variable {setup : ClientSetup} {s s' : State}

theorem HeadsAll.initial (_task : List Subtask) : HeadsAll setup (State.initial _task) where
  status := .inl rfl
  lock h := by cases h
  built _ h := by cases h
  taken _ h := by cases h

/-- Where the builder goes next is not in front of the lock. -/
theorem HeadsAll.go (h : HeadsAll setup s) (hstatus : Working s'._status)
    (hrun : ∀ lines alldone header, s'.run ≠ .lock lines alldone header)
    (hbuilt : s'.built = s.built ∨ s'.built = []) (htaken : s'.taken = s.taken) :
    HeadsAll setup s' where
  status := hstatus
  lock hlock := absurd hlock (hrun _ _ _)
  built := by
    rcases hbuilt with hbuilt | hbuilt
    · rw [hbuilt]
      exact h.built
    · rw [hbuilt]
      exact fun _ hmem => by cases hmem
  taken := htaken ▸ h.taken

theorem HeadsAll.compressEncrypt (h : HeadsAll setup s) {lines : Lines} {alldone : Bool}
    {header : HEADER} (hpc : s.run = .lock lines alldone header) {drawn : Drawn}
    {work : cryptooperations.SenderBuffers}
    (hs : s.compressEncryptSubtask setup lines alldone header drawn work = some s') :
    HeadsAll setup s' := by
  rw [State.compressEncryptSubtask] at hs
  split at hs
  next =>
    obtain rfl := Option.some.inj hs
    exact h.go h.status (fun _ _ _ hlock => by cases hlock) (.inl rfl) rfl
  next =>
    split at hs
    next =>
      rw [throws_eq_some hs]
      exact h.go h.status (fun _ _ _ hlock => by cases hlock) (.inl rfl) rfl
    next dataView hencrypted =>
      have hheaded : Headed setup ⟨dataView, { header with field1Size := dataView.length }⟩ :=
        ⟨drawn, work, header, s._batch, h.lock hpc, hencrypted, rfl⟩
      have hbuilt := List.forall_mem_append.mpr ⟨h.built, List.forall_mem_singleton.mpr hheaded⟩
      dsimp only at hs
      split at hs
      next => cases hs
      next =>
        split at hs
        next =>
          obtain rfl := Option.some.inj hs
          exact ⟨.inr (.inr (.inl rfl)), (fun hlock => by cases hlock), hbuilt, h.taken⟩
        next =>
          obtain rfl := Option.some.inj hs
          exact ⟨.inr (.inl rfl), (fun hlock => by cases hlock), hbuilt, h.taken⟩

/-- The builder anywhere else. -/
theorem HeadsAll.runStep (h : HeadsAll setup s) {pc : RunPc}
    (hpc : ∀ lines alldone header, pc ≠ .lock lines alldone header)
    (hs : RunStep setup s pc s') : HeadsAll setup s' := by
  cases hs with
  | readsStatus =>
      refine ⟨h.status, fun hlock => ?_, h.built, h.taken⟩
      cases hlock
      exact ⟨s, h.status, rfl⟩
  | clears => exact h.go h.status (fun _ _ _ hlock => by cases hlock) (.inr rfl) rfl
  | stores =>
      exact h.go (.inr (.inr (.inr (.inl rfl)))) (fun _ _ _ hlock => by cases hlock) (.inl rfl) rfl
  | findsStopped | encryptThrows | taskDone | subtaskDone => exact absurd rfl (hpc _ _ _)
  | leaves | enters | opens | openThrows | begins | readThrows | noLine | copies | goesOn
  | resumes | blocks | releases | wakes =>
      exact h.go h.status (fun _ _ _ hlock => by cases hlock) (.inl rfl) rfl

/-- The client wakes the builder at most. -/
theorem HeadsAll.wake (h : HeadsAll setup s) (hstatus : Working s'._status)
    (hrun : s'.run = s.run ∨ s'.run = .notified) (hbuilt : s'.built = s.built)
    (htaken : s'.taken = s.taken ∨ s'.taken = s.built) : HeadsAll setup s' where
  status := hstatus
  lock hlock := by
    rcases hrun with hrun | hrun
    · exact h.lock (hrun.symm.trans hlock)
    · cases hrun.symm.trans hlock
  built := hbuilt ▸ h.built
  taken := by
    rcases htaken with htaken | htaken
    · exact htaken ▸ h.taken
    · exact htaken ▸ h.built

theorem run_notifyResume (s : State) :
    s.notifyResume.run = s.run ∨ s.notifyResume.run = .notified := by
  rcases notifyResume_cases s with hrun | ⟨-, hrun⟩
  · exact .inl hrun
  · exact .inr hrun

theorem HeadsAll.clientStep (h : HeadsAll setup s) {pc : ClientPc}
    (hs : ClientStep setup s pc s') : HeadsAll setup s' := by
  cases hs with
  | takes => exact h.wake h.status (.inl rfl) rfl (.inr rfl)
  | resumes =>
      show HeadsAll setup { s.resume with client := _ }
      rw [State.resume]
      split
      next => exact h.wake h.status (.inl rfl) rfl (.inl rfl)
      next => exact h.wake (.inl rfl) (run_notifyResume _) rfl (.inl rfl)
  | stops =>
      exact h.wake (.inr (.inr (.inr (.inr rfl)))) (run_notifyResume _) rfl (.inl rfl)
  | finds | findsNone | blocks | sleeps | fails | keeps | sends | sendFails | repeats | ends | stopsNone
  | wakes => exact h.wake h.status (.inl rfl) rfl (.inl rfl)

theorem HeadsAll.step (h : HeadsAll setup s) {a : Action} (hs : step setup a s = some s') :
    HeadsAll setup s' := by
  cases ha : a.ofBuilder with
  | false => exact h.clientStep (client_step ha hs)
  | true =>
      cases a with
      | compressEncrypt drawn work =>
          rw [TaskBuilder.step] at hs
          split at hs
          next hpc =>
            split at hs
            next => cases hs
            next => exact h.compressEncrypt hpc hs
          next => cases hs
      | run =>
          refine h.runStep (fun lines alldone header hpc => ?_) (builder_step ha hs)
          rw [TaskBuilder.step, State.runStep, hpc] at hs
          cases hs
      | openSource _ _ | wakeRun =>
          refine h.runStep (fun lines alldone header hpc => ?_) (builder_step ha hs)
          rw [TaskBuilder.step, hpc] at hs
          cases hs
      | client | sent | wakeClient => cases ha

theorem Reached.headsAll {allowed : Action → State → Prop} (h : Reached setup allowed s) :
    HeadsAll setup s := by
  obtain ⟨_task, h⟩ := h
  exact h.invariant (HeadsAll.initial _task) fun hheads _ hs => hheads.step hs

/-- What the client has to send was made by the builder. -/
theorem Reached.headed {allowed : Action → State → Prop} (h : Reached setup allowed s)
    {subtasks : List Subtask} (hoffers : Offers s subtasks) :
    ∀ subtask ∈ subtasks, Headed setup subtask := by
  cases hoffers with
  | built => exact h.headsAll.built
  | returned hclient =>
      rw [(h.taken.returned hclient).take]
      exact h.headsAll.taken
  | sending hclient =>
      rw [(h.taken.sending hclient).take]
      exact h.headsAll.taken

end TaskBuilder

/-! ## The lines of the subtasks -/

namespace Deployment

variable {d : Deployment}

/-- The compressors and the diagnostics of the client are ones the codec knows. -/
structure Configured (options : ClientOptions) : Prop where
  compressor : CharEnum.Valid options._compressor
  diagnostics : CharEnum.Valid options._diagnostics

theorem heads_ofPayload (hoptions : Configured d.clientOptions) {header : HEADER}
    (h : TaskBuilder.Heads d.builder header) : header.OfPayload := by
  obtain ⟨s₀, hstatus, rfl⟩ := h
  have hheaderType : CharEnum.Valid HEADERTYPE.SESSION := by decide
  have hzero : 0 < 10 ^ FIELD1_SIZE := by decide
  have hvalid : CharEnum.Valid s₀._status := by
    rcases hstatus with h | h | h | h | h
    all_goals
      rw [h]
      decide
  exact ⟨⟨hheaderType, hoptions.compressor, hoptions.diagnostics, hvalid⟩,
    ⟨hzero, hzero, hzero, hzero⟩, rfl, rfl⟩

/-- The text a subtask of the builder carries is the text it was made of. -/
theorem Sound.made (h : d.Sound) (hoptions : Configured d.clientOptions) {subtask : Subtask}
    {text : Bytes} (hheaded : TaskBuilder.Headed d.builder subtask)
    (hseals : TaskBuilder.Seals d.builder subtask text) (hfits : Fits subtask._data)
    (hrefused : d.up.Refused subtask._data) (hcounted : SizeKept d.clientOptions._compressor text) :
    d.Made subtask text := by
  obtain ⟨drawn, work, header, _batch, hheads, hencrypted, heq⟩ := hheaded
  obtain ⟨drawn', work', s, hsealed⟩ := hseals
  have hheader := heads_ofPayload hoptions hheads
  have hzero : 0 < 10 ^ FIELD1_SIZE := by decide
  rw [builder_encrypted] at hencrypted hsealed
  have hfit : (s.header d.builder).SizesFit := ⟨hzero, hzero, hzero, hzero⟩
  have hvalid := h.up.valid hheader hfit hencrypted hsealed hrefused
  refine ⟨?_, congrArg HEADER.field1Size heq, hcounted, drawn', work', _, hsealed,
    ⟨hvalid, hfit, rfl, rfl⟩, rfl, rfl⟩
  rw [heq]
  exact ⟨⟨hheader.valid.headerType, hheader.valid.compressor, hheader.valid.diagnostics,
    hheader.valid.status⟩, ⟨hfits, hheader.sizesFit.field2Size, hheader.sizesFit.field3Size,
    hheader.sizesFit.field4Size⟩, hheader.field3Size, hheader.field4Size⟩

variable (d) in
/-- The engine of an echo server, as far as its responses can be returned. -/
def EchoEngine (options : ServerOptions) (_ : HEADER) (request response : Bytes) : Prop :=
  EchoReply options request response ∧ d.Returns response

theorem length_rowsText_le {groups : List (List (Bytes × Nat))} {group : List (Bytes × Nat)}
    (hmem : group ∈ groups) : (rowsText group).length ≤ (rowsText groups.flatten).length := by
  induction groups with
  | nil => cases hmem
  | cons first groups ih =>
      rw [List.flatten_cons, rowsText_append, List.length_append]
      rcases List.mem_cons.mp hmem with rfl | hmem
      · exact Nat.le_add_right _ _
      · exact (ih hmem).trans (Nat.le_add_left _ _)

theorem Sound.madeAll (h : d.Sound) (hoptions : Configured d.clientOptions)
    {subtasks : List Subtask} {groups : List (List (Bytes × Nat))}
    (hgroups : List.Forall₂
      (fun subtask group => TaskBuilder.Seals d.builder subtask (rowsText group)) subtasks groups)
    (hheaded : ∀ subtask ∈ subtasks, TaskBuilder.Headed d.builder subtask)
    (hfits : ∀ subtask ∈ subtasks, Fits subtask._data ∧ d.up.Refused subtask._data)
    (hcounted : ∀ group ∈ groups, SizeKept d.clientOptions._compressor (rowsText group)) :
    List.Forall₂ d.Made subtasks (groups.map rowsText) := by
  induction hgroups with
  | nil => exact .nil
  | cons hseals _ ih =>
      rw [List.forall_mem_cons] at hheaded hfits hcounted
      exact .cons (h.made hoptions hheaded.1 hseals hfits.1.1 hfits.1.2 hcounted.1)
        (ih hheaded.2 hfits.2 hcounted.2)

/-- What is printed of some groups of rows are their lines. -/
theorem printed_eq {options : ServerOptions} {groups : List (List (Bytes × Nat))}
    (hrows : ∀ group ∈ groups, ∀ row ∈ group, 10 ∉ row.1 ∧ HasSizeKey options._useRegex row.1)
    {printed : List Bytes}
    (h : List.Forall₂ (d.Responded (d.EchoEngine options)) (groups.map rowsText) printed) :
    printed.flatten = sourceText groups.flatten := by
  induction groups generalizing printed with
  | nil =>
      cases h
      rfl
  | cons group groups ih =>
      rw [List.forall_mem_cons] at hrows
      cases h with
      | cons hresponded hrest =>
          obtain ⟨_, -, hreply, -⟩ := hresponded
          rw [List.flatten_cons, hreply.eq_lines hrows.1, ih hrows.2 hrest, List.flatten_cons,
            sourceText, sourceText, List.map_append, List.flatten_append]

/-! ## The data stream -/

/-- Rows without their numbers are lines. -/
theorem sourceText_take (lines : List Bytes) (n : Nat) :
    sourceText (lines.zipIdx.take n) = ((lines.take n).map (· ++ bytes "\n")).flatten := by
  have hmap : (lines.zipIdx.take n).map (fun row => row.1 ++ bytes "\n") =
      ((lines.zipIdx.take n).map Prod.fst).map (· ++ bytes "\n") := by
    rw [List.map_map]
    rfl
  rw [sourceText, hmap, List.map_take, List.zipIdx_map_fst]

/-- Groups from the beginning are rows from the beginning. -/
theorem flatten_take_eq {groups : List (List (Bytes × Nat))} {rows : List (Bytes × Nat)}
    (h : groups.flatten = rows) (p : Nat) :
    (groups.take p).flatten = rows.take (groups.take p).flatten.length := by
  have hprefix : (groups.take p).flatten <+: rows := by
    refine ⟨(groups.drop p).flatten, ?_⟩
    rw [← List.flatten_append, List.take_append_drop, h]
  exact List.prefix_iff_eq_take.mp hprefix

/-- The texts printed are the source up to the end of some line, and all of it once
there is one for every subtask. -/
theorem Sound.printed_source (h : d.Sound) (hoptions : Configured d.clientOptions)
    {options : ServerOptions} {lines : List Bytes} (hcount : lines.length ≤ TASK_MAX_SIZE)
    (hlines : ∀ line ∈ lines, 10 ∉ line ∧ HasSizeKey options._useRegex line)
    (hcounted : SizeKept d.clientOptions._compressor (rowsText lines.zipIdx))
    {builder : TaskBuilder.State}
    (hbuilder : TaskBuilder.Reached d.builder (Yields lines) builder) {subtasks : List Subtask}
    (hoffers : Offers builder subtasks)
    (hfits : ∀ subtask ∈ subtasks, Fits subtask._data ∧ d.up.Refused subtask._data)
    {sent : List Subtask} (hsent : sent <+: subtasks) {printed : List Bytes}
    (hle : printed.length ≤ sent.length)
    (hresponses : ∀ {texts}, List.Forall₂ d.Made sent texts →
      List.Forall₂ (d.Responded (d.EchoEngine options)) (texts.take printed.length) printed) :
    (∃ n, printed.flatten = ((lines.take n).map (· ++ bytes "\n")).flatten) ∧
      (printed.length = subtasks.length →
        printed.flatten = (lines.map (· ++ bytes "\n")).flatten) := by
  obtain ⟨groups, hflatten, hgroups⟩ := hbuilder.carries hcount hoffers
  have hmade := h.madeAll hoptions hgroups (hbuilder.headed hoffers) hfits fun group hmem =>
    hcounted.mono (hflatten ▸ length_rowsText_le hmem)
  rw [List.prefix_iff_eq_take] at hsent
  have hmadeSent := List.forall₂_take sent.length hmade
  rw [← hsent] at hmadeSent
  have hprinted := hresponses hmadeSent
  rw [List.take_take, Nat.min_eq_left hle, ← List.map_take] at hprinted
  have hrows : ∀ group ∈ groups.take printed.length, ∀ row ∈ group,
      10 ∉ row.1 ∧ HasSizeKey options._useRegex row.1 := by
    intro group hgroup row hrow
    have hmem : row ∈ lines.zipIdx :=
      hflatten ▸ List.mem_flatten.mpr ⟨group, List.mem_of_mem_take hgroup, hrow⟩
    exact hlines row.1 (List.fst_mem_of_mem_zipIdx hmem)
  have hsource := printed_eq hrows hprinted
  rw [flatten_take_eq hflatten, sourceText_take] at hsource
  refine ⟨⟨_, hsource⟩, fun hall => ?_⟩
  rw [hsource, hall, hgroups.length_eq, List.take_length, hflatten, List.length_zipIdx,
    List.take_length]

end Deployment

/- The first of the two lines of the source is the subtask of `OneReply`. -/
namespace TwoLines

open OneReply TaskBuilder Deployment

/-- Only the source is opened. -/
def yields : TaskBuilder.Action → TaskBuilder.State → Bool
  | .openSource _buffer file, _ => _buffer == LineByLine._buffer && file == some LineByLine.source
  | _, _ => true

theorem yields_of (a : TaskBuilder.Action) (s : TaskBuilder.State) (h : yields a s = true) :
    Yields LineByLine.lines a s := by
  cases a with
  | openSource _buffer file =>
      rw [yields, Bool.and_eq_true, beq_iff_eq, beq_iff_eq] at h
      obtain ⟨rfl, rfl⟩ := h
      intro reader hopen
      obtain rfl := Except.ok.inj hopen
      exact (Lines.readsExactly_new_iff (by decide +kernel) (by decide +kernel) true).mpr
        (by decide +kernel)
  | run | compressEncrypt | wakeRun | client | sent | wakeClient => trivial

def actions : List TaskBuilder.Action :=
  opening LineByLine._buffer (some LineByLine.source) ++ (oneLine ++ oneLine)

def second : Subtask where
  _data := serialize { OneReply.payloadHeader 0 with status := .SUBTASK_DONE } ++
    bytes "[1]size=300x600\n"
  _header := { OneReply.payloadHeader 60 with status := .SUBTASK_DONE }

theorem exists_builder : ∃ s, TaskBuilder.Reached lineByLine (Yields LineByLine.lines) s ∧
    (s.run.stage, s._stopped, s.built) =
      (.wait, false, [OneReply.subtask, second]) := by
  have hrun : ∃ s, Runs.Reached (TaskBuilder.step lineByLine) (Yields LineByLine.lines)
      (TaskBuilder.State.initial []) s ∧ (s.run.stage, s._stopped, s.built) =
        (.wait, false, [OneReply.subtask, second]) :=
    Runs.exists_reached_of_check yields_of actions (by decide +kernel)
  obtain ⟨s, hs, hrun⟩ := hrun
  exact ⟨s, ⟨[], hs⟩, hrun⟩

theorem hasSizeKey : ∀ line ∈ LineByLine.lines, 10 ∉ line ∧ HasSizeKey false line := by
  decide +kernel

/-- The only reply is the one of an echo server. -/
theorem echoEngine {header : HEADER} {request response : Bytes}
    (h : OneReply.oneReply header request response) :
    deployment.EchoEngine LineByLine.options header request response := by
  refine ⟨?_, returns_reply h⟩
  obtain ⟨rfl, rfl⟩ := h
  have hrows : ∀ row ∈ [(bytes "[7]kippa", 0)], 10 ∉ row.1 ∧ HasSizeKey false row.1 :=
    List.forall_mem_singleton.mpr (hasSizeKey _ (List.mem_cons_self ..))
  obtain ⟨reply, hreply⟩ := @exists_echoReply LineByLine.options _ rfl (hasSizeKey_rowsText hrows)
  rw [show OneReply.reply = reply from (hreply.eq_lines hrows).symm]
  exact hreply

theorem exists_offers : ∃ builder, TaskBuilder.Reached lineByLine (Yields LineByLine.lines) builder ∧
    Offers builder [subtask, second] := by
  obtain ⟨builder, hreached, hbuilt⟩ := exists_builder
  obtain ⟨hstage, hstopped, hbuilt⟩ := by simpa using hbuilt
  exact ⟨builder, hreached, hbuilt ▸ .built hstage hstopped⟩

theorem fits_subtasks : ∀ t ∈ [subtask, second], Fits t._data ∧ deployment.up.Refused t._data := by
  have hfits : ∀ t ∈ [subtask, second], t._data.length < 10 ^ FIELD1_SIZE := by
    decide +kernel
  exact fun t hmem => ⟨hfits t hmem, refused rfl _⟩

end TwoLines

end ClientServer
