import ClientServer.Client.BatchCutting
import ClientServer.Common.LinesCount

/-!
# The numbers of the requests

`createSubtask` passes the reader's count of lines to `getRequestId`, which looks
it up in a table of `TASK_MAX_SIZE` numbers.  The count runs through the whole
source, whatever the batches are.  So the lookups of a pass are those of the first
numbers, one after the other, and a source with more lines leaves the table.

A lookup outside the table is no step: what the builder is about to look up is
read off its state.
-/

namespace ClientServer.TaskBuilder

/-- The index that the builder passes to `getRequestId` in its next step. -/
def State.lookup (s : State) : Option Nat :=
  match s.run with
  | .getLine lines =>
      match lines.getLineImpl with
      | .ok (true, _, lines) => some (lines._index % 2 ^ 64).toNat
      | _ => none
  | _ => none

def looked (a : Action) (s : State) : Option Nat :=
  match a with
  | .run => s.lookup
  | .openSource _ _ | .compressEncrypt _ _ | .wakeRun | .client | .sent _ | .wakeClient => none

/-- A step of the builder or of the client until the source is opened again. -/
def LookupStep (setup : ClientSetup) (s : State) (label : Option Nat) (s' : State) : Prop :=
  ∃ a, a.opens = false ∧ step setup a s = some s' ∧ label = looked a s

/-- The lookups from a state on. -/
abbrev LookupRun (setup : ClientSetup) (start : State) : List Nat → State → Prop :=
  Runs.Run (LookupStep setup) start

/-- The lookups of a pass, with the one that is about to be made. -/
structure InTable (setup : ClientSetup) (start : State) : Prop where
  inBounds : ∀ {indices : List Nat} {s : State}, LookupRun setup start indices s →
    ∀ index ∈ indices ++ s.lookup.toList, index < TASK_MAX_SIZE
  distinct : ∀ {indices : List Nat} {s : State}, LookupRun setup start indices s →
    (indices ++ s.lookup.toList).Pairwise fun index index' =>
      getRequestId index ≠ getRequestId index'

/-! ## The numbers so far -/

/-- Where the builder has a reader, it is this one behind so many lines. -/
def Reading (first : Lines) (n : Nat) : RunPc → Prop
  | .createSubtask reader | .getLine reader | .compressEncrypt reader _ | .lock reader _ _ =>
      first.Handed n reader
  | .loop | .clear | .source | .wait | .waiting | .notified | .caught | .left | .released => True

/-- The first numbers have been looked up, one for each line. -/
structure Numbered (first : Lines) (indices : List Nat) (s : State) : Prop where
  consecutive : indices = List.range indices.length
  length_le : indices.length ≤ TASK_MAX_SIZE
  reading : Reading first indices.length s.run

variable {setup : ClientSetup} {first reader reader' : Lines} {indices : List Nat} {s s' : State}
  {view : Bytes}

theorem lookup_of_getLine (hpc : s.run = .getLine reader)
    (hread : reader.getLineImpl = .ok (true, view, reader')) :
    s.lookup = some (reader'._index % 2 ^ 64).toNat := by
  simp only [State.lookup, hpc, hread]

/-- A lookup is that of a line. -/
theorem exists_of_lookup {index : Nat} (h : s.lookup = some index) :
    ∃ reader view reader', s.run = .getLine reader ∧
      reader.getLineImpl = .ok (true, view, reader') ∧
      (reader'._index % 2 ^ 64).toNat = index := by
  rw [State.lookup] at h
  split at h
  next reader hpc =>
    split at h
    next view reader' hread => exact ⟨reader, view, reader', hpc, hread, Option.some.inj h⟩
    next => cases h
  next => cases h

theorem lookup_eq_none (h : ∀ reader, s.run ≠ .getLine reader) : s.lookup = none := by
  rw [State.lookup]
  split
  next reader hpc => exact absurd hpc (h reader)
  next => rfl

/-- Only the table fails, outside of it. -/
theorem copyRequestWithId_throws {_batch line : Bytes} {count : Int} {fault : Fault}
    (h : State.copyRequestWithId _batch line count = .error fault) : fault = .outOfBounds := by
  rw [State.copyRequestWithId, getRequestId] at h
  split at h
  next => cases h
  next =>
    cases h
    rfl

theorem getRequestId_ok {index : Nat} {_batch line batch : Bytes} {count : Int}
    (hindex : (count % 2 ^ 64).toNat = index)
    (h : State.copyRequestWithId _batch line count = .ok batch) : index < TASK_MAX_SIZE := by
  rw [State.copyRequestWithId, hindex, getRequestId] at h
  by_contra hge
  rw [if_neg hge] at h
  cases h

/-- The index of the line is its number, which is far from wrapping. -/
theorem Numbered.index (h : Numbered first indices s) (hfirst : first._index = -1)
    (hpc : s.run = .getLine reader) (hread : reader.getLineImpl = .ok (true, view, reader')) :
    first.Handed (indices.length + 1) reader' ∧
      (reader'._index % 2 ^ 64).toNat = indices.length := by
  have hreading := h.reading
  rw [hpc] at hreading
  have hnext : first.Handed (indices.length + 1) reader' := hreading.line hread
  have hle : indices.length ≤ 10000 := h.length_le
  refine ⟨hnext, ?_⟩
  rw [hnext.index, hfirst]
  push_cast
  omega

theorem Numbered.start (first : Lines) (hrun : s.run = .createSubtask first) :
    Numbered first [] s where
  consecutive := rfl
  length_le := Nat.zero_le _
  reading := by
    rw [hrun]
    exact .start

/-- The builder reads a line, or it leaves the pass. -/
theorem Numbered.getLine (h : Numbered first indices s) (hfirst : first._index = -1)
    (hpc : s.run = .getLine reader) (hs : s.getLine setup reader = some s') :
    Numbered first (indices ++ s.lookup.toList) s' := by
  unfold State.getLine at hs
  split at hs
  next fault hthrows =>
    have hnone : s.lookup = none := by simp only [State.lookup, hpc, hthrows]
    rw [hnone, throws_eq_some hs, Option.toList_none, List.append_nil]
    exact ⟨h.consecutive, h.length_le, trivial⟩
  next hread =>
    have hnone : s.lookup = none := by simp only [State.lookup, hpc, hread]
    obtain rfl := Option.some.inj hs
    rw [hnone, Option.toList_none, List.append_nil]
    exact ⟨h.consecutive, h.length_le, trivial⟩
  next view reader' hread =>
    obtain ⟨hnext, hindex⟩ := h.index hfirst hpc hread
    rw [lookup_of_getLine hpc hread, hindex, Option.toList_some]
    split at hs
    next fault hthrows =>
      rw [copyRequestWithId_throws hthrows] at hs
      cases hs
    next _batch hcopy =>
      have hlt := getRequestId_ok hindex hcopy
      have hindices : indices ++ [indices.length] =
          List.range (indices ++ [indices.length]).length := by
        rw [List.length_append, List.length_singleton, List.range_succ, ← h.consecutive]
      obtain rfl := Option.some.inj hs
      refine ⟨hindices, ?_, ?_⟩
      · rw [List.length_append, List.length_singleton]
        exact hlt
      · rw [List.length_append, List.length_singleton]
        dsimp only
        split
        · exact hnext
        · exact hnext

/-- A step of the builder where it reads no line. -/
theorem Numbered.runStep (h : Numbered first indices s) (hs : RunStep setup s s.run s')
    (hsource : s.run ≠ .source) (hpc : ∀ reader, s.run ≠ .getLine reader) :
    Numbered first indices s' := by
  refine ⟨h.consecutive, h.length_le, ?_⟩
  have hreading := h.reading
  generalize s.run = pc at hs hreading hsource hpc
  cases hs with
  | begins | readsStatus | subtaskDone => exact hreading
  | opens | openThrows => exact absurd rfl hsource
  | readThrows | noLine | copies | goesOn => exact absurd rfl (hpc _)
  | _ => trivial

theorem Numbered.client (h : Numbered first indices s) {pc : ClientPc}
    (hs : ClientStep setup s pc s') : Numbered first indices s' := by
  refine ⟨h.consecutive, h.length_le, ?_⟩
  obtain ⟨-, -, -, hrun | ⟨-, hrun⟩⟩ := hs.frame
  · rw [hrun]
    exact h.reading
  · rw [hrun]
    trivial

/-- Only the builder looks numbers up, and only where it reads a line. -/
theorem looked_eq_none {a : Action} (h : a.ofBuilder = false ∨ ∀ reader, s.run ≠ .getLine reader) :
    looked a s = none := by
  cases a with
  | run => exact lookup_eq_none (h.resolve_left (by decide))
  | openSource | compressEncrypt | wakeRun | client | sent | wakeClient => rfl

theorem Numbered.step (hfirst : first._index = -1) (h : Numbered first indices s)
    {label : Option Nat} (hs : LookupStep setup s label s') :
    Numbered first (indices ++ label.toList) s' := by
  obtain ⟨a, hopens, hs, rfl⟩ := hs
  cases ha : a.ofBuilder with
  | false =>
      rw [looked_eq_none (.inl ha), Option.toList_none, List.append_nil]
      exact h.client (client_step ha hs)
  | true =>
      by_cases hpc : ∃ reader, s.run = .getLine reader
      · obtain ⟨reader, hpc⟩ := hpc
        cases a with
        | run =>
            rw [TaskBuilder.step, State.runStep, hpc] at hs
            exact h.getLine hfirst hpc hs
        | openSource | compressEncrypt | wakeRun =>
            rw [TaskBuilder.step, hpc] at hs
            cases hs
        | client | sent | wakeClient => cases ha
      · have hpc : ∀ reader, s.run ≠ .getLine reader := fun reader h => hpc ⟨reader, h⟩
        rw [looked_eq_none (.inr hpc), Option.toList_none, List.append_nil]
        refine h.runStep (builder_step ha hs) (fun hsource => ?_) hpc
        cases a with
        | openSource => cases hopens
        | run =>
            rw [TaskBuilder.step, State.runStep, hsource] at hs
            cases hs
        | compressEncrypt | wakeRun =>
            rw [TaskBuilder.step, hsource] at hs
            cases hs
        | client | sent | wakeClient => cases ha

theorem LookupRun.numbered {start : State} (hfirst : first._index = -1)
    (hstart : start.run = .createSubtask first) (hrun : LookupRun setup start indices s) :
    Numbered first indices s := by
  induction hrun with
  | start => exact .start first hstart
  | step _ hs ih => exact ih.step hfirst hs

/-! ## The table -/

theorem getRequestId_inj {index index' : Nat} (hlt : index < TASK_MAX_SIZE)
    (hlt' : index' < TASK_MAX_SIZE) (h : getRequestId index = getRequestId index') :
    index = index' := by
  simp only [getRequestId, if_pos hlt, if_pos hlt', toCharsBoost_variable, Except.ok.injEq,
    List.append_cancel_right_eq, List.append_cancel_left_eq] at h
  rw [← Numeral.value_encode index, h, Numeral.value_encode]

/-- Numbers of the table have different texts. -/
theorem pairwise_getRequestId {n : Nat} (hn : n ≤ TASK_MAX_SIZE) :
    (List.range n).Pairwise fun index index' => getRequestId index ≠ getRequestId index' := by
  refine (List.nodup_range.pairwise_of_forall_ne fun index hindex index' hindex' hne heq => ?_)
  exact hne (getRequestId_inj ((List.mem_range.mp hindex).trans_le hn)
    ((List.mem_range.mp hindex').trans_le hn) heq)

/-- The lookups so far and the next one are those of the first numbers, where the
reader hands out no more lines than the table has numbers. -/
theorem Numbered.append_lookup (hfirst : first._index = -1) (h : Numbered first indices s)
    (hcount : ∀ n reader, first.Handed n reader → n ≤ TASK_MAX_SIZE) :
    ∃ n ≤ TASK_MAX_SIZE, indices ++ s.lookup.toList = List.range n := by
  cases hlookup : s.lookup with
  | none =>
      rw [Option.toList_none, List.append_nil]
      exact ⟨_, h.length_le, h.consecutive⟩
  | some index =>
      obtain ⟨reader, view, reader', hpc, hread, hvalue⟩ := exists_of_lookup hlookup
      obtain ⟨hnext, hindex⟩ := h.index hfirst hpc hread
      refine ⟨indices.length + 1, hcount _ _ hnext, ?_⟩
      rw [← hvalue, hindex, Option.toList_some, List.range_succ, ← h.consecutive]

/-! ## The pass goes on -/

/-- A builder on its way through the pass, after some lookups. -/
structure Looking (setup : ClientSetup) (start s : State) : Prop where
  run : ∃ indices, LookupRun setup start indices s
  live : s._stopped = false
  index : s._subtaskIndex.toNat ≤ s._subtasks.length

theorem Looking.going (start : State) : Going setup (Looking setup start) where
  keeps {s s' a} h ha hopens hs := by
    obtain ⟨indices, hrun⟩ := h.run
    have hstep := builder_step ha hs
    exact ⟨⟨_, hrun.step ⟨a, hopens, hs, rfl⟩⟩, hstep.stopped.trans h.live,
      index_le_of_runStep h.index hstep⟩
  sleeps h hlocked := by
    obtain ⟨indices, hrun⟩ := h.run
    exact ⟨⟨_, hrun.step ⟨.client, rfl, client_of_locked hlocked, rfl⟩⟩, h.live, h.index⟩
  live h := h.live
  index h _ := h.index

theorem Looking.begins {start : State} (h : Looking setup start s)
    (hpc : s.run = .createSubtask reader) :
    ∃ s', Looking setup start s' ∧ s'.run = .getLine reader := by
  have hbegins : step setup .run s = some { s with _batch := [], run := .getLine reader } := by
    rw [step, State.runStep, hpc]
  exact ⟨_, (Looking.going start).keeps h rfl rfl hbegins, rfl⟩

/-- By induction on the numbers that are left in the table. -/
theorem Looking.exists_lookup (hencrypts : Encrypts setup) {start : State} {n left : Nat}
    (h : Looking setup start s) (hpc : s.run = .getLine reader) (hgoes : reader.GoesOn (left + 1))
    (hindex : reader._index + 1 = n) (hleft : n + left = TASK_MAX_SIZE) :
    ∃ s', Looking setup start s' ∧ s'.lookup = some TASK_MAX_SIZE := by
  induction left generalizing s reader n with
  | zero =>
      obtain ⟨view, reader', hread, -, -⟩ := hgoes
      have hsize : n = 10000 := hleft
      have hcount := Lines.getLineImpl_index hread
      have hvalue : (reader'._index % 2 ^ 64).toNat = 10000 := by omega
      exact ⟨s, h, (lookup_of_getLine hpc hread).trans (congrArg some hvalue)⟩
  | succ left ih =>
      obtain ⟨view, reader', hread, hlast, hgoes'⟩ := hgoes
      have hindex' : reader'._index = n := (Lines.getLineImpl_index hread).trans hindex
      have hnext : reader'._index + 1 = (n + 1 : Nat) := by
        rw [hindex']
        push_cast
        rfl
      have hnotLast : reader'._last = false :=
        Bool.eq_false_iff.mpr fun h => Nat.succ_ne_zero left (hlast h)
      obtain ⟨s₁, h₁, hrun | ⟨hrun, -⟩⟩ :=
        (Looking.going start).copies h hpc hread hindex' (by omega)
      · obtain ⟨s₂, h₂, hmore⟩ := (Looking.going start).compressEncrypt hencrypts h₁ hrun
        rw [hnotLast, if_neg Bool.false_ne_true] at hmore
        obtain ⟨s₃, h₃, hrun₃⟩ := h₂.begins hmore
        exact ih h₃ hrun₃ hgoes' hnext (by omega)
      · exact ih h₁ hrun hgoes' hnext (by omega)

/-- A reader with more lines than the table has numbers makes the builder leave it. -/
theorem not_inTable {start : State} (hencrypts : Encrypts setup)
    (hstart : start.run = .createSubtask first) (hlive : start._stopped = false)
    (hindex : start._subtaskIndex.toNat ≤ start._subtasks.length) (hfirst : first._index = -1)
    (hgoes : first.GoesOn (TASK_MAX_SIZE + 1)) : ¬ InTable setup start := by
  intro h
  have hlooking : Looking setup start start := ⟨⟨[], .start⟩, hlive, hindex⟩
  obtain ⟨s₁, h₁, hrun⟩ := hlooking.begins hstart
  have hzero : first._index + 1 = (0 : Nat) := by rw [hfirst]; rfl
  obtain ⟨s, ⟨⟨indices, hindices⟩, -, -⟩, hlookup⟩ :=
    h₁.exists_lookup hencrypts hrun hgoes hzero (Nat.zero_add _)
  have hlt := h.inBounds hindices TASK_MAX_SIZE (by simp [hlookup])
  exact Nat.lt_irrefl _ hlt

/-! ## All passes -/

theorem fileLines_eq {_buffer source : Bytes}
    (h : FileLines.new _buffer (some source) 10 true = .ok reader) :
    reader = StringLines.new _buffer source 10 true := (Except.ok.inj h).symm

/-- In a pass over a source of which the reader hands out no more lines than the
table has numbers, whatever the client does, every lookup is in the table and the
requests have different numbers.  A pass over more lines leaves the table, unless
it is stopped before. -/
theorem requestIds_inTable_iff {start : State} {_buffer source : Bytes}
    (hreach : Reachable setup start) (hstart : start.run = .createSubtask reader)
    (hreader : FileLines.new _buffer (some source) 10 true = .ok reader) :
    (Lines.handedOut 10 _buffer.length 0 (split 10 true [] source) ≤ TASK_MAX_SIZE →
      InTable setup start) ∧
    (start._stopped = false → Encrypts setup → InTable setup start →
      Lines.handedOut 10 _buffer.length 0 (split 10 true [] source) ≤ TASK_MAX_SIZE) := by
  obtain rfl := fileLines_eq hreader
  refine ⟨fun hcount => ?_, fun hlive hencrypts h => ?_⟩
  · have hlines (n : Nat) (reader : Lines)
        (h : (StringLines.new _buffer source 10 true).Handed n reader) : n ≤ TASK_MAX_SIZE :=
      (Lines.handed_new_le h).trans hcount
    refine ⟨fun hrun index hmem => ?_, fun hrun => ?_⟩
    · obtain ⟨n, hn, heq⟩ := (hrun.numbered rfl hstart).append_lookup rfl hlines
      rw [heq, List.mem_range] at hmem
      exact hmem.trans_le hn
    · obtain ⟨n, hn, heq⟩ := (hrun.numbered rfl hstart).append_lookup rfl hlines
      rw [heq]
      exact pairwise_getRequestId hn
  · by_contra hmore
    exact not_inTable hencrypts hstart hlive (hreach.index_le hstart hlive) rfl
      (Lines.goesOn_new (Nat.not_le.mp hmore) true) h

/-- The builder of a new client in front of the first line. -/
def opened (_buffer source : Bytes) : State :=
  { State.initial [] with run := .createSubtask (StringLines.new _buffer source 10 true) }

theorem reachable_opened (setup : ClientSetup) (_buffer source : Bytes) :
    Reachable setup (opened _buffer source) := by
  refine ⟨[], .step (a := .openSource _buffer (some source)) (.step (a := .run)
    (.step (a := .run) .start trivial rfl) trivial rfl) trivial rfl⟩

theorem encrypts_lineByLine : Encrypts lineByLine :=
  fun _ _ => ⟨ShortRequest.drawn, ShortRequest.work, _, rfl⟩

/-- Two lines. -/
theorem requestIds_inTable_two : InTable lineByLine (opened [0, 0, 0, 0] (bytes "a\nb\n")) ∧
    Lines.handedOut 10 4 0 (split 10 true [] (bytes "a\nb\n")) ≤ TASK_MAX_SIZE := by
  have h := requestIds_inTable_iff (reachable_opened lineByLine [0, 0, 0, 0] (bytes "a\nb\n")) rfl rfl
  have hin : InTable lineByLine (opened [0, 0, 0, 0] (bytes "a\nb\n")) := h.1 (by decide +kernel)
  exact ⟨hin, h.2 rfl encrypts_lineByLine hin⟩

/-- As many lines as the table has numbers, and one more. -/
theorem requestIds_outOfTable : ¬ ∀ (_buffer source : Bytes),
    (∀ row ∈ split 10 true [] source, row ≠ [10]) →
      InTable lineByLine (opened _buffer source) := by
  intro hall
  have hrows : Lines.RowsOf 10 (List.replicate 10001 ([97, 10] : Bytes)) :=
    show Lines.RowsOf 10 (List.replicate 10001 ([97] ++ [10])) from
      Lines.rowsOf_replicate (by decide) 10001
  have hlength : (List.replicate 10001 ([97, 10] : Bytes)).flatten.length = 20002 := by
    rw [List.length_flatten, List.map_replicate, List.sum_replicate]
    rfl
  have hblank : ∀ row ∈ List.replicate 10001 ([97, 10] : Bytes), row ≠ [10] := by
    intro row hrow
    rw [List.eq_of_mem_replicate hrow]
    decide
  have hsplit := hrows.split_flatten
  refine not_inTable encrypts_lineByLine rfl rfl (Nat.zero_le _) rfl ?_
    (hall (List.replicate 500000 0) (List.replicate 10001 [97, 10]).flatten (by rwa [hsplit]))
  refine Lines.goesOn_new ?_ true
  rw [hsplit, List.length_replicate, Lines.handedOut_of_fits (by rw [hlength]; decide) hblank,
    List.length_replicate]
  exact Nat.le_refl 10001

end ClientServer.TaskBuilder
