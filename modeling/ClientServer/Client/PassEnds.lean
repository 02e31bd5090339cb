import ClientServer.Client.TaskPasses
import ClientServer.Common.LinesExact
import ClientServer.Server.EchoRows

/-!
# A pass comes to its end

From a reader with a line in front of it the builder alone comes to the last line
and makes its task, if it is not stopped and whatever is to be encrypted can be.
What else is known of the state on the way is kept if the steps of the builder
keep it.
-/

namespace ClientServer.TaskBuilder

variable {setup : ClientSetup} {views : List Bytes} {s s' : State}

/-- A line is put into the batch behind its number. -/
theorem copyRequestWithId_view {n : Nat} (hn : n < TASK_MAX_SIZE) (_batch view : Bytes) :
    State.copyRequestWithId _batch view n = .ok (_batch ++ numberedRow n view) := by
  have hlt : n < 10000 := hn
  have hindex : ((n : Int) % 2 ^ 64).toNat = n := by omega
  simp only [State.copyRequestWithId, getRequestId, hindex, if_pos hn, toCharsBoost_variable,
    Outcome.ok_bind, Outcome.pure_eq_ok]
  simp [numberedRow, idText]

def Action.opens : Action → Bool
  | openSource _ _ => true
  | run | compressEncrypt _ _ | wakeRun | client | sent _ | wakeClient => false

/-- The builder changes nothing of `_stopped`. -/
theorem RunStep.stopped {pc : RunPc} (hs : RunStep setup s pc s') : s'._stopped = s._stopped := by
  cases hs <;> rfl

/-- Whatever is to be encrypted can be. -/
def Encrypts (setup : ClientSetup) : Prop :=
  ∀ (s : State) (text : Bytes), ∃ drawn work data,
    State.encrypted setup drawn work (s.header setup) text = .ok data

/-- Something that holds while the builder goes on in a pass and is not stopped, and
when the client blocks. -/
structure Going (setup : ClientSetup) (P : State → Prop) : Prop where
  keeps : ∀ {s s' : State} {a : Action}, P s → a.ofBuilder = true → a.opens = false →
    step setup a s = some s' → P s'
  live : ∀ {s : State}, P s → s._stopped = false
  sleeps : ∀ {s : State}, P s → s.locked = true → P { s with client := .waiting }
  index : ∀ {s : State} {reader : Lines} {alldone : Bool} {header : HEADER}, P s →
    s.run = .lock reader alldone header → s._subtaskIndex.toNat ≤ s._subtasks.length

theorem exists_assignSubtask {_subtasks : List Subtask} {index : Nat}
    (h : index ≤ _subtasks.length) (subtask : Subtask) :
    ∃ _subtasks', State.assignSubtask _subtasks index subtask = some _subtasks' := by
  rw [State.assignSubtask]
  split
  next => exact ⟨_, rfl⟩
  next hnlt =>
    rw [if_pos (Nat.le_antisymm h (Nat.not_lt.mp hnlt))]
    exact ⟨_, rfl⟩

variable {P : State → Prop} (hgoing : Going setup P)
include hgoing

/-- A client that has `_mutex` blocks and gives it back. -/
theorem Going.unlock (h : P s) :
    ∃ client, P { s with client := client } ∧ { s with client := client }.locked = false := by
  cases hlocked : s.locked with
  | true => exact ⟨.waiting, hgoing.sleeps h hlocked, rfl⟩
  | false => exact ⟨s.client, h, hlocked⟩

/-- The batch becomes a subtask. -/
theorem Going.compressEncrypt (hencrypts : Encrypts setup) (h : P s)
    {reader : Lines} {alldone : Bool} (hpc : s.run = .compressEncrypt reader alldone) :
    ∃ s', P s' ∧
      if alldone then s'.run = .wait ∧ s'._status = .TASK_DONE
      else s'.run = .createSubtask reader := by
  have hfirst : step setup .run s =
      some { s with run := .lock reader alldone (s.header setup) } := by
    rw [step, State.runStep, hpc]
  obtain ⟨client, hlock, hunlocked⟩ := hgoing.unlock (hgoing.keeps h rfl rfl hfirst)
  obtain ⟨drawn, work, dataView, hencrypted⟩ := hencrypts s s._batch
  obtain ⟨_subtasks, hassign⟩ := exists_assignSubtask (hgoing.index hlock rfl)
    ⟨dataView, { s.header setup with field1Size := dataView.length }⟩
  have hsecond (s' : State) (hs' : State.compressEncryptSubtask setup
      { s with run := .lock reader alldone (s.header setup), client := client } reader alldone
        (s.header setup) drawn work = some s') : P s' := by
    refine @Going.keeps setup P hgoing _ _ (.compressEncrypt drawn work) hlock rfl rfl ?_
    simp only [step, hunlocked]
    exact hs'
  have hlive := hgoing.live h
  simp only [State.compressEncryptSubtask, hlive, Bool.false_eq_true, if_false, hencrypted,
    hassign] at hsecond
  cases alldone with
  | true => exact ⟨_, hsecond _ rfl, rfl, rfl⟩
  | false => exact ⟨_, hsecond _ rfl, rfl⟩

/-- A line with a number in the table is put into the batch. -/
theorem Going.copies (h : P s) {reader reader' : Lines} {view : Bytes} {n : Nat}
    (hpc : s.run = .getLine reader) (hread : reader.getLineImpl = .ok (true, view, reader'))
    (hindex : reader'._index = n) (hn : n < TASK_MAX_SIZE) :
    ∃ s', P s' ∧ (s'.run = .compressEncrypt reader' reader'._last ∨
      s'.run = .getLine reader' ∧ reader'._last = false) := by
  have hstep : step setup .run s = s.getLine setup reader := by
    rw [step, State.runStep, hpc]
  simp only [State.getLine, hread, hindex, copyRequestWithId_view hn] at hstep
  refine ⟨_, hgoing.keeps h rfl rfl hstep, ?_⟩
  dsimp only
  split
  next => exact .inl rfl
  next hmore => exact .inr ⟨rfl, Bool.eq_false_iff.mpr (not_or.mp hmore).2⟩

/-- The next line is read; what is left of the pass is a pass of fewer lines. -/
theorem Going.getLine (hcount : views.length ≤ TASK_MAX_SIZE) (h : P s)
    {reader : Lines} {n : Nat} (hpc : s.run = .getLine reader)
    (hreader : reader.ReadsExactly n (views.drop n)) (hn : n < views.length) :
    ∃ reader' s', P s' ∧ reader'.ReadsExactly (n + 1 : Nat) (views.drop (n + 1)) ∧
      (s'.run = .compressEncrypt reader' (decide (views.length ≤ n + 1)) ∨
        s'.run = .getLine reader' ∧ n + 1 < views.length) := by
  obtain ⟨reader', hread⟩ := hreader.exists_next hn
  obtain ⟨-, hindex, hlast, hreader'⟩ := hreader.next hread
  obtain ⟨s', h', hrun⟩ :=
    hgoing.copies h hpc hread hindex (Nat.lt_of_lt_of_le hn hcount)
  have hlast' : reader'._last = decide (views.length ≤ n + 1) := by
    rw [Bool.eq_iff_iff, hlast, decide_eq_true_iff]
  rw [hlast', decide_eq_false_iff_not, Nat.not_le] at hrun
  exact ⟨reader', s', h', hreader', hrun⟩

/-- By induction on the lines that are left. -/
theorem Going.pass (hcount : views.length ≤ TASK_MAX_SIZE) (hencrypts : Encrypts setup)
    {left : Nat} (h : P s) {reader : Lines} {n : Nat} (hpc : s.run = .getLine reader)
    (hreader : reader.ReadsExactly n (views.drop n)) (hleft : n + (left + 1) = views.length) :
    ∃ s', P s' ∧ s'.run = .wait ∧ s'._status = .TASK_DONE := by
  induction left generalizing s reader n with
  | zero =>
      obtain ⟨reader', s₁, h₁, -, hrun | ⟨-, hlt⟩⟩ := hgoing.getLine hcount h hpc hreader (by omega)
      · obtain ⟨s₂, h₂, hdone⟩ := hgoing.compressEncrypt hencrypts h₁ hrun
        rw [decide_eq_true (by omega), if_pos rfl] at hdone
        exact ⟨s₂, h₂, hdone⟩
      · omega
  | succ left ih =>
      obtain ⟨reader', s₁, h₁, hreader', hrun | ⟨hrun, -⟩⟩ :=
        hgoing.getLine hcount h hpc hreader (by omega)
      · obtain ⟨s₂, h₂, hmore⟩ := hgoing.compressEncrypt hencrypts h₁ hrun
        rw [decide_eq_false (by omega), if_neg Bool.false_ne_true] at hmore
        have hbegins : step setup .run s₂ =
            some { s₂ with _batch := [], run := .getLine reader' } := by
          rw [step, State.runStep, hmore]
        exact ih (hgoing.keeps h₂ rfl rfl hbegins) rfl hreader' (by omega)
      · exact ih h₁ hrun hreader' (by omega)

end ClientServer.TaskBuilder
