import ClientServer.Client.SourceLines

/-!
# Echo from end to end

The client numbers the lines of its source, cuts them into subtasks and sends
these; the server splits each into rows, works on the rows in any order on any
number of threads and sends back the rows without their numbers.  Where the reader
yields the lines and compression and encryption deliver what was put in, the
replies put together are the source.
-/

namespace ClientServer

open TaskBuilder

/-- Whatever is to be encrypted can be, and the server gets it back from the data of
the subtask. -/
structure Layers (setup : ClientSetup) (deliver : Bytes → Bytes) : Prop where
  encrypts : Encrypts setup
  delivers : ∀ {drawn : Drawn} {work : cryptooperations.SenderBuffers} {s : State}
    {text data : Bytes}, State.encrypted setup drawn work (s.header setup) text = .ok data →
    deliver data = text

/-- The replies the server can give to the subtasks, in their order. -/
def EchoReplies (options : ServerOptions) (deliver : Bytes → Bytes) (subtasks : List Subtask)
    (replies : List Bytes) : Prop :=
  List.Forall₂ (fun subtask reply => EchoReply options (deliver subtask._data) reply) subtasks
    replies

section EndToEnd

variable {setup : ClientSetup} {deliver : Bytes → Bytes} {options : ServerOptions}

/-- The rows of a line without its number. -/
def sourceText (rows : List (Bytes × Nat)) : Bytes := (rows.map fun row => row.1 ++ bytes "\n").flatten

/-- Put together, the replies to subtasks that carry rows are the lines of these. -/
theorem echoReplies_eq (hlayers : Layers setup deliver) {subtasks : List Subtask}
    {rows : List (Bytes × Nat)} (hcarries : Carries setup subtasks rows)
    (hrows : ∀ row ∈ rows, 10 ∉ row.1 ∧ HasSizeKey options._useRegex row.1)
    {replies : List Bytes} (h : EchoReplies options deliver subtasks replies) :
    replies.flatten = sourceText rows := by
  obtain ⟨groups, rfl, hgroups⟩ := hcarries
  induction hgroups generalizing replies with
  | nil =>
      cases h with
      | nil => rfl
  | cons hseals _ ih =>
      cases h with
      | cons hreply hreplies =>
          rw [List.flatten_cons, List.forall_mem_append] at hrows
          obtain ⟨drawn, work, s, hencrypted⟩ := hseals
          rw [hlayers.delivers hencrypted] at hreply
          rw [List.flatten_cons, hreply.eq_lines hrows.1, ih hreplies hrows.2, List.flatten_cons,
            sourceText, sourceText, List.map_append, List.flatten_append]

/-- The rows of every subtask have size keys. -/
theorem hasSizeKey_of_carries (hlayers : Layers setup deliver) {subtasks : List Subtask}
    {rows : List (Bytes × Nat)} (hcarries : Carries setup subtasks rows)
    (hrows : ∀ row ∈ rows, 10 ∉ row.1 ∧ HasSizeKey options._useRegex row.1) :
    ∀ subtask ∈ subtasks, ∀ line ∈ completeLines 10 (deliver subtask._data),
      HasSizeKey options._useRegex line := by
  obtain ⟨groups, rfl, hgroups⟩ := hcarries
  induction hgroups with
  | nil => exact fun _ h => absurd h List.not_mem_nil
  | cons hseals _ ih =>
      rw [List.flatten_cons, List.forall_mem_append] at hrows
      rw [List.forall_mem_cons]
      refine ⟨?_, ih hrows.2⟩
      obtain ⟨drawn, work, s, hencrypted⟩ := hseals
      rw [hlayers.delivers hencrypted]
      exact hasSizeKey_rowsText hrows.1

theorem exists_echoReplies (hpolicy : options._policyEnum = .ECHOPOLICY) {subtasks : List Subtask}
    (hkeys : ∀ subtask ∈ subtasks, ∀ line ∈ completeLines 10 (deliver subtask._data),
      HasSizeKey options._useRegex line) :
    ∃ replies, EchoReplies options deliver subtasks replies := by
  induction subtasks with
  | nil => exact ⟨[], .nil⟩
  | cons subtask subtasks ih =>
      rw [List.forall_mem_cons] at hkeys
      obtain ⟨reply, hreply⟩ := exists_echoReply hpolicy hkeys.1
      obtain ⟨replies, hreplies⟩ := ih hkeys.2
      exact ⟨reply :: replies, .cons hreply hreplies⟩

/-! ## The source comes back -/

/-- In every run of the client in which the reader yields the lines of the source,
the replies to the subtasks of a task are the source, for every buffer size and in
every order of the batches on any threads.  The batches return, and there are runs
in which the client gets its task. -/
theorem echo_endToEnd (hlayers : Layers setup deliver) (hpolicy : options._policyEnum = .ECHOPOLICY)
    {lines : List Bytes} (hcount : lines.length ≤ TASK_MAX_SIZE)
    (hlines : ∀ line ∈ lines, line ≠ [] ∧ 10 ∉ line ∧
      ∃ sizeKey, createSizeKey options._useRegex line = .ok sizeKey)
    {_buffer : Bytes} {file : Option Bytes} {reader : Lines}
    (hopen : FileLines.new _buffer file 10 true = .ok reader)
    (hreader : reader.ReadsExactly 0 (lines.map (· ++ [10]))) :
    (∀ {s : State} {subtasks : List Subtask}, Reached setup (Yields lines) s →
      Offers s subtasks →
      (∀ {replies : List Bytes}, EchoReplies options deliver subtasks replies →
        replies.flatten = (lines.map (· ++ bytes "\n")).flatten) ∧
      (∃ replies, EchoReplies options deliver subtasks replies) ∧
      ∀ subtask ∈ subtasks, ∀ {τ : Type} [DecidableEq τ] {schedule : Schedule τ} {header : HEADER}
        {task : Task}, schedule.Valid options header (deliver subtask._data) task →
        ∀ locals : τ → ThreadLocals, ∃ task' locals',
          runBatch options (some EchoPolicy) schedule header (deliver subtask._data) task locals =
            .ok (task', locals') ∧
          EchoReply options (deliver subtask._data) (Session.responseData task')) ∧
    ∃ s subtasks, Reached setup (Yields lines) s ∧ Offers s subtasks ∧
      (lines ≠ [] → ∃ size, s.client = .returned size .TASK_DONE) := by
  have hrows : ∀ row ∈ lines.zipIdx, 10 ∉ row.1 ∧ HasSizeKey options._useRegex row.1 := by
    intro row hrow
    obtain ⟨-, hline, hkey⟩ := hlines row.1 (List.fst_mem_of_mem_zipIdx hrow)
    exact ⟨hline, createSizeKey_isOk_iff.mp hkey⟩
  have hsource : sourceText lines.zipIdx = (lines.map (· ++ bytes "\n")).flatten := by
    have hmap : lines.zipIdx.map (fun row => row.1 ++ bytes "\n") =
        (lines.zipIdx.map Prod.fst).map (· ++ bytes "\n") := by
      rw [List.map_map]
      rfl
    rw [sourceText, hmap, List.zipIdx_map_fst]
  refine ⟨fun {s subtasks} hreached hoffers => ?_, ?_⟩
  · have hcarries := hreached.carries hcount hoffers
    have hkeys := hasSizeKey_of_carries hlayers hcarries hrows
    refine ⟨fun {replies} hreplies => ?_, exists_echoReplies hpolicy hkeys, ?_⟩
    · rw [echoReplies_eq hlayers hcarries hrows hreplies, hsource]
    · intro subtask hmem τ _ schedule header task hvalid locals
      exact exists_echoReply_of_valid hvalid (hkeys subtask hmem) locals
  · exact exists_offers hcount hlayers.encrypts hopen hreader

end EndToEnd

/- Data that is neither compressed nor encrypted stands behind its header. -/
namespace LineByLine

def deliver (data : Bytes) : Bytes := data.drop HEADER_SIZE

def options : ServerOptions := ⟨false, .ECHOPOLICY⟩

def lines : List Bytes := [bytes "[7]kippa", bytes "size=300x600"]

def source : Bytes := bytes "[7]kippa\nsize=300x600\n"

def _buffer : Bytes := List.replicate 16 0

theorem length_header (s : State) : (serialize (s.header lineByLine)).length = HEADER_SIZE := by
  have hstatus (status : STATUS) : (serialize ⟨.SESSION, 0, 0, .NONE, .NONE, status, 0, 0⟩).length =
      HEADER_SIZE := by
    cases status <;> decide +kernel
  exact hstatus s._status

theorem encrypted_eq (drawn : Drawn) (work : cryptooperations.SenderBuffers) (s : State)
    (text : Bytes) : State.encrypted lineByLine drawn work (s.header lineByLine) text =
      .ok (serialize (s.header lineByLine) ++ text) := rfl

theorem layers : Layers lineByLine deliver where
  encrypts s text := ⟨ShortRequest.drawn, ShortRequest.work, _, encrypted_eq _ _ s text⟩
  delivers := by
    intro drawn work s text data hencrypted
    rw [encrypted_eq] at hencrypted
    obtain rfl := Except.ok.inj hencrypted
    rw [deliver, ← length_header s]
    exact List.drop_left

end LineByLine

open LineByLine in
theorem echo_endToEnd_lineByLine :
    (∀ {s : State} {subtasks : List Subtask}, Reached lineByLine (Yields lines) s →
      Offers s subtasks →
      (∀ {replies : List Bytes}, EchoReplies options deliver subtasks replies →
        replies.flatten = (lines.map (· ++ bytes "\n")).flatten) ∧
      (∃ replies, EchoReplies options deliver subtasks replies) ∧
      ∀ subtask ∈ subtasks, ∀ {τ : Type} [DecidableEq τ] {schedule : Schedule τ} {header : HEADER}
        {task : Task}, schedule.Valid options header (deliver subtask._data) task →
        ∀ locals : τ → ThreadLocals, ∃ task' locals',
          runBatch options (some EchoPolicy) schedule header (deliver subtask._data) task locals =
            .ok (task', locals') ∧
          EchoReply options (deliver subtask._data) (Session.responseData task')) ∧
    ∃ s subtasks, Reached lineByLine (Yields lines) s ∧ Offers s subtasks ∧
      (lines ≠ [] → ∃ size, s.client = .returned size .TASK_DONE) := by
  have hkeys : ∀ line ∈ lines, line ≠ [] ∧ 10 ∉ line ∧ HasSizeKey false line := by decide +kernel
  refine @echo_endToEnd lineByLine deliver options layers rfl lines (by decide)
    (fun line hline => ?_) _buffer (some source) _ rfl ?_
  · obtain ⟨hne, hdelimiter, hkey⟩ := hkeys line hline
    exact ⟨hne, hdelimiter, createSizeKey_isOk_iff.mpr hkey⟩
  · exact (Lines.readsExactly_new_iff (by decide +kernel) (by decide +kernel) true).mpr
      (by decide +kernel)

end ClientServer
