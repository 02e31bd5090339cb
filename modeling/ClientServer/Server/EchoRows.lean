import ClientServer.Server.BatchEngine
import ClientServer.Server.Schedule

/-!
# Rows with a number

The client puts a number in brackets in front of every line it sends.  The number
does not change the size key of the line, since no marker has a character of it,
and the echo policy takes it off again and nothing else, also where the line
itself begins with a number in brackets.  So the replies to a text of such rows
are its lines (`EchoReply.eq`).
-/

namespace ClientServer

/-! ## One row -/

/-- The number in front of a line. -/
def idText (index : Nat) : Bytes := bytes "[" ++ (Numeral.encode index ++ bytes "]")

/-- A line of a source as the batch has it. -/
def numberedRow (index : Nat) (line : Bytes) : Bytes := idText index ++ line

theorem not_mem_idText {c : UInt8} (hdigit : Numeral.isDigit c = false) (hopen : c ≠ 91)
    (hclose : c ≠ 93) (index : Nat) : c ∉ idText index := by
  intro hmem
  rcases List.mem_append.mp hmem with hmem | hmem
  · exact hopen (List.mem_singleton.mp hmem)
  · rcases List.mem_append.mp hmem with hmem | hmem
    · rw [Numeral.isDigit_of_mem_encode hmem] at hdigit
      exact Bool.false_ne_true hdigit.symm
    · exact hclose (List.mem_singleton.mp hmem)

/-- The pattern of the echo policy matches the number and ends with it. -/
theorem strip_idPattern (index : Nat) (text : Bytes) :
    Text.strip idPattern (idText index ++ text) = some text := by
  have htake : (Numeral.encode index ++ (bytes "]" ++ text)).takeWhile Numeral.isDigit =
      Numeral.encode index := by
    refine Numeral.takeWhile_encode index fun c hc => ?_
    obtain rfl : 93 = c := Option.mem_some_iff.mp hc
    decide
  have hdrop : (Numeral.encode index ++ (bytes "]" ++ text)).dropWhile Numeral.isDigit =
      bytes "]" ++ text := by
    have happend := List.takeWhile_append_dropWhile
      (p := Numeral.isDigit) (l := Numeral.encode index ++ (bytes "]" ++ text))
    rw [htake] at happend
    exact List.append_cancel_left happend
  rw [idPattern, idText, List.append_assoc, List.append_assoc, Text.strip_cons_literal,
    if_pos (List.isPrefixOf_iff_prefix.mpr (List.prefix_append _ _)), List.drop_left,
    Text.strip_cons_run, htake, if_neg (Numeral.encode_ne_nil index), hdrop,
    Text.strip_cons_literal, if_pos (List.isPrefixOf_iff_prefix.mpr (List.prefix_append _ _)),
    List.drop_left]
  rfl

/-- The echo of a numbered line is the line. -/
theorem echo_numberedRow (index : Nat) (line : Bytes) :
    echo (numberedRow index line) = line ++ bytes "\n" := by
  have hsearch := @Text.search_of_strip _ _ startOfLine idPattern none (idText index)
    (line ++ bytes "\n") (by simp [idText, bytes]) rfl (strip_idPattern index _)
  rw [echo, numberedRow, List.append_assoc, hsearch]
  exact List.drop_left

/-- The number does not change the size key. -/
theorem createSizeKey_numberedRow (_useRegex : Bool) (index : Nat) (line : Bytes) :
    createSizeKey _useRegex (numberedRow index line) = createSizeKey _useRegex line := by
  have hreg : (115 : UInt8) ∉ idText index := not_mem_idText (by decide) (by decide) (by decide) _
  have halt : (97 : UInt8) ∉ idText index := not_mem_idText (by decide) (by decide) (by decide) _
  cases _useRegex with
  | true =>
      have hmatch : regexMatch (numberedRow index line) = regexMatch line := by
        have hsearchReg : Text.searchAny regexReg (idText index ++ line) =
            Text.searchAny regexReg line := Text.searchAny_append_of_not_mem hreg line
        have hsearchAlt : Text.searchAny regexAlt (idText index ++ line) =
            Text.searchAny regexAlt line := Text.searchAny_append_of_not_mem halt line
        rw [regexMatch, regexMatch, numberedRow, hsearchReg, hsearchAlt]
      simp only [createSizeKey, createSizeKeyRegExpr, hmatch, if_true]
  | false =>
      have hfindReg : Text.find SIZE_START_REG (idText index ++ line) =
          (Text.find SIZE_START_REG line).map (· + (idText index).length) :=
        Text.find_append_of_not_mem hreg line
      have hfindAlt : Text.find SIZE_START_ALT (idText index ++ line) =
          (Text.find SIZE_START_ALT line).map (· + (idText index).length) :=
        Text.find_append_of_not_mem halt line
      have hdrop (begPos : Nat) : (idText index ++ line).drop (begPos + (idText index).length) =
          line.drop begPos := by
        rw [Nat.add_comm, ← List.drop_drop, List.drop_left]
      simp only [createSizeKey, sizeStart, numberedRow, hfindReg, hfindAlt, Bool.false_eq_true,
        if_false]
      cases Text.find SIZE_START_REG line with
      | some begPos => simp [hdrop]
      | none => cases Text.find SIZE_START_ALT line <;> simp [hdrop]

theorem hasSizeKey_numberedRow {_useRegex : Bool} {line : Bytes} (h : HasSizeKey _useRegex line)
    (index : Nat) : HasSizeKey _useRegex (numberedRow index line) := by
  rw [← createSizeKey_isOk_iff] at h ⊢
  rwa [createSizeKey_numberedRow]

theorem not_mem_numberedRow {line : Bytes} (h : 10 ∉ line) (index : Nat) :
    10 ∉ numberedRow index line := by
  rw [numberedRow, List.mem_append, not_or]
  exact ⟨not_mem_idText (by decide) (by decide) (by decide) index, h⟩

/-! ## A text of rows -/

theorem completeLines_append {delim : UInt8} {line : Bytes} (h : delim ∉ line) (text : Bytes) :
    completeLines delim (line ++ delim :: text) = line :: completeLines delim text := by
  induction line with
  | nil => exact completeLines_cons_self delim text
  | cons c line ih =>
      rw [List.mem_cons, not_or] at h
      rw [List.cons_append, completeLines_cons_of_ne (Ne.symm h.1), ih h.2]
      rfl

/-- The rows of a text of lines with their delimiters are the lines. -/
theorem completeLines_flatten {delim : UInt8} {lines : List Bytes}
    (h : ∀ line ∈ lines, delim ∉ line) :
    completeLines delim (lines.map (· ++ [delim])).flatten = lines := by
  induction lines with
  | nil => rfl
  | cons line lines ih =>
      rw [List.forall_mem_cons] at h
      rw [List.map_cons, List.flatten_cons, List.append_assoc, List.singleton_append,
        completeLines_append h.1, ih h.2]

/-- The text of lines with their numbers. -/
def rowsText (rows : List (Bytes × Nat)) : Bytes :=
  (rows.map fun row => numberedRow row.2 row.1 ++ [10]).flatten

theorem rowsText_append (rows rows' : List (Bytes × Nat)) :
    rowsText (rows ++ rows') = rowsText rows ++ rowsText rows' := by
  simp [rowsText]

theorem completeLines_rowsText {rows : List (Bytes × Nat)} (h : ∀ row ∈ rows, 10 ∉ row.1) :
    completeLines 10 (rowsText rows) = rows.map fun row => numberedRow row.2 row.1 := by
  have hlines : ∀ line ∈ rows.map fun row => numberedRow row.2 row.1, 10 ∉ line := by
    intro line hline
    obtain ⟨row, hrow, rfl⟩ := List.mem_map.mp hline
    exact not_mem_numberedRow (h row hrow) row.2
  have hcomplete := completeLines_flatten hlines
  rwa [List.map_map] at hcomplete

/-! ## Replies -/

/-- A reply the server can give to a text under the echo policy: that of a batch in
some order on some threads, or of a task of the batch engine with any number of
workers and sessions, in any state the threads and the task were in before. -/
inductive EchoReply (options : ServerOptions) (text : Bytes) : Bytes → Prop where
  | batch {τ : Type} [DecidableEq τ] {schedule : Schedule τ} {header : HEADER} {task task' : Task}
      {locals locals' : τ → ThreadLocals} : schedule.Valid options header text task →
      runBatch options (some EchoPolicy) schedule header text task locals = .ok (task', locals') →
      EchoReply options text (Session.responseData task')
  | engine {σ ω : Type} [DecidableEq σ] [DecidableEq ω] [Nonempty ω] {locals : ω → ThreadLocals}
      {events : List (Event σ)} {s : TaskController.State σ ω ThreadLocals} {t : σ}
      {header : HEADER} : TaskController.Run options (some EchoPolicy) locals events s →
      s.sessions t = .returned header text →
      EchoReply options text (Session.responseData (s.tasks (some t)))

variable {options : ServerOptions} {text : Bytes}

theorem hasSizeKey_rowsText {rows : List (Bytes × Nat)}
    (h : ∀ row ∈ rows, 10 ∉ row.1 ∧ HasSizeKey options._useRegex row.1) :
    ∀ line ∈ completeLines 10 (rowsText rows), HasSizeKey options._useRegex line := by
  intro line hline
  rw [completeLines_rowsText fun row hrow => (h row hrow).1] at hline
  obtain ⟨row, hrow, rfl⟩ := List.mem_map.mp hline
  exact hasSizeKey_numberedRow (h row hrow).2 row.2

/-- The reply is the one of the echo to each row. -/
theorem EchoReply.eq {reply : Bytes} (h : EchoReply options text reply)
    (hkeys : ∀ line ∈ completeLines 10 text, HasSizeKey options._useRegex line) :
    reply = ((completeLines 10 text).map echo).flatten := by
  have hreplies (diagnostics : Bool) : (completeLines 10 text).map
      (Task.replyTo (EchoPolicy.functional options._useRegex) diagnostics) =
        (completeLines 10 text).map echo := by
    refine List.map_congr_left fun line hline => ?_
    obtain ⟨sizeKey, hkey⟩ := createSizeKey_isOk_iff.mpr (hkeys line hline)
    rw [Task.replyTo, hkey]
    rfl
  cases h with
  | batch hvalid hrun =>
      obtain ⟨_, _, hrun', hresponse⟩ := runBatch_of_functional
        (EchoPolicy.functional options._useRegex) hvalid hkeys fun _ => trivial
      obtain ⟨rfl, -⟩ := Prod.ext_iff.mp (Except.ok.inj (hrun'.symm.trans hrun))
      rw [TaskController.responseData_eq, hresponse, hreplies]
  | @engine _ _ _ _ _ _ _ _ t _ hrun hsession =>
      obtain ⟨life, -, hsim, hdata⟩ := TaskController.data_of_run
        (EchoPolicy.functional options._useRegex) (fun _ => trivial) hrun
      have hreturned := hdata.tasks (some t)
      rw [hsim.returned hsession] at hreturned
      rw [TaskController.responseData_eq, hreturned.1.response_eq hreturned.2]
      exact congrArg List.flatten (hreplies _)

/-- The reply to lines with numbers is the lines. -/
theorem EchoReply.eq_lines {rows : List (Bytes × Nat)} {reply : Bytes}
    (h : EchoReply options (rowsText rows) reply)
    (hrows : ∀ row ∈ rows, 10 ∉ row.1 ∧ HasSizeKey options._useRegex row.1) :
    reply = (rows.map fun row => row.1 ++ bytes "\n").flatten := by
  have hcomplete := completeLines_rowsText fun row hrow => (hrows row hrow).1
  rw [h.eq (hasSizeKey_rowsText hrows), hcomplete, List.map_map]
  exact congrArg List.flatten (List.map_congr_left fun row _ => echo_numberedRow row.2 row.1)

/-- In every order on any threads a batch whose rows have size keys returns with a
reply. -/
theorem exists_echoReply_of_valid {τ : Type} [DecidableEq τ] {schedule : Schedule τ}
    {header : HEADER} {task : Task} (hvalid : schedule.Valid options header text task)
    (hkeys : ∀ line ∈ completeLines 10 text, HasSizeKey options._useRegex line)
    (locals : τ → ThreadLocals) :
    ∃ task' locals', runBatch options (some EchoPolicy) schedule header text task locals =
      .ok (task', locals') ∧ EchoReply options text (Session.responseData task') := by
  obtain ⟨task', locals', hrun, -⟩ := runBatch_of_functional
    (EchoPolicy.functional options._useRegex) hvalid hkeys fun _ => trivial
  exact ⟨task', locals', hrun, .batch hvalid hrun⟩

/-- Preprocessing leaves the indices alone. -/
theorem sortedIndices_preprocess {order : List Nat} {task task' : Task}
    (h : order.foldlM (fun task index => task.preprocessAt options index) task = .ok task') :
    task'._sortedIndices = task._sortedIndices := by
  induction order generalizing task with
  | nil => rw [Except.ok.inj h]
  | cons index order ih =>
      rw [List.foldlM_cons] at h
      obtain ⟨next, hstep, hrest⟩ := Outcome.bind_eq_ok.mp h
      obtain ⟨requests, rfl⟩ := Task.preprocessAt_ok hstep
      rw [ih hrest]

/-- One thread takes the rows in order. -/
theorem exists_valid_schedule (hpolicy : options._policyEnum = .ECHOPOLICY) (header : HEADER)
    (text : Bytes) : ∃ schedule : Schedule Unit, schedule.Valid options header text .initial := by
  refine ⟨⟨List.range (completeLines 10 text).length, [],
    (List.range (completeLines 10 text).length).map ((), ·)⟩, .refl _, ?_, ?_⟩
  · intro task' hpreprocess
    have hindices := sortedIndices_preprocess (noexcept_eq_ok.mp hpreprocess)
    have hnone : (Task.initial.update options header text)._sortedIndices = [] := by
      simp [Task.update, hpolicy, Task.initial]
    rw [Task.SortedBy, hindices, hnone]
    exact ⟨.nil, .nil⟩
  · rw [List.map_map]
    exact (List.map_id _).symm ▸ List.Perm.refl _

theorem exists_echoReply (hpolicy : options._policyEnum = .ECHOPOLICY)
    (hkeys : ∀ line ∈ completeLines 10 text, HasSizeKey options._useRegex line) :
    ∃ reply, EchoReply options text reply := by
  obtain ⟨schedule, hvalid⟩ := exists_valid_schedule hpolicy default text
  obtain ⟨task', _, -, hreply⟩ := exists_echoReply_of_valid hvalid hkeys fun _ => .initial
  exact ⟨_, hreply⟩

end ClientServer
