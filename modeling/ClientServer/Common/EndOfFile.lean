import ClientServer.Common.Framing
import ClientServer.Library.ReadLoop

/-!
# When the writer of a pipe is gone

A writer that closes without a terminator leaves the pipe at its end: from then on
`read` returns 0.  `readStringBlock` takes that for the end and returns false.
`readStringNonBlock` has no branch for it and reads again, so it ends only if an
outcome before the end of the file makes it end.
-/

namespace ClientServer

open ReadLoop

/-- What a `read` puts behind the payload. -/
def ReadResult.chunk : ReadResult → Bytes
  | error => []
  | transferred chunk => chunk

namespace Fifo

/-- One turn of the loop of `readStringBlock`. -/
def readBlockTurn (payload : Bytes) : ReadResult → Turn UInt8 Fault
  | .error => .throws .errnoString payload
  | .transferred chunk =>
      if chunk = [] then .returns false payload
      else
        let payload := payload ++ chunk
        if ENDOFMESSAGE.isSuffixOf payload then .returns true (stripEndOfMessage payload)
        else .goesOn payload

/-- One turn of the loop of `readStringNonBlock`. -/
def readNonBlockTurn (payload : Bytes) : ReadNonBlockResult → Turn UInt8 Fault
  | .again poll =>
      match pollFd poll POLLIN with
      | .error fault => .throws fault payload
      | .ok ret => if ret ≠ POLLIN then .returns false payload else .goesOn payload
  | .error => .throws .errnoString payload
  | .transferred chunk =>
      if chunk = [] then .goesOn payload
      else
        let payload := payload ++ chunk
        if ENDOFMESSAGE.isSuffixOf payload then .returns true (stripEndOfMessage payload)
        else .goesOn payload

/-- What the caller sees of a turn; `none` where the loop still reads. -/
def result : Turn UInt8 Fault → Option (Call (Bool × Bytes))
  | .goesOn _ => none
  | .returns ok payload => some (.ok (ok, payload))
  | .throws fault _ => some (.error fault)

theorem result_eq_none_iff {turn : Turn UInt8 Fault} :
    result turn = none ↔ turn.running = true := by
  cases turn <;> simp [result, Turn.running]

theorem result_eq_returns {turn : Turn UInt8 Fault} {ok : Bool} {payload : Bytes}
    (h : result turn = some (.ok (ok, payload))) : turn = .returns ok payload := by
  cases turn with
  | goesOn | throws => cases h
  | returns =>
      cases h
      rfl

/-- The loop of `readStringBlock` turn by turn, up to the end of the file. -/
theorem result_after_block (payload : Bytes) (results : List ReadResult) :
    result (after readBlockTurn payload results (.transferred []) (results.length + 1)) =
      some (readLoop payload results) := by
  induction results generalizing payload with
  | nil => rfl
  | cons outcome results ih =>
      rw [List.length_cons, after_cons]
      cases outcome with
      | error => rfl
      | transferred chunk =>
          rw [readBlockTurn, readLoop]
          by_cases hnil : chunk = []
          · rw [if_pos hnil, if_pos hnil]
            rfl
          · rw [if_neg hnil, if_neg hnil]
            dsimp only
            cases ENDOFMESSAGE.isSuffixOf (payload ++ chunk) with
            | true => rfl
            | false => exact ih (payload ++ chunk)

/-- The loop of `readStringNonBlock` turn by turn. -/
theorem result_after_nonBlock (payload : Bytes) (results : List ReadNonBlockResult) :
    result (after readNonBlockTurn payload results (.transferred []) results.length) =
      readNonBlockLoop payload results := by
  induction results generalizing payload with
  | nil => rfl
  | cons outcome results ih =>
      rw [List.length_cons, after_cons]
      cases outcome with
      | error => rfl
      | again poll =>
          rw [readNonBlockTurn, readNonBlockLoop]
          cases pollFd poll POLLIN with
          | error fault => rfl
          | ok ret =>
              dsimp only
              by_cases hret : ret ≠ POLLIN
              · rw [if_pos hret, if_pos hret]
                rfl
              · rw [if_neg hret, if_neg hret]
                exact ih payload
      | transferred chunk =>
          rw [readNonBlockTurn, readNonBlockLoop]
          by_cases hnil : chunk = []
          · rw [if_pos hnil, if_pos hnil]
            exact ih payload
          · rw [if_neg hnil, if_neg hnil]
            dsimp only
            cases ENDOFMESSAGE.isSuffixOf (payload ++ chunk) with
            | true => rfl
            | false => exact ih (payload ++ chunk)

namespace ReadNonBlockResult

/-- To a reader that blocks `EAGAIN` is an error like any other. -/
def toBlock : ReadNonBlockResult → ReadResult
  | again _ | error => .error
  | transferred chunk => .transferred chunk

/-- The outcome ends `readStringNonBlock`, whatever it has gathered. -/
def Halts : ReadNonBlockResult → Prop
  | again poll => ¬ poll.Ready POLLIN
  | error => True
  | transferred _ => False

end ReadNonBlockResult

/-- The outcome ends `readStringBlock`. -/
def Stops : ReadResult → Prop
  | .error => True
  | .transferred chunk => chunk = []

/-- What both loops do with a chunk. -/
def append (payload chunk : Bytes) : Turn UInt8 Fault :=
  if ENDOFMESSAGE.isSuffixOf (payload ++ chunk) then
    .returns true (stripEndOfMessage (payload ++ chunk))
  else .goesOn (payload ++ chunk)

section Append

variable {payload chunk : Bytes}

theorem append_payload (h : ∀ final, append payload chunk ≠ .returns true final) :
    (append payload chunk).payload = payload ++ chunk := by
  rw [append] at h ⊢
  split at h
  · exact absurd rfl (h _)
  · next hends =>
      rw [if_neg hends]
      rfl

theorem suffix_of_append {final : Bytes} (h : append payload chunk = .returns true final) :
    ENDOFMESSAGE <:+ payload ++ chunk := by
  rw [append] at h
  split at h
  · next hends => exact List.isSuffixOf_iff_suffix.mp hends
  · cases h

theorem append_ended (h : (append payload chunk).running = false) :
    ∃ final, append payload chunk = .returns true final := by
  rw [append] at h ⊢
  split at h
  · next hends => exact ⟨_, if_pos hends⟩
  · cases h

end Append

section Transferred

variable {payload chunk final : Bytes} {atEnd : Turn UInt8 Fault}

/-- A reader that does something of its own at the end of the file. -/
theorem transferred_payload (hend : atEnd.payload = payload)
    (h : ∀ final, (if chunk = [] then atEnd else append payload chunk) ≠ .returns true final) :
    (if chunk = [] then atEnd else append payload chunk).payload = payload ++ chunk := by
  split at h
  · next hnil => rw [if_pos hnil, hend, hnil, List.append_nil]
  · next hnil =>
      rw [if_neg hnil]
      exact append_payload h

theorem suffix_of_transferred (hend : atEnd ≠ .returns true final)
    (h : (if chunk = [] then atEnd else append payload chunk) = .returns true final) :
    ENDOFMESSAGE <:+ payload ++ chunk := by
  split at h
  · exact absurd h hend
  · exact suffix_of_append h

end Transferred

theorem readBlockTurn_transferred (payload chunk : Bytes) :
    readBlockTurn payload (.transferred chunk) =
      if chunk = [] then .returns false payload else append payload chunk := rfl

theorem readNonBlockTurn_transferred (payload chunk : Bytes) :
    readNonBlockTurn payload (.transferred chunk) =
      if chunk = [] then .goesOn payload else append payload chunk := rfl

/-- A poll says that there is something to read, or ends the loop with what it has. -/
theorem readNonBlockTurn_again (payload : Bytes) (poll : PollResult) :
    poll.Ready POLLIN ∧ readNonBlockTurn payload (.again poll) = .goesOn payload ∨
      ¬ poll.Ready POLLIN ∧ (readNonBlockTurn payload (.again poll) = .returns false payload ∨
        ∃ fault, readNonBlockTurn payload (.again poll) = .throws fault payload) := by
  rw [readNonBlockTurn]
  rcases poll.cases POLLIN with hfails | hready | hdeclines
  · rw [PollResult.pollFd_of_fails hfails]
    exact .inr ⟨fun hready => hready.1 hfails, .inr ⟨_, rfl⟩⟩
  · rw [PollResult.pollFd_of_ready hready]
    exact .inl ⟨hready, rfl⟩
  · obtain ⟨ret, hret, hne⟩ := PollResult.pollFd_of_declines hdeclines (by decide) (by decide)
    rw [hret]
    exact .inr ⟨fun hready => hready.2 hdeclines.2, .inl (if_pos hne)⟩

theorem readBlockTurn_lawful :
    Lawful readBlockTurn ReadResult.chunk (ENDOFMESSAGE <:+ ·) Stops where
  gathers payload outcome h := by
    cases outcome with
    | error => exact (List.append_nil payload).symm
    | transferred chunk => exact transferred_payload rfl h
  message payload outcome final h := by
    cases outcome with
    | error => cases h
    | transferred chunk => exact suffix_of_transferred (fun h => by cases h) h
  halts payload outcome h := by
    cases outcome with
    | error => rfl
    | transferred chunk =>
        have hnil : chunk = [] := h
        rw [readBlockTurn_transferred, if_pos hnil]
        rfl
  goesOn payload outcome hstops h := by
    cases outcome with
    | error => exact absurd trivial hstops
    | transferred chunk =>
        have hnil : chunk ≠ [] := hstops
        rw [readBlockTurn_transferred, if_neg hnil] at h ⊢
        exact append_ended h

/-- What an outcome brings does not depend on who reads. -/
theorem readNonBlockTurn_lawful :
    Lawful readNonBlockTurn (·.toBlock.chunk) (ENDOFMESSAGE <:+ ·) ReadNonBlockResult.Halts where
  gathers payload outcome h := by
    cases outcome with
    | error => exact (List.append_nil payload).symm
    | again poll =>
        refine Eq.trans ?_ (List.append_nil payload).symm
        rcases readNonBlockTurn_again payload poll with ⟨-, heq⟩ | ⟨-, heq | ⟨fault, heq⟩⟩
        all_goals
          rw [heq]
          rfl
    | transferred chunk => exact transferred_payload rfl h
  message payload outcome final h := by
    cases outcome with
    | error => cases h
    | again poll =>
        rcases readNonBlockTurn_again payload poll with ⟨-, heq⟩ | ⟨-, heq | ⟨fault, heq⟩⟩
        all_goals
          rw [heq] at h
          cases h
    | transferred chunk => exact suffix_of_transferred (fun h => by cases h) h
  halts payload outcome h := by
    cases outcome with
    | error => rfl
    | transferred => exact h.elim
    | again poll =>
        rcases readNonBlockTurn_again payload poll with ⟨hready, -⟩ | ⟨-, heq | ⟨fault, heq⟩⟩
        · exact absurd hready h
        · rw [heq]
          rfl
        · rw [heq]
          rfl
  goesOn payload outcome hhalts h := by
    cases outcome with
    | error => exact absurd trivial hhalts
    | again poll =>
        rcases readNonBlockTurn_again payload poll with ⟨-, heq⟩ | ⟨hready, -⟩
        · rw [heq] at h
          cases h
        · exact absurd hready hhalts
    | transferred chunk =>
        rw [readNonBlockTurn_transferred] at h ⊢
        split at h
        · cases h
        · next hnil =>
            rw [if_neg hnil]
            exact append_ended h

/-! ## The end of the file -/

/-- At no read the terminator is at the end: the writer did not send it. -/
def Unterminated (payload : Bytes) (outcomes : List ReadNonBlockResult) : Prop :=
  ∀ n, ¬ ENDOFMESSAGE <:+ payload ++ brought (·.toBlock.chunk) outcomes n

/-- Both readers end when the outcomes are over and the file stays at its end. -/
def ReadersEnd (payload : Bytes) (outcomes : List ReadNonBlockResult) : Prop :=
  Ends readBlockTurn ReadResult.chunk payload (outcomes.map (·.toBlock)) (.transferred []) ∧
    Ends readNonBlockTurn (·.toBlock.chunk) payload outcomes (.transferred [])

variable {payload : Bytes} {outcomes : List ReadNonBlockResult}

theorem brought_toBlock (outcomes : List ReadNonBlockResult) (n : Nat) :
    brought ReadResult.chunk (outcomes.map (·.toBlock)) n =
      brought (·.toBlock.chunk) outcomes n := by
  rw [brought, brought, ← List.map_take, List.flatMap_map]

theorem outcome_length {α : Type _} (outcomes : List α) (last : α) :
    outcome outcomes last outcomes.length = last := by
  rw [outcome, List.getElem?_eq_none (Nat.le_refl _), Option.getD_none]

/-- `readStringBlock` ends at the end of the file at the latest. -/
theorem readStringBlock_ends (h : Unterminated payload outcomes) :
    Ends readBlockTurn ReadResult.chunk payload (outcomes.map (·.toBlock)) (.transferred []) := by
  rw [readBlockTurn_lawful.ends_iff rfl fun n => (brought_toBlock outcomes n).symm ▸ h n]
  refine ⟨(outcomes.map (·.toBlock)).length, ?_⟩
  rw [outcome_length]
  rfl

/-- `readStringNonBlock` ends only where an outcome makes it end. -/
theorem readStringNonBlock_ends_iff (h : Unterminated payload outcomes) :
    Ends readNonBlockTurn (·.toBlock.chunk) payload outcomes (.transferred []) ↔
      ∃ outcome ∈ outcomes, outcome.Halts := by
  rw [readNonBlockTurn_lawful.ends_iff rfl h]
  constructor
  · rintro ⟨n, hhalts⟩
    rw [outcome] at hhalts
    cases houtcome : outcomes[n]? with
    | none =>
        -- the end of the file does not
        rw [houtcome] at hhalts
        exact hhalts.elim
    | some o =>
        rw [houtcome] at hhalts
        exact ⟨o, List.mem_of_getElem? houtcome, hhalts⟩
  · rintro ⟨o, hmem, hhalts⟩
    obtain ⟨n, hn⟩ := List.mem_iff_getElem?.mp hmem
    refine ⟨n, ?_⟩
    rw [outcome, hn]
    exact hhalts

/-- Both readers end just when an outcome in front of the end of the file ends
`readStringNonBlock`. -/
theorem readers_end_iff (h : Unterminated payload outcomes) :
    ReadersEnd payload outcomes ↔ ∃ outcome ∈ outcomes, outcome.Halts := by
  rw [ReadersEnd, and_iff_right (readStringBlock_ends h), readStringNonBlock_ends_iff h]

/-- So the loop has no result at the end of the file just when no outcome has ended it, and
`readStringBlock` gives out no part of a message. -/
theorem loops_unterminated (h : Unterminated payload outcomes) :
    (∀ message, readLoop payload (outcomes.map (·.toBlock)) ≠ .ok (true, message)) ∧
      (readNonBlockLoop payload outcomes = none ↔ ∀ outcome ∈ outcomes, ¬ outcome.Halts) := by
  constructor
  · intro message hmessage
    have hresult := result_after_block payload (outcomes.map (·.toBlock))
    rw [hmessage] at hresult
    exact (readBlockTurn_lawful.not_message rfl
      (fun n => (brought_toBlock outcomes n).symm ▸ h n) _).1 message (result_eq_returns hresult)
  · rw [← result_after_nonBlock, result_eq_none_iff, readNonBlockTurn_lawful.running_iff rfl h]
    constructor
    · intro hnone o hmem
      obtain ⟨n, hn⟩ := List.mem_iff_getElem?.mp hmem
      have hnot := hnone n (List.getElem?_eq_some_iff.mp hn).1
      rwa [outcome, hn] at hnot
    · intro hnone n hlt
      rw [outcome, List.getElem?_eq_getElem hlt]
      exact hnone _ (List.getElem_mem hlt)

/-- What is too short for a terminator holds none. -/
theorem unterminated_of_short
    (h : (payload ++ outcomes.flatMap (·.toBlock.chunk)).length < ENDOFMESSAGE.length) :
    Unterminated payload outcomes := by
  intro n hsuffix
  have hle := hsuffix.length_le
  have hall : (brought (·.toBlock.chunk) outcomes n).length ≤
      (outcomes.flatMap (·.toBlock.chunk)).length :=
    ((List.take_sublist n outcomes).flatMap _).length_le
  rw [List.length_append] at h hle
  omega

/-- A byte, and then an error. -/
theorem readers_end_error : ReadersEnd [] [.transferred [7], .error] :=
  (readers_end_iff (unterminated_of_short (by decide +kernel))).mpr
    ⟨.error, .tail _ (.head _), trivial⟩

/-- A byte, and then the end of the file. -/
theorem readers_not_end :
    ¬ ∀ payload outcomes, Unterminated payload outcomes → ReadersEnd payload outcomes := by
  intro h
  have hshort : Unterminated [] [.transferred [7]] := unterminated_of_short (by decide +kernel)
  obtain ⟨o, hmem, hhalts⟩ := (readStringNonBlock_ends_iff hshort).mp (h _ _ hshort).2
  obtain rfl := List.mem_singleton.mp hmem
  exact hhalts

end Fifo

end ClientServer
