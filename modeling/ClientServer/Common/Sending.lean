import ClientServer.Common.Transport

/-!
# What a send hands over

`Fifo::sendMessage` calls `writeString` for the header, the four payloads and the
terminator; `Tcp::sendMessage` gives the six buffers to one `boost::asio::write`.
A peer is given by the outcomes of the system calls, as many as come.  A call for
which no outcome has come yet has not returned.

`writeString` returns false where a `poll` wakes it for something else than room
in the pipe, and nobody looks at that.  `Tcp::sendMessage` returns true after
four of the errors of a socket.
-/

namespace ClientServer

/-- A call of `sendMessage`: its result, if it has returned, and the bytes the
descriptor or the socket took. -/
structure Sent where
  result : Option (Call Bool)
  handed : Bytes

/-! ## Fifo -/

namespace Fifo

/-- What one `write` returns: the number of bytes it took of those offered, -1
with `EAGAIN`, which a `poll` follows, or -1 with any other error. -/
inductive WriteResult where
  | written (n : Nat)
  | again (poll : PollResult)
  | error

/-- A call of `writeString`: its result, the bytes handed over and the outcomes
that are left. -/
structure Written where
  result : Option (Call Bool)
  handed : Bytes
  results : List WriteResult

/-- `Fifo::writeString` of what is left of the string. -/
def writeString : (str handed : Bytes) → List WriteResult → Written
  | [], handed, results => ⟨some (.ok true), handed, results⟩
  | _ :: _, handed, [] => ⟨none, handed, []⟩
  | _ :: _, handed, .error :: results => ⟨some (.error .errnoString), handed, results⟩
  | c :: str, handed, .again poll :: results =>
      match pollFd poll POLLOUT with
      | .error fault => ⟨some (.error fault), handed, results⟩
      | .ok ret =>
          if ret ≠ POLLOUT then ⟨some (.ok false), handed, results⟩
          else writeString (c :: str) handed results
  | c :: str, handed, .written n :: results =>
      writeString ((c :: str).drop n) (handed ++ (c :: str).take n) results

/-- The six calls of `writeString`; their results are dropped. -/
def writeStrings : List Bytes → (handed : Bytes) → List WriteResult → Option (Call Unit) × Bytes
  | [], handed, _ => (some (.ok ()), handed)
  | str :: strings, handed, results =>
      match writeString str handed results with
      | ⟨none, handed, _⟩ => (none, handed)
      | ⟨some (.error fault), handed, _⟩ => (some (.error fault), handed)
      | ⟨some (.ok _), handed, results⟩ => writeStrings strings handed results

/-- `Fifo::sendMessage`; opening the pipe throws, fails or succeeds. -/
def sendMessage (opened : Call Bool) (header : HEADER)
    (payload1 payload2 payload3 payload4 : Bytes) (results : List WriteResult) : Sent :=
  match opened with
  | .error fault => ⟨some (.error fault), []⟩
  | .ok false => ⟨some (.ok false), []⟩
  | .ok true =>
      match writeStrings (sendBuffers header payload1 payload2 payload3 payload4) [] results with
      | (none, handed) => ⟨none, handed⟩
      | (some (.error fault), handed) => ⟨some (.error fault), handed⟩
      | (some (.ok ()), handed) => ⟨some (.ok true), handed⟩

/-- The outcomes that one string of a size meets, up to the one that completes
it or at which `writeString` gives up. -/
inductive Meets : (size : Nat) → List WriteResult → (completes : Bool) → Prop where
  | done : Meets 0 [] true
  | givesUp {size : Nat} {poll : PollResult} (hsize : 0 < size) (hpoll : poll.Declines POLLOUT) :
      Meets size [.again poll] false
  | again {size : Nat} {poll : PollResult} {part : List WriteResult} {completes : Bool}
      (hsize : 0 < size) (hpoll : poll.Ready POLLOUT) (hpart : Meets size part completes) :
      Meets size (.again poll :: part) completes
  | written {size n : Nat} {part : List WriteResult} {completes : Bool}
      (hsize : 0 < size) (hpart : Meets (size - n) part completes) :
      Meets size (.written n :: part) completes

/-- The outcomes let every string come to an end, and one of them was given up. -/
def GivesUp (strings : List Bytes) (results : List WriteResult) : Prop :=
  ∃ parts : List (List WriteResult × Bool), ∃ surplus,
    results = (parts.map Prod.fst).flatten ++ surplus ∧
    List.Forall₂ (fun str part => Meets str.length part.1 part.2) strings parts ∧
    ∃ part ∈ parts, part.2 = false

/-! ### One string -/

theorem writeString_of_meets {size : Nat} {part : List WriteResult} {completes : Bool}
    (h : Meets size part completes) (more : List WriteResult) :
    ∀ {str : Bytes}, str.length = size → ∀ handed, ∃ n ≤ size, (completes = true ↔ n = size) ∧
      writeString str handed (part ++ more) =
        ⟨some (.ok completes), handed ++ str.take n, more⟩ := by
  induction h with
  | done =>
      intro str hstr handed
      rw [List.length_eq_zero_iff] at hstr
      exact ⟨0, Nat.le_refl 0, by simp, by simp [hstr, writeString]⟩
  | @givesUp size poll hsize hpoll =>
      intro str hstr handed
      obtain ⟨c, str, rfl⟩ := List.exists_cons_of_length_pos (hstr ▸ hsize)
      obtain ⟨ret, hret, hne⟩ := PollResult.pollFd_of_declines hpoll (by decide) (by decide)
      refine ⟨0, Nat.zero_le _, by simp [Nat.ne_of_lt hsize], ?_⟩
      simp [writeString, hret, hne]
  | again hsize hpoll _ ih =>
      intro str hstr handed
      obtain ⟨n, hn, hcompletes, hwrite⟩ := ih hstr handed
      obtain ⟨c, str, rfl⟩ := List.exists_cons_of_length_pos (hstr ▸ hsize)
      refine ⟨n, hn, hcompletes, ?_⟩
      rw [List.cons_append, writeString, PollResult.pollFd_of_ready hpoll]
      simpa using hwrite
  | @written size m part completes hsize _ ih =>
      intro str hstr handed
      have hdrop : (str.drop m).length = size - m := by rw [List.length_drop, hstr]
      obtain ⟨n, hn, hcompletes, hwrite⟩ := ih hdrop (handed ++ str.take m)
      obtain ⟨c, str, rfl⟩ := List.exists_cons_of_length_pos (hstr ▸ hsize)
      refine ⟨min size (m + n), Nat.min_le_left .., ?_, ?_⟩
      · rw [hcompletes]
        omega
      · rw [List.cons_append, writeString, hwrite, List.append_assoc, ← List.take_add, ← hstr,
          List.take_eq_take_min (i := m + n)]
        rw [Nat.min_comm]

theorem meets_of_writeString {results rest : List WriteResult} {completes : Bool} :
    ∀ {str handed handed' : Bytes},
      writeString str handed results = ⟨some (.ok completes), handed', rest⟩ →
      ∃ part, results = part ++ rest ∧ Meets str.length part completes := by
  induction results with
  | nil =>
      intro str handed handed' hwrite
      cases str with
      | nil =>
          simp only [writeString, Written.mk.injEq, Option.some.injEq, Except.ok.injEq] at hwrite
          obtain ⟨rfl, -, rfl⟩ := hwrite
          exact ⟨[], rfl, .done⟩
      | cons c str => simp [writeString] at hwrite
  | cons result results ih =>
      intro str handed handed' hwrite
      cases str with
      | nil =>
          simp only [writeString, Written.mk.injEq, Option.some.injEq, Except.ok.injEq] at hwrite
          obtain ⟨rfl, -, rfl⟩ := hwrite
          exact ⟨[], rfl, .done⟩
      | cons c str =>
          have hsize : 0 < (c :: str).length := Nat.succ_pos _
          cases result with
          | error => simp [writeString] at hwrite
          | again poll =>
              rw [writeString] at hwrite
              obtain hfails | hready | hdeclines := poll.cases POLLOUT
              · simp [PollResult.pollFd_of_fails hfails] at hwrite
              · simp only [PollResult.pollFd_of_ready hready, ne_eq, not_true_eq_false,
                  if_false] at hwrite
                obtain ⟨part, rfl, hpart⟩ := ih hwrite
                exact ⟨_ :: part, rfl, .again hsize hready hpart⟩
              · obtain ⟨ret, hret, hne⟩ :=
                  PollResult.pollFd_of_declines hdeclines (by decide) (by decide)
                simp only [hret, ne_eq, hne, not_false_eq_true, if_true, Written.mk.injEq,
                  Option.some.injEq, Except.ok.injEq] at hwrite
                obtain ⟨rfl, -, rfl⟩ := hwrite
                exact ⟨[_], rfl, .givesUp hsize hdeclines⟩
          | written n =>
              rw [writeString] at hwrite
              obtain ⟨part, rfl, hpart⟩ := ih hwrite
              rw [List.length_drop] at hpart
              exact ⟨_ :: part, rfl, .written hsize hpart⟩

/-! ### The six strings -/

/-- What becomes of the strings: all of them are handed over, or less. -/
theorem writeStrings_of_meets {strings : List Bytes} {parts : List (List WriteResult × Bool)}
    (h : List.Forall₂ (fun str part => Meets str.length part.1 part.2) strings parts)
    (surplus : List WriteResult) :
    ∀ handed, ∃ handed', writeStrings strings handed ((parts.map Prod.fst).flatten ++ surplus) =
        (some (.ok ()), handed') ∧
      handed'.length ≤ handed.length + strings.flatten.length ∧
      ((∀ part ∈ parts, part.2 = true) → handed' = handed ++ strings.flatten) ∧
      ((∃ part ∈ parts, part.2 = false) →
        handed'.length < handed.length + strings.flatten.length) := by
  induction h with
  | nil => exact fun handed => ⟨handed, by simp [writeStrings]⟩
  | @cons str part strings parts hpart _ ih =>
      intro handed
      obtain ⟨n, hn, hcompletes, hwrite⟩ := writeString_of_meets hpart
        ((parts.map Prod.fst).flatten ++ surplus) rfl handed
      obtain ⟨handed', hwrites, hle, hall, hlt⟩ := ih (handed ++ str.take n)
      have htake : (str.take n).length = n := List.length_take_of_le hn
      refine ⟨handed', ?_, ?_, ?_, ?_⟩
      · rw [List.map_cons, List.flatten_cons, List.append_assoc, writeStrings, hwrite]
        exact hwrites
      · rw [List.length_append, htake] at hle
        rw [List.flatten_cons, List.length_append]
        omega
      · intro hparts
        obtain ⟨hpart, hparts⟩ := List.forall_mem_cons.mp hparts
        rw [hall hparts, hcompletes.mp hpart, List.take_length, List.flatten_cons,
          List.append_assoc]
      · intro hparts
        rw [List.length_append, htake] at hle hlt
        rw [List.flatten_cons, List.length_append]
        obtain hpart | hparts := List.or_exists_of_exists_mem_cons hparts
        · have hne : n ≠ str.length := fun heq => absurd (hcompletes.mpr heq) (by simp [hpart])
          omega
        · have := hlt hparts
          omega

theorem meets_of_writeStrings {strings : List Bytes} :
    ∀ {handed handed' : Bytes} {results : List WriteResult},
      writeStrings strings handed results = (some (.ok ()), handed') →
      ∃ parts : List (List WriteResult × Bool), ∃ surplus,
        results = (parts.map Prod.fst).flatten ++ surplus ∧
        List.Forall₂ (fun str part => Meets str.length part.1 part.2) strings parts := by
  induction strings with
  | nil => exact fun {_ _ results} _ => ⟨[], results, rfl, .nil⟩
  | cons str strings ih =>
      intro handed handed' results hwrites
      rw [writeStrings] at hwrites
      split at hwrites
      · simp at hwrites
      · simp at hwrites
      · next completes handed rest hwrite =>
          obtain ⟨part, rfl, hpart⟩ := meets_of_writeString hwrite
          obtain ⟨parts, surplus, rfl, hparts⟩ := ih hwrites
          exact ⟨(part, completes) :: parts, surplus, by simp, .cons hpart hparts⟩

theorem result_sendMessage_eq_true_iff {opened : Call Bool} {header : HEADER}
    {payload1 payload2 payload3 payload4 : Bytes} {results : List WriteResult} :
    (sendMessage opened header payload1 payload2 payload3 payload4 results).result =
        some (.ok true) ↔
      opened = .ok true ∧
        (writeStrings (sendBuffers header payload1 payload2 payload3 payload4) [] results).1 =
          some (.ok ()) := by
  match opened with
  | .error fault => simp [sendMessage]
  | .ok false => simp [sendMessage]
  | .ok true =>
      rw [sendMessage]
      cases writeStrings (sendBuffers header payload1 payload2 payload3 payload4) [] results with
      | mk result handed =>
          match result with
          | none => simp
          | some (.error fault) => simp
          | some (.ok ()) => simp

theorem sendMessage_of_writeStrings {header : HEADER}
    {payload1 payload2 payload3 payload4 handed : Bytes} {results : List WriteResult}
    (h : writeStrings (sendBuffers header payload1 payload2 payload3 payload4) [] results =
      (some (.ok ()), handed)) :
    sendMessage (.ok true) header payload1 payload2 payload3 payload4 results =
      ⟨some (.ok true), handed⟩ := by
  rw [sendMessage, h]

/-- What a pipe took when the call returned true is the whole message, unless a
string was given up and every one came to an end. -/
theorem handed_sendMessage_iff {opened : Call Bool} {header : HEADER}
    {payload1 payload2 payload3 payload4 : Bytes} {results : List WriteResult} :
    ((sendMessage opened header payload1 payload2 payload3 payload4 results).result =
        some (.ok true) →
      (sendMessage opened header payload1 payload2 payload3 payload4 results).handed =
        ClientServer.sendMessage header payload1 payload2 payload3 payload4) ↔
    ¬ (opened = .ok true ∧
      GivesUp (sendBuffers header payload1 payload2 payload3 payload4) results) := by
  constructor
  · rintro hwhole ⟨rfl, parts, surplus, rfl, hparts, hgivesUp⟩
    obtain ⟨handed, hwrites, -, -, hlt⟩ := writeStrings_of_meets hparts surplus []
    rw [sendMessage_of_writeStrings hwrites] at hwhole
    have hhanded : handed = ClientServer.sendMessage header payload1 payload2 payload3 payload4 :=
      hwhole rfl
    have hlt := hlt hgivesUp
    rw [hhanded, ClientServer.sendMessage, List.length_nil, Nat.zero_add] at hlt
    exact Nat.lt_irrefl _ hlt
  · intro hnot htrue
    obtain ⟨rfl, hok⟩ := result_sendMessage_eq_true_iff.mp htrue
    obtain ⟨parts, surplus, rfl, hparts⟩ := meets_of_writeStrings (Prod.ext hok rfl)
    obtain ⟨handed, hwrites, -, hall, -⟩ := writeStrings_of_meets hparts surplus []
    rw [sendMessage_of_writeStrings hwrites]
    refine hall fun part hpart => ?_
    rw [← Bool.not_eq_false]
    exact fun hfalse => hnot ⟨rfl, parts, surplus, rfl, hparts, part, hpart, hfalse⟩

end Fifo

/-! ## Tcp -/

namespace Tcp

/-- The error codes of a socket that `sendMessage` tells apart. -/
inductive ErrorCode where
  | eof
  | connection_refused
  | connection_reset
  | broken_pipe
  | other
deriving DecidableEq

/-- What one `write_some` of a socket does: it takes a number of bytes of those
offered, or fails. -/
inductive WriteResult where
  | written (n : Nat)
  | error (ec : ErrorCode)

/-- `boost::asio::write`: it goes on until nothing is left or the socket fails. -/
def write : (buffers handed : Bytes) → List WriteResult → Option (Option ErrorCode) × Bytes
  | [], handed, _ => (some none, handed)
  | _ :: _, handed, [] => (none, handed)
  | _ :: _, handed, .error ec :: _ => (some (some ec), handed)
  | c :: buffers, handed, .written n :: results =>
      write ((c :: buffers).drop n) (handed ++ (c :: buffers).take n) results

/-- `Tcp::sendMessage` -/
def sendMessage (header : HEADER) (payload1 payload2 payload3 payload4 : Bytes)
    (results : List WriteResult) : Sent :=
  match write (sendBuffers header payload1 payload2 payload3 payload4).flatten [] results with
  | (none, handed) => ⟨none, handed⟩
  | (some none, handed) => ⟨some (.ok true), handed⟩
  | (some (some ec), handed) =>
      match ec with
      | .eof | .connection_refused | .connection_reset | .broken_pipe =>
          ⟨some (.ok true), handed⟩
      | .other => ⟨some (.ok false), handed⟩

/-- The peer is gone: the codes after which `sendMessage` goes on. -/
def ErrorCode.isDisconnect : ErrorCode → Bool
  | .eof | .connection_refused | .connection_reset | .broken_pipe => true
  | .other => false

/-- The socket takes some of the bytes and then the peer is gone. -/
def Disconnects (size : Nat) (results : List WriteResult) : Prop :=
  ∃ (taken : List Nat) (ec : ErrorCode) (rest : List WriteResult),
    results = taken.map .written ++ .error ec :: rest ∧ taken.sum < size ∧ ec.isDisconnect = true

theorem write_of_taken {taken : List Nat} {ec : ErrorCode} {rest : List WriteResult} :
    ∀ {buffers : Bytes}, taken.sum < buffers.length → ∀ handed,
      write buffers handed (taken.map .written ++ .error ec :: rest) =
        (some (some ec), handed ++ buffers.take taken.sum) := by
  induction taken with
  | nil =>
      intro buffers hlt handed
      obtain ⟨c, buffers, rfl⟩ := List.exists_cons_of_length_pos hlt
      simp [write]
  | cons n taken ih =>
      intro buffers hlt handed
      rw [List.sum_cons] at hlt
      have hdrop : taken.sum < (buffers.drop n).length := by
        rw [List.length_drop]
        omega
      have hwrite := ih hdrop (handed ++ buffers.take n)
      obtain ⟨c, buffers, rfl⟩ := List.exists_cons_of_length_pos (Nat.zero_lt_of_lt hlt)
      rw [List.map_cons, List.cons_append, write, hwrite, List.append_assoc, ← List.take_add,
        List.sum_cons]

/-- Either everything was taken, or the call waits, or an error came first. -/
theorem write_cases (results : List WriteResult) :
    ∀ buffers handed : Bytes,
      write buffers handed results = (some none, handed ++ buffers) ∨
      (∃ handed', write buffers handed results = (none, handed')) ∨
      ∃ (taken : List Nat) (ec : ErrorCode) (rest : List WriteResult),
        results = taken.map .written ++ .error ec :: rest ∧ taken.sum < buffers.length := by
  induction results with
  | nil =>
      intro buffers handed
      cases buffers with
      | nil => exact .inl (by simp [write])
      | cons c buffers => exact .inr (.inl ⟨handed, rfl⟩)
  | cons result results ih =>
      intro buffers handed
      cases buffers with
      | nil => exact .inl (by simp [write])
      | cons c buffers =>
          cases result with
          | error ec => exact .inr (.inr ⟨[], ec, results, rfl, Nat.succ_pos _⟩)
          | written n =>
              rw [write]
              obtain hall | hwaits | ⟨taken, ec, rest, rfl, hlt⟩ :=
                ih ((c :: buffers).drop n) (handed ++ (c :: buffers).take n)
              · refine .inl ?_
                rw [hall, List.append_assoc, List.take_append_drop]
              · exact .inr (.inl hwaits)
              · refine .inr (.inr ⟨n :: taken, ec, rest, rfl, ?_⟩)
                rw [List.length_drop] at hlt
                rw [List.sum_cons]
                omega

theorem handed_sendMessage_iff {header : HEADER} {payload1 payload2 payload3 payload4 : Bytes}
    {results : List WriteResult} :
    ((sendMessage header payload1 payload2 payload3 payload4 results).result = some (.ok true) →
      (sendMessage header payload1 payload2 payload3 payload4 results).handed =
        ClientServer.sendMessage header payload1 payload2 payload3 payload4) ↔
    ¬ Disconnects (ClientServer.sendMessage header payload1 payload2 payload3 payload4).length
      results := by
  unfold ClientServer.sendMessage sendMessage
  generalize (sendBuffers header payload1 payload2 payload3 payload4).flatten = message
  constructor
  · rintro hwhole ⟨taken, ec, rest, rfl, hlt, hec⟩
    rw [write_of_taken hlt, List.nil_append] at hwhole
    have htake : message.take taken.sum = message := by
      cases ec with
      | other => cases hec
      | eof | connection_refused | connection_reset | broken_pipe => exact hwhole rfl
    rw [List.take_eq_self_iff] at htake
    exact absurd hlt (Nat.not_lt.mpr htake)
  · intro hnot
    obtain hall | ⟨handed, hwaits⟩ | ⟨taken, ec, rest, rfl, hlt⟩ := write_cases results message []
    · rw [hall]
      exact fun _ => rfl
    · rw [hwaits]
      exact fun hresult => nomatch hresult
    · rw [write_of_taken hlt]
      cases ec with
      | other => exact fun hresult => nomatch hresult
      | eof | connection_refused | connection_reset | broken_pipe =>
          exact absurd ⟨taken, _, rest, rfl, hlt, rfl⟩ hnot

end Tcp

/-! ## Both -/

/-- A send that reports success sent everything, exactly where no string was
given up on the pipe and the peer of the socket was not lost on the way. -/
theorem sendMessage_success_iff (opened : Call Bool) (header : HEADER)
    (payload1 payload2 payload3 payload4 : Bytes) (pipe : List Fifo.WriteResult)
    (socket : List Tcp.WriteResult) :
    (((Fifo.sendMessage opened header payload1 payload2 payload3 payload4 pipe).result =
        some (.ok true) →
      (Fifo.sendMessage opened header payload1 payload2 payload3 payload4 pipe).handed =
        sendMessage header payload1 payload2 payload3 payload4) ↔
      ¬ (opened = .ok true ∧
        Fifo.GivesUp (sendBuffers header payload1 payload2 payload3 payload4) pipe)) ∧
    (((Tcp.sendMessage header payload1 payload2 payload3 payload4 socket).result =
        some (.ok true) →
      (Tcp.sendMessage header payload1 payload2 payload3 payload4 socket).handed =
        sendMessage header payload1 payload2 payload3 payload4) ↔
      ¬ Tcp.Disconnects (sendMessage header payload1 payload2 payload3 payload4).length socket) :=
  ⟨Fifo.handed_sendMessage_iff, Tcp.handed_sendMessage_iff⟩

/-- The payload is given up at a poll that reports a hangup; the connection is
reset behind the header.  Both sends are a success. -/
theorem sendMessage_success_fails :
    ((Fifo.sendMessage (.ok true) (sizesHeader 2 0 0 0) [1, 2] [] [] []
        [.written 44, .again ⟨1, Fifo.POLLHUP⟩, .written 32]).result = some (.ok true) ∧
      (Fifo.sendMessage (.ok true) (sizesHeader 2 0 0 0) [1, 2] [] [] []
        [.written 44, .again ⟨1, Fifo.POLLHUP⟩, .written 32]).handed =
          serialize (sizesHeader 2 0 0 0) ++ ENDOFMESSAGE ∧
      serialize (sizesHeader 2 0 0 0) ++ ENDOFMESSAGE ≠
        sendMessage (sizesHeader 2 0 0 0) [1, 2] [] [] []) ∧
    (Tcp.sendMessage (sizesHeader 2 0 0 0) [1, 2] [] [] []
        [.written 44, .error .connection_reset]).result = some (.ok true) ∧
      (Tcp.sendMessage (sizesHeader 2 0 0 0) [1, 2] [] [] []
        [.written 44, .error .connection_reset]).handed = serialize (sizesHeader 2 0 0 0) ∧
      serialize (sizesHeader 2 0 0 0) ≠ sendMessage (sizesHeader 2 0 0 0) [1, 2] [] [] [] := by
  decide +kernel

end ClientServer
