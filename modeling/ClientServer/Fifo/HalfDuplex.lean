import ClientServer.Common.Message
import ClientServer.Library.Runs
import ClientServer.Library.Text
import Mathlib.Logic.Function.Basic

/-!
# Two sides of one pipe

The client and the session use one pipe in both directions: a side that sent a
message closes its end, opens the pipe for reading and reads the answer.  Each
side has at most one end open, so where it stands says which.

An open for reading is registered at once and returns when a writer has come.
An open for writing fails without a reader.  What was written stays in the pipe
while some end of it is open.  Each call of `write` and `read` moves as many
bytes as it likes.
-/

namespace ClientServer.HalfDuplex

inductive Side where
  | client | session
deriving DecidableEq, Repr

def Side.peer : Side → Side
  | client => session
  | session => client

/-- Where a side stands between two messages it sends. -/
inductive Pc where
  /-- Behind `receive` and in front of the next `send`. -/
  | work
  /-- In `openWriteNonBlock`, after a number of repetitions. -/
  | openWriteNonBlock (message : Bytes) (rep : Nat)
  /-- In `writeString`, with what is left to write. -/
  | writeString (rest : Bytes)
  | closeWrite
  | openRead
  /-- Blocked in the open for reading, until a writer has come. -/
  | blocked (writer : Bool)
  /-- In the loop of `readStringBlock`. -/
  | readString (payload : Bytes)
  | closeRead (payload : Bytes)
  /-- A call failed, and the side is left with no end open. -/
  | failed
deriving DecidableEq, Repr

/-- The read end is open, or registered by an open that blocks. -/
def Pc.reads : Pc → Bool
  | blocked _ | readString _ | closeRead _ => true
  | _ => false

/-- The write end is open. -/
def Pc.writes : Pc → Bool
  | writeString _ | closeWrite => true
  | _ => false

/-- An open for reading that blocks sees a writer. -/
def Pc.wake : Pc → Pc
  | blocked _ => blocked true
  | pc => pc

structure State where
  pc : Side → Pc
  /-- The bytes in the pipe, with the sides that wrote them. -/
  buffer : List (Side × UInt8)
  /-- The messages a side has begun to write, and those it has read. -/
  sent : Side → List Bytes
  received : Side → List Bytes
  /-- For each byte read, the side that read it and the side that wrote it. -/
  transferred : List (Side × Side)

inductive Action where
  /-- A side has its next message. -/
  | send (side : Side) (message : Bytes)
  /-- The next call of a side that opens or closes. -/
  | next (side : Side)
  | write (side : Side) (n : Nat)
  | read (side : Side) (n : Nat)
deriving DecidableEq, Repr

namespace State

/-- A client at the end of `receiveStatus`, and a session in front of `run`. -/
def initial : State where
  pc
    | .client => .work
    | .session => .openRead
  buffer := []
  sent _ := []
  received _ := []
  transferred := []

def setPc (s : State) (side : Side) (pc : Pc) : State :=
  { s with pc := Function.update s.pc side pc }

def hasReader (s : State) : Bool := (s.pc .client).reads || (s.pc .session).reads

def hasWriter (s : State) : Bool := (s.pc .client).writes || (s.pc .session).writes

/-- Without an end open the pipe forgets what is in it. -/
def settle (s : State) : State :=
  if s.hasReader || s.hasWriter then s else { s with buffer := [] }

def send (s : State) (side : Side) (message : Bytes) : Option State :=
  match s.pc side with
  | .work => some (s.setPc side (.openWriteNonBlock message 0))
  | _ => none

/-- An open for writing that finds a reader. -/
def openWrite (s : State) (side : Side) (message : Bytes) : State :=
  { s with
    pc := Function.update (fun side => (s.pc side).wake) side
      (.writeString (message ++ ENDOFMESSAGE))
    sent := Function.update s.sent side (s.sent side ++ [message]) }

/-- Opening and closing.  Where `openWriteNonBlock` gives up, the client finds
the pipe there, sleeps and calls it again; the session ends. -/
def next ( _numberRepeatENXIO : Nat) (s : State) (side : Side) : Option State :=
  match s.pc side with
  | .openWriteNonBlock message rep =>
      if s.hasReader then some (s.openWrite side message)
      else if rep < _numberRepeatENXIO then
        some (s.setPc side (.openWriteNonBlock message (rep + 1)))
      else
        match side with
        | .client => some (s.setPc side (.openWriteNonBlock message 0))
        | .session => some (s.setPc side .failed)
  | .closeWrite => some (s.setPc side .openRead).settle
  | .openRead => some (s.setPc side (.blocked s.hasWriter))
  | .blocked true => some (s.setPc side (.readString []))
  | .closeRead _ => some (s.setPc side .work).settle
  | _ => none

/-- The bytes which a call of `write` moves. -/
def wrote (s : State) (side : Side) (bytes : Bytes) (pc : Pc) : State :=
  { s with
    pc := Function.update s.pc side pc
    buffer := s.buffer ++ bytes.map fun b => (side, b) }

/-- A call of `write` moves some bytes, or fails because there is no reader. -/
def write (s : State) (side : Side) (n : Nat) : Option State :=
  match s.pc side with
  | .writeString rest =>
      if !s.hasReader then some (s.setPc side .failed).settle
      else if 0 < n ∧ n ≤ rest.length then
        some (s.wrote side (rest.take n)
          (if n = rest.length then .closeWrite else .writeString (rest.drop n)))
      else none
  | _ => none

/-- The bytes which a call of `read` moves. -/
def transfer (s : State) (side : Side) (n : Nat) : State :=
  { s with
    buffer := s.buffer.drop n
    transferred := s.transferred ++ (s.buffer.take n).map fun b => (side, b.1) }

/-- `readStringBlock` has the message. -/
def complete (s : State) (side : Side) (payload : Bytes) : State :=
  { s with
    pc := Function.update s.pc side (.closeRead payload)
    received := Function.update s.received side (s.received side ++ [payload]) }

/-- A call of `read` moves some bytes, or is at the end of the file because
there is no writer. -/
def read (s : State) (side : Side) (n : Nat) : Option State :=
  match s.pc side with
  | .readString payload =>
      if s.buffer = [] then
        if s.hasWriter then none else some (s.setPc side .failed).settle
      else if 0 < n ∧ n ≤ s.buffer.length then
        let payload := payload ++ (s.buffer.take n).map Prod.snd
        if ENDOFMESSAGE.isSuffixOf payload then
          some ((s.transfer side n).complete side (stripEndOfMessage payload))
        else some ((s.transfer side n).setPc side (.readString payload))
      else none
  | _ => none

end State

def step ( _numberRepeatENXIO : Nat) : Action → State → Option State
  | .send side message, s => s.send side message
  | .next side, s => s.next _numberRepeatENXIO side
  | .write side n, s => s.write side n
  | .read side n, s => s.read side n

/-- The terminator does not stand in a message. -/
def NoENDOFMESSAGE : Action → State → Prop
  | .send _ message, _ => ¬ ENDOFMESSAGE <:+: message
  | _, _ => True

/-- The runs with such messages. -/
abbrev Reachable ( _numberRepeatENXIO : Nat) : State → Prop :=
  Runs.Reached (step _numberRepeatENXIO) NoENDOFMESSAGE State.initial

/-! ## The invariant -/

/-- A side that has read the last message, or is on its way to send the next. -/
def Pc.holds : Pc → Bool
  | closeRead _ | work | openWriteNonBlock _ _ => true
  | _ => false

/-- A side on its way from its last message to the answer. -/
def Pc.awaits : Pc → Bool
  | closeWrite | openRead | blocked false => true
  | _ => false

/-- What a side that sends has not written. -/
def Pc.unsent : Pc → Option Bytes
  | writeString rest => if rest = [] then none else some rest
  | closeWrite | openRead | blocked false => some []
  | _ => none

/-- What a side that receives has read. -/
def Pc.gathered : Pc → Option Bytes
  | blocked true => some []
  | readString payload => some payload
  | _ => none

/-- A side has all the other sent, and sends next. -/
structure Turn (s : State) (side : Side) : Prop where
  holds : (s.pc side).holds = true
  awaits : (s.pc side.peer).awaits = true
  buffer : s.buffer = []
  received : s.received side = s.sent side.peer
  sent : s.received side.peer = s.sent side
  payload : ∀ {payload}, s.pc side = .closeRead payload →
    (s.sent side.peer).getLast? = some payload
  clean : ∀ {message rep}, s.pc side = .openWriteNonBlock message rep →
    ¬ ENDOFMESSAGE <:+: message

/-- A side sends a message: what the other has read, what is in the pipe and
what is not written make the message and its terminator. -/
structure Sending (s : State) (side : Side) (message rest payload : Bytes) : Prop where
  unsent : (s.pc side).unsent = some rest
  gathered : (s.pc side.peer).gathered = some payload
  bytes : payload ++ s.buffer.map Prod.snd ++ rest = message ++ ENDOFMESSAGE
  left : payload ≠ message ++ ENDOFMESSAGE
  writer : ∀ b ∈ s.buffer, b.1 = side
  clean : ¬ ENDOFMESSAGE <:+: message
  received : s.received side = s.sent side.peer
  sent : s.sent side = s.received side.peer ++ [message]

/-- The session found no reader often enough. -/
structure GivenUp (s : State) : Prop where
  failed : s.pc .session = .failed
  awaits : (s.pc .client).awaits = true
  buffer : s.buffer = []
  received : s.received .session = s.sent .client
  sent : s.received .client = s.sent .session

/-- What holds between any two steps. -/
structure Inv (s : State) : Prop where
  phase : (∃ side, Turn s side) ∨
    (∃ side message rest payload, Sending s side message rest payload) ∨ GivenUp s
  transferred : ∀ p ∈ s.transferred, p.1 ≠ p.2

variable { _numberRepeatENXIO : Nat} {s s' : State} {side : Side}

theorem Side.eq_or_eq_peer (side w : Side) : side = w ∨ side = w.peer := by
  cases side <;> cases w <;> decide

theorem Side.peer_peer (side : Side) : side.peer.peer = side := by cases side <;> rfl

theorem Side.peer_ne (side : Side) : side.peer ≠ side := by cases side <;> decide

theorem State.hasReader_eq (s : State) (side : Side) :
    s.hasReader = ((s.pc side).reads || (s.pc side.peer).reads) := by
  cases side with
  | client => rfl
  | session => exact Bool.or_comm _ _

theorem State.hasWriter_eq (s : State) (side : Side) :
    s.hasWriter = ((s.pc side).writes || (s.pc side.peer).writes) := by
  cases side with
  | client => rfl
  | session => exact Bool.or_comm _ _

/-! ### Moving a side -/

namespace State

@[simp] theorem setPc_self (s : State) (side : Side) (pc : Pc) : (s.setPc side pc).pc side = pc :=
  Function.update_self ..

@[simp] theorem setPc_peer (s : State) (side : Side) (pc : Pc) :
    (s.setPc side pc).pc side.peer = s.pc side.peer :=
  Function.update_of_ne side.peer_ne ..

@[simp] theorem setPc_of_peer (s : State) (side : Side) (pc : Pc) :
    (s.setPc side.peer pc).pc side = s.pc side :=
  Function.update_of_ne side.peer_ne.symm ..

theorem openWrite_self (s : State) (side : Side) (message : Bytes) :
    (s.openWrite side message).pc side = .writeString (message ++ ENDOFMESSAGE) := by
  simp [openWrite]

theorem openWrite_peer (s : State) (side : Side) (message : Bytes) :
    (s.openWrite side message).pc side.peer = (s.pc side.peer).wake := by
  simp [openWrite, side.peer_ne]

theorem wrote_self (s : State) (side : Side) (bytes : Bytes) (pc : Pc) :
    (s.wrote side bytes pc).pc side = pc := by
  simp [wrote]

theorem complete_self (s : State) (side : Side) (payload : Bytes) :
    (s.complete side payload).pc side = .closeRead payload := by
  simp [complete]

@[simp] theorem settle_pc (s : State) : s.settle.pc = s.pc := by
  unfold settle
  split <;> rfl

@[simp] theorem settle_sent (s : State) : s.settle.sent = s.sent := by
  unfold settle
  split <;> rfl

@[simp] theorem settle_received (s : State) : s.settle.received = s.received := by
  unfold settle
  split <;> rfl

@[simp] theorem settle_transferred (s : State) : s.settle.transferred = s.transferred := by
  unfold settle
  split <;> rfl

theorem settle_buffer_of_nil {s : State} (h : s.buffer = []) : s.settle.buffer = [] := by
  unfold settle
  split
  · exact h
  · rfl

theorem settle_of_hasReader {s : State} (h : s.hasReader = true) : s.settle = s := by
  unfold settle
  rw [h, Bool.true_or, if_pos rfl]

end State

/-! ### What a step does -/

/-- What an action does, and what it found. -/
inductive Step (s : State) : Action → State → Prop where
  | sends {side : Side} {message : Bytes} : s.pc side = .work →
      Step s (.send side message) (s.setPc side (.openWriteNonBlock message 0))
  | opens {side : Side} {message : Bytes} {rep : Nat} :
      s.pc side = .openWriteNonBlock message rep → s.hasReader = true →
      Step s (.next side) (s.openWrite side message)
  | repeats {side : Side} {message : Bytes} {rep rep' : Nat} :
      s.pc side = .openWriteNonBlock message rep →
      Step s (.next side) (s.setPc side (.openWriteNonBlock message rep'))
  | givesUp {message : Bytes} {rep : Nat} : s.pc .session = .openWriteNonBlock message rep →
      Step s (.next .session) (s.setPc .session .failed)
  | closesWrite {side : Side} : s.pc side = .closeWrite →
      Step s (.next side) (s.setPc side .openRead).settle
  | blocks {side : Side} : s.pc side = .openRead →
      Step s (.next side) (s.setPc side (.blocked s.hasWriter))
  | wakes {side : Side} : s.pc side = .blocked true →
      Step s (.next side) (s.setPc side (.readString []))
  | closesRead {side : Side} {payload : Bytes} : s.pc side = .closeRead payload →
      Step s (.next side) (s.setPc side .work).settle
  | writes {side : Side} {rest : Bytes} {n : Nat} : s.pc side = .writeString rest →
      n ≤ rest.length → Step s (.write side n) (s.wrote side (rest.take n)
        (if n = rest.length then .closeWrite else .writeString (rest.drop n)))
  | writeFails {side : Side} {rest : Bytes} {n : Nat} : s.pc side = .writeString rest →
      s.hasReader = false → Step s (.write side n) (s.setPc side .failed).settle
  | reads {side : Side} {payload : Bytes} {n : Nat} : s.pc side = .readString payload →
      ¬ ENDOFMESSAGE <:+ payload ++ (s.buffer.take n).map Prod.snd →
      Step s (.read side n) ((s.transfer side n).setPc side
        (.readString (payload ++ (s.buffer.take n).map Prod.snd)))
  | completes {side : Side} {payload : Bytes} {n : Nat} : s.pc side = .readString payload →
      ENDOFMESSAGE <:+ payload ++ (s.buffer.take n).map Prod.snd →
      Step s (.read side n) ((s.transfer side n).complete side
        (stripEndOfMessage (payload ++ (s.buffer.take n).map Prod.snd)))
  | endOfFile {side : Side} {payload : Bytes} {n : Nat} : s.pc side = .readString payload →
      s.buffer = [] → s.hasWriter = false → Step s (.read side n) (s.setPc side .failed).settle

theorem next_cases (hs : s.next _numberRepeatENXIO side = some s') : Step s (.next side) s' := by
  unfold State.next at hs
  split at hs
  next message rep hpc =>
    split at hs
    next hreader =>
      obtain rfl := Option.some.inj hs
      exact .opens hpc hreader
    next =>
      split at hs
      next =>
        obtain rfl := Option.some.inj hs
        exact .repeats hpc
      next =>
        cases side with
        | client =>
            obtain rfl := Option.some.inj hs
            exact .repeats hpc
        | session =>
            obtain rfl := Option.some.inj hs
            exact .givesUp hpc
  next hpc =>
    obtain rfl := Option.some.inj hs
    exact .closesWrite hpc
  next hpc =>
    obtain rfl := Option.some.inj hs
    exact .blocks hpc
  next hpc =>
    obtain rfl := Option.some.inj hs
    exact .wakes hpc
  next hpc =>
    obtain rfl := Option.some.inj hs
    exact .closesRead hpc
  next => cases hs

theorem write_cases {n : Nat} (hs : s.write side n = some s') : Step s (.write side n) s' := by
  unfold State.write at hs
  split at hs
  next hpc =>
    split at hs
    next hreader =>
      obtain rfl := Option.some.inj hs
      exact .writeFails hpc (Bool.not_eq_true' _ |>.mp hreader)
    next =>
      split at hs
      next hn =>
        obtain rfl := Option.some.inj hs
        exact .writes hpc hn.2
      next => cases hs
  next => cases hs

theorem read_cases {n : Nat} (hs : s.read side n = some s') : Step s (.read side n) s' := by
  unfold State.read at hs
  split at hs
  next hpc =>
    split at hs
    next hempty =>
      split at hs
      next => cases hs
      next hwriter =>
        obtain rfl := Option.some.inj hs
        exact .endOfFile hpc hempty (Bool.not_eq_true _ |>.mp hwriter)
    next =>
      split at hs
      next =>
        dsimp only at hs
        split at hs
        next hsuffix =>
          obtain rfl := Option.some.inj hs
          exact .completes hpc (List.isSuffixOf_iff_suffix.mp hsuffix)
        next hsuffix =>
          obtain rfl := Option.some.inj hs
          exact .reads hpc fun h => hsuffix (List.isSuffixOf_iff_suffix.mpr h)
      next => cases hs
  next => cases hs

theorem step_cases {a : Action} (hs : step _numberRepeatENXIO a s = some s') : Step s a s' := by
  cases a with
  | send side message =>
      change s.send side message = some s' at hs
      unfold State.send at hs
      split at hs
      next hpc =>
        obtain rfl := Option.some.inj hs
        exact .sends hpc
      next => cases hs
  | next side => exact next_cases hs
  | write side n => exact write_cases hs
  | read side n => exact read_cases hs

/-- A side reads what is in the pipe. -/
theorem Step.transferred {a : Action} (hs : Step s a s') : s'.transferred = s.transferred ∨
    ∃ side n, a = .read side n ∧ s'.transferred = (s.transfer side n).transferred := by
  cases hs with
  | reads | completes => exact .inr ⟨_, _, rfl, rfl⟩
  | sends | opens | repeats | givesUp | blocks | wakes | writes => exact .inl rfl
  | closesWrite | closesRead | writeFails | endOfFile => exact .inl (State.settle_transferred _)

/-! ### A side has the turn -/

namespace Turn

variable {w : Side}

theorem holds_at (h : Turn s w) {pc : Pc} (hpc : s.pc w = pc) : pc.holds = true := hpc ▸ h.holds

theorem awaits_at (h : Turn s w) {pc : Pc} (hpc : s.pc w.peer = pc) : pc.awaits = true :=
  hpc ▸ h.awaits

/-- The side that sends next moves and opens no end. -/
theorem setPc (h : Turn s w) {pc : Pc} (hholds : pc.holds = true)
    (hpayload : ∀ {payload}, pc ≠ .closeRead payload)
    (hclean : ∀ {message rep}, pc = .openWriteNonBlock message rep → ¬ ENDOFMESSAGE <:+: message) :
    Turn (s.setPc w pc) w where
  holds := by simpa using hholds
  awaits := by simpa using h.awaits
  buffer := h.buffer
  received := h.received
  sent := h.sent
  payload hpc := by
    rw [State.setPc_self] at hpc
    exact absurd hpc hpayload
  clean hpc := by
    rw [State.setPc_self] at hpc
    exact hclean hpc

/-- The other side moves on to the answer. -/
theorem setPc_peer (h : Turn s w) {pc : Pc} (hawaits : pc.awaits = true) :
    Turn (s.setPc w.peer pc) w where
  holds := by simpa using h.holds
  awaits := by simpa using hawaits
  buffer := h.buffer
  received := h.received
  sent := h.sent
  payload hpc := by
    rw [State.setPc_of_peer] at hpc
    exact h.payload hpc
  clean hpc := by
    rw [State.setPc_of_peer] at hpc
    exact h.clean hpc

theorem settle (h : Turn s w) : Turn s.settle w where
  holds := by simpa using h.holds
  awaits := by simpa using h.awaits
  buffer := State.settle_buffer_of_nil h.buffer
  received := by simpa using h.received
  sent := by simpa using h.sent
  payload hpc := by
    rw [State.settle_pc] at hpc
    rw [State.settle_sent]
    exact h.payload hpc
  clean hpc := by
    rw [State.settle_pc] at hpc
    exact h.clean hpc

theorem writes_self (h : Turn s w) : (s.pc w).writes = false := by
  cases hw : s.pc w with
  | closeRead | work | openWriteNonBlock => rfl
  | writeString | closeWrite | openRead | blocked | readString | failed => cases h.holds_at hw

theorem hasWriter_eq_false (h : Turn s w) (hpeer : s.pc w.peer = .openRead) :
    s.hasWriter = false := by
  rw [s.hasWriter_eq w, h.writes_self, hpeer]
  rfl

/-- An open for writing finds the other side blocked. -/
theorem opens (h : Turn s w) {message : Bytes} {rep : Nat}
    (hpc : s.pc w = .openWriteNonBlock message rep) (hreader : s.hasReader = true) :
    Sending (s.openWrite w message) w message (message ++ ENDOFMESSAGE) [] := by
  have hne : message ++ ENDOFMESSAGE ≠ [] := by
    intro hnil
    exact absurd (List.append_eq_nil_iff.mp hnil).2 (by decide +kernel)
  have hblocked : s.pc w.peer = .blocked false := by
    rw [s.hasReader_eq w, hpc] at hreader
    cases hp : s.pc w.peer with
    | blocked writer =>
        cases writer with
        | false => rfl
        | true => cases h.awaits_at hp
    | closeWrite | openRead =>
        rw [hp] at hreader
        cases hreader
    | work | openWriteNonBlock | writeString | readString | closeRead | failed =>
        cases h.awaits_at hp
  constructor
  case unsent => rw [State.openWrite_self, Pc.unsent, if_neg hne]
  case gathered =>
    rw [State.openWrite_peer, hblocked]
    rfl
  case bytes =>
    show [] ++ s.buffer.map Prod.snd ++ _ = _
    rw [h.buffer]
    rfl
  case left => exact hne.symm
  case writer =>
    show ∀ b ∈ s.buffer, b.1 = w
    rw [h.buffer]
    exact fun b hb => nomatch hb
  case clean => exact h.clean hpc
  case received => simpa [State.openWrite, w.peer_ne] using h.received
  case sent => simp [State.openWrite, h.sent]

/-- The session gives up. -/
theorem giveUp (h : Turn s .session) : GivenUp (s.setPc .session .failed) where
  failed := State.setPc_self ..
  awaits := by
    have hawaits := h.awaits
    simpa [State.setPc, Side.peer] using hawaits
  buffer := h.buffer
  received := h.received
  sent := h.sent

/-- The side with the turn sends, the other one comes to the point where it
waits for what is sent. -/
theorem step {a : Action} (h : Turn s w) (hok : NoENDOFMESSAGE a s) (hs : Step s a s') :
    Turn s' w ∨ (∃ message rest payload, Sending s' w message rest payload) ∨ GivenUp s' := by
  cases hs with
  | @sends side _ hpc =>
      obtain rfl | rfl := side.eq_or_eq_peer w
      · exact .inl (h.setPc rfl (fun h => by cases h) fun heq => by cases heq; exact hok)
      · cases h.awaits_at hpc
  | @opens side _ _ hpc hreader =>
      obtain rfl | rfl := side.eq_or_eq_peer w
      · exact .inr (.inl ⟨_, _, _, h.opens hpc hreader⟩)
      · cases h.awaits_at hpc
  | @repeats side _ _ _ hpc =>
      obtain rfl | rfl := side.eq_or_eq_peer w
      · exact .inl (h.setPc rfl (fun h => by cases h) fun heq => by cases heq; exact h.clean hpc)
      · cases h.awaits_at hpc
  | givesUp hpc =>
      cases w with
      | client => cases h.awaits_at hpc
      | session => exact .inr (.inr h.giveUp)
  | @closesWrite side hpc =>
      obtain rfl | rfl := side.eq_or_eq_peer w
      · cases h.holds_at hpc
      · exact .inl (h.setPc_peer rfl).settle
  | @blocks side hpc =>
      obtain rfl | rfl := side.eq_or_eq_peer w
      · cases h.holds_at hpc
      · rw [h.hasWriter_eq_false hpc]
        exact .inl (h.setPc_peer rfl)
  | @closesRead side _ hpc =>
      obtain rfl | rfl := side.eq_or_eq_peer w
      · exact .inl (h.setPc rfl (fun h => by cases h) fun heq => by cases heq).settle
      · cases h.awaits_at hpc
  -- no side has an end open
  | @wakes side hpc | @writes side _ _ hpc | @writeFails side _ _ hpc | @reads side _ _ hpc
  | @completes side _ _ hpc | @endOfFile side _ _ hpc =>
      obtain rfl | rfl := side.eq_or_eq_peer w
      · cases h.holds_at hpc
      · cases h.awaits_at hpc

end Turn

/-! ### A side sends -/

namespace Sending

variable {w : Side} {message rest payload : Bytes}

theorem unsent_at (h : Sending s w message rest payload) {pc : Pc} (hpc : s.pc w = pc) :
    pc.unsent = some rest := hpc ▸ h.unsent

theorem gathered_at (h : Sending s w message rest payload) {pc : Pc} (hpc : s.pc w.peer = pc) :
    pc.gathered = some payload := hpc ▸ h.gathered

theorem reads_peer (h : Sending s w message rest payload) : (s.pc w.peer).reads = true := by
  cases hp : s.pc w.peer with
  | blocked | readString => rfl
  | work | openWriteNonBlock | writeString | closeWrite | openRead | closeRead | failed =>
      cases h.gathered_at hp

theorem hasReader (h : Sending s w message rest payload) : s.hasReader = true := by
  rw [s.hasReader_eq w, h.reads_peer, Bool.or_true]

theorem writes_peer (h : Sending s w message rest payload) : (s.pc w.peer).writes = false := by
  cases hp : s.pc w.peer with
  | blocked | readString => rfl
  | work | openWriteNonBlock | writeString | closeWrite | openRead | closeRead | failed =>
      cases h.gathered_at hp

/-- A side with something left to write writes, and one without waits. -/
theorem pc_cases (h : Sending s w message rest payload) :
    (rest ≠ [] ∧ s.pc w = .writeString rest) ∨ (rest = [] ∧ (s.pc w).awaits = true) := by
  cases hw : s.pc w with
  | writeString rest' =>
      have hunsent := h.unsent_at hw
      rw [Pc.unsent] at hunsent
      split at hunsent
      next => cases hunsent
      next hne =>
        obtain rfl := Option.some.inj hunsent
        exact .inl ⟨hne, rfl⟩
  | closeWrite | openRead => exact .inr ⟨(Option.some.inj (h.unsent_at hw)).symm, rfl⟩
  | blocked writer =>
      cases writer with
      | false => exact .inr ⟨(Option.some.inj (h.unsent_at hw)).symm, rfl⟩
      | true => cases h.unsent_at hw
  | work | openWriteNonBlock | readString | closeRead | failed => cases h.unsent_at hw

/-- The side that sends moves. -/
theorem setPc (h : Sending s w message rest payload) {pc : Pc} (hpc : pc.unsent = some rest) :
    Sending (s.setPc w pc) w message rest payload where
  unsent := by simpa using hpc
  gathered := by simpa using h.gathered
  bytes := h.bytes
  left := h.left
  writer := h.writer
  clean := h.clean
  received := h.received
  sent := h.sent

/-- The side that receives moves. -/
theorem setPc_peer (h : Sending s w message rest payload) {pc : Pc}
    (hpc : pc.gathered = some payload) :
    Sending (s.setPc w.peer pc) w message rest payload where
  unsent := by simpa using h.unsent
  gathered := by simpa using hpc
  bytes := h.bytes
  left := h.left
  writer := h.writer
  clean := h.clean
  received := h.received
  sent := h.sent

/-- Some bytes go into the pipe. -/
theorem wrote {n : Nat} (h : Sending s w message rest payload) (hn : n ≤ rest.length) :
    Sending (s.wrote w (rest.take n)
      (if n = rest.length then .closeWrite else .writeString (rest.drop n)))
      w message (rest.drop n) payload where
  unsent := by
    rw [State.wrote_self]
    split
    next hall =>
      rw [hall, List.drop_length]
      rfl
    next hsome => rw [Pc.unsent, if_neg (by rw [List.drop_eq_nil_iff]; omega)]
  gathered := by simpa [State.wrote, w.peer_ne] using h.gathered
  bytes := by
    have hmap : ((rest.take n).map fun b => (w, b)).map Prod.snd = rest.take n := by
      rw [List.map_map]
      exact List.map_id _
    calc payload ++ (s.buffer ++ (rest.take n).map fun b => (w, b)).map Prod.snd ++ rest.drop n
        _ = payload ++ s.buffer.map Prod.snd ++ (rest.take n ++ rest.drop n) := by
          rw [List.map_append, hmap]
          simp only [List.append_assoc]
        _ = message ++ ENDOFMESSAGE := by
          rw [List.take_append_drop, h.bytes]
  left := h.left
  writer := by
    refine List.forall_mem_append.mpr ⟨h.writer, fun b hb => ?_⟩
    obtain ⟨_, _, rfl⟩ := List.mem_map.mp hb
    rfl
  clean := h.clean
  received := h.received
  sent := h.sent

/-- Some bytes are read, and are not yet the message. -/
theorem transfer {n : Nat} (h : Sending s w message rest payload)
    (hleft : payload ++ (s.buffer.take n).map Prod.snd ≠ message ++ ENDOFMESSAGE) :
    Sending ((s.transfer w.peer n).setPc w.peer
      (.readString (payload ++ (s.buffer.take n).map Prod.snd)))
      w message rest (payload ++ (s.buffer.take n).map Prod.snd) where
  unsent := by
    rw [State.setPc_of_peer]
    exact h.unsent
  gathered := by
    rw [State.setPc_self]
    rfl
  bytes := by
    show payload ++ (s.buffer.take n).map Prod.snd ++ (s.buffer.drop n).map Prod.snd ++ rest = _
    rw [List.append_assoc payload, ← List.map_append, List.take_append_drop, h.bytes]
  left := hleft
  writer b hb := h.writer b (List.mem_of_mem_drop hb)
  clean := h.clean
  received := h.received
  sent := h.sent

/-- What is read is the front of the message and its terminator. -/
theorem gathered_prefix (h : Sending s w message rest payload) (n : Nat) :
    payload ++ (s.buffer.take n).map Prod.snd <+: message ++ ENDOFMESSAGE := by
  refine ⟨(s.buffer.drop n).map Prod.snd ++ rest, ?_⟩
  rw [← h.bytes, ← List.append_assoc, List.append_assoc payload, ← List.map_append,
    List.take_append_drop]

/-- The last bytes are read. -/
theorem complete {n : Nat} (h : Sending s w message rest payload)
    (hall : payload ++ (s.buffer.take n).map Prod.snd = message ++ ENDOFMESSAGE) :
    Turn ((s.transfer w.peer n).complete w.peer message) w.peer := by
  have hnil : (s.buffer.drop n).map Prod.snd ++ rest = [] := by
    have hbytes := h.bytes
    rw [← List.take_append_drop n s.buffer, List.map_append, ← List.append_assoc, hall,
      List.append_assoc, List.append_right_eq_self] at hbytes
    exact hbytes
  obtain ⟨hbuffer, hrest⟩ := List.append_eq_nil_iff.mp hnil
  have hpc : ((s.transfer w.peer n).complete w.peer message).pc w = s.pc w := by
    simp [State.complete, State.transfer, w.peer_ne.symm]
  constructor
  case holds =>
    rw [State.complete_self]
    rfl
  case awaits =>
    rw [w.peer_peer, hpc]
    cases h.pc_cases with
    | inl hwrites => exact absurd hrest hwrites.1
    | inr hawaits => exact hawaits.2
  case buffer => exact List.map_eq_nil_iff.mp hbuffer
  case received =>
    rw [w.peer_peer]
    show Function.update s.received w.peer (s.received w.peer ++ [message]) w.peer = s.sent w
    rw [Function.update_self, h.sent]
  case sent =>
    rw [w.peer_peer]
    show Function.update s.received w.peer (s.received w.peer ++ [message]) w = s.sent w.peer
    rw [Function.update_of_ne w.peer_ne.symm, h.received]
  case payload =>
    intro payload' hpayload
    rw [State.complete_self] at hpayload
    obtain rfl := Pc.closeRead.inj hpayload
    rw [w.peer_peer]
    show (s.sent w).getLast? = some message
    rw [h.sent, List.getLast?_concat]
  case clean =>
    intro m rep hm
    rw [State.complete_self] at hm
    cases hm

/-- The end of the file would need all to be written and read. -/
theorem not_endOfFile (h : Sending s w message rest payload) (hempty : s.buffer = [])
    (hwriter : s.hasWriter = false) : False := by
  cases h.pc_cases with
  | inl hwrites =>
      rw [s.hasWriter_eq w, hwrites.2] at hwriter
      cases hwriter
  | inr hawaits =>
      have hbytes := h.bytes
      rw [hempty, hawaits.1, List.map_nil, List.append_nil, List.append_nil] at hbytes
      exact h.left hbytes

/-- The bytes go from the one side to the other until they are all there. -/
theorem step {a : Action} (h : Sending s w message rest payload) (hs : Step s a s') :
    Turn s' w.peer ∨ ∃ rest payload, Sending s' w message rest payload := by
  cases hs with
  | @closesWrite side hpc =>
      obtain rfl | rfl := side.eq_or_eq_peer w
      · have hunsent := h.unsent_at hpc
        have hmoved : Sending (s.setPc side .openRead) side message rest payload := h.setPc hunsent
        rw [State.settle_of_hasReader hmoved.hasReader]
        exact .inr ⟨_, _, hmoved⟩
      · cases h.gathered_at hpc
  | @blocks side hpc =>
      obtain rfl | rfl := side.eq_or_eq_peer w
      · have hunsent := h.unsent_at hpc
        rw [s.hasWriter_eq side, hpc, h.writes_peer]
        exact .inr ⟨_, _, h.setPc hunsent⟩
      · cases h.gathered_at hpc
  | @wakes side hpc =>
      obtain rfl | rfl := side.eq_or_eq_peer w
      · cases h.unsent_at hpc
      · have hgathered := h.gathered_at hpc
        exact .inr ⟨_, _, h.setPc_peer hgathered⟩
  | @writes side rest' _ hpc hn =>
      obtain rfl | rfl := side.eq_or_eq_peer w
      · cases h.pc_cases with
        | inl hwrites =>
            obtain rfl := Pc.writeString.inj (hwrites.2.symm.trans hpc)
            exact .inr ⟨_, _, h.wrote hn⟩
        | inr hawaits =>
            rw [hpc] at hawaits
            cases hawaits.2
      · cases h.gathered_at hpc
  | writeFails _ hreader => cases h.hasReader.symm.trans hreader
  | @reads side _ _ hpc hsuffix =>
      obtain rfl | rfl := side.eq_or_eq_peer w
      · cases h.unsent_at hpc
      · obtain rfl := Option.some.inj (h.gathered_at hpc)
        refine .inr ⟨_, _, h.transfer fun hall => hsuffix ?_⟩
        rw [hall]
        exact List.suffix_append ..
  | @completes side _ n hpc hsuffix =>
      obtain rfl | rfl := side.eq_or_eq_peer w
      · cases h.unsent_at hpc
      · obtain rfl := Option.some.inj (h.gathered_at hpc)
        have hall := ENDOFMESSAGE_unbordered.eq_of_prefix h.clean (h.gathered_prefix n) hsuffix
        rw [hall, stripEndOfMessage_append]
        exact .inl (h.complete hall)
  | endOfFile _ hempty hwriter => exact (h.not_endOfFile hempty hwriter).elim
  -- the one side has opened its end, the other waits for the message
  | @sends side _ hpc | @opens side _ _ hpc | @repeats side _ _ _ hpc | @closesRead side _ hpc =>
      obtain rfl | rfl := side.eq_or_eq_peer w
      · cases h.unsent_at hpc
      · cases h.gathered_at hpc
  | givesUp hpc =>
      cases w with
      | client => cases h.gathered_at hpc
      | session => cases h.unsent_at hpc

/-- The side that sends does not read. -/
theorem side_ne_of_read {n : Nat} (h : Sending s w message rest payload)
    (hs : Step s (.read side n) s') : side ≠ w := by
  rintro rfl
  cases hs with
  | reads hpc | completes hpc | endOfFile hpc => cases h.unsent_at hpc

end Sending

/-! ### The session has given up -/

namespace GivenUp

/-- The client is blocked or on the way there, and the session is gone. -/
theorem pc_cases (h : GivenUp s) {pc : Pc} (hpc : s.pc side = pc) :
    (side = .client ∧ pc.awaits = true) ∨ pc = .failed := by
  cases side with
  | client => exact .inl ⟨rfl, hpc ▸ h.awaits⟩
  | session => exact .inr (hpc ▸ h.failed)

theorem setPc (h : GivenUp s) {pc : Pc} (hawaits : pc.awaits = true) :
    GivenUp (s.setPc .client pc) where
  failed := by simpa [State.setPc] using h.failed
  awaits := by simpa using hawaits
  buffer := h.buffer
  received := h.received
  sent := h.sent

theorem settle (h : GivenUp s) : GivenUp s.settle where
  failed := by simpa using h.failed
  awaits := by simpa using h.awaits
  buffer := State.settle_buffer_of_nil h.buffer
  received := by simpa using h.received
  sent := by simpa using h.sent

/-- The client still comes to the point where it blocks. -/
theorem step {a : Action} (h : GivenUp s) (hs : Step s a s') : GivenUp s' := by
  cases hs with
  | closesWrite hpc =>
      obtain ⟨rfl, -⟩ | hfailed := h.pc_cases hpc
      · exact (h.setPc rfl).settle
      · cases hfailed
  | blocks hpc =>
      obtain ⟨rfl, -⟩ | hfailed := h.pc_cases hpc
      · have hwriter : s.hasWriter = false := by
          rw [State.hasWriter, hpc, h.failed]
          rfl
        rw [hwriter]
        exact h.setPc rfl
      · cases hfailed
  | sends hpc | opens hpc | repeats hpc | givesUp hpc | wakes hpc | closesRead hpc | writes hpc
  | writeFails hpc | reads hpc | completes hpc | endOfFile hpc =>
      obtain ⟨-, hawaits⟩ | hfailed := h.pc_cases hpc
      · cases hawaits
      · cases hfailed

end GivenUp

/-! ### Any step -/

namespace Inv

theorem initial : Inv State.initial where
  phase := .inl ⟨.client, {
    holds := rfl
    awaits := rfl
    buffer := rfl
    received := rfl
    sent := rfl
    payload := fun h => nomatch h
    clean := fun h => nomatch h }⟩
  transferred _ h := by cases h

/-- Whoever reads, reads what the other side wrote. -/
theorem side_ne_of_read {n : Nat} (h : Inv s) (hs : Step s (.read side n) s') :
    ∀ b ∈ s.buffer, side ≠ b.1 := by
  intro b hb
  obtain ⟨w, hturn⟩ | ⟨w, m, rest, payload, hsending⟩ | hgiven := h.phase
  · rw [hturn.buffer] at hb
    cases hb
  · rw [hsending.writer b hb]
    exact hsending.side_ne_of_read hs
  · rw [hgiven.buffer] at hb
    cases hb

theorem step {a : Action} (h : Inv s) (hok : NoENDOFMESSAGE a s)
    (hs : HalfDuplex.step _numberRepeatENXIO a s = some s') : Inv s' := by
  have hstep := step_cases hs
  constructor
  case phase =>
    obtain ⟨w, hturn⟩ | ⟨w, m, rest, payload, hsending⟩ | hgiven := h.phase
    · obtain hturn | hsending | hgiven := hturn.step hok hstep
      · exact .inl ⟨w, hturn⟩
      · exact .inr (.inl ⟨w, hsending⟩)
      · exact .inr (.inr hgiven)
    · obtain hturn | hsending := hsending.step hstep
      · exact .inl ⟨w.peer, hturn⟩
      · exact .inr (.inl ⟨w, m, hsending⟩)
    · exact .inr (.inr (hgiven.step hstep))
  case transferred =>
    obtain heq | ⟨side, n, rfl, heq⟩ := hstep.transferred
    · exact heq ▸ h.transferred
    · rw [heq]
      refine List.forall_mem_append.mpr ⟨h.transferred, fun p hp => ?_⟩
      obtain ⟨b, hb, rfl⟩ := List.mem_map.mp hp
      exact h.side_ne_of_read hstep b (List.mem_of_mem_take hb)

theorem writes_cases (h : Inv s) : ∃ side, (s.pc side).writes = false := by
  obtain ⟨w, hturn⟩ | ⟨w, m, rest, payload, hsending⟩ | hgiven := h.phase
  · exact ⟨w, hturn.writes_self⟩
  · exact ⟨w.peer, hsending.writes_peer⟩
  · refine ⟨.session, ?_⟩
    rw [hgiven.failed]
    rfl

theorem closeRead (h : Inv s) {payload : Bytes} (hpc : s.pc side = .closeRead payload) :
    Turn s side := by
  obtain ⟨w, hturn⟩ | ⟨w, m, rest, p, hsending⟩ | hgiven := h.phase
  · obtain rfl | rfl := side.eq_or_eq_peer w
    · exact hturn
    · cases hturn.awaits_at hpc
  · obtain rfl | rfl := side.eq_or_eq_peer w
    · cases hsending.unsent_at hpc
    · cases hsending.gathered_at hpc
  · obtain ⟨-, hawaits⟩ | hfailed := hgiven.pc_cases hpc
    · cases hawaits
    · cases hfailed

theorem inOrder (h : Inv s) (side : Side) : s.received side <+: s.sent side.peer := by
  obtain ⟨w, hturn⟩ | ⟨w, m, rest, p, hsending⟩ | hgiven := h.phase
  · obtain rfl | rfl := side.eq_or_eq_peer w
    · exact hturn.received ▸ List.prefix_rfl
    · rw [w.peer_peer]
      exact hturn.sent ▸ List.prefix_rfl
  · obtain rfl | rfl := side.eq_or_eq_peer w
    · exact hsending.received ▸ List.prefix_rfl
    · rw [w.peer_peer, hsending.sent]
      exact List.prefix_append ..
  · cases side with
    | client => exact hgiven.sent ▸ List.prefix_rfl
    | session => exact hgiven.received ▸ List.prefix_rfl

end Inv

/-! ## The pipe carries one message at a time -/

structure OneAtATime (s : State) : Prop where
  /-- No byte is read by the side that wrote it. -/
  transferred : ∀ p ∈ s.transferred, p.1 ≠ p.2
  /-- The write end is never open on both sides. -/
  writes : ¬ ((s.pc .client).writes = true ∧ (s.pc .session).writes = true)
  /-- What is read is the message the other side sent last. -/
  payload : ∀ side payload, s.pc side = .closeRead payload →
    (s.sent side.peer).getLast? = some payload
  /-- No message is lost, doubled or overtaken. -/
  inOrder : ∀ side, s.received side <+: s.sent side.peer

theorem pipe_oneAtATime (hr : Reachable _numberRepeatENXIO s) : OneAtATime s := by
  have h : Inv s := Runs.Reached.invariant Inv.initial (fun h hok hs => h.step hok hs) hr
  refine ⟨h.transferred, ?_, fun side payload hpc => (h.closeRead hpc).payload hpc, h.inOrder⟩
  intro hboth
  obtain ⟨side, hwrites⟩ := h.writes_cases
  cases side with
  | client =>
      rw [hboth.1] at hwrites
      cases hwrites
  | session =>
      rw [hboth.2] at hwrites
      cases hwrites

/-! A round of a request and its response, with a session that comes late. -/

instance : ∀ (a : Action) (s : State), Decidable (NoENDOFMESSAGE a s)
  | .send _ message, _ =>
      decidable_of_iff (¬ (Text.find ENDOFMESSAGE message).isSome = true)
        (not_congr Text.find_isSome_iff)
  | .next _, _ | .write _ _, _ | .read _ _, _ => inferInstanceAs (Decidable True)

theorem pipe_oneAtATime_oneRound :
    ∃ s : State, s.received .session = [[1, 2]] ∧ s.received .client = [[3]] ∧ OneAtATime s := by
  have hrun : (([.send .client [1, 2], .next .client, .next .session, .next .client,
      .next .session, .write .client 30, .read .session 1, .write .client 4, .next .client,
      .read .session 33, .next .client, .next .session, .send .session [3], .next .session,
      .write .session 33, .next .session, .next .client, .next .session, .read .client 33] :
      List Action).foldlM (fun s a => if NoENDOFMESSAGE a s then step 200 a s else none)
        State.initial).map (fun s => (s.received .session, s.received .client)) =
      some ([[1, 2]], [[3]]) := by decide +kernel
  obtain ⟨s, hs, hreceived⟩ := Option.map_eq_some_iff.mp hrun
  obtain ⟨hsession, hclient⟩ := Prod.mk.inj hreceived
  exact ⟨s, hsession, hclient, pipe_oneAtATime (Runs.reached_of_foldlM _ hs)⟩

end ClientServer.HalfDuplex
