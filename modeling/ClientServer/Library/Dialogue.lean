import ClientServer.Library.Text
import Mathlib.Data.List.Forall2
import Mathlib.Logic.Function.Basic
import Mathlib.Logic.Relation

/-!
# Dialogues

Two sides write messages into two streams, one for each direction.  A message has
a terminator behind it, and a reader goes on until it has the terminator.  One
side asks and the other answers: who has written reads, and who has read a message
has the turn.  Bytes move as many at a time as they like, and a side may stop at
any moment and for ever.

With a terminator that has no border and stands in no message, what is read are
the messages of the other side, one by one and in their order, and nothing stands
in a stream behind the message that is read.
-/

namespace Dialogue

inductive Side where
  | asks | answers
deriving DecidableEq, Repr

def Side.peer : Side → Side
  | asks => answers
  | answers => asks

variable {α : Type _}

/-- What a side is at. -/
inductive Stage (α : Type _) where
  /-- It has the turn. -/
  | holds
  /-- It writes, with what is left. -/
  | writes (rest : List α)
  /-- It reads, with what it has. -/
  | reads (payload : List α)
deriving DecidableEq

structure State (α : Type _) where
  stage : Side → Stage α
  /-- What a side has written and the other has not read. -/
  stream : Side → List α
  /-- The messages a side has begun to write, and those it has read. -/
  sent : Side → List (List α)
  received : Side → List (List α)

namespace State

def initial : State α where
  stage
    | .asks => .holds
    | .answers => .reads []
  stream _ := []
  sent _ := []
  received _ := []

def setStage (s : State α) (side : Side) (stage : Stage α) : State α :=
  { s with stage := Function.update s.stage side stage }

def setStream (s : State α) (side : Side) (bytes : List α) : State α :=
  { s with stream := Function.update s.stream side bytes }

def send (s : State α) (side : Side) (message : List α) : State α :=
  { s with sent := Function.update s.sent side (s.sent side ++ [message]) }

def receive (s : State α) (side : Side) (message : List α) : State α :=
  { s with received := Function.update s.received side (s.received side ++ [message]) }

end State

/-- What is left to write; behind the last byte the side reads. -/
def Stage.unwritten (rest : List α) : Stage α :=
  match rest with
  | [] => .reads []
  | b :: rest => .writes (b :: rest)

/-- The steps, for a terminator. -/
inductive Step (t : List α) : State α → State α → Prop where
  | sends {s : State α} {side : Side} {message : List α} :
      s.stage side = .holds → ¬ t <:+: message →
      Step t s ((s.send side message).setStage side (.writes (message ++ t)))
  | writes {s : State α} {side : Side} {written rest : List α} :
      s.stage side = .writes (written ++ rest) →
      Step t s ((s.setStream side (s.stream side ++ written)).setStage side (.unwritten rest))
  | reads {s : State α} {side : Side} {payload chunk rest : List α} :
      s.stage side = .reads payload → s.stream side.peer = chunk ++ rest →
      ¬ t <:+: payload ++ chunk →
      Step t s ((s.setStream side.peer rest).setStage side (.reads (payload ++ chunk)))
  | receives {s : State α} {side : Side} {payload chunk rest message : List α} :
      s.stage side = .reads payload → s.stream side.peer = chunk ++ rest →
      payload ++ chunk = message ++ t →
      Step t s (((s.setStream side.peer rest).receive side message).setStage side .holds)

/-- The states of the dialogues that begin with the side that asks. -/
abbrev Reachable (t : List α) : State α → Prop := Relation.ReflTransGen (Step t) State.initial

variable {t : List α} {s s' : State α} {side w : Side}

/-! ## The sides -/

@[simp] theorem Side.peer_peer (side : Side) : side.peer.peer = side := by cases side <;> rfl

theorem Side.peer_ne (side : Side) : side.peer ≠ side := by cases side <;> decide

theorem Side.eq_or_eq_peer (side w : Side) : side = w ∨ side = w.peer := by
  cases side <;> cases w <;> decide

namespace State

@[simp] theorem setStage_self (s : State α) (side : Side) (stage : Stage α) :
    (s.setStage side stage).stage side = stage := Function.update_self ..

@[simp] theorem setStage_peer (s : State α) (side : Side) (stage : Stage α) :
    (s.setStage side stage).stage side.peer = s.stage side.peer :=
  Function.update_of_ne side.peer_ne ..

@[simp] theorem setStage_of_peer (s : State α) (side : Side) (stage : Stage α) :
    (s.setStage side.peer stage).stage side = s.stage side :=
  Function.update_of_ne side.peer_ne.symm ..

@[simp] theorem setStage_stream (s : State α) (side : Side) (stage : Stage α) :
    (s.setStage side stage).stream = s.stream := rfl

@[simp] theorem setStage_sent (s : State α) (side : Side) (stage : Stage α) :
    (s.setStage side stage).sent = s.sent := rfl

@[simp] theorem setStage_received (s : State α) (side : Side) (stage : Stage α) :
    (s.setStage side stage).received = s.received := rfl

@[simp] theorem setStream_self (s : State α) (side : Side) (bytes : List α) :
    (s.setStream side bytes).stream side = bytes := Function.update_self ..

@[simp] theorem setStream_peer (s : State α) (side : Side) (bytes : List α) :
    (s.setStream side bytes).stream side.peer = s.stream side.peer :=
  Function.update_of_ne side.peer_ne ..

@[simp] theorem setStream_of_peer (s : State α) (side : Side) (bytes : List α) :
    (s.setStream side.peer bytes).stream side = s.stream side :=
  Function.update_of_ne side.peer_ne.symm ..

@[simp] theorem setStream_stage (s : State α) (side : Side) (bytes : List α) :
    (s.setStream side bytes).stage = s.stage := rfl

@[simp] theorem setStream_sent (s : State α) (side : Side) (bytes : List α) :
    (s.setStream side bytes).sent = s.sent := rfl

@[simp] theorem setStream_received (s : State α) (side : Side) (bytes : List α) :
    (s.setStream side bytes).received = s.received := rfl

@[simp] theorem send_self (s : State α) (side : Side) (message : List α) :
    (s.send side message).sent side = s.sent side ++ [message] := Function.update_self ..

@[simp] theorem send_peer (s : State α) (side : Side) (message : List α) :
    (s.send side message).sent side.peer = s.sent side.peer :=
  Function.update_of_ne side.peer_ne ..

@[simp] theorem send_stage (s : State α) (side : Side) (message : List α) :
    (s.send side message).stage = s.stage := rfl

@[simp] theorem send_stream (s : State α) (side : Side) (message : List α) :
    (s.send side message).stream = s.stream := rfl

@[simp] theorem send_received (s : State α) (side : Side) (message : List α) :
    (s.send side message).received = s.received := rfl

@[simp] theorem receive_self (s : State α) (side : Side) (message : List α) :
    (s.receive side message).received side = s.received side ++ [message] :=
  Function.update_self ..

@[simp] theorem receive_peer (s : State α) (side : Side) (message : List α) :
    (s.receive side message).received side.peer = s.received side.peer :=
  Function.update_of_ne side.peer_ne ..

@[simp] theorem receive_of_peer (s : State α) (side : Side) (message : List α) :
    (s.receive side.peer message).received side = s.received side :=
  Function.update_of_ne side.peer_ne.symm ..

@[simp] theorem receive_stage (s : State α) (side : Side) (message : List α) :
    (s.receive side message).stage = s.stage := rfl

@[simp] theorem receive_stream (s : State α) (side : Side) (message : List α) :
    (s.receive side message).stream = s.stream := rfl

@[simp] theorem receive_sent (s : State α) (side : Side) (message : List α) :
    (s.receive side message).sent = s.sent := rfl

end State

/-! ## Who has the turn -/

/-- By how many messages the side that asks is ahead, when a side has the turn. -/
def Side.lead : Side → Nat
  | asks => 0
  | answers => 1

/-- A side has the turn: it has every message of the other, and the other all of
its own. -/
structure Turn (s : State α) (side : Side) : Prop where
  holds : s.stage side = .holds
  waits : s.stage side.peer = .reads []
  stream : ∀ w, s.stream w = []
  received : ∀ w, s.received w = s.sent w.peer
  lead : (s.sent .asks).length = (s.sent .answers).length + side.lead

/-- A side sends a message: what the other has read of it, what is in the stream
and what is not written make the message and its terminator. -/
structure Sending (t : List α) (s : State α) (side : Side) (message rest payload : List α) :
    Prop where
  writes : s.stage side = .unwritten rest
  reads : s.stage side.peer = .reads payload
  bytes : payload ++ s.stream side ++ rest = message ++ t
  clean : ¬ t <:+: message
  left : ¬ t <:+: payload
  stream : s.stream side.peer = []
  received : s.received side = s.sent side.peer
  sent : s.sent side = s.received side.peer ++ [message]
  lead : (s.sent .asks).length = (s.sent .answers).length + side.peer.lead

/-- What holds between any two steps. -/
def Inv (t : List α) (s : State α) : Prop :=
  (∃ side, Turn s side) ∨ ∃ side message rest payload, Sending t s side message rest payload

theorem Stage.unwritten_eq_writes {rest left : List α} (h : unwritten rest = .writes left) :
    rest = left ∧ rest ≠ [] := by
  cases rest with
  | nil => cases h
  | cons b rest =>
      cases h
      exact ⟨rfl, List.cons_ne_nil _ _⟩

theorem Stage.unwritten_eq_reads {rest payload : List α} (h : unwritten rest = .reads payload) :
    rest = [] ∧ payload = [] := by
  cases rest with
  | nil =>
      cases h
      exact ⟨rfl, rfl⟩
  | cons b rest => cases h

theorem Stage.unwritten_ne_holds {rest : List α} : unwritten rest ≠ .holds := by
  cases rest with
  | nil => exact fun h => by cases h
  | cons b rest => exact fun h => by cases h

theorem Stage.unwritten_of_ne_nil {rest : List α} (h : rest ≠ []) :
    unwritten rest = .writes rest := by
  cases rest with
  | nil => exact absurd rfl h
  | cons b rest => rfl

theorem Inv.initial : Inv t (State.initial (α := α)) :=
  .inl ⟨.asks, rfl, rfl, fun _ => rfl, fun _ => rfl, rfl⟩

/-- A message takes the lead over to the other side. -/
theorem lead_send (h : (s.sent .asks).length = (s.sent .answers).length + side.lead)
    (message : List α) :
    ((s.send side message).sent .asks).length =
      ((s.send side message).sent .answers).length + side.peer.lead := by
  cases side with
  | asks => simp [State.send, Function.update, Side.peer, Side.lead, h]
  | answers => simp [State.send, Function.update, Side.peer, Side.lead, h]

/-! ## What one step does -/

section Steps

variable (hne : t ≠ [])
include hne

theorem not_infix_nil : ¬ t <:+: [] := fun h => hne (List.eq_nil_of_infix_nil h)

/-- The side that has the turn sends, or nothing moves. -/
theorem Turn.step (h : Turn s w) (hs : Step t s s') : Inv t s' := by
  cases hs with
  | @sends side message hholds hclean =>
      obtain rfl | rfl := Side.eq_or_eq_peer side w
      · refine .inr ⟨side, message, message ++ t, [], ?_, ?_, ?_, hclean, not_infix_nil hne, ?_, ?_,
          ?_, ?_⟩
        · rw [State.setStage_self, Stage.unwritten_of_ne_nil (by simp [hne])]
        · simpa using h.waits
        · simp [h.stream side]
        · simpa using h.stream side.peer
        · simpa using h.received side
        · simpa using (h.received side.peer).symm
        · exact lead_send h.lead message
      · rw [h.waits] at hholds
        cases hholds
  | @writes side written rest hwrites =>
      obtain rfl | rfl := Side.eq_or_eq_peer side w
      · rw [h.holds] at hwrites
        cases hwrites
      · rw [h.waits] at hwrites
        cases hwrites
  | @reads side payload chunk rest hreads hstream hnot =>
      obtain rfl | rfl := Side.eq_or_eq_peer side w
      · rw [h.holds] at hreads
        cases hreads
      · rw [h.waits] at hreads
        cases hreads
        rw [Side.peer_peer] at hstream ⊢
        obtain ⟨rfl, rfl⟩ := List.append_eq_nil_iff.mp (hstream.symm.trans (h.stream w))
        refine .inl ⟨w, by simpa using h.holds, by simp, fun side => ?_, h.received, h.lead⟩
        obtain rfl | rfl := Side.eq_or_eq_peer side w
        · simp
        · simpa using h.stream w.peer
  | @receives side payload chunk rest message hreads hstream hwhole =>
      obtain rfl | rfl := Side.eq_or_eq_peer side w
      · rw [h.holds] at hreads
        cases hreads
      · rw [h.waits] at hreads
        cases hreads
        rw [Side.peer_peer] at hstream
        obtain ⟨rfl, -⟩ := List.append_eq_nil_iff.mp (hstream.symm.trans (h.stream w))
        exact absurd (List.append_eq_nil_iff.mp hwhole.symm).2 hne

omit hne in
/-- What has been read with more of the stream is no further than the message. -/
theorem Sending.prefix_of_stream {message rest payload chunk behind : List α}
    (h : Sending t s w message rest payload) (hstream : s.stream w = chunk ++ behind) :
    payload ++ chunk <+: message ++ t := by
  refine ⟨behind ++ rest, ?_⟩
  rw [← h.bytes, hstream]
  simp

/-- The message goes on its way or arrives. -/
theorem Sending.step (ht : Text.Unbordered t) {message rest payload : List α}
    (h : Sending t s w message rest payload) (hs : Step t s s') : Inv t s' := by
  cases hs with
  | @sends side message hholds hclean =>
      obtain rfl | rfl := Side.eq_or_eq_peer side w
      · rw [h.writes] at hholds
        exact absurd hholds Stage.unwritten_ne_holds
      · rw [h.reads] at hholds
        cases hholds
  | @writes side written left hwrites =>
      obtain rfl | rfl := Side.eq_or_eq_peer side w
      · rw [h.writes] at hwrites
        obtain ⟨rfl, -⟩ := Stage.unwritten_eq_writes hwrites
        refine .inr ⟨side, message, left, payload, by simp, by simpa using h.reads, ?_, h.clean,
          h.left, by simpa using h.stream, h.received, h.sent, h.lead⟩
        rw [State.setStage_stream, State.setStream_self, ← h.bytes]
        simp
      · rw [h.reads] at hwrites
        cases hwrites
  | @reads side payload' chunk behind hreads hstream hnot =>
      obtain rfl | rfl := Side.eq_or_eq_peer side w
      · rw [h.writes] at hreads
        obtain ⟨rfl, rfl⟩ := Stage.unwritten_eq_reads hreads
        obtain ⟨rfl, rfl⟩ := List.append_eq_nil_iff.mp (hstream.symm.trans h.stream)
        refine .inr ⟨side, message, [], payload, by simp [Stage.unwritten],
          by simpa using h.reads, ?_, h.clean, h.left, by simp, h.received, h.sent, h.lead⟩
        rw [State.setStage_stream, State.setStream_of_peer, ← h.bytes]
      · rw [h.reads] at hreads
        cases hreads
        rw [Side.peer_peer] at hstream ⊢
        refine .inr ⟨w, message, rest, payload ++ chunk, by simpa using h.writes, by simp, ?_,
          h.clean, hnot, by simpa using h.stream, h.received, h.sent, h.lead⟩
        rw [State.setStage_stream, State.setStream_self, ← h.bytes, hstream]
        simp
  | @receives side payload' chunk behind message' hreads hstream hwhole =>
      obtain rfl | rfl := Side.eq_or_eq_peer side w
      · rw [h.writes] at hreads
        obtain ⟨rfl, rfl⟩ := Stage.unwritten_eq_reads hreads
        obtain ⟨rfl, -⟩ := List.append_eq_nil_iff.mp (hstream.symm.trans h.stream)
        exact absurd (List.append_eq_nil_iff.mp hwhole.symm).2 hne
      · rw [h.reads] at hreads
        cases hreads
        rw [Side.peer_peer] at hstream ⊢
        have hall : payload ++ chunk = message ++ t :=
          ht.eq_of_prefix h.clean (h.prefix_of_stream hstream) (hwhole ▸ List.suffix_append ..)
        obtain rfl : message' = message := List.append_cancel_right (hwhole.symm.trans hall)
        have hbytes := h.bytes
        rw [hstream, ← List.append_assoc, hall, List.append_assoc, List.append_right_eq_self,
          List.append_eq_nil_iff] at hbytes
        obtain ⟨rfl, rfl⟩ := hbytes
        refine .inl ⟨w.peer, by simp, by simpa [Stage.unwritten] using h.writes,
          fun side => ?_, fun side => ?_, h.lead⟩
        · obtain rfl | rfl := Side.eq_or_eq_peer side w
          · simp
          · simpa using h.stream
        · obtain rfl | rfl := Side.eq_or_eq_peer side w
          · simpa using h.received
          · simpa using h.sent.symm

theorem Inv.step (ht : Text.Unbordered t) (h : Inv t s) (hs : Step t s s') : Inv t s' := by
  obtain ⟨side, hturn⟩ | ⟨side, message, rest, payload, hsending⟩ := h
  · exact hturn.step hne hs
  · exact hsending.step hne ht hs

end Steps

/-- The side that has the turn is the one of which it is said. -/
theorem Inv.turn (h : Inv t s) (hholds : s.stage side = .holds) : Turn s side := by
  obtain ⟨w, h⟩ | ⟨w, message, rest, payload, h⟩ := h
  · obtain rfl | rfl := Side.eq_or_eq_peer side w
    · exact h
    · rw [h.waits] at hholds
      cases hholds
  · obtain rfl | rfl := Side.eq_or_eq_peer side w
    · rw [h.writes] at hholds
      exact absurd hholds Stage.unwritten_ne_holds
    · rw [h.reads] at hholds
      cases hholds

/-- A side writes some of what is left, if anything is. -/
theorem exists_writes (t : List α) {rest : List α} (n : Nat)
    (hstage : s.stage side = .unwritten rest) :
    ∃ s', Relation.ReflTransGen (Step t) s s' ∧ s'.stage side = .unwritten (rest.drop n) ∧
      s'.stream side = s.stream side ++ rest.take n ∧ s'.stage side.peer = s.stage side.peer ∧
      s'.stream side.peer = s.stream side.peer ∧ s'.sent = s.sent ∧ s'.received = s.received := by
  cases rest with
  | nil =>
      refine ⟨s, .refl, ?_, ?_, rfl, rfl, rfl, rfl⟩
      · rw [List.drop_nil, hstage]
      · rw [List.take_nil, List.append_nil]
  | cons b rest =>
      rw [Stage.unwritten_of_ne_nil (List.cons_ne_nil b rest),
        ← List.take_append_drop n (b :: rest)] at hstage
      exact ⟨_, .single (.writes hstage), by simp, by simp, by simp, by simp, rfl, rfl⟩

/-! ## What holds in all dialogues -/

theorem Reachable.inv (ht : Text.Unbordered t) (hne : t ≠ []) (hs : Reachable t s) : Inv t s := by
  induction hs with
  | refl => exact .initial
  | tail _ hstep ih => exact ih.step hne ht hstep

/-- Each side has read the first messages of the other.  An answer follows its
question, and the next question the answer. -/
structure OneByOne (s : State α) : Prop where
  inOrder : ∀ side, s.received side <+: s.sent side.peer
  answered : (s.received .asks).length ≤ (s.sent .answers).length
  answers : (s.sent .answers).length ≤ (s.received .answers).length
  asked : (s.received .answers).length ≤ (s.sent .asks).length
  asks : (s.sent .asks).length ≤ (s.received .asks).length + 1

theorem Inv.oneByOne (h : Inv t s) : OneByOne s := by
  obtain ⟨side, h⟩ | ⟨side, message, rest, payload, h⟩ := h
  · have hasks := congrArg List.length (h.received .asks)
    have hanswers := congrArg List.length (h.received .answers)
    have hlead := h.lead
    have hle : side.lead ≤ 1 := by cases side <;> decide
    simp only [Side.peer] at hasks hanswers
    refine ⟨fun w => ?_, ?_, ?_, ?_, ?_⟩
    · exact ⟨[], by rw [List.append_nil, h.received w]⟩
    all_goals omega
  · have hself := congrArg List.length h.received
    have hpeer := congrArg List.length h.sent
    have hlead := h.lead
    rw [List.length_append, List.length_singleton] at hpeer
    refine ⟨fun w => ?_, ?_, ?_, ?_, ?_⟩
    · obtain rfl | rfl := Side.eq_or_eq_peer w side
      · exact ⟨[], by rw [List.append_nil, h.received]⟩
      · rw [Side.peer_peer, h.sent]
        exact List.prefix_append ..
    all_goals
      cases side with
      | asks =>
          simp only [Side.peer, Side.lead] at hself hpeer hlead
          omega
      | answers =>
          simp only [Side.peer, Side.lead] at hself hpeer hlead
          omega

/-- A reader that finds the terminator has a whole message with nothing behind
it. -/
theorem Inv.whole (ht : Text.Unbordered t) (hne : t ≠ []) (h : Inv t s)
    {payload chunk rest : List α} (hreads : s.stage side = .reads payload)
    (hstream : s.stream side.peer = chunk ++ rest) (hfound : t <:+: payload ++ chunk) :
    ∃ message, payload ++ chunk = message ++ t ∧ rest = [] ∧
      s.sent side.peer = s.received side ++ [message] := by
  have hnone : ∀ {payload chunk rest : List α}, payload = [] → [] = chunk ++ rest →
      ¬ t <:+: payload ++ chunk := by
    rintro payload chunk rest rfl hnil
    rw [(List.append_eq_nil_iff.mp hnil.symm).1]
    exact not_infix_nil hne
  obtain ⟨w, h⟩ | ⟨w, message, left, payload', h⟩ := h
  · obtain rfl | rfl := Side.eq_or_eq_peer side w
    · rw [h.holds] at hreads
      cases hreads
    · rw [h.waits] at hreads
      cases hreads
      rw [Side.peer_peer, h.stream w] at hstream
      exact absurd hfound (hnone rfl hstream)
  · obtain rfl | rfl := Side.eq_or_eq_peer side w
    · rw [h.writes] at hreads
      rw [h.stream] at hstream
      exact absurd hfound (hnone (Stage.unwritten_eq_reads hreads).2 hstream)
    · rw [h.reads] at hreads
      cases hreads
      rw [Side.peer_peer] at hstream ⊢
      have hall : payload ++ chunk = message ++ t :=
        ht.eq_of_infix h.clean (h.prefix_of_stream hstream) hfound
      have hbytes := h.bytes
      rw [hstream, ← List.append_assoc, hall, List.append_assoc, List.append_right_eq_self,
        List.append_eq_nil_iff] at hbytes
      exact ⟨message, hall, hbytes.1, h.sent⟩

/-- Nothing comes for a side that has the turn or writes. -/
theorem Inv.quiet (h : Inv t s) (hreads : ∀ payload, s.stage side ≠ .reads payload) :
    s.stream side.peer = [] := by
  obtain ⟨w, h⟩ | ⟨w, message, rest, payload, h⟩ := h
  · exact h.stream side.peer
  · obtain rfl | rfl := Side.eq_or_eq_peer side w
    · exact h.stream
    · exact absurd h.reads (hreads payload)

/-! ## Questions and their answers -/

section Relay

variable {A B C D : Type _}

/-- What two relations say of the same list. -/
theorem forall₂_meet {P : A → B → Prop} {Q : A → C → Prop} {R : B → C → Prop} {as : List A}
    {bs : List B} {cs : List C} (hP : List.Forall₂ P as bs) (hQ : List.Forall₂ Q as cs)
    (h : ∀ a ∈ as, ∀ b c, P a b → Q a c → R b c) : List.Forall₂ R bs cs := by
  induction hP generalizing cs with
  | nil =>
      cases hQ
      exact .nil
  | cons hhead _ ih =>
      cases hQ with
      | cons hhead' hrest =>
          exact .cons (h _ (List.mem_cons_self ..) _ _ hhead hhead')
            (ih hrest fun a hmem => h a (List.mem_cons_of_mem _ hmem))

/-- A prefix as long as the other list takes as much of the whole. -/
theorem forall₂_of_prefix {P : A → B → Prop} {as as' : List A} {bs : List B} (has : as <+: as')
    (h : List.Forall₂ P (as.take bs.length) bs) : List.Forall₂ P (as'.take bs.length) bs := by
  have hle : bs.length ≤ as.length := by
    have hlength := h.length_eq
    rw [List.length_take] at hlength
    omega
  obtain ⟨rest, rfl⟩ := has
  rwa [List.take_append_of_le_length hle]

/-- What is printed of the messages that have come is of the answers of their numbers. -/
theorem forall₂_of_received {answers : List B} {received : List C} {printed : List D}
    {message : B → C} {Prints : C → D → Prop} (hreceived : received <+: answers.map message)
    (hprinted : List.Forall₂ Prints (received.take printed.length) printed) :
    List.Forall₂ (fun answer => Prints (message answer)) (answers.take printed.length)
      printed := by
  have hwhole := forall₂_of_prefix hreceived hprinted
  rwa [← List.map_take, List.forall₂_map_left_iff] at hwhole

/-- Questions and answers come through in their order, so that each answer that has
come is to the question of its number. -/
theorem forall₂_relay {sent : List A} {answers : List B} {printed : List D}
    {Answers : A → B → Prop} {Prints : B → D → Prop}
    (hanswers : List.Forall₂ Answers (sent.take answers.length) answers)
    (hprinted : List.Forall₂ Prints (answers.take printed.length) printed) :
    List.Forall₂ (fun question text => ∃ answer ∈ answers,
      Answers question answer ∧ Prints answer text) (sent.take printed.length) printed := by
  have hle : printed.length ≤ answers.length := by
    have hlength := hprinted.length_eq
    rw [List.length_take] at hlength
    omega
  have htake := List.forall₂_take printed.length hanswers
  rw [List.take_take, Nat.min_eq_left hle] at htake
  exact forall₂_meet htake.flip hprinted fun answer hmem question text hanswer hprint =>
    ⟨answer, List.mem_of_mem_take hmem, hanswer, hprint⟩

end Relay

end Dialogue
