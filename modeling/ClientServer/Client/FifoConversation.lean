import ClientServer.Client.FifoClient
import ClientServer.Library.Dialogue

/-!
# A reply for every subtask, over a pipe

The pipe carries one message at a time and in order (`HalfDuplex.OneAtATime`).  Each
side begins to send a message for each that it dealt with, so that the text printed
for a subtask is made of the reply to the request of the same number.
-/

namespace ClientServer

/-! ## What a step of the pipe does to a side -/

namespace HalfDuplex

/-- The message of an open for writing that has not found a reader. -/
def Pc.opening : Pc → List Bytes
  | openWriteNonBlock message _ => [message]
  | _ => []

/-- A message has been read and not been dealt with. -/
def Pc.holding : Pc → Bool
  | closeRead _ | work => true
  | _ => false

/-- What a step, not the first of a message, does to a side. -/
inductive Moves (s s' : State) (side : Side) : Prop where
  | stays : s'.received side = s.received side →
      s'.sent side ++ (s'.pc side).opening = s.sent side ++ (s.pc side).opening →
      (s'.pc side).holding = (s.pc side).holding →
      (s.pc side = .failed → s'.pc side = .failed) → (s.pc side = .work → s'.pc side = .work) →
      Moves s s' side
  | reads {gathered payload : Bytes} : s'.received side = s.received side ++ [payload] →
      s'.sent side = s.sent side → s.pc side = .readString gathered →
      s'.pc side = .closeRead payload → Moves s s' side
  | fails : s'.received side = s.received side → s'.sent side = s.sent side →
      (s.pc side).holding = false → s'.pc side = .failed → Moves s s' side

/-- The first step of a message. -/
def Action.isSend : Action → Bool
  | .send _ _ => true
  | _ => false

variable {s s' : State} {side : Side}

@[simp] theorem Pc.wake_opening (pc : Pc) : pc.wake.opening = pc.opening := by
  cases pc <;> rfl

@[simp] theorem Pc.wake_holding (pc : Pc) : pc.wake.holding = pc.holding := by
  cases pc <;> rfl

/-- A side is where it was, or was woken. -/
theorem Moves.of_wake (hreceived : s'.received side = s.received side)
    (hsent : s'.sent side = s.sent side)
    (hpc : s'.pc side = s.pc side ∨ s'.pc side = (s.pc side).wake) : Moves s s' side := by
  refine .stays hreceived ?_ ?_ ?_ ?_
  · rcases hpc with hpc | hpc
    · rw [hsent, hpc]
    · rw [hsent, hpc, Pc.wake_opening]
  · rcases hpc with hpc | hpc
    · rw [hpc]
    · rw [hpc, Pc.wake_holding]
  · intro hfailed
    rcases hpc with hpc | hpc
    · rw [hpc, hfailed]
    · rw [hpc, hfailed]
      rfl
  · intro hwork
    rcases hpc with hpc | hpc
    · rw [hpc, hwork]
    · rw [hpc, hwork]
      rfl

/-- A side goes from one place to another, and the other stays. -/
theorem Moves.goes {w : Side} {pc pc' : Pc} (hpc : s.pc w = pc)
    (hpcs : s'.pc = Function.update s.pc w pc') (hreceived : s'.received = s.received)
    (hsent : s'.sent = s.sent) (hopening : pc'.opening = pc.opening)
    (hholding : pc'.holding = pc.holding) (hfailed : pc ≠ .failed) (hwork : pc ≠ .work) :
    Moves s s' side := by
  have hreceived := congrFun hreceived
  have hsent := congrFun hsent
  obtain rfl | rfl := side.eq_or_eq_peer w
  · have hself : s'.pc side = pc' := by rw [hpcs, Function.update_self]
    refine .stays (hreceived _) ?_ ?_ (fun h => absurd (hpc.symm.trans h) hfailed)
      (fun h => absurd (hpc.symm.trans h) hwork)
    · rw [hsent, hself, hpc, hopening]
    · rw [hself, hpc, hholding]
  · refine .of_wake (hreceived _) (hsent _) (.inl ?_)
    rw [hpcs, Function.update_of_ne w.peer_ne]

/-- A call of a side fails, and the other side stays. -/
theorem Moves.setFailed {w : Side} (hholding : (s.pc w).holding = false)
    (hpcs : s'.pc = Function.update s.pc w .failed) (hreceived : s'.received = s.received)
    (hsent : s'.sent = s.sent) : Moves s s' side := by
  have hreceived := congrFun hreceived
  have hsent := congrFun hsent
  obtain rfl | rfl := side.eq_or_eq_peer w
  · exact .fails (hreceived _) (hsent _) hholding (by rw [hpcs, Function.update_self])
  · refine .of_wake (hreceived _) (hsent _) (.inl ?_)
    rw [hpcs, Function.update_of_ne w.peer_ne]

theorem moves_of_step {a : Action} (hs : Step s a s') (ha : a.isSend = false) (side : Side) :
    Moves s s' side := by
  cases hs with
  | sends => cases ha
  | @opens w message rep hpc =>
      obtain rfl | rfl := side.eq_or_eq_peer w
      · refine .stays rfl ?_ ?_ (fun h => ?_) (fun h => ?_)
        · rw [State.openWrite_self, hpc]
          simp [State.openWrite, Pc.opening]
        · rw [State.openWrite_self, hpc]
          rfl
        · rw [hpc] at h
          cases h
        · rw [hpc] at h
          cases h
      · refine .of_wake rfl ?_ (.inr (State.openWrite_peer ..))
        simp [State.openWrite, w.peer_ne]
  | repeats hpc => exact .goes hpc rfl rfl rfl rfl rfl (by simp) (by simp)
  | givesUp hpc => exact .setFailed (by rw [hpc]; rfl) rfl rfl rfl
  | closesWrite hpc =>
      exact .goes hpc (State.settle_pc _) (State.settle_received _) (State.settle_sent _) rfl rfl
        (by simp) (by simp)
  | blocks hpc => exact .goes hpc rfl rfl rfl rfl rfl (by simp) (by simp)
  | wakes hpc => exact .goes hpc rfl rfl rfl rfl rfl (by simp) (by simp)
  | closesRead hpc =>
      exact .goes hpc (State.settle_pc _) (State.settle_received _) (State.settle_sent _) rfl rfl
        (by simp) (by simp)
  | @writes w rest n hpc hn =>
      refine .goes hpc rfl rfl rfl ?_ ?_ (by simp) (by simp)
      · split <;> rfl
      · split <;> rfl
  | writeFails hpc =>
      exact .setFailed (by rw [hpc]; rfl) (State.settle_pc _) (State.settle_received _)
        (State.settle_sent _)
  | reads hpc => exact .goes hpc rfl rfl rfl rfl rfl (by simp) (by simp)
  | @completes w payload n hpc =>
      obtain rfl | rfl := side.eq_or_eq_peer w
      · exact .reads (Function.update_self ..) rfl hpc (State.complete_self ..)
      · exact .of_wake (Function.update_of_ne w.peer_ne ..) rfl
          (.inl (Function.update_of_ne w.peer_ne ..))
  | endOfFile hpc =>
      exact .setFailed (by rw [hpc]; rfl) (State.settle_pc _) (State.settle_received _)
        (State.settle_sent _)

/-- The messages come through in their order. -/
theorem pipe_inOrder { _numberRepeatENXIO : Nat} (hs : Reachable _numberRepeatENXIO s)
    (side : Side) : s.received side <+: s.sent side.peer := by
  have h : Inv s := Runs.Reached.invariant Inv.initial (fun h hok hstep => h.step hok hstep) hs
  exact h.inOrder side

end HalfDuplex

/-! ## Requests and replies -/

namespace FifoSession

variable (setup : SessionSetup) (engine : HEADER → Bytes → Bytes → Prop)

/-- What a session read decrypts to a request, and the engine has a response to
that. -/
def Responds (_payload _responseData : Bytes) : Prop :=
  ∃ _buffer _header _buffer' header request,
    FifoSession.receiveRequest setup.lib setup.terminal setup.options.toDecryptionOptions _buffer
      _header _payload = .ok (some (_buffer', header, request)) ∧
    engine header request _responseData

/-- The reply is built from a response to what the session read. -/
def Answers (_payload : Bytes) (reply : HEADER × Bytes) : Prop :=
  ∃ _responseData drawn work, Responds setup engine _payload _responseData ∧
    Session.buildReply setup drawn work _responseData .NONE = .ok reply ∧ reply.2 ≠ []

end FifoSession

namespace FifoConversation

open HalfDuplex (Side Pc Moves)

section Runs

variable (setup : Setup) (engine : HEADER → Bytes → Bytes → Prop)

/-- No message has the terminator in it, and the controller leaves a response of the
engine. -/
def Allowed : Action → State → Prop
  | .send subtask, _ => ¬ ENDOFMESSAGE <:+: subtask.message
  | .receiveRequest input, s => ∀ _responseData, input.response = some _responseData →
      (∀ _payload _buffer header request, s.payload .session = some _payload →
        FifoSession.receiveRequest setup.session.lib setup.session.terminal
          setup.session.options.toDecryptionOptions input.work.buffer.bytes s.session._header
          _payload = .ok (some (_buffer, header, request)) →
        engine header request _responseData) ∧
      ∀ reply, Session.buildReply setup.session input.drawn input.work _responseData
        (Session.resetStatus s.session._status) = .ok reply →
        ¬ ENDOFMESSAGE <:+: Session.message reply
  | _, _ => True

variable {setup engine} in
theorem Allowed.mono {engine' : HEADER → Bytes → Bytes → Prop}
    (h : ∀ {header request response}, engine header request response →
      engine' header request response) {a : Action} {s : State} (ha : Allowed setup engine a s) :
    Allowed setup engine' a s := by
  cases a with
  | receiveRequest input =>
      intro _responseData hresponse
      obtain ⟨hengine, hclean⟩ := ha _responseData hresponse
      refine ⟨fun _payload _buffer header request hpayload hreceived => ?_, hclean⟩
      exact h (hengine _payload _buffer header request hpayload hreceived)
  | send | receive | leave | pipe => exact ha

/-- The states of a client behind `receiveStatus` and of its session. -/
abbrev Reached (_header : HEADER) (_status : STATUS) : State → Prop :=
  Runs.Reached (step setup) (Allowed setup engine) (State.initial _header _status)

end Runs

/-! ### What a step does -/

/-- What an action does, and what it found. -/
inductive Progress (setup : Setup) (s : State) : Action → State → Prop where
  | pipe {a : HalfDuplex.Action} {pipe : HalfDuplex.State} : a.isSend = false →
      HalfDuplex.step setup._numberRepeatENXIO a s.pipe = some pipe →
      Progress setup s (.pipe a) { s with pipe }
  | sends {subtask : Subtask} : s.client.pc = .processTask → s.pipe.pc .client = .work →
      Progress setup s (.send subtask) { s with
        pipe := s.pipe.setPc .client (.openWriteNonBlock subtask.message 0)
        client := { s.client with pc := .receive, sent := s.client.sent ++ [subtask] } }
  | prints {heartbeat : Option STATUS} {_buffer _payload _response : Bytes} {_header : HEADER} :
      s.client.pc = .receive → s.payload .client = some _payload →
      Client.Prints setup.client _payload _response →
      Progress setup s (.receive heartbeat _buffer) { s with client := { s.client with
        _header
        _response
        dataStream := s.client.dataStream ++ _response
        printed := s.client.printed ++ [_response]
        pc := .processTask } }
  | replies {input : Input} {_payload _buffer _responseData request : Bytes} {_header : HEADER}
      {reply : HEADER × Bytes} :
      s.payload .session = some _payload →
      FifoSession.receiveRequest setup.session.lib setup.session.terminal
        setup.session.options.toDecryptionOptions input.work.buffer.bytes s.session._header
        _payload = .ok (some (_buffer, _header, request)) →
      input.response = some _responseData →
      Session.buildReply setup.session input.drawn input.work _responseData
        (Session.resetStatus s.session._status) = .ok reply → reply.2 ≠ [] →
      Progress setup s (.receiveRequest input) { s with
        pipe := s.pipe.setPc .session (.openWriteNonBlock (Session.message reply) 0)
        session := { s.session with
          _status := Session.resetStatus s.session._status
          _header
          replies := s.session.replies ++ [reply] } }
  | clientLeaves {a : Action} {_header : HEADER} {_response : Bytes} :
      Progress setup s a { s with client := { s.client with _header, _response, pc := .left } }
  | sessionLeaves {a : Action} {_status : STATUS} {_header : HEADER} :
      _status = s.session._status ∨ _status = Session.resetStatus s.session._status →
      Progress setup s a { s with session := { s.session with runs := false, _status, _header } }

section Progress

variable {setup : Setup} {s s' : State}

theorem payload_eq_some {side : Side} {_payload : Bytes} (h : s.payload side = some _payload) :
    s.pipe.pc side = .work ∧ (s.pipe.received side).getLast? = some _payload := by
  unfold State.payload at h
  split at h
  next hpc => exact ⟨hpc, h⟩
  next => cases h

theorem pipe_send_eq_some {pipe pipe' : HalfDuplex.State} {side : Side} {message : Bytes}
    (h : pipe.send side message = some pipe') :
    pipe.pc side = .work ∧ pipe' = pipe.setPc side (.openWriteNonBlock message 0) := by
  unfold HalfDuplex.State.send at h
  split at h
  next hpc => exact ⟨hpc, (Option.some.inj h).symm⟩
  next => cases h

theorem throws_eq_some {side : Side} {fault : Fault} (h : s.throws side fault = some s') :
    s' = s.leave side := by
  unfold State.throws at h
  split at h
  next => exact (Option.some.inj h).symm
  next => cases h

theorem receive_progress {heartbeat : Option STATUS} {_buffer : Bytes}
    (hs : s.receive setup heartbeat _buffer = some s') :
    Progress setup s (.receive heartbeat _buffer) s' := by
  unfold State.receive at hs
  split at hs
  next _payload hpc hpayload =>
    split at hs
    next =>
      rw [throws_eq_some hs]
      exact .clientLeaves
    next =>
      obtain rfl := Option.some.inj hs
      exact .clientLeaves
    next _header _response hreceived =>
      obtain rfl := Option.some.inj hs
      exact .prints hpc hpayload (Client.receive_prints hreceived)
  next => cases hs

theorem receiveRequest_progress {input : Input} (hs : s.receiveRequest setup input = some s') :
    Progress setup s (.receiveRequest input) s' := by
  unfold State.receiveRequest at hs
  split at hs
  next _payload hruns hpayload =>
    dsimp only at hs
    split at hs
    next =>
      rw [throws_eq_some hs]
      exact .sessionLeaves (.inr rfl)
    next =>
      obtain rfl := Option.some.inj hs
      exact .sessionLeaves (.inr rfl)
    next _buffer _header request hreceived =>
      split at hs
      next =>
        obtain rfl := Option.some.inj hs
        exact .sessionLeaves (.inr rfl)
      next _responseData hresponse =>
        unfold State.sendResponse at hs
        dsimp only at hs
        split at hs
        next =>
          rw [throws_eq_some hs]
          exact .sessionLeaves (.inr rfl)
        next reply hreply =>
          split at hs
          next =>
            obtain rfl := Option.some.inj hs
            exact .sessionLeaves (.inr rfl)
          next hne =>
            split at hs
            next pipe hpipe =>
              obtain rfl := Option.some.inj hs
              obtain ⟨-, rfl⟩ := pipe_send_eq_some hpipe
              exact .replies hpayload hreceived hresponse hreply hne
            next => cases hs
  next => cases hs

theorem stepPipe_progress {side : Side} {a : HalfDuplex.Action} (ha : a.isSend = false)
    (hs : stepPipe setup s side a = some s') : Progress setup s (.pipe a) s' := by
  unfold stepPipe at hs
  split at hs
  next =>
    split at hs
    next pipe hpipe =>
      obtain rfl := Option.some.inj hs
      exact .pipe ha hpipe
    next => cases hs
  next => cases hs

theorem step_progress {a : Action} (hs : step setup a s = some s') : Progress setup s a s' := by
  cases a with
  | send subtask =>
      rw [step, State.send] at hs
      split at hs
      next pipe hpc hpipe =>
        obtain rfl := Option.some.inj hs
        obtain ⟨hwork, rfl⟩ := pipe_send_eq_some hpipe
        exact .sends hpc hwork
      next => cases hs
  | receive heartbeat _buffer => exact receive_progress hs
  | receiveRequest input => exact receiveRequest_progress hs
  | leave side =>
      rw [step] at hs
      split at hs
      next =>
        obtain rfl := Option.some.inj hs
        cases side with
        | client => exact .clientLeaves
        | session => exact .sessionLeaves (.inl rfl)
      next => cases hs
  | pipe a =>
      cases a with
      | send => cases hs
      | next | write | read => exact stepPipe_progress rfl hs

end Progress

/-! ### What a side sent and dealt with -/

/-- A side begun to send the messages; if it failed, the last may be missing. -/
def Sends (pipe : HalfDuplex.State) (side : Side) (messages : List Bytes) : Prop :=
  pipe.sent side ++ (pipe.pc side).opening = messages ∨
    pipe.pc side = .failed ∧ pipe.sent side <+: messages

/-- A side has dealt with some messages, and holds one more or has no other. -/
def DealtWith (pipe : HalfDuplex.State) (side : Side) (n : Nat) : Prop :=
  (pipe.received side).length = n + (pipe.pc side).holding.toNat

section Moves

variable {pipe pipe' : HalfDuplex.State} {side : Side} {messages : List Bytes} {n : Nat}

theorem Sends.isPrefix (h : Sends pipe side messages) : pipe.sent side <+: messages := by
  rcases h with heq | ⟨-, hprefix⟩
  · exact heq ▸ List.prefix_append ..
  · exact hprefix

theorem Sends.moves (h : Sends pipe side messages) (hmoves : Moves pipe pipe' side) :
    Sends pipe' side messages := by
  cases hmoves with
  | stays _ hsent _ hfailed _ =>
      rcases h with heq | ⟨hpc, hprefix⟩
      · exact .inl (hsent.trans heq)
      · refine .inr ⟨hfailed hpc, ?_⟩
        rw [hpc, hfailed hpc] at hsent
        have hsame : pipe'.sent side = pipe.sent side := by simpa [Pc.opening] using hsent
        rw [hsame]
        exact hprefix
  | reads _ hsent hpc hpc' =>
      rcases h with heq | ⟨hfailed, -⟩
      · rw [hpc] at heq
        exact .inl (by rw [hsent, hpc']; exact heq)
      · cases hpc.symm.trans hfailed
  | fails _ hsent _ hfailed =>
      refine .inr ⟨hfailed, ?_⟩
      rw [hsent]
      exact h.isPrefix

/-- A side that has dealt with a message sends the next. -/
theorem Sends.send (h : Sends pipe side messages) (hpc : pipe.pc side = .work) (message : Bytes) :
    Sends (pipe.setPc side (.openWriteNonBlock message 0)) side (messages ++ [message]) := by
  rcases h with heq | ⟨hfailed, -⟩
  · refine .inl ?_
    rw [HalfDuplex.State.setPc_self, ← heq, hpc]
    show pipe.sent side ++ [message] = pipe.sent side ++ [] ++ [message]
    rw [List.append_nil]
  · cases hpc.symm.trans hfailed

theorem DealtWith.le (h : DealtWith pipe side n) : n ≤ (pipe.received side).length :=
  h.symm ▸ Nat.le_add_right ..

theorem DealtWith.moves (h : DealtWith pipe side n) (hmoves : Moves pipe pipe' side) :
    DealtWith pipe' side n := by
  unfold DealtWith at h ⊢
  cases hmoves with
  | stays hreceived _ hholding => rw [hreceived, hholding, h]
  | reads hreceived _ hpc hpc' =>
      rw [hreceived, hpc', List.length_append, h, hpc]
      rfl
  | fails hreceived _ hholding hpc' =>
      rw [hreceived, h, hpc', hholding]
      rfl

/-- A side with a message that it deals with. -/
theorem DealtWith.send (h : DealtWith pipe side n) (hpc : pipe.pc side = .work) (message : Bytes) :
    DealtWith (pipe.setPc side (.openWriteNonBlock message 0)) side (n + 1) := by
  unfold DealtWith at h ⊢
  rw [hpc] at h
  rw [HalfDuplex.State.setPc_self]
  exact h

theorem moves_received (hmoves : Moves pipe pipe' side) (hn : n ≤ (pipe.received side).length) :
    (pipe'.received side).take n = (pipe.received side).take n := by
  cases hmoves with
  | stays hreceived | fails hreceived => rw [hreceived]
  | reads hreceived => rw [hreceived, List.take_append_of_le_length hn]

theorem moves_received_le (hmoves : Moves pipe pipe' side) :
    (pipe.received side).length ≤ (pipe'.received side).length := by
  cases hmoves with
  | stays hreceived | fails hreceived => rw [hreceived]
  | reads hreceived =>
      rw [hreceived, List.length_append]
      exact Nat.le_add_right ..

theorem moves_work (hmoves : Moves pipe pipe' side) (hpc : pipe.pc side = .work) :
    pipe'.pc side = .work ∧ pipe'.received side = pipe.received side := by
  cases hmoves with
  | stays hreceived _ _ _ hwork => exact ⟨hwork hpc, hreceived⟩
  | reads _ _ hreads => cases hpc.symm.trans hreads
  | fails _ _ hholding =>
      rw [hpc] at hholding
      cases hholding

/-- The other side begins to send. -/
theorem moves_peer (pipe : HalfDuplex.State) (side : Side) (pc : Pc) :
    Moves pipe (pipe.setPc side pc) side.peer :=
  .of_wake rfl rfl (.inl (HalfDuplex.State.setPc_peer ..))

/-- What comes behind what has been dealt with. -/
theorem take_succ_of_getLast? {received : List Bytes} {_payload : Bytes}
    (hlength : received.length = n + 1) (hlast : received.getLast? = some _payload) :
    received.take (n + 1) = received.take n ++ [_payload] := by
  obtain ⟨front, rfl⟩ := List.getLast?_eq_some_iff.mp hlast
  have hfront : front.length = n := by simpa using hlength
  rw [← hlength, List.take_length, List.take_append_of_le_length (Nat.le_of_eq hfront.symm),
    ← hfront, List.take_length]

end Moves

/-! ## The invariant -/

/-- How many subtasks and replies there are, by where the client stands. -/
def Stands (s : State) : ClientPc → Prop
  | .processTask => s.pipe.pc .client = .work ∧
      (s.pipe.received .client).length = s.client.printed.length ∧
      s.client.sent.length = s.client.printed.length
  | .receive => DealtWith s.pipe .client s.client.printed.length ∧
      s.client.sent.length = s.client.printed.length + 1
  | .left => s.client.printed.length ≤ (s.pipe.received .client).length ∧
      s.client.sent.length ≤ s.client.printed.length + 1

structure Inv (setup : Setup) (engine : HEADER → Bytes → Bytes → Prop) (s : State) : Prop where
  pipe : HalfDuplex.Reachable setup._numberRepeatENXIO s.pipe
  sent : Sends s.pipe .client (s.client.sent.map Subtask.message)
  replies : Sends s.pipe .session (s.session.replies.map Session.message)
  client : Stands s s.client.pc
  session : DealtWith s.pipe .session s.session.replies.length
  answers : List.Forall₂ (FifoSession.Answers setup.session engine)
    ((s.pipe.received .session).take s.session.replies.length) s.session.replies
  prints : List.Forall₂ (Client.Prints setup.client)
    ((s.pipe.received .client).take s.client.printed.length) s.client.printed
  dataStream : s.client.dataStream = s.client.printed.flatten
  status : Session.resetStatus s.session._status = .NONE

variable {setup : Setup} {engine : HEADER → Bytes → Bytes → Prop} {s s' : State}

theorem Stands.printed_le {pc : ClientPc} (h : Stands s pc) :
    s.client.printed.length ≤ (s.pipe.received .client).length := by
  cases pc with
  | processTask => exact Nat.le_of_eq h.2.1.symm
  | receive => exact h.1.le
  | left => exact h.1

theorem Stands.sent_le {pc : ClientPc} (h : Stands s pc) :
    s.client.sent.length ≤ s.client.printed.length + 1 := by
  cases pc with
  | processTask => exact h.2.2 ▸ Nat.le_succ _
  | receive => exact Nat.le_of_eq h.2
  | left => exact h.2

/-- The client stands where it stood while the pipe moves. -/
theorem Stands.moves {pc : ClientPc} (h : Stands s pc) {pipe : HalfDuplex.State}
    (hmoves : Moves s.pipe pipe .client) {session : SessionState} :
    Stands { s with pipe, session } pc := by
  cases pc with
  | processTask =>
      obtain ⟨hwork, hreceived⟩ := moves_work hmoves h.1
      exact ⟨hwork, hreceived ▸ h.2.1, h.2.2⟩
  | receive => exact ⟨h.1.moves hmoves, h.2⟩
  | left => exact ⟨h.1.trans (moves_received_le hmoves), h.2⟩

theorem Inv.initial (_header : HEADER) {_status : STATUS} (hstatus : Session.Calculated _status) :
    Inv setup engine (State.initial _header _status) where
  pipe := .start
  sent := .inl rfl
  replies := .inl rfl
  client := ⟨rfl, rfl, rfl⟩
  session := rfl
  answers := .nil
  prints := .nil
  dataStream := rfl
  status := hstatus.reset

theorem resetStatus_idem (_status : STATUS) :
    Session.resetStatus (Session.resetStatus _status) = Session.resetStatus _status := by
  cases _status <;> rfl

/-- A step of the pipe. -/
theorem Inv.stepPipe (h : Inv setup engine s) {a : HalfDuplex.Action} (ha : a.isSend = false)
    {pipe : HalfDuplex.State}
    (hpipe : HalfDuplex.step setup._numberRepeatENXIO a s.pipe = some pipe) :
    Inv setup engine { s with pipe } := by
  have hmoves := HalfDuplex.moves_of_step (HalfDuplex.step_cases hpipe) ha
  have hclean : HalfDuplex.NoENDOFMESSAGE a s.pipe := by
    cases a with
    | send => cases ha
    | next | write | read => trivial
  exact ⟨.step h.pipe hclean hpipe, h.sent.moves (hmoves _), h.replies.moves (hmoves _),
    h.client.moves (hmoves _), h.session.moves (hmoves _),
    moves_received (hmoves .session) h.session.le ▸ h.answers,
    moves_received (hmoves .client) h.client.printed_le ▸ h.prints, h.dataStream, h.status⟩

/-- The first step of a message, which is a step of the pipe. -/
theorem Inv.reachable_send (h : Inv setup engine s) {side : Side} (hpc : s.pipe.pc side = .work)
    {message : Bytes} (hclean : ¬ ENDOFMESSAGE <:+: message) :
    HalfDuplex.Reachable setup._numberRepeatENXIO
      (s.pipe.setPc side (.openWriteNonBlock message 0)) := by
  refine .step (a := .send side message) h.pipe hclean ?_
  rw [HalfDuplex.step, HalfDuplex.State.send, hpc]

theorem Inv.send (h : Inv setup engine s) {subtask : Subtask}
    (hclean : ¬ ENDOFMESSAGE <:+: subtask.message) (hpc : s.client.pc = .processTask)
    (hwork : s.pipe.pc .client = .work) : Inv setup engine { s with
      pipe := s.pipe.setPc .client (.openWriteNonBlock subtask.message 0)
      client := { s.client with pc := .receive, sent := s.client.sent ++ [subtask] } } := by
  have hstands := h.client
  have hmoves := moves_peer s.pipe .client (.openWriteNonBlock subtask.message 0)
  rw [hpc] at hstands
  refine ⟨h.reachable_send hwork hclean, ?_, h.replies.moves hmoves, ⟨?_, ?_⟩,
    h.session.moves hmoves, h.answers, h.prints, h.dataStream, h.status⟩
  · rw [List.map_append]
    exact h.sent.send hwork _
  · rw [DealtWith, HalfDuplex.State.setPc_self]
    exact hstands.2.1
  · rw [List.length_append, List.length_singleton, hstands.2.2]

/-- The reply is printed. -/
theorem Inv.print (h : Inv setup engine s) {_payload _response : Bytes}
    (hpc : s.client.pc = .receive) (hpayload : s.payload .client = some _payload)
    (hprints : Client.Prints setup.client _payload _response) (_header : HEADER) :
    Inv setup engine { s with client := { s.client with
      _header
      _response
      dataStream := s.client.dataStream ++ _response
      printed := s.client.printed ++ [_response]
      pc := .processTask } } := by
  obtain ⟨hwork, hlast⟩ := payload_eq_some hpayload
  have hstands := h.client
  rw [hpc] at hstands
  obtain ⟨hdealt, hsent⟩ := hstands
  rw [DealtWith, hwork] at hdealt
  refine ⟨h.pipe, h.sent, h.replies, ⟨hwork, ?_, ?_⟩, h.session, h.answers, ?_, ?_, h.status⟩
  · rw [List.length_append]
    exact hdealt
  · rw [List.length_append]
    exact hsent
  · rw [List.length_append, List.length_singleton, take_succ_of_getLast? hdealt hlast]
    exact List.rel_append h.prints (.cons hprints .nil)
  · rw [List.flatten_append, List.flatten_singleton, h.dataStream]

/-- The session answers the request it holds. -/
theorem Inv.reply (h : Inv setup engine s) {_payload : Bytes} {reply : HEADER × Bytes}
    (hpayload : s.payload .session = some _payload)
    (hanswers : FifoSession.Answers setup.session engine _payload reply)
    (hclean : ¬ ENDOFMESSAGE <:+: Session.message reply) (_header : HEADER) :
    Inv setup engine { s with
      pipe := s.pipe.setPc .session (.openWriteNonBlock (Session.message reply) 0)
      session := { s.session with
        _status := Session.resetStatus s.session._status
        _header
        replies := s.session.replies ++ [reply] } } := by
  obtain ⟨hwork, hlast⟩ := payload_eq_some hpayload
  have hmoves := moves_peer s.pipe .session (.openWriteNonBlock (Session.message reply) 0)
  have hlength := h.session
  rw [DealtWith, hwork] at hlength
  refine ⟨h.reachable_send hwork hclean, h.sent.moves hmoves, ?_, h.client.moves hmoves, ?_, ?_,
    h.prints, h.dataStream, (resetStatus_idem _).trans h.status⟩
  · rw [List.map_append]
    exact h.replies.send hwork _
  · rw [List.length_append]
    exact h.session.send hwork _
  · rw [List.length_append, List.length_singleton]
    show List.Forall₂ _ ((s.pipe.received .session).take _) _
    rw [take_succ_of_getLast? hlength hlast]
    exact List.rel_append h.answers (.cons hanswers .nil)

theorem Inv.step (h : Inv setup engine s) {a : Action} (hallowed : Allowed setup engine a s)
    (hs : step setup a s = some s') : Inv setup engine s' := by
  cases step_progress hs with
  | pipe ha hpipe => exact h.stepPipe ha hpipe
  | sends hpc hwork => exact h.send hallowed hpc hwork
  | prints hpc hpayload hprints => exact h.print hpc hpayload hprints _
  | replies hpayload hreceived hresponse hreply hne =>
      obtain ⟨hengine, hclean⟩ := hallowed _ hresponse
      refine h.reply hpayload ⟨_, _, _, ⟨_, _, _, _, _, hreceived, ?_⟩, h.status ▸ hreply, hne⟩
        (hclean _ hreply) _
      exact hengine _ _ _ _ hpayload hreceived
  | clientLeaves =>
      exact ⟨h.pipe, h.sent, h.replies, ⟨h.client.printed_le, h.client.sent_le⟩, h.session,
        h.answers, h.prints, h.dataStream, h.status⟩
  | sessionLeaves hstatus =>
      refine ⟨h.pipe, h.sent, h.replies, ?_, h.session, h.answers, h.prints, h.dataStream, ?_⟩
      · exact h.client.moves (.of_wake rfl rfl (.inl rfl))
      · rcases hstatus with rfl | rfl
        · exact h.status
        · exact (resetStatus_idem _).trans h.status

theorem Reached.inv {_header : HEADER} {_status : STATUS} (hstatus : Session.Calculated _status)
    (hs : Reached setup engine _header _status s) : Inv setup engine s :=
  Runs.Reached.invariant (Inv.initial _header hstatus) (fun h ha hstep => h.step ha hstep) hs

/-! ## All runs -/

/-- A reply for every subtask, and for the last one at most none yet. -/
structure OneForOne (setup : Setup) (engine : HEADER → Bytes → Bytes → Prop) (s : State) :
    Prop where
  /-- The reply of each number answers the subtask of that number. -/
  answers : List.Forall₂ (fun subtask reply => FifoSession.Answers setup.session engine
    (Subtask.message subtask) reply) (s.client.sent.take s.session.replies.length)
    s.session.replies
  /-- The text of each number is what the client makes of the reply of that number. -/
  prints : List.Forall₂ (fun reply text => Client.Prints setup.client (Session.message reply) text)
    (s.session.replies.take s.client.printed.length) s.client.printed
  dataStream : s.client.dataStream = s.client.printed.flatten
  requests : s.pipe.received .session <+: s.client.sent.map Subtask.message
  replies : s.pipe.received .client <+: s.session.replies.map Session.message
  printed : s.client.printed.length ≤ (s.pipe.received .client).length
  read : (s.pipe.received .client).length ≤ s.session.replies.length
  answered : s.session.replies.length ≤ (s.pipe.received .session).length
  asked : (s.pipe.received .session).length ≤ s.client.sent.length
  sent : s.client.sent.length ≤ s.client.printed.length + 1

theorem Inv.requests (h : Inv setup engine s) :
    s.pipe.received .session <+: s.client.sent.map Subtask.message :=
  ((HalfDuplex.pipe_inOrder h.pipe) .session).trans h.sent.isPrefix

theorem Inv.received (h : Inv setup engine s) :
    s.pipe.received .client <+: s.session.replies.map Session.message :=
  ((HalfDuplex.pipe_inOrder h.pipe) .client).trans h.replies.isPrefix

theorem Inv.answered (h : Inv setup engine s) :
    List.Forall₂ (fun subtask reply => FifoSession.Answers setup.session engine
      (Subtask.message subtask) reply) (s.client.sent.take s.session.replies.length)
      s.session.replies := by
  have hanswers := Dialogue.forall₂_of_prefix h.requests h.answers
  rwa [← List.map_take, List.forall₂_map_left_iff] at hanswers

theorem Inv.printed (h : Inv setup engine s) :
    List.Forall₂ (fun reply text => Client.Prints setup.client (Session.message reply) text)
      (s.session.replies.take s.client.printed.length) s.client.printed :=
  Dialogue.forall₂_of_received h.received h.prints

/-- However the calls of the pipe interleave, and wherever a side leaves: what the
client prints are the answers to its subtasks, one for each, in their order. -/
theorem fifo_oneForOne {_header : HEADER} {_status : STATUS}
    (hstatus : Session.Calculated _status) (hs : Reached setup engine _header _status s) :
    OneForOne setup engine s := by
  have h := hs.inv hstatus
  have hread := h.received.length_le
  have hasked := h.requests.length_le
  rw [List.length_map] at hread hasked
  exact ⟨h.answered, h.printed, h.dataStream, h.requests, h.received, h.client.printed_le, hread,
    h.session.le, hasked, h.client.sent_le⟩

/-! ### One exchange -/

namespace OneExchange

open OneReply

def ends : Setup := ⟨client, session, 200⟩

def clean (message : Bytes) : Bool := (Text.find ENDOFMESSAGE message).isNone

theorem clean_iff {message : Bytes} : clean message = true ↔ ¬ ENDOFMESSAGE <:+: message := by
  rw [clean, ← Text.find_isSome_iff, Option.not_isSome_iff_eq_none, Option.isNone_iff_eq_none]

def input : Input := ⟨some reply, ShortRequest.drawn, ShortRequest.work⟩

def allowed : Action → State → Bool
  | .send subtask, _ => clean subtask.message
  | .receiveRequest input, s =>
      input.response == some reply &&
      (match s.payload .session with
        | some _payload =>
            match FifoSession.receiveRequest session.lib session.terminal
                session.options.toDecryptionOptions input.work.buffer.bytes s.session._header
                _payload with
            | .ok (some (_, _, request)) => request == text
            | _ => true
        | none => true) &&
      (match Session.buildReply session input.drawn input.work reply
          (Session.resetStatus s.session._status) with
        | .ok reply => clean (Session.message reply)
        | .error _ => true)
  | _, _ => true

theorem allowed_of (a : Action) (s : State) (h : allowed a s = true) :
    Allowed ends oneReply a s := by
  cases a with
  | send subtask => exact clean_iff.mp h
  | receiveRequest input =>
      intro _responseData hresponse
      simp only [allowed, Bool.and_eq_true, beq_iff_eq] at h
      obtain ⟨⟨hreply, hrequest⟩, hclean⟩ := h
      obtain rfl := Option.some.inj (hreply.symm.trans hresponse)
      refine ⟨fun _payload _buffer header request hpayload hreceived => ?_, fun built hbuilt => ?_⟩
      · have hreceived' : FifoSession.receiveRequest session.lib session.terminal
            session.options.toDecryptionOptions input.work.buffer.bytes s.session._header
            _payload = .ok (some (_buffer, header, request)) := hreceived
        simp only [hpayload, hreceived', beq_iff_eq] at hrequest
        exact ⟨hrequest, rfl⟩
      · have hbuilt' : Session.buildReply session input.drawn input.work reply
            (Session.resetStatus s.session._status) = .ok built := hbuilt
        simp only [hbuilt'] at hclean
        exact clean_iff.mp hclean
  | receive | leave | pipe => trivial

/-- The session comes late, and the request goes in two pieces. -/
def actions : List Action :=
  [.send subtask, .pipe (.next .client), .pipe (.next .session), .pipe (.next .client),
   .pipe (.next .session), .pipe (.write .client 7), .pipe (.read .session 7),
   .pipe (.write .client ((subtask.message ++ ENDOFMESSAGE).length - 7)), .pipe (.next .client),
   .pipe (.read .session ((subtask.message ++ ENDOFMESSAGE).length - 7)), .pipe (.next .client),
   .pipe (.next .session), .receiveRequest input, .pipe (.next .session),
   .pipe (.write .session (2 * HEADER_SIZE + reply.length + ENDOFMESSAGESZ)),
   .pipe (.next .session), .pipe (.next .client), .pipe (.next .session),
   .pipe (.read .client (2 * HEADER_SIZE + reply.length + ENDOFMESSAGESZ)),
   .pipe (.next .client), .receive none []]

theorem exists_run : ∃ s, Reached ends oneReply default .NONE s ∧
    (s.client.sent, s.client.printed, s.session.replies.map Prod.snd) =
      ([subtask], [reply], [serialize (payloadHeader reply.length) ++ reply]) :=
  Runs.exists_reached_of_check allowed_of actions (by decide +kernel)

end OneExchange

theorem fifo_oneForOne_oneExchange :
    ∃ s, s.client.printed = [OneReply.reply] ∧
      OneForOne OneExchange.ends OneReply.oneReply s := by
  obtain ⟨s, hs, hrun⟩ := OneExchange.exists_run
  exact ⟨s, congrArg (fun run => run.2.1) hrun, fifo_oneForOne (.inl rfl) hs⟩

end FifoConversation

end ClientServer
