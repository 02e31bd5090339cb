import ClientServer.Client.TcpClient

/-!
# A reply for every subtask

In every run of a client and its session each text the client prints is what it
makes of the reply to the subtask it sent in the same place: no reply is lost,
given twice or taken for another one, whatever fails and however the bytes come
in pieces.  The two follow a dialogue: `Follows` says how, and what holds in all
dialogues is carried over.
-/

namespace ClientServer

open EventLoop

namespace Conversation

/-! ## The steps -/

/-- What an action does, and what it found. -/
inductive Progress (setup : Setup) (s : State) : Action → State → Prop where
  | sends {subtask : Subtask} : s.client.pc = .processTask →
      Progress setup s (.send subtask) { s with client := { s.client with
        pc := .sendMessage (Subtask.message subtask ++ ENDOFMESSAGE)
        sent := s.client.sent ++ [subtask] } }
  | writes {n : Nat} {rest : Bytes} {pc : TcpClient.Pc} :
      s.client.pc = .sendMessage rest → 0 < n → n ≤ rest.length →
      pc = (if rest.drop n = [] then .readMessage [] else .sendMessage (rest.drop n)) →
      Progress setup s (.write n) {
        client := { s.client with pc }
        session := { s.session with socket := { s.session.socket with
          incoming := s.session.socket.incoming ++ rest.take n } } }
  /-- A client whose write failed reads. -/
  | goesOn {rest : Bytes} : s.client.pc = .sendMessage rest →
      Progress setup s (.sendFails false)
        { s with client := { s.client with pc := .readMessage [] } }
  | reads {n : Nat} {_payload : Bytes} :
      s.client.pc = .readMessage _payload → 0 < n → n ≤ s.session.socket.outgoing.length →
      Tcp.found (_payload ++ s.session.socket.outgoing.take n) = false →
      Progress setup s (.read n) {
        client := { s.client with
          pc := .readMessage (_payload ++ s.session.socket.outgoing.take n) }
        session := { s.session with socket := { s.session.socket with
          outgoing := s.session.socket.outgoing.drop n } } }
  | hasRead {n : Nat} {_payload message : Bytes} :
      s.client.pc = .readMessage _payload → 0 < n → n ≤ s.session.socket.outgoing.length →
      _payload ++ s.session.socket.outgoing.take n = message ++ ENDOFMESSAGE →
      Progress setup s (.read n) {
        client := { s.client with
          pc := .processMessage message
          replies := s.client.replies ++ [message] }
        session := { s.session with socket := { s.session.socket with
          outgoing := s.session.socket.outgoing.drop n } } }
  /-- There is more behind the end of the message. -/
  | hasReadMore {n : Nat} {_payload : Bytes} :
      s.client.pc = .readMessage _payload → 0 < n → n ≤ s.session.socket.outgoing.length →
      Tcp.found (_payload ++ s.session.socket.outgoing.take n) = true →
      ¬ ENDOFMESSAGE <:+ _payload ++ s.session.socket.outgoing.take n →
      Progress setup s (.read n) {
        client := { s.client with pc := .left }
        session := { s.session with socket := { s.session.socket with
          outgoing := s.session.socket.outgoing.drop n } } }
  | prints {heartbeat : Option STATUS} {_buffer _payload _response : Bytes} {_header : HEADER} :
      s.client.pc = .processMessage _payload →
      Client.Prints setup.client _payload _response →
      Progress setup s (.receive heartbeat _buffer) { s with client := { s.client with
        _header
        _response
        dataStream := s.client.dataStream ++ _response
        printed := s.client.printed ++ [_response]
        pc := .processTask } }
  | leaves {a : Action} {_header : HEADER} {_response : Bytes} :
      Progress setup s a { s with client := { s.client with _header, _response, pc := .left } }
  | session {a : TcpSession.Action} {session : TcpSession.State} : ofSession a = true →
      TcpSession.step setup.session a s.session = some session →
      Progress setup s (.session a) { s with session }

section Progress

variable {setup : Setup} {s s' : State}

theorem setClient_eq_some {client : Option TcpClient.State} (hs : s.setClient client = some s') :
    ∃ client', client = some client' ∧ s' = { s with client := client' } := by
  unfold State.setClient at hs
  split at hs
  next client' => exact ⟨client', rfl, (Option.some.inj hs).symm⟩
  next => cases hs

theorem write_progress {n : Nat} (hs : s.write n = some s') : Progress setup s (.write n) s' := by
  unfold State.write TcpClient.State.write at hs
  split at hs
  next bytes client hwrite =>
    obtain rfl := Option.some.inj hs
    split at hwrite
    next rest hpc =>
      split at hwrite
      next hn =>
        obtain ⟨rfl, rfl⟩ := Prod.mk.inj (Option.some.inj hwrite)
        exact .writes hpc hn.1 hn.2 rfl
      next => cases hwrite
    next => cases hwrite
  next => cases hs

theorem read_progress {n : Nat} (hs : s.read n = some s') : Progress setup s (.read n) s' := by
  unfold State.read TcpClient.State.read at hs
  split at hs
  next outgoing client hread =>
    obtain rfl := Option.some.inj hs
    split at hread
    next _payload hpc =>
      split at hread
      next hn =>
        obtain ⟨rfl, rfl⟩ := Prod.mk.inj (Option.some.inj hread)
        split
        next hfound =>
          split
          next hsuffix =>
            obtain ⟨message, hmessage⟩ := List.isSuffixOf_iff_suffix.mp hsuffix
            rw [← hmessage, stripEndOfMessage_append]
            exact .hasRead hpc hn.1 hn.2 hmessage.symm
          next hsuffix =>
            exact .hasReadMore hpc hn.1 hn.2 hfound
              (fun h => hsuffix (List.isSuffixOf_iff_suffix.mpr h))
        next hfound => exact .reads hpc hn.1 hn.2 (Bool.eq_false_of_not_eq_true hfound)
      next => cases hread
    next => cases hread
  next => cases hs

theorem throws_progress {client client' : TcpClient.State} {fault : Fault} {a : Action}
    (hs : client.throws fault = some client') (hleaves : ∀ {client'}, client' =
      { client with pc := .left } → Progress setup s a { s with client := client' }) :
    Progress setup s a { s with client := client' } := by
  unfold TcpClient.State.throws at hs
  split at hs
  next => exact hleaves (Option.some.inj hs).symm
  next => cases hs

theorem receive_progress {heartbeat : Option STATUS} {_buffer : Bytes} {client : TcpClient.State}
    (hs : s.client.receive setup.client heartbeat _buffer = some client) :
    Progress setup s (.receive heartbeat _buffer) { s with client } := by
  unfold TcpClient.State.receive at hs
  split at hs
  next _payload hpc =>
    split at hs
    next => exact throws_progress hs fun h => h ▸ .leaves
    next =>
      obtain rfl := Option.some.inj hs
      exact .leaves
    next _header _response hreceived =>
      obtain rfl := Option.some.inj hs
      exact .prints hpc (Client.receive_prints hreceived)
  next => cases hs

theorem step_progress {a : Action} (hs : step setup a s = some s') : Progress setup s a s' := by
  cases a with
  | send subtask =>
      obtain ⟨client, hsend, rfl⟩ := setClient_eq_some hs
      unfold TcpClient.State.send at hsend
      split at hsend
      next hpc =>
        obtain rfl := Option.some.inj hsend
        have hmessage : ClientServer.sendMessage subtask._header subtask._data [] [] [] =
            Subtask.message subtask ++ ENDOFMESSAGE := by
          simp [ClientServer.sendMessage, sendBuffers, Subtask.message]
        rw [hmessage]
        exact .sends hpc
      next => cases hsend
  | write n => exact write_progress hs
  | sendFails waits =>
      obtain ⟨client, hfails, rfl⟩ := setClient_eq_some hs
      unfold TcpClient.State.sendFails at hfails
      split at hfails
      next rest hpc =>
        obtain rfl := Option.some.inj hfails
        cases waits with
        | true => exact .leaves
        | false => exact .goesOn hpc
      next => cases hfails
  | read n => exact read_progress hs
  | receiveFails =>
      obtain ⟨client, hfails, rfl⟩ := setClient_eq_some hs
      unfold TcpClient.State.receiveFails at hfails
      split at hfails
      next =>
        obtain rfl := Option.some.inj hfails
        exact .leaves
      next => cases hfails
  | receive heartbeat _buffer =>
      obtain ⟨client, hreceive, rfl⟩ := setClient_eq_some hs
      exact receive_progress hreceive
  | leave =>
      rw [step] at hs
      split at hs
      next =>
        obtain rfl := Option.some.inj hs
        exact .leaves
      next => cases hs
  | session a =>
      rw [step] at hs
      split at hs
      next hof =>
        split at hs
        next session hsession =>
          obtain rfl := Option.some.inj hs
          exact .session hof hsession
        next => cases hs
      next => cases hs

end Progress

end Conversation

/-! ## What the client prints -/

namespace TcpClient

/-- How many subtasks and replies there are, by where the client stands. -/
def Stands (s : State) : Pc → Prop
  | .processTask =>
      s.sent.length = s.printed.length ∧ s.replies.length = s.printed.length
  | .sendMessage _ | .readMessage _ =>
      s.sent.length = s.printed.length + 1 ∧ s.replies.length = s.printed.length
  | .processMessage _payload =>
      s.sent.length = s.printed.length + 1 ∧
        ∃ front, s.replies = front ++ [_payload] ∧ front.length = s.printed.length
  | .left =>
      s.sent.length ≤ s.printed.length + 1 ∧ s.printed.length ≤ s.replies.length

structure Inv (setup : Client.Setup) (s : State) : Prop where
  stands : Stands s s.pc
  prints : List.Forall₂ (Client.Prints setup) (s.replies.take s.printed.length) s.printed
  dataStream : s.dataStream = s.printed.flatten

variable {setup : Client.Setup} {s : State}

theorem Stands.sent_le {pc : Pc} (h : Stands s pc) : s.sent.length ≤ s.printed.length + 1 := by
  cases pc with
  | processTask => exact h.1 ▸ Nat.le_succ _
  | sendMessage | readMessage | processMessage => exact Nat.le_of_eq h.1
  | left => exact h.1

theorem Stands.printed_le {pc : Pc} (h : Stands s pc) : s.printed.length ≤ s.replies.length := by
  cases pc with
  | processTask | sendMessage | readMessage => exact Nat.le_of_eq h.2.symm
  | processMessage =>
      obtain ⟨-, front, hreplies, hlength⟩ := h
      rw [hreplies, List.length_append, ← hlength]
      exact Nat.le_add_right _ _
  | left => exact h.2

theorem Inv.initial (_header : HEADER) : Inv setup (State.initial _header) :=
  ⟨⟨rfl, rfl⟩, .nil, rfl⟩

/-- The client stands elsewhere, with nothing printed. -/
theorem Inv.move (h : Inv setup s) {pc : Pc} (hstands : Stands { s with pc } pc) :
    Inv setup { s with pc } :=
  ⟨hstands, h.prints, h.dataStream⟩

/-- It may give up wherever it stands. -/
theorem Inv.leave (h : Inv setup s) (_header : HEADER) (_response : Bytes) :
    Inv setup { s with _header, _response, pc := .left } :=
  ⟨⟨h.stands.sent_le, h.stands.printed_le⟩, h.prints, h.dataStream⟩

/-- The reply read last is printed. -/
theorem Inv.print (h : Inv setup s) {_payload text : Bytes} (hpc : s.pc = .processMessage _payload)
    (hprint : Client.Prints setup _payload text) (_header : HEADER) :
    Inv setup { s with
      _header
      _response := text
      dataStream := s.dataStream ++ text
      printed := s.printed ++ [text]
      pc := .processTask } := by
  have hstands := h.stands
  have hprints := h.prints
  rw [hpc] at hstands
  obtain ⟨hsent, front, hreplies, hfront⟩ := hstands
  have hlength : s.replies.length = s.printed.length + 1 := by
    rw [hreplies, List.length_append, List.length_singleton, hfront]
  refine ⟨⟨?_, ?_⟩, ?_, ?_⟩
  · rw [List.length_append, List.length_singleton, hsent]
  · rw [List.length_append, List.length_singleton, hlength]
  · rw [hreplies, List.take_append_of_le_length (Nat.le_of_eq hfront.symm), ← hfront,
      List.take_length] at hprints
    rw [List.length_append, List.length_singleton, ← hlength, List.take_length, hreplies]
    exact List.rel_append hprints (.cons hprint .nil)
  · rw [List.flatten_append, List.flatten_singleton, h.dataStream]

/-- One step of a conversation. -/
theorem Inv.step {setup : Conversation.Setup} {s s' : Conversation.State}
    (h : Inv setup.client s.client) {a : Conversation.Action}
    (hs : Conversation.Progress setup s a s') : Inv setup.client s'.client := by
  have hstands := h.stands
  cases hs with
  | sends hpc =>
      rw [hpc] at hstands
      refine ⟨⟨?_, hstands.2⟩, h.prints, h.dataStream⟩
      rw [List.length_append, List.length_singleton, hstands.1]
  | writes hpc hpos hle heq =>
      rw [hpc] at hstands
      refine h.move ?_
      rw [heq]
      split
      next => exact hstands
      next => exact hstands
  | goesOn hpc | reads hpc =>
      rw [hpc] at hstands
      exact h.move hstands
  | hasRead hpc =>
      rw [hpc] at hstands
      refine ⟨⟨hstands.1, s.client.replies, rfl, hstands.2⟩, ?_, h.dataStream⟩
      rw [List.take_append_of_le_length (Nat.le_of_eq hstands.2.symm)]
      exact h.prints
  | hasReadMore => exact h.leave s.client._header s.client._response
  | leaves => exact h.leave _ _
  | prints hpc hprints => exact h.print hpc hprints _
  | session => exact h

end TcpClient

/-! ## The dialogue of a client and its session -/

namespace Conversation

open TcpSession (Handler Op carriers)

section Runs

variable (setup : Setup) (engine : HEADER → Bytes → Bytes → Prop)

/-- No message has the terminator in it, and a socket with nothing in it takes the
header of a reply at once. -/
def Allowed : Action → State → Prop
  | .send subtask, _ => ¬ ENDOFMESSAGE <:+: Subtask.message subtask
  | .session (.handle input), s =>
      TcpSession.Controlled setup.session engine (.handle input) s.session ∧
      ∀ header payload loop, s.session.loop.next = some (.write header payload, loop) →
        ¬ ENDOFMESSAGE <:+: Session.message (header, payload) ∧
        (s.session.socket.outgoing = [] → HEADER_SIZE ≤ input.taken)
  | _, _ => True

variable {setup engine} in
theorem Allowed.mono {engine' : HEADER → Bytes → Bytes → Prop}
    (h : ∀ {header request response}, engine header request response →
      engine' header request response) {a : Action} {s : State} (ha : Allowed setup engine a s) :
    Allowed setup engine' a s := by
  cases a with
  | session a =>
      cases a with
      | handle input =>
          exact ⟨fun transferred loop _buffer header request _responseData hnext hread hresponse =>
            h (ha.1 transferred loop _buffer header request _responseData hnext hread hresponse),
            ha.2⟩
      | arrive | depart | run | read | readFails | write | writeFails | expire | stop | finish =>
          exact ha
  | send | write | sendFails | read | receiveFails | receive | leave => exact ha

/-- The states of a client behind `receiveStatus` and of its session. -/
abbrev Reached (_header : HEADER) (started : Bool) (_status : STATUS) : State → Prop :=
  Runs.Reached (step setup) (Allowed setup engine) (State.initial _header started _status)

end Runs

/-- A client whose write failed reads with its message half written. -/
def ClientAt (stage : Dialogue.Stage UInt8) : TcpClient.Pc → Prop
  | .processTask | .processMessage _ => stage = .holds
  | .sendMessage rest => stage = .writes rest
  | .readMessage _payload =>
      stage = .reads _payload ∨ _payload = [] ∧ ∃ rest, stage = .writes rest
  | .left => True

def SessionAt (s : TcpSession.State) (stage : Dialogue.Stage UInt8) : List (Handler ⊕ Op) → Prop
  | [.inl .readRequest] | [.inl (.writeCompleted false)] => stage = .reads []
  | [.inr .read] => stage = .reads s._request
  | [.inl (.readCompleted false _)] | [.inl .sendReply] | [.inl (.write _ _)] => stage = .holds
  | [.inr .write] => stage = .unwritten s.unwritten
  | _ => True

/-- The client asks and the session answers. -/
structure Follows (s : State) (d : Dialogue.State UInt8) : Prop where
  client : ClientAt (d.stage .asks) s.client.pc
  session : SessionAt s.session (d.stage .answers) (carriers s.session.loop)
  incoming : s.session.socket.incoming = d.stream .asks
  outgoing : s.session.socket.outgoing = d.stream .answers
  sent : s.client.sent.map Subtask.message = d.sent .asks
  replies : s.session.replies.map Session.message = d.sent .answers
  requests : s.session.requests = (d.received .answers).map (· ++ ENDOFMESSAGE)
  received : s.client.replies = d.received .asks

variable {setup : Setup} {engine : HEADER → Bytes → Bytes → Prop} {s s' : State}
  {d : Dialogue.State UInt8}

theorem Follows.initial (_header : HEADER) (started : Bool) (_status : STATUS) :
    Follows (.initial _header started _status) Dialogue.State.initial where
  client := rfl
  session := by
    cases started with
    | true => exact rfl
    | false => trivial
  incoming := rfl
  outgoing := rfl
  sent := rfl
  replies := rfl
  requests := rfl
  received := rfl

/-- The dialogue goes on with the conversation. -/
def Goes (d : Dialogue.State UInt8) (s' : State) : Prop :=
  ∃ d', Relation.ReflTransGen (Dialogue.Step ENDOFMESSAGE) d d' ∧ Follows s' d'

/-! ### One step -/

section Steps

variable (h : Follows s d) (hinv : Dialogue.Inv ENDOFMESSAGE d)
include h

/-- Nothing is sent and nothing received. -/
theorem Follows.stays {client : TcpClient.State} (hpc : ClientAt (d.stage .asks) client.pc)
    (hsent : client.sent = s.client.sent) (hreplies : client.replies = s.client.replies) :
    Goes d { s with client } :=
  ⟨d, .refl, ⟨hpc, h.session, h.incoming, h.outgoing, hsent ▸ h.sent, h.replies, h.requests,
    hreplies ▸ h.received⟩⟩

theorem Follows.sends {subtask : Subtask} (hpc : s.client.pc = .processTask)
    (hallowed : ¬ ENDOFMESSAGE <:+: Subtask.message subtask) :
    Goes d { s with client := { s.client with
      pc := .sendMessage (Subtask.message subtask ++ ENDOFMESSAGE)
      sent := s.client.sent ++ [subtask] } } := by
  have hclient := h.client
  rw [hpc] at hclient
  refine ⟨_, .single (.sends hclient hallowed), ?_, h.session, h.incoming, h.outgoing, ?_,
    h.replies, h.requests, h.received⟩
  · exact Dialogue.State.setStage_self ..
  · rw [Dialogue.State.setStage_sent, Dialogue.State.send_self, ← h.sent, List.map_append]
    rfl

theorem Follows.writes {n : Nat} {rest : Bytes} (hpc : s.client.pc = .sendMessage rest) :
    Goes d {
      client := { s.client with
        pc := if rest.drop n = [] then .readMessage [] else .sendMessage (rest.drop n) }
      session := { s.session with socket := { s.session.socket with
        incoming := s.session.socket.incoming ++ rest.take n } } } := by
  have hclient := h.client
  rw [hpc] at hclient
  have hwrites : d.stage .asks = .writes (rest.take n ++ rest.drop n) := by
    rw [List.take_append_drop]
    exact hclient
  refine ⟨_, .single (.writes hwrites), ?_, h.session, ?_, h.outgoing, h.sent, h.replies,
    h.requests, h.received⟩
  · rw [Dialogue.State.setStage_self]
    cases rest.drop n with
    | nil => exact .inl rfl
    | cons b rest => exact rfl
  · rw [Dialogue.State.setStage_stream, Dialogue.State.setStream_self, ← h.incoming]

include hinv in
/-- Nothing comes while the message is half written. -/
theorem Follows.stage_of_read {n : Nat} {_payload : Bytes}
    (hpc : s.client.pc = .readMessage _payload) (hpos : 0 < n)
    (hle : n ≤ s.session.socket.outgoing.length) :
    d.stage .asks = .reads _payload ∧ d.stream Dialogue.Side.asks.peer =
      s.session.socket.outgoing.take n ++ s.session.socket.outgoing.drop n := by
  have hclient := h.client
  rw [hpc] at hclient
  refine ⟨?_, by rw [List.take_append_drop]; exact h.outgoing.symm⟩
  rcases hclient with hreads | ⟨-, rest, hwrites⟩
  · exact hreads
  · have hnil : d.stream .answers = [] :=
      @Dialogue.Inv.quiet _ _ _ .asks hinv fun payload hreads => by
        rw [hwrites] at hreads
        cases hreads
    rw [h.outgoing, hnil, List.length_nil] at hle
    omega

include hinv in
theorem Follows.reads {n : Nat} {_payload : Bytes} (hpc : s.client.pc = .readMessage _payload)
    (hpos : 0 < n) (hle : n ≤ s.session.socket.outgoing.length)
    (hfound : Tcp.found (_payload ++ s.session.socket.outgoing.take n) = false) :
    Goes d {
      client := { s.client with
        pc := .readMessage (_payload ++ s.session.socket.outgoing.take n) }
      session := { s.session with socket := { s.session.socket with
        outgoing := s.session.socket.outgoing.drop n } } } := by
  obtain ⟨hreads, hstream⟩ := h.stage_of_read hinv hpc hpos hle
  have hnot : ¬ ENDOFMESSAGE <:+: _payload ++ s.session.socket.outgoing.take n := by
    rw [← Tcp.found_iff, hfound]
    exact Bool.false_ne_true
  refine ⟨_, .single (.reads hreads hstream hnot), ?_, h.session, h.incoming, ?_, h.sent,
    h.replies, h.requests, h.received⟩
  · exact .inl (Dialogue.State.setStage_self ..)
  · rw [Dialogue.State.setStage_stream]
    exact (Dialogue.State.setStream_self ..).symm

include hinv in
theorem Follows.hasRead {n : Nat} {_payload message : Bytes}
    (hpc : s.client.pc = .readMessage _payload) (hpos : 0 < n)
    (hle : n ≤ s.session.socket.outgoing.length)
    (hmessage : _payload ++ s.session.socket.outgoing.take n = message ++ ENDOFMESSAGE) :
    Goes d {
      client := { s.client with
        pc := .processMessage message
        replies := s.client.replies ++ [message] }
      session := { s.session with socket := { s.session.socket with
        outgoing := s.session.socket.outgoing.drop n } } } := by
  obtain ⟨hreads, hstream⟩ := h.stage_of_read hinv hpc hpos hle
  refine ⟨_, .single (.receives hreads hstream hmessage), ?_, h.session, h.incoming, ?_, h.sent,
    h.replies, h.requests, ?_⟩
  · exact Dialogue.State.setStage_self ..
  · rw [Dialogue.State.setStage_stream, Dialogue.State.receive_stream]
    exact (Dialogue.State.setStream_self ..).symm
  · rw [Dialogue.State.setStage_received, Dialogue.State.receive_self,
      Dialogue.State.setStream_received, ← h.received]

include hinv in
/-- What the client has read ends where the reply ends. -/
theorem Follows.suffix_of_found {n : Nat} {_payload : Bytes}
    (hpc : s.client.pc = .readMessage _payload) (hpos : 0 < n)
    (hle : n ≤ s.session.socket.outgoing.length)
    (hfound : Tcp.found (_payload ++ s.session.socket.outgoing.take n) = true) :
    ENDOFMESSAGE <:+ _payload ++ s.session.socket.outgoing.take n := by
  obtain ⟨hreads, hstream⟩ := h.stage_of_read hinv hpc hpos hle
  obtain ⟨message, hmessage, -⟩ := hinv.whole ENDOFMESSAGE_unbordered ENDOFMESSAGE_ne_nil hreads
    hstream (Tcp.found_iff.mp hfound)
  exact ⟨message, hmessage.symm⟩

/-- What the session does by itself.  Only the loop, and strings the dialogue does
not see, are changed. -/
theorem Follows.carries {session : TcpSession.State}
    (hsession : SessionAt session (d.stage .answers) (carriers session.loop))
    (hsocket : session.socket = s.session.socket) (hrequests : session.requests = s.session.requests)
    (hreplies : session.replies = s.session.replies) : Goes d { s with session } :=
  ⟨d, .refl, ⟨h.client, hsession, hsocket ▸ h.incoming, hsocket ▸ h.outgoing, h.sent,
    hreplies ▸ h.replies, hrequests ▸ h.requests, h.received⟩⟩

/-- The session writes some of what is left of a reply. -/
theorem Follows.hands {loop : TcpSession.Events}
    (hat : d.stage .answers = .unwritten s.session.unwritten) (n : Nat)
    (hcarriers : ∀ session, session.unwritten = s.session.unwritten.drop n →
      SessionAt session (.unwritten (s.session.unwritten.drop n)) (carriers loop)) :
    Goes d { s with session := { s.session with
      loop
      unwritten := s.session.unwritten.drop n
      socket := { s.session.socket with
        outgoing := s.session.socket.outgoing ++ s.session.unwritten.take n } } } := by
  obtain ⟨d', hsteps, hstage, hstream, hpeer, hother, hsent, hreceived⟩ :=
    Dialogue.exists_writes ENDOFMESSAGE n hat
  refine ⟨d', hsteps, ?_, ?_, ?_, ?_, ?_, ?_, ?_, ?_⟩
  · rw [show d'.stage .asks = d.stage .asks from hpeer]
    exact h.client
  · rw [hstage]
    exact hcarriers _ rfl
  · exact h.incoming.trans hother.symm
  · rw [hstream, ← h.outgoing]
  · exact h.sent.trans (congrFun hsent.symm _)
  · exact h.replies.trans (congrFun hsent.symm _)
  · rw [hreceived]
    exact h.requests
  · exact h.received.trans (congrFun hreceived.symm _)

/-- What the session reads of the request. -/
theorem Follows.stream_asks (n : Nat) : d.stream Dialogue.Side.answers.peer =
    s.session.socket.incoming.take n ++ s.session.socket.incoming.drop n := by
  rw [List.take_append_drop]
  exact h.incoming.symm

theorem Follows.session_reads {n : Nat} (hcarriers : carriers s.session.loop = [.inr .read])
    (hfind : Text.find ENDOFMESSAGE (s.session._request ++ s.session.socket.incoming.take n) =
      none) :
    Goes d { s with session := { s.session with
      _request := s.session._request ++ s.session.socket.incoming.take n
      socket := { s.session.socket with incoming := s.session.socket.incoming.drop n } } } := by
  have hat := h.session
  rw [hcarriers] at hat
  have hnot : ¬ ENDOFMESSAGE <:+: s.session._request ++ s.session.socket.incoming.take n :=
    Text.find_eq_none_iff.mp hfind
  refine ⟨_, .single (.reads hat (h.stream_asks n) hnot), h.client, ?_, ?_, h.outgoing, h.sent,
    h.replies, h.requests, h.received⟩
  · show SessionAt _ _ (carriers s.session.loop)
    rw [hcarriers]
    exact Dialogue.State.setStage_self ..
  · rw [Dialogue.State.setStage_stream]
    exact (Dialogue.State.setStream_self ..).symm

include hinv in
theorem Follows.session_hasRead {n pos : Nat} {loop : TcpSession.Events}
    (hcarriers : carriers s.session.loop = [.inr .read])
    (hfind : Text.find ENDOFMESSAGE (s.session._request ++ s.session.socket.incoming.take n) =
      some pos)
    (hcarriers' : carriers loop = [.inl (.readCompleted false (pos + ENDOFMESSAGESZ))]) :
    Goes d { s with session := { s.session with
      loop
      _request := s.session._request ++ s.session.socket.incoming.take n
      socket := { s.session.socket with incoming := s.session.socket.incoming.drop n }
      requests := s.session.requests ++
        [s.session._request ++ s.session.socket.incoming.take n] } } := by
  have hat := h.session
  rw [hcarriers] at hat
  have hfound : ENDOFMESSAGE <:+: s.session._request ++ s.session.socket.incoming.take n :=
    Text.find_isSome_iff.mp (by rw [hfind]; rfl)
  obtain ⟨message, hmessage, -, -⟩ := hinv.whole ENDOFMESSAGE_unbordered ENDOFMESSAGE_ne_nil
    hat (h.stream_asks n) hfound
  refine ⟨_, .single (.receives hat (h.stream_asks n) hmessage), h.client, ?_, ?_, h.outgoing,
    h.sent, h.replies, ?_, h.received⟩
  · rw [hcarriers']
    exact Dialogue.State.setStage_self ..
  · rw [Dialogue.State.setStage_stream, Dialogue.State.receive_stream]
    exact (Dialogue.State.setStream_self ..).symm
  · rw [Dialogue.State.setStage_received, Dialogue.State.receive_self,
      Dialogue.State.setStream_received, List.map_append, ← h.requests, hmessage]
    rfl

include hinv in
/-- The session has the turn, so nothing stands in the socket in front of a reply. -/
theorem Follows.session_writes {input : TcpSession.Input} {header : HEADER} {payload : Bytes}
    {loop taken : TcpSession.Events} (hallowed : Allowed setup engine (.session (.handle input)) s)
    (hcarriers : carriers s.session.loop = [.inl (.write header payload)])
    (hnext : s.session.loop.next = some (.write header payload, taken))
    (hcarriers' : carriers loop = [.inr .write]) :
    Goes d { s with session := { s.session with
      loop
      socket := { s.session.socket with
        outgoing := s.session.socket.outgoing ++
          (ClientServer.sendMessage header payload [] [] []).take input.taken }
      unwritten := (input.stack.val ++ payload ++ ENDOFMESSAGE).drop input.taken
      replies := s.session.replies ++ [(header, payload)] } } := by
  have hat := h.session
  rw [hcarriers] at hat
  obtain ⟨hclean, htaken⟩ := hallowed.2 header payload taken hnext
  have hnil : s.session.socket.outgoing = [] :=
    h.outgoing.trans ((hinv.turn hat).stream .answers)
  have hwrites : ((d.send .answers (Session.message (header, payload))).setStage .answers
      (.writes (Session.message (header, payload) ++ ENDOFMESSAGE))).stage .answers =
        .writes ((ClientServer.sendMessage header payload [] [] []).take input.taken ++
          (input.stack.val ++ payload ++ ENDOFMESSAGE).drop input.taken) := by
    rw [Dialogue.State.setStage_self,
      TcpSession.taken_append_unwritten header payload (htaken hnil) input.stack.property]
  refine ⟨_, .head (.sends hat hclean) (.single (.writes hwrites)), h.client, ?_, h.incoming, ?_,
    h.sent, ?_, h.requests, h.received⟩
  · rw [hcarriers']
    exact Dialogue.State.setStage_self ..
  · rw [Dialogue.State.setStage_stream, Dialogue.State.setStream_self,
      Dialogue.State.setStage_stream, Dialogue.State.send_stream, ← h.outgoing]
  · rw [Dialogue.State.setStage_sent, Dialogue.State.setStream_sent,
      Dialogue.State.setStage_sent, Dialogue.State.send_self, ← h.replies, List.map_append]
    rfl

include hinv in
theorem Follows.session_step (hsession : TcpSession.Inv setup.session engine s.session)
    {a : TcpSession.Action} (hof : ofSession a = true)
    (hallowed : Allowed setup engine (.session a) s) {session : TcpSession.State}
    (hprogress : TcpSession.Progress setup.session s.session a session) :
    Goes d { s with session } := by
  have hat := h.session
  have hstands := hsession.stands
  cases hprogress with
  | arrives | departs => cases hof
  | runs | returns => exact h.carries hat rfl rfl rfl
  | beside hbeside => exact h.carries (hbeside.carriers ▸ hat) rfl rfl rfl
  | startsRead hcarriers hcarriers' =>
      rw [hcarriers] at hat hstands
      refine h.carries ?_ rfl rfl rfl
      rw [hcarriers']
      show _ = Dialogue.Stage.reads s.session._request
      rw [hstands.1]
      exact hat
  | readFails hcarriers hcarriers' | writeFails hcarriers hcarriers' =>
      refine h.carries ?_ rfl rfl rfl
      rw [hcarriers']
      trivial
  | reads hcarriers hlength hfind => exact h.session_reads hcarriers hfind
  | hasRead hcarriers hlength hfind hcarriers' =>
      exact h.session_hasRead hinv hcarriers hfind hcarriers'
  | responds hcarriers hnext hread hresponse hcarriers'
  | replies hcarriers hreply hpayload hcarriers' | again hcarriers hcarriers' =>
      rw [hcarriers] at hat
      refine h.carries ?_ rfl rfl rfl
      rw [hcarriers']
      exact hat
  | writes hcarriers hnext hcarriers' =>
      exact h.session_writes hinv hallowed hcarriers hnext hcarriers'
  | @hands n hcarriers hlength hne =>
      rw [hcarriers] at hat
      refine h.hands hat n fun session hunwritten => ?_
      rw [hcarriers, ← hunwritten]
      rfl
  | @wrote n loop hcarriers hlength hnil hcarriers' =>
      rw [hcarriers] at hat
      refine h.hands hat n fun session hunwritten => ?_
      rw [hcarriers', hnil]
      rfl
  | timesOut hcarriers hover | ends hcarriers hne hover =>
      refine h.carries ?_ rfl rfl rfl
      rw [hover.1]
      trivial

include hinv in
/-- A step of the conversation is a step of the dialogue or none. -/
theorem Follows.step (hsession : TcpSession.Inv setup.session engine s.session) {a : Action}
    (hallowed : Allowed setup engine a s) (hs : Progress setup s a s') : Goes d s' := by
  cases hs with
  | sends hpc => exact h.sends hpc hallowed
  | writes hpc hpos hle heq => exact heq ▸ h.writes hpc
  | @goesOn rest hpc =>
      have hclient := h.client
      rw [hpc] at hclient
      exact h.stays (.inr ⟨rfl, rest, hclient⟩) rfl rfl
  | reads hpc hpos hle hfound => exact h.reads hinv hpc hpos hle hfound
  | hasRead hpc hpos hle hmessage => exact h.hasRead hinv hpc hpos hle hmessage
  | hasReadMore hpc hpos hle hfound hsuffix =>
      exact absurd (h.suffix_of_found hinv hpc hpos hle hfound) hsuffix
  | prints hpc =>
      have hclient := h.client
      rw [hpc] at hclient
      exact h.stays hclient rfl rfl
  | leaves => exact h.stays trivial rfl rfl
  | session hof hstep =>
      exact h.session_step hinv hsession hof hallowed
        (TcpSession.step_progress hsession.placed hstep)

end Steps

/-! ## All conversations -/

/-- What holds of the client, of the session and of both. -/
structure Inv (setup : Setup) (engine : HEADER → Bytes → Bytes → Prop) (s : State) : Prop where
  client : TcpClient.Inv setup.client s.client
  session : TcpSession.Inv setup.session engine s.session
  dialogue : ∃ d, Dialogue.Reachable ENDOFMESSAGE d ∧ Follows s d

theorem Inv.initial (_header : HEADER) (started : Bool) {_status : STATUS}
    (hstatus : Session.Calculated _status) :
    Inv setup engine (.initial _header started _status) :=
  ⟨.initial _header, .initial started hstatus _, _, .refl, .initial _header started _status⟩

/-- What the client does to the socket is to the session what comes and goes. -/
theorem session_of_socket (h : TcpSession.Inv setup.session engine s.session)
    {socket : TcpSession.Socket} : TcpSession.Inv setup.session engine { s.session with socket } :=
  h.mono h.placed rfl id rfl rfl rfl rfl rfl rfl

theorem controlled_of_allowed {a : TcpSession.Action}
    (hallowed : Allowed setup engine (.session a) s) :
    TcpSession.Controlled setup.session engine a s.session := by
  cases a with
  | handle input => exact hallowed.1
  | arrive | depart | run | read | readFails | write | writeFails | expire | stop | finish =>
      trivial

theorem Inv.step (h : Inv setup engine s) {a : Action} (hallowed : Allowed setup engine a s)
    (hs : step setup a s = some s') : Inv setup engine s' := by
  have hprogress := step_progress hs
  refine ⟨h.client.step hprogress, ?_, ?_⟩
  · cases hprogress with
    | sends | goesOn | prints | leaves => exact h.session
    | writes | reads | hasRead | hasReadMore => exact session_of_socket h.session
    | session hof hstep => exact h.session.step (controlled_of_allowed hallowed) hstep
  · obtain ⟨d, hreachable, hfollows⟩ := h.dialogue
    have hinv := hreachable.inv ENDOFMESSAGE_unbordered ENDOFMESSAGE_ne_nil
    obtain ⟨d', hsteps, hfollows'⟩ := hfollows.step hinv h.session hallowed hprogress
    exact ⟨d', hreachable.trans hsteps, hfollows'⟩

theorem Reached.inv {_header : HEADER} {started : Bool} {_status : STATUS}
    (hstatus : Session.Calculated _status)
    (hs : Reached setup engine _header started _status s) : Inv setup engine s :=
  Runs.Reached.invariant (.initial _header started hstatus) (fun h ha hstep => h.step ha hstep) hs

/-- Whatever is sent may be sent. -/
theorem Reached.clean {_header : HEADER} {started : Bool} {_status : STATUS}
    (hs : Reached setup engine _header started _status s) :
    ∀ subtask ∈ s.client.sent, ¬ ENDOFMESSAGE <:+: Subtask.message subtask := by
  refine Runs.Reached.invariant
    (P := fun s => ∀ subtask ∈ s.client.sent, ¬ ENDOFMESSAGE <:+: Subtask.message subtask)
    (fun subtask hmem => by cases hmem) (fun {a s s'} h hallowed hstep => ?_) hs
  cases step_progress hstep with
  | sends => exact List.forall_mem_append.mpr ⟨h, List.forall_mem_singleton.mpr hallowed⟩
  | writes | goesOn | reads | hasRead | hasReadMore | prints | leaves | session => exact h

/-- A reply for every subtask, and for the last one at most none yet. -/
structure OneForOne (setup : Setup) (engine : HEADER → Bytes → Bytes → Prop) (s : State) :
    Prop where
  /-- The reply of each number answers the subtask of that number. -/
  answers : List.Forall₂ (fun subtask reply => TcpSession.Answers setup.session engine
    (Subtask.message subtask ++ ENDOFMESSAGE) reply)
    (s.client.sent.take s.session.replies.length) s.session.replies
  /-- The text of each number is what the client makes of the reply of that number. -/
  prints : List.Forall₂ (fun reply text => Client.Prints setup.client (Session.message reply) text)
    (s.session.replies.take s.client.printed.length) s.client.printed
  dataStream : s.client.dataStream = s.client.printed.flatten
  requests : s.session.requests <+:
    s.client.sent.map fun subtask => Subtask.message subtask ++ ENDOFMESSAGE
  replies : s.client.replies <+: s.session.replies.map Session.message
  printed : s.client.printed.length ≤ s.client.replies.length
  read : s.client.replies.length ≤ s.session.replies.length
  answered : s.session.replies.length ≤ s.session.requests.length
  asked : s.session.requests.length ≤ s.client.sent.length
  sent : s.client.sent.length ≤ s.client.printed.length + 1

theorem Inv.requests (h : Inv setup engine s) : s.session.requests <+:
    s.client.sent.map fun subtask => Subtask.message subtask ++ ENDOFMESSAGE := by
  obtain ⟨d, hreachable, hfollows⟩ := h.dialogue
  have hinv := hreachable.inv ENDOFMESSAGE_unbordered ENDOFMESSAGE_ne_nil
  have hprefix := hinv.oneByOne.inOrder .answers
  rw [Dialogue.Side.peer, ← hfollows.sent] at hprefix
  have hmap : (s.client.sent.map fun subtask => Subtask.message subtask ++ ENDOFMESSAGE) =
      (s.client.sent.map Subtask.message).map (· ++ ENDOFMESSAGE) := by
    rw [List.map_map]
    rfl
  rw [hfollows.requests, hmap]
  exact hprefix.map _

theorem Inv.replies (h : Inv setup engine s) :
    s.client.replies <+: s.session.replies.map Session.message := by
  obtain ⟨d, hreachable, hfollows⟩ := h.dialogue
  have hinv := hreachable.inv ENDOFMESSAGE_unbordered ENDOFMESSAGE_ne_nil
  rw [hfollows.received, hfollows.replies]
  exact hinv.oneByOne.inOrder .asks

theorem Inv.answered (h : Inv setup engine s) :
    s.session.replies.length ≤ s.session.requests.length := by
  obtain ⟨d, hreachable, hfollows⟩ := h.dialogue
  have hinv := hreachable.inv ENDOFMESSAGE_unbordered ENDOFMESSAGE_ne_nil
  have hanswers := hinv.oneByOne.answers
  rw [← hfollows.replies, List.length_map] at hanswers
  rw [hfollows.requests, List.length_map]
  exact hanswers

theorem Inv.answers (h : Inv setup engine s) :
    List.Forall₂ (fun subtask reply => TcpSession.Answers setup.session engine
      (Subtask.message subtask ++ ENDOFMESSAGE) reply)
      (s.client.sent.take s.session.replies.length) s.session.replies := by
  have hanswers := Dialogue.forall₂_of_prefix h.requests h.session.answers.1
  rwa [← List.map_take, List.forall₂_map_left_iff] at hanswers

theorem Inv.prints (h : Inv setup engine s) :
    List.Forall₂ (fun reply text => Client.Prints setup.client (Session.message reply) text)
      (s.session.replies.take s.client.printed.length) s.client.printed :=
  Dialogue.forall₂_of_received h.replies h.client.prints

/-- Whatever fails, and however the bytes come in pieces: what the client prints are
the answers to its subtasks, one for each, in their order. -/
theorem conversation_oneForOne {_header : HEADER} {started : Bool} {_status : STATUS}
    (hstatus : Session.Calculated _status)
    (hs : Reached setup engine _header started _status s) : OneForOne setup engine s := by
  have h := hs.inv hstatus
  have hread := h.replies.length_le
  have hasked := h.requests.length_le
  rw [List.length_map] at hread hasked
  exact ⟨h.answers, h.prints, h.client.dataStream, h.requests, h.replies,
    h.client.stands.printed_le, hread, h.answered, hasked, h.client.stands.sent_le⟩

/-! ### One exchange -/

namespace OneExchange

open OneReply TcpSession.OneExchange

def ends : Setup := ⟨client, session⟩

def allowed : Action → State → Bool
  | .send subtask, _ => !Tcp.found (Subtask.message subtask)
  | .session (.handle input), s =>
      controlled (.handle input) s.session &&
        match s.session.loop.next with
        | some (.write header payload, _) =>
            !Tcp.found (Session.message (header, payload)) && HEADER_SIZE ≤ input.taken
        | _ => true
  | _, _ => true

theorem allowed_of (a : Action) (s : State) (h : allowed a s = true) :
    Allowed ends oneReply a s := by
  cases a with
  | send subtask =>
      intro hinfix
      simp [allowed, Tcp.found_iff.mpr hinfix] at h
  | session a =>
      cases a with
      | handle input =>
          rw [allowed, Bool.and_eq_true] at h
          refine ⟨controlled_of _ _ h.1, fun header payload loop hnext => ?_⟩
          have hwrite := h.2
          simp only [hnext, Bool.and_eq_true, Bool.not_eq_true', decide_eq_true_eq] at hwrite
          refine ⟨fun hinfix => ?_, fun _ => hwrite.2⟩
          simp [Tcp.found_iff.mpr hinfix] at hwrite
      | arrive | depart | run | read | readFails | write | writeFails | expire | stop | finish =>
          trivial
  | write | sendFails | read | receiveFails | receive | leave => trivial

/-- The request and the reply go in two pieces each. -/
def actions : List Action :=
  [.send subtask, .write 7, .session .run, .session (.handle input), .session (.handle input),
   .session (.read 7), .write ((request ++ ENDOFMESSAGE).length - 7),
   .session (.read ((request ++ ENDOFMESSAGE).length - 7)), .session (.handle input),
   .session (.handle input), .session (.handle input), .read HEADER_SIZE,
   .session (.write (HEADER_SIZE + reply.length + ENDOFMESSAGESZ)),
   .read (HEADER_SIZE + reply.length + ENDOFMESSAGESZ), .receive none []]

theorem exists_run : ∃ s, Reached ends oneReply default true .NONE s ∧
    (s.client.sent, s.client.printed, s.session.replies.map Prod.snd) =
      ([subtask], [reply], [serialize (payloadHeader reply.length) ++ reply]) :=
  Runs.exists_reached_of_check allowed_of actions (by decide +kernel)

end OneExchange

theorem conversation_oneForOne_oneExchange :
    ∃ s, s.client.printed = [OneReply.reply] ∧
      OneForOne OneExchange.ends OneReply.oneReply s := by
  obtain ⟨s, hs, hrun⟩ := OneExchange.exists_run
  exact ⟨s, congrArg (fun run => run.2.1) hrun, conversation_oneForOne (.inl rfl) hs⟩

end Conversation

end ClientServer
