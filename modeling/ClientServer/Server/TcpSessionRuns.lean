import ClientServer.Server.TcpSessionSteps
import Mathlib.Data.List.Forall2

/-!
# One thing at a time

Whatever the network, the timer and the other threads do, a TCP session has one
handler posted or one operation under way, or it is over: `Stands` says what holds
there.  Requests and replies alternate, each reply is built from the request in
front of it, and a wait for the timer is pending at most from `sendReply` to the
end of the write.

So no read is ever timed out, a write that took too long is noticed when it is
done, and a session that is over returns from `run` without waiting for anything.
-/

namespace ClientServer.TcpSession

open EventLoop cryptooperations

/-! ## Requests and replies -/

section Replies

variable (setup : SessionSetup) (engine : HEADER → Bytes → Bytes → Prop)

/-- What a session read decrypts to a request, and the engine has a response to
that. -/
def Responds (raw _responseData : Bytes) : Prop :=
  ∃ pos _buffer _header _buffer' header request,
    Text.find ENDOFMESSAGE raw = some pos ∧
    TcpSession.readRequest setup.lib setup.terminal setup.options.toDecryptionOptions _buffer
      _header raw (pos + ENDOFMESSAGESZ) = .ok (_buffer', header, request) ∧
    engine header request _responseData

/-- The reply is built from a response to what the session read. -/
def Answers (raw : Bytes) (reply : HEADER × Bytes) : Prop :=
  ∃ _responseData drawn work, Responds setup engine raw _responseData ∧
    Session.buildReply setup drawn work _responseData .NONE = .ok reply ∧ reply.2 ≠ []

/-- The controller leaves a response of the engine. -/
def Controlled : Action → State → Prop
  | .handle input, s => ∀ transferred loop _buffer header request _responseData,
      s.loop.next = some (.readCompleted false transferred, loop) →
      TcpSession.readRequest setup.lib setup.terminal setup.options.toDecryptionOptions
        input.work.buffer.bytes s._header s._request transferred = .ok (_buffer, header, request) →
      input.response = some _responseData → engine header request _responseData
  | _, _ => True

/-- The states of a session from its construction on. -/
abbrev Reached (started : Bool) (_status : STATUS) (socket : Socket) : State → Prop :=
  Runs.Reached (step setup) (Controlled setup engine) (State.initial started _status socket)

end Replies

/-! ## Where a session stands -/

section Stands

variable (setup : SessionSetup) (engine : HEADER → Bytes → Bytes → Prop)

/-- Every string read has its reply. -/
def Balanced (s : State) : Prop := List.Forall₂ (Answers setup engine) s.requests s.replies

/-- The last string read has none yet. -/
def Ahead (s : State) (raw : Bytes) : Prop :=
  ∃ front, s.requests = front ++ [raw] ∧ List.Forall₂ (Answers setup engine) front s.replies

/-- What holds of the strings where the session is carried on so. -/
def Stands (s : State) : List (Handler ⊕ Op) → Prop
  | [.inl .readRequest] => s._request = [] ∧ Balanced setup engine s
  | [.inr .read] => Text.find ENDOFMESSAGE s._request = none ∧ Balanced setup engine s
  | [.inl (.readCompleted false transferred)] => Ahead setup engine s s._request ∧
      ∃ pos, Text.find ENDOFMESSAGE s._request = some pos ∧ transferred = pos + ENDOFMESSAGESZ
  | [.inl .sendReply] =>
      ∃ raw, Ahead setup engine s raw ∧ Responds setup engine raw s._responseData
  | [.inl (.write header payload)] =>
      ∃ raw, Ahead setup engine s raw ∧ Answers setup engine raw (header, payload)
  | [.inr .write] | [.inl (.writeCompleted true)] => Balanced setup engine s
  | [.inl (.writeCompleted false)] => s.unwritten = [] ∧ Balanced setup engine s
  | _ => Balanced setup engine s ∨ ∃ raw, Ahead setup engine s raw

/-- The status is one that `calculateStatus` gives, or `NONE`, or that of a reply
that was written too late. -/
inductive Status (s : State) : Prop where
  | queued : s.pc = .queued → s._status = .MAX_OBJECTS_OF_TYPE ∨ s._status = .MAX_TOTAL_OBJECTS →
      Status s
  | none : s._status = .NONE → Status s
  | timeout : s._status = .TCP_TIMEOUT → carriers s.loop = [] → s.unwritten = [] →
      Balanced setup engine s → Status s

structure Inv (s : State) : Prop where
  placed : Placed s.loop (carriers s.loop)
  stands : Stands setup engine s (carriers s.loop)
  status : Status setup engine s

end Stands

variable {setup : SessionSetup} {engine : HEADER → Bytes → Bytes → Prop} {s s' : State}

/-- The string read last has a reply or not. -/
theorem Stands.balanced_or_ahead {strand : List (Handler ⊕ Op)}
    (h : Stands setup engine s strand) :
    Balanced setup engine s ∨ ∃ raw, Ahead setup engine s raw := by
  unfold Stands at h
  split at h
  next => exact .inl h.2
  next => exact .inl h.2
  next => exact .inr ⟨_, h.1⟩
  next =>
    obtain ⟨raw, hahead, -⟩ := h
    exact .inr ⟨raw, hahead⟩
  next =>
    obtain ⟨raw, hahead, -⟩ := h
    exact .inr ⟨raw, hahead⟩
  next => exact .inl h
  next => exact .inl h
  next => exact .inl h.2
  next => exact h

/-- Only the strings that are read there matter. -/
theorem Stands.congr {strand : List (Handler ⊕ Op)} (h : Stands setup engine s strand)
    (hrequests : s'.requests = s.requests) (hreplies : s'.replies = s.replies)
    (hrequest : s'._request = s._request) (hresponse : s'._responseData = s._responseData)
    (hunwritten : s'.unwritten = s.unwritten) : Stands setup engine s' strand := by
  unfold Stands Balanced Ahead at h ⊢
  rw [hrequests, hreplies, hrequest, hresponse, hunwritten]
  exact h

/-- The reply to the last string read is begun. -/
theorem Ahead.balanced {raw : Bytes} {reply : HEADER × Bytes} (h : Ahead setup engine s raw)
    (hreply : Answers setup engine raw reply) (hrequests : s'.requests = s.requests)
    (hreplies : s'.replies = s.replies ++ [reply]) : Balanced setup engine s' := by
  obtain ⟨front, hfront, hanswers⟩ := h
  rw [Balanced, hrequests, hreplies, hfront]
  exact List.rel_append hanswers (.cons hreply .nil)

/-- A session that goes on has no status to report. -/
theorem Inv.status_eq (h : Inv setup engine s) (hqueued : s.pc ≠ .queued)
    (hne : carriers s.loop ≠ []) : s._status = .NONE := by
  cases h.status with
  | queued heq _ => exact absurd heq hqueued
  | none hnone => exact hnone
  | timeout _ hnil _ _ => exact absurd hnil hne

/-! ## One step -/

/-- What leaves the carrier and the strings alone. -/
theorem Inv.mono (h : Inv setup engine s) (hplaced : Placed s'.loop (carriers s'.loop))
    (hcarriers : carriers s'.loop = carriers s.loop)
    (hpc : s.pc = .queued → s'.pc = .queued) (hstatus : s'._status = s._status)
    (hrequests : s'.requests = s.requests) (hreplies : s'.replies = s.replies)
    (hrequest : s'._request = s._request) (hresponse : s'._responseData = s._responseData)
    (hunwritten : s'.unwritten = s.unwritten) : Inv setup engine s' := by
  refine ⟨hplaced, ?_, ?_⟩
  · rw [hcarriers]
    exact h.stands.congr hrequests hreplies hrequest hresponse hunwritten
  · cases h.status with
    | queued hqueued htold => exact .queued (hpc hqueued) (by rwa [hstatus])
    | none hnone => exact .none (hstatus.trans hnone)
    | timeout htimeout hnil hwritten hbalanced =>
        refine .timeout (hstatus.trans htimeout) (hcarriers.trans hnil)
          (hunwritten.trans hwritten) ?_
        rw [Balanced, hrequests, hreplies]
        exact hbalanced

/-- A session that goes on to something else. -/
theorem Inv.next (h : Inv setup engine s) {carrier : Handler ⊕ Op}
    (hcarriers : carriers s.loop = [carrier]) (hqueued : s.pc ≠ .queued)
    (hplaced : Placed s'.loop (carriers s'.loop)) (hstatus : s'._status = s._status)
    (hstands : Stands setup engine s [carrier] → Stands setup engine s' (carriers s'.loop)) :
    Inv setup engine s' := by
  have hne : carriers s.loop ≠ [] := by simp [hcarriers]
  exact ⟨hplaced, hstands (hcarriers ▸ h.stands),
    .none (hstatus.trans (h.status_eq hqueued hne))⟩

/-- The actions of the thread inside `run`. -/
theorem pc_of_step {a : Action} (hs : step setup a s = some s') :
    s.pc = .runs ∨ a = .run ∨ (∃ chunk, a = .arrive chunk) ∨ (∃ n, a = .depart n) ∨ a = .stop := by
  cases a with
  | arrive chunk => exact .inr (.inr (.inl ⟨chunk, rfl⟩))
  | depart n => exact .inr (.inr (.inr (.inl ⟨n, rfl⟩)))
  | stop => exact .inr (.inr (.inr (.inr rfl)))
  | run => exact .inr (.inl rfl)
  | finish =>
      rw [step] at hs
      split at hs
      next hreturns => exact .inl hreturns.1
      next => cases hs
  | handle | read | readFails | write | writeFails | expire =>
      rw [step] at hs
      split at hs
      next hruns => exact .inl hruns
      next => cases hs

theorem Inv.run (h : Inv setup engine s) : Inv setup engine s.run := by
  refine ⟨h.placed, h.stands.congr rfl rfl rfl rfl rfl, ?_⟩
  cases h.status with
  | queued _ htold =>
      have hcalculated : Session.Calculated s._status := .inr htold
      exact .none hcalculated.reset
  | none hnone =>
      have hcalculated : Session.Calculated s._status := .inl hnone
      exact .none hcalculated.reset
  | timeout htimeout hnil hunwritten hbalanced =>
      have hreset : Session.resetStatus s._status = .TCP_TIMEOUT := by
        rw [htimeout]
        rfl
      exact .timeout hreset hnil hunwritten hbalanced

theorem Inv.step (h : Inv setup engine s) {a : Action} (hcontrolled : Controlled setup engine a s)
    (hs : step setup a s = some s') : Inv setup engine s' := by
  have hprogress := step_progress h.placed hs
  have hplaced := h.placed.step hprogress
  have hqueued := pc_of_step hs
  cases hprogress with
  | arrives | departs => exact h.mono hplaced rfl id rfl rfl rfl rfl rfl rfl
  | beside hbeside => exact h.mono hplaced hbeside.carriers id rfl rfl rfl rfl rfl rfl
  | runs => exact h.run
  | returns hruns =>
      refine h.mono hplaced rfl (fun heq => ?_) rfl rfl rfl rfl rfl rfl
      rw [hruns] at heq
      cases heq
  | startsRead hcarriers hcarriers' =>
      refine h.next hcarriers (by simp_all) hplaced rfl ?_
      rintro ⟨hrequest, hbalanced⟩
      show Stands _ _ _ (carriers _)
      rw [hcarriers']
      refine ⟨?_, hbalanced⟩
      show Text.find ENDOFMESSAGE s._request = none
      rw [hrequest]
      decide +kernel
  | readFails hcarriers hcarriers' =>
      refine h.next hcarriers (by simp_all) hplaced rfl fun hstands => ?_
      show Stands _ _ _ (carriers _)
      rw [hcarriers']
      exact .inl hstands.2
  | reads hcarriers hlength hfind =>
      refine h.next hcarriers (by simp_all) hplaced rfl fun hstands => ?_
      show Stands _ _ _ (carriers s.loop)
      rw [hcarriers]
      exact ⟨hfind, hstands.2⟩
  | hasRead hcarriers hlength hfind hcarriers' =>
      refine h.next hcarriers (by simp_all) hplaced rfl fun hstands => ?_
      show Stands _ _ _ (carriers _)
      rw [hcarriers']
      exact ⟨⟨s.requests, rfl, hstands.2⟩, _, hfind, rfl⟩
  | responds hcarriers hnext hread hresponse hcarriers' =>
      refine h.next hcarriers (by simp_all) hplaced rfl ?_
      rintro ⟨hahead, pos, hfind, htransferred⟩
      show Stands _ _ _ (carriers _)
      rw [hcarriers']
      refine ⟨s._request, hahead, pos, _, _, _, _, _, hfind, htransferred ▸ hread, ?_⟩
      exact hcontrolled _ _ _ _ _ _ hnext hread hresponse
  | replies hcarriers hreply hpayload hcarriers' =>
      have hruns : s.pc ≠ .queued := by simp_all
      have hnone : s._status = .NONE := h.status_eq hruns (by simp [hcarriers])
      refine h.next hcarriers hruns hplaced rfl ?_
      rintro ⟨raw, hahead, hresponds⟩
      show Stands _ _ _ (carriers _)
      rw [hcarriers']
      exact ⟨raw, hahead, _, _, _, hresponds, hnone ▸ hreply, hpayload⟩
  | writes hcarriers hnext hcarriers' =>
      refine h.next hcarriers (by simp_all) hplaced rfl ?_
      rintro ⟨raw, hahead, hanswers⟩
      show Stands _ _ _ (carriers _)
      rw [hcarriers']
      exact hahead.balanced hanswers rfl rfl
  | hands hcarriers =>
      refine h.next hcarriers (by simp_all) hplaced rfl fun hstands => ?_
      show Stands _ _ _ (carriers s.loop)
      rw [hcarriers]
      exact hstands
  | wrote hcarriers hlength hnil hcarriers' =>
      refine h.next hcarriers (by simp_all) hplaced rfl fun hstands => ?_
      show Stands _ _ _ (carriers _)
      rw [hcarriers']
      exact ⟨hnil, hstands⟩
  | writeFails hcarriers hcarriers' =>
      refine h.next hcarriers (by simp_all) hplaced rfl fun hstands => ?_
      show Stands _ _ _ (carriers _)
      rw [hcarriers']
      exact hstands
  | again hcarriers hcarriers' =>
      refine h.next hcarriers (by simp_all) hplaced rfl fun hstands => ?_
      show Stands _ _ _ (carriers _)
      rw [hcarriers']
      exact ⟨rfl, hstands.2⟩
  | timesOut hcarriers hover =>
      have hstands := h.stands
      rw [hcarriers] at hstands
      refine ⟨hplaced, ?_, .timeout rfl hover.1 hstands.1 hstands.2⟩
      show Stands _ _ _ (carriers _)
      rw [hover.1]
      exact .inl hstands.2
  | ends hcarriers hne hover =>
      refine h.next hcarriers (by simp_all) hplaced rfl fun hstands => ?_
      show Stands _ _ _ (carriers _)
      rw [hover.1]
      exact hstands.balanced_or_ahead

/-! ## All runs -/

theorem Inv.initial (started : Bool) {_status : STATUS} (hstatus : Session.Calculated _status)
    (socket : Socket) : Inv setup engine (State.initial started _status socket) := by
  refine ⟨?_, ?_, ?_⟩
  · cases started with
    | true => exact rfl
    | false => exact .inl rfl
  · cases started with
    | true => exact ⟨rfl, .nil⟩
    | false => exact .inl .nil
  · rcases hstatus with hnone | htold
    · exact .none hnone
    · exact .queued rfl htold

theorem Reached.inv {started : Bool} {_status : STATUS} {socket : Socket}
    (hstatus : Session.Calculated _status) (hs : Reached setup engine started _status socket s) :
    Inv setup engine s :=
  Runs.Reached.invariant (Inv.initial started hstatus socket) (fun h ha hstep => h.step ha hstep) hs

/-! ## The bytes of the replies -/

/-- The bytes an action takes off the socket. -/
def departing : Action → State → Bytes
  | .depart n, s => s.socket.outgoing.take n
  | _, _ => []

/-- The socket takes the header of a reply before `write` returns. -/
def TakesHeader : Action → State → Prop
  | .handle input, s => ∀ header payload loop,
      s.loop.next = some (.write header payload, loop) → HEADER_SIZE ≤ input.taken
  | _, _ => True

/-- The replies as they are sent. -/
def frames (replies : List (HEADER × Bytes)) : Bytes :=
  replies.flatMap fun reply => Session.message reply ++ ENDOFMESSAGE

/-- The states of a session whose headers are taken at once, with the bytes that are
gone. -/
abbrev Sends (setup : SessionSetup) (engine : HEADER → Bytes → Bytes → Prop) (started : Bool)
    (_status : STATUS) (socket : Socket) : Bytes → State → Prop :=
  Runs.Emitted (step setup) (fun a s => Controlled setup engine a s ∧ TakesHeader a s) departing
    (State.initial started _status socket)

/-- A reply of which the socket took the header at once. -/
theorem taken_append_unwritten (header : HEADER) (payload : Bytes) {stack : Bytes} {taken : Nat}
    (htaken : HEADER_SIZE ≤ taken) (hstack : stack.length = HEADER_SIZE) :
    (sendMessage header payload [] [] []).take taken ++
        (stack ++ payload ++ ENDOFMESSAGE).drop taken =
      Session.message (header, payload) ++ ENDOFMESSAGE := by
  have hmessage : sendMessage header payload [] [] [] =
      serialize header ++ (payload ++ ENDOFMESSAGE) := by
    simp [sendMessage, sendBuffers]
  have hdrop : ∀ {front : Bytes}, front.length = HEADER_SIZE →
      (front ++ (payload ++ ENDOFMESSAGE)).drop taken =
        (payload ++ ENDOFMESSAGE).drop (taken - HEADER_SIZE) := by
    intro front hlength
    rw [List.drop_append, List.drop_eq_nil_of_le (hlength ▸ htaken), hlength, List.nil_append]
  rw [hmessage, List.append_assoc, hdrop hstack, ← hdrop (length_serialize header),
    List.take_append_drop, Session.message, List.append_assoc]

/-- Where nothing is being written, nothing is left to write. -/
def Idle (s : State) : List (Handler ⊕ Op) → Prop
  | [] | [.inr .write] | [.inl (.writeCompleted true)] => True
  | _ => s.unwritten = []

/-- The bytes that are gone, those on the socket and those still to be written, behind
what the socket had before. -/
structure Written (before gone : Bytes) (s : State) : Prop where
  eq : gone ++ s.socket.outgoing ++ s.unwritten = before ++ frames s.replies
  idle : Idle s (carriers s.loop)

theorem frames_concat (replies : List (HEADER × Bytes)) (reply : HEADER × Bytes) :
    frames (replies ++ [reply]) = frames replies ++ (Session.message reply ++ ENDOFMESSAGE) := by
  rw [frames, List.flatMap_append, List.flatMap_singleton, frames]

/-- What writes nothing. -/
theorem Written.next {before gone : Bytes} (h : Written before gone s)
    (houtgoing : s'.socket.outgoing = s.socket.outgoing) (hunwritten : s'.unwritten = s.unwritten)
    (hreplies : s'.replies = s.replies)
    (hidle : Idle s (carriers s.loop) → Idle s' (carriers s'.loop)) :
    Written before (gone ++ []) s' := by
  refine ⟨?_, hidle h.idle⟩
  rw [List.append_nil, houtgoing, hunwritten, hreplies]
  exact h.eq

/-- Some of what is left to write is on the socket. -/
theorem Written.hands {before gone : Bytes} (h : Written before gone s) (n : Nat)
    (houtgoing : s'.socket.outgoing = s.socket.outgoing ++ s.unwritten.take n)
    (hunwritten : s'.unwritten = s.unwritten.drop n) (hreplies : s'.replies = s.replies)
    (hidle : Idle s' (carriers s'.loop)) : Written before (gone ++ []) s' := by
  refine ⟨?_, hidle⟩
  rw [List.append_nil, houtgoing, hunwritten, hreplies, ← h.eq, ← List.append_assoc gone,
    List.append_assoc _ (s.unwritten.take n), List.take_append_drop]

/-- The same for a session that goes on to something else. -/
theorem Written.goesOn {before gone : Bytes} {carrier : Handler ⊕ Op}
    {strand : List (Handler ⊕ Op)} (h : Written before gone s)
    (hcarriers : carriers s.loop = [carrier]) (hcarriers' : carriers s'.loop = strand)
    (houtgoing : s'.socket.outgoing = s.socket.outgoing) (hunwritten : s'.unwritten = s.unwritten)
    (hreplies : s'.replies = s.replies) (hidle : Idle s [carrier] → Idle s' strand) :
    Written before (gone ++ []) s' := by
  refine h.next houtgoing hunwritten hreplies fun hbefore => ?_
  rw [hcarriers'] at *
  rw [hcarriers] at hbefore
  exact hidle hbefore

theorem Written.step {before gone : Bytes} (h : Written before gone s)
    (hplaced : Placed s.loop (carriers s.loop)) {a : Action} (htakes : TakesHeader a s)
    (hs : TcpSession.step setup a s = some s') :
    Written before (gone ++ departing a s) s' := by
  by_cases hdepart : ∃ n, a = .depart n
  · obtain ⟨n, rfl⟩ := hdepart
    obtain rfl := Option.some.inj hs
    refine ⟨?_, h.idle⟩
    show gone ++ s.socket.outgoing.take n ++ s.socket.outgoing.drop n ++ s.unwritten = _
    rw [List.append_assoc gone, List.take_append_drop]
    exact h.eq
  have hdeparting : departing a s = [] := by
    cases a with
    | depart n => exact absurd ⟨n, rfl⟩ hdepart
    | arrive | run | handle | read | readFails | write | writeFails | expire | stop | finish => rfl
  rw [hdeparting]
  cases step_progress hplaced hs with
  | departs n => exact absurd ⟨n, rfl⟩ hdepart
  | arrives | runs | returns => exact h.next rfl rfl rfl id
  | @beside a loop hbeside =>
      refine h.next rfl rfl rfl fun hidle => ?_
      show Idle _ (carriers loop)
      rw [hbeside.carriers]
      exact hidle
  | startsRead hcarriers hcarriers' | readFails hcarriers hcarriers'
  | hasRead hcarriers hlength hfind hcarriers' | responds hcarriers hnext hread hresponse hcarriers'
  | replies hcarriers hreply hpayload hcarriers' | again hcarriers hcarriers' =>
      exact h.goesOn hcarriers hcarriers' rfl rfl rfl id
  | reads hcarriers => exact h.goesOn hcarriers hcarriers rfl rfl rfl id
  | writeFails hcarriers hcarriers' =>
      exact h.goesOn hcarriers hcarriers' rfl rfl rfl fun _ => trivial
  | timesOut hcarriers hover => exact h.goesOn hcarriers hover.1 rfl rfl rfl fun _ => trivial
  | ends hcarriers hne hover => exact h.goesOn hcarriers hover.1 rfl rfl rfl fun _ => trivial
  | @writes input header payload loop taken hcarriers hnext hcarriers' =>
      have hidle := h.idle
      rw [hcarriers] at hidle
      refine ⟨?_, ?_⟩
      · show gone ++ [] ++ (s.socket.outgoing ++ _) ++ _ = before ++ frames (s.replies ++ [_])
        rw [List.append_nil, ← List.append_assoc gone, List.append_assoc _ _ (List.drop _ _),
          taken_append_unwritten header payload (htakes header payload taken hnext)
            input.stack.property, frames_concat, ← List.append_assoc before, ← h.eq,
          show s.unwritten = [] from hidle, List.append_nil]
      · show Idle _ (carriers loop)
        rw [hcarriers']
        trivial
  | hands hcarriers hlength hne =>
      refine h.hands _ rfl rfl rfl ?_
      show Idle _ (carriers s.loop)
      rw [hcarriers]
      trivial
  | @wrote n loop hcarriers hlength hnil hcarriers' =>
      refine h.hands n rfl rfl rfl ?_
      show Idle _ (carriers loop)
      rw [hcarriers']
      exact hnil

theorem Written.initial (started : Bool) (_status : STATUS) (socket : Socket) :
    Written socket.outgoing [] (State.initial started _status socket) := by
  refine ⟨by simp [State.initial, frames], ?_⟩
  cases started with
  | true => exact rfl
  | false => trivial

theorem Sends.written {started : Bool} {_status : STATUS} {socket : Socket} {gone : Bytes}
    (hstatus : Session.Calculated _status)
    (hs : Sends setup engine started _status socket gone s) :
    Written socket.outgoing gone s :=
  Runs.Emitted.invariant
    (fun hr => (Reached.inv hstatus (hr.mono fun _ _ ha => ha.1)).placed)
    (Written.initial started _status socket)
    (fun hplaced h ha hstep => h.step hplaced ha.2 hstep) hs

/-- A session does one thing at a time. -/
structure OneAtATime (setup : SessionSetup) (engine : HEADER → Bytes → Bytes → Prop)
    (started : Bool) (_status : STATUS) (socket : Socket) (s : State) : Prop where
  single : (carriers s.loop).length ≤ 1
  timer : waits s.loop ≤ 1
  /-- A read is under way without a wait for the timer. -/
  untimed : .read ∈ s.loop.pending → waits s.loop = 0
  /-- A reply to each string read but the last one at most. -/
  answers : List.Forall₂ (Answers setup engine) (s.requests.take s.replies.length) s.replies
  alternates : s.requests.length ≤ s.replies.length + 1
  /-- No reply tells of a status. -/
  header : ∀ reply ∈ s.replies, reply.1 = Session.replyHeader setup.options reply.2.length .NONE
  /-- A reply that took too long has been handed over, and is the last. -/
  timeout : s._status = .TCP_TIMEOUT →
    carriers s.loop = [] ∧ s.unwritten = [] ∧ s.requests.length = s.replies.length
  /-- Where the socket takes each header at once, what is gone, what is on the socket and
  what is still to be written are the replies, whole and in order. -/
  written : ∀ gone, Sends setup engine started _status socket gone s →
    gone ++ s.socket.outgoing ++ s.unwritten = socket.outgoing ++ frames s.replies

theorem Placed.length_le {loop : Events} {strand : List (Handler ⊕ Op)}
    (h : Placed loop strand) : strand.length ≤ 1 := by
  cases strand with
  | nil => exact Nat.zero_le _
  | cons carrier rest =>
      rw [h.eq_nil]
      exact Nat.le_refl _

theorem Inv.answers (h : Inv setup engine s) :
    List.Forall₂ (Answers setup engine) (s.requests.take s.replies.length) s.replies ∧
      s.requests.length ≤ s.replies.length + 1 := by
  rcases h.stands.balanced_or_ahead with hbalanced | ⟨raw, front, hrequests, hanswers⟩
  · have hlength : s.requests.length = s.replies.length := hbalanced.length_eq
    rw [← hlength, List.take_length]
    exact ⟨hbalanced, Nat.le_succ _⟩
  · rw [hrequests, ← hanswers.length_eq, List.take_left]
    refine ⟨hanswers, ?_⟩
    rw [List.length_append, List.length_singleton]

theorem buildReply_header {drawn : Drawn} {work : SenderBuffers} {_responseData : Bytes}
    {status : STATUS} {reply : HEADER × Bytes}
    (h : Session.buildReply setup drawn work _responseData status = .ok reply) :
    reply.1 = Session.replyHeader setup.options reply.2.length status := by
  simp only [Session.buildReply, Outcome.bind_eq_ok, Outcome.pure_eq_ok] at h
  obtain ⟨encrypted, -, hreply⟩ := h
  obtain rfl := Except.ok.inj hreply
  rfl

theorem header_of_answers {requests : List Bytes} {replies : List (HEADER × Bytes)}
    (h : List.Forall₂ (Answers setup engine) requests replies) :
    ∀ reply ∈ replies, reply.1 = Session.replyHeader setup.options reply.2.length .NONE := by
  induction h with
  | nil => exact fun reply hmem => absurd hmem List.not_mem_nil
  | cons hanswers _ ih =>
      obtain ⟨_, _, _, -, hbuilt, -⟩ := hanswers
      exact List.forall_mem_cons.mpr ⟨buildReply_header hbuilt, ih⟩

/-- Whatever goes on around it, a session has one thing to do or none: the replies
follow the requests one by one, no read is timed out, what takes too long is a write
that is done, and the bytes it writes are the replies. -/
theorem session_oneAtATime {started : Bool} {_status : STATUS} {socket : Socket}
    (hstatus : Session.Calculated _status) (hs : Reached setup engine started _status socket s) :
    OneAtATime setup engine started _status socket s := by
  have h := hs.inv hstatus
  obtain ⟨hanswers, halternates⟩ := h.answers
  refine ⟨h.placed.length_le, h.placed.waits_le, fun hmem => ?_, hanswers, halternates,
    header_of_answers hanswers, fun htimeout => ?_, fun gone hsends => (hsends.written hstatus).eq⟩
  · have hplaced := h.placed
    rw [h.placed.carriers_eq rfl hmem] at hplaced
    exact hplaced
  · cases h.status with
    | queued _ htold => simp [htimeout] at htold
    | none hnone => simp [htimeout] at hnone
    | timeout _ hnil hunwritten hbalanced => exact ⟨hnil, hunwritten, hbalanced.length_eq⟩

/-! ### One exchange

A line of a source with its number in front, neither compressed nor encrypted. -/

namespace OneExchange

open OneReply ShortRequest

def request : Bytes := serialize (payloadHeader payload.length) ++ payload

def input : Input where
  response := some reply
  drawn := drawn
  work := work
  taken := HEADER_SIZE
  stack := ⟨List.replicate HEADER_SIZE 0, List.length_replicate ..⟩

/-- The response is the one of the engine. -/
def controlled : Action → State → Bool
  | .handle input, s =>
      match s.loop.next with
      | some (.readCompleted false transferred, _) =>
          match TcpSession.readRequest session.lib session.terminal
              session.options.toDecryptionOptions input.work.buffer.bytes s._header s._request
              transferred with
          | .ok (_, _, request) => request == text && input.response == some reply
          | .error _ => true
      | _ => true
  | _, _ => true

theorem controlled_of (a : Action) (s : State) (h : controlled a s = true) :
    Controlled session oneReply a s := by
  cases a with
  | handle input =>
      intro transferred loop _buffer header request _responseData hnext hread hresponse
      simp only [controlled, hnext, hread, Bool.and_eq_true, beq_iff_eq] at h
      exact ⟨h.1, Option.some.inj (hresponse.symm.trans h.2)⟩
  | arrive | depart | run | read | readFails | write | writeFails | expire | stop | finish =>
      trivial

/-- The socket takes the whole header. -/
def takes : Action → State → Bool
  | .handle input, _ => HEADER_SIZE ≤ input.taken
  | _, _ => true

theorem takes_of (a : Action) (s : State) (h : (controlled a s && takes a s) = true) :
    Controlled session oneReply a s ∧ TakesHeader a s := by
  rw [Bool.and_eq_true] at h
  refine ⟨controlled_of a s h.1, ?_⟩
  cases a with
  | handle input => exact fun _ _ _ _ => of_decide_eq_true h.2
  | arrive | depart | run | read | readFails | write | writeFails | expire | stop | finish =>
      trivial

/-- The request comes in two pieces, and the timer expires while the reply is
written; the client has its header by then. -/
def actions : List Action :=
  [.arrive (request.take 7), .run, .handle input, .handle input, .read 7,
   .arrive ((request ++ ENDOFMESSAGE).drop 7), .read ((request ++ ENDOFMESSAGE).length - 7),
   .handle input, .handle input, .handle input, .expire, .depart HEADER_SIZE,
   .write (HEADER_SIZE + reply.length + ENDOFMESSAGESZ)]

theorem exists_run : ∃ gone s, Sends session oneReply true .NONE ⟨[], []⟩ gone s ∧
    (s.pc, s.requests, s.replies.map Prod.snd) =
      (.runs, [request ++ ENDOFMESSAGE], [serialize (payloadHeader reply.length) ++ reply]) := by
  have hreached : ∃ s, Runs.Reached (step session)
      (fun a s => Controlled session oneReply a s ∧ TakesHeader a s)
      (State.initial true .NONE ⟨[], []⟩) s ∧ (s.pc, s.requests, s.replies.map Prod.snd) =
        (.runs, [request ++ ENDOFMESSAGE], [serialize (payloadHeader reply.length) ++ reply]) :=
    Runs.exists_reached_of_check takes_of actions (by decide +kernel)
  obtain ⟨s, hs, hrun⟩ := hreached
  obtain ⟨gone, hgone⟩ := hs.exists_emitted departing
  exact ⟨gone, s, hgone, hrun⟩

end OneExchange

theorem session_oneAtATime_oneExchange :
    ∃ gone s, s.replies.length = 1 ∧
      Sends OneReply.session OneReply.oneReply true .NONE ⟨[], []⟩ gone s ∧
      OneAtATime OneReply.session OneReply.oneReply true .NONE ⟨[], []⟩ s := by
  obtain ⟨gone, s, hs, hrun⟩ := OneExchange.exists_run
  refine ⟨gone, s, ?_, hs, session_oneAtATime (.inl rfl) (hs.reached fun _ _ ha => ha.1)⟩
  have hreplies := congrArg (fun run => run.2.2.length) hrun
  simpa using hreplies

/-! ## The end of a session -/

/-- With nothing to run the session is blocked for a read or for a write, or there
is nothing to wait for. -/
theorem carriers_cases {loop : Events} (h : Placed loop (carriers loop))
    (hready : loop.ready = []) :
    loop.pending = [] ∨ carriers loop = [.inr .read] ∨ carriers loop = [.inr .write] := by
  have hlength := h.length_le
  have hstrand : carriers loop = (loop.pending.filter chain.op).map .inr := by
    rw [carriers, strand, hready]
    rfl
  cases hops : loop.pending.filter chain.op with
  | nil =>
      rw [hstrand, hops] at h
      have hzero : waits loop = 0 := by
        rcases h with hzero | ⟨-, hmem⟩
        · exact hzero
        · rw [hready] at hmem
          cases hmem
      refine .inl (List.eq_nil_iff_forall_not_mem.mpr fun op hmem => ?_)
      have hwait := List.countP_eq_zero.mp hzero op hmem
      have hop := List.filter_eq_nil_iff.mp hops op hmem
      rw [chain_op] at hop
      cases op with
      | read | write => exact hop rfl
      | wait => exact hwait rfl
  | cons op ops =>
      rw [hops] at hstrand
      rw [hstrand, List.length_map, List.length_cons] at hlength
      obtain rfl : ops = [] := List.length_eq_zero_iff.mp (by omega)
      have hop : chain.op op = true := (List.mem_filter.mp (hops ▸ List.mem_cons_self ..)).2
      cases op with
      | read => exact .inr (.inl hstrand)
      | write => exact .inr (.inr hstrand)
      | wait => cases hop

variable (setup) in
/-- What the thread inside `run` runs of a session that is over. -/
theorem handle_of_over (input : Input) (hover : carriers s.loop = [])
    (hreturns : s.loop.returns = false) (hready : s.loop.ready ≠ []) :
    ∃ s', s.handle setup input = some s' ∧ carriers s'.loop = [] ∧ s'.pc = s.pc ∧
      s'.requests = s.requests ∧ s'.replies = s.replies ∧
      s'.loop.ready.length + waits s'.loop < s.loop.ready.length + waits s.loop := by
  obtain ⟨handler, ready, hcons⟩ := List.exists_cons_of_ne_nil hready
  have hstopped := (Loop.returns_eq_false_iff.mp hreturns).1
  have hnext : s.loop.next = some (handler, { s.loop with ready }) :=
    Loop.next_eq_some.mpr ⟨hstopped, hcons, rfl, rfl⟩
  have hchain : chain.handler handler = false :=
    (strand_eq_nil_iff.mp hover).1 handler (hcons ▸ List.mem_cons_self ..)
  have hstrand := strand_next chain hnext
  rw [if_neg (by rw [hchain]; exact Bool.false_ne_true)] at hstrand
  have hlength : s.loop.ready.length = ready.length + 1 := by rw [hcons, List.length_cons]
  cases handler with
  | cancel =>
      refine ⟨{ s with loop := { s.loop with ready } }.cancelTimer, ?_, ?_, rfl, rfl, rfl, ?_⟩
      · simp [State.handle, hnext, State.handler]
      · exact (carriers_cancel _ _).trans (hstrand.symm.trans hover)
      · have hzero : waits ({ s with loop := { s.loop with ready } }.cancelTimer).loop = 0 :=
          waits_cancel _ _
        have hcanceled : ({ s with loop := { s.loop with ready } }.cancelTimer).loop.ready.length =
            ready.length + waits s.loop := by
          simp [State.cancelTimer, Loop.cancel, waits, List.countP_eq_length_filter]
        omega
  | waitCompleted ec =>
      refine ⟨{ s with loop := { s.loop with ready } }, ?_, hstrand.symm.trans hover, rfl, rfl,
        rfl, ?_⟩
      · simp [State.handle, hnext, State.handler]
      · show ready.length + waits s.loop < _
        rw [hlength]
        exact Nat.add_lt_add_right (Nat.lt_succ_self _) _
  | readRequest | readCompleted | sendReply | write | writeCompleted => cases hchain

/-- The thread inside `run` is blocked for a request or for a reply and never for the
timer, and once the session is over it runs what is ready and returns. -/
theorem session_ends {started : Bool} {_status : STATUS} {socket : Socket}
    (hstatus : Session.Calculated _status) (hs : Reached setup engine started _status socket s)
    (hruns : s.pc = .runs) :
    (s.loop.ready = [] → s.loop.returns = true ∨ carriers s.loop = [.inr .read] ∨
      carriers s.loop = [.inr .write]) ∧
    (carriers s.loop = [] → ∀ input, ∃ s', Relation.ReflTransGen
      (fun s s' => step setup (.handle input) s = some s') s s' ∧
      s'.loop.returns = true ∧ s'.requests = s.requests ∧ s'.replies = s.replies) := by
  have hblocked : ∀ {loop : Events}, Placed loop (carriers loop) → loop.ready = [] →
      loop.returns = true ∨ carriers loop = [.inr .read] ∨ carriers loop = [.inr .write] := by
    intro loop hplaced hready
    rcases carriers_cases hplaced hready with hpending | hcarriers
    · rw [Loop.returns, hready, hpending]
      exact .inl (Bool.or_true _)
    · exact .inr hcarriers
  refine ⟨hblocked (hs.inv hstatus).placed, fun hover input => ?_⟩
  refine Runs.exists_reflTransGen_of_lt
    (P := fun t => (Placed t.loop (carriers t.loop) ∧ t.pc = .runs ∧ carriers t.loop = []) ∧
      t.requests = s.requests ∧ t.replies = s.replies)
    (fun t => t.loop.ready.length + waits t.loop) (fun t => ?_) s
    ⟨⟨(hs.inv hstatus).placed, hruns, hover⟩, rfl, rfl⟩
  rintro ⟨⟨hplaced, hruns, hover⟩, hrequests, hreplies⟩
  cases hreturns : t.loop.returns with
  | true => exact .inl ⟨rfl, hrequests, hreplies⟩
  | false =>
      have hready : t.loop.ready ≠ [] := by
        intro hready
        rcases hblocked hplaced hready with h | h | h
        · rw [hreturns] at h
          cases h
        · rw [hover] at h
          cases h
        · rw [hover] at h
          cases h
      obtain ⟨t', ht', hover', hpc, hrequests', hreplies', hlt⟩ :=
        handle_of_over setup input hover hreturns hready
      have hstep : step setup (.handle input) t = some t' := by
        rw [step, if_pos hruns]
        exact ht'
      exact .inr ⟨t', hstep, ⟨⟨hplaced.step (step_progress hplaced hstep), hpc.trans hruns,
        hover'⟩, hrequests'.trans hrequests, hreplies'.trans hreplies⟩, hlt⟩

theorem session_ends_oneExchange :
    ∃ s, s.pc = .runs ∧
      (s.loop.ready = [] → s.loop.returns = true ∨ carriers s.loop = [.inr .read] ∨
        carriers s.loop = [.inr .write]) ∧
      (carriers s.loop = [] → ∀ input, ∃ s', Relation.ReflTransGen
        (fun s s' => step OneReply.session (.handle input) s = some s') s s' ∧
        s'.loop.returns = true ∧ s'.requests = s.requests ∧ s'.replies = s.replies) := by
  obtain ⟨gone, s, hs, hrun⟩ := OneExchange.exists_run
  have hpc := congrArg Prod.fst hrun
  exact ⟨s, hpc, session_ends (.inl rfl) (hs.reached fun _ _ ha => ha.1) hpc⟩

end ClientServer.TcpSession
