import ClientServer.Client.HeartbeatSteps
import ClientServer.Common.Framing
import Mathlib.Data.Prod.Lex

/-!
# What holds of every run of the heartbeat

With an acceptor the heartbeats are answered one by one, and each that is answered had
nothing to tell: a client whose answer came too late says so once, and that is its last
heartbeat.  Where nothing fails and nobody stops it, there is always a next heartbeat.
Once it is stopped, one more is sent at most, and no timer is waited for.
-/

namespace ClientServer.TcpClientHeartbeat

open EventLoop

/-- What a heartbeat has come to. -/
def Reached (keys : KeyLibraries) (allowed : Action → State → Prop) : State → Prop :=
  Runs.Reached (step keys) allowed .initial

variable {keys : KeyLibraries} {allowed : Action → State → Prop} {s s' : State}

theorem Reached.placed (hs : Reached keys allowed s) : Placed s.loop := by
  refine Runs.Reached.invariant (P := fun s => Placed s.loop) ?_
    (fun h _ hstep => h.step (step_progress h hstep)) hs
  exact ⟨Nat.le_refl _, fun _ => ⟨[], rfl⟩⟩

/-! ## One heartbeat and its answer -/

/-- What a heartbeat may tell. -/
def Told (_status : STATUS) : Prop := _status = .NONE ∨ _status = .HEARTBEAT_TIMEOUT

theorem heartbeat_valid {_status : STATUS} (h : Told _status) : (heartbeat _status).Valid := by
  rcases h with rfl | rfl <;> decide

theorem heartbeat_sizesFit (_status : STATUS) : (heartbeat _status).SizesFit := by
  have hzero : 0 < 10 ^ FIELD1_SIZE := by decide
  exact ⟨hzero, hzero, hzero, hzero⟩

/-- The terminator stands only at the end of a heartbeat. -/
theorem clean_heartbeat {_status : STATUS} (h : Told _status) :
    ¬ ENDOFMESSAGE <:+: serialize (heartbeat _status) := by
  rw [← Text.find_eq_none_iff]
  rcases h with rfl | rfl <;> decide +kernel

/-- The part of a heartbeat that has the terminator in it is all of it. -/
theorem eq_message_of_found {_status : STATUS} (h : Told _status) {buffer : Bytes}
    (hbuffer : buffer <+: message (heartbeat _status)) (hfound : Tcp.found buffer = true) :
    buffer = message (heartbeat _status) := by
  have hcut : Cut (serialize (heartbeat _status)) [message (heartbeat _status)] := by
    refine ⟨clean_heartbeat h, by simp [message], fun chunk hchunk => ?_⟩
    rw [List.mem_singleton.mp hchunk]
    exact List.append_ne_nil_of_right_ne_nil _ (by decide +kernel)
  exact hcut.eq_of_infix hbuffer (Tcp.found_iff.mp hfound)

theorem deserialize_message {_status : STATUS} (h : Told _status) (target : HEADER) :
    deserialize target (message (heartbeat _status)) = .ok (true, heartbeat _status) :=
  deserialize_serialize (heartbeat_valid h) (heartbeat_sizesFit _status) target ENDOFMESSAGE

/-- The acceptor sends a heartbeat back. -/
theorem accept_heartbeat {_status : STATUS} (h : Told _status) (_header : HEADER)
    {connection : Connection} (hcut : Cut (serialize (heartbeat _status)) connection.chunks) :
    TcpAcceptor.accept keys _header connection =
      .ok (heartbeat _status, .heartbeat (message (heartbeat _status))) := by
  have hread := @processMessage_sendMessage (heartbeat _status) [] [] [] []
    (heartbeat_valid h) (heartbeat_sizesFit _status) ⟨rfl, rfl, rfl, rfl⟩ _header [] [] [] []
  rw [stripEndOfMessage_sendMessage] at hread
  simp only [List.append_nil] at hread
  have hsent : sendMessage (heartbeat _status) [] [] [] [] = message (heartbeat _status) := by
    simp [sendMessage, sendBuffers, message]
  rw [TcpAcceptor.accept, TcpAcceptor.connectionType, Tcp.readMessage_of_cut hcut]
  rw [emptyFields, hread]
  simp only [Outcome.ok_bind, Outcome.require, if_true, Outcome.pure_eq_ok]
  rw [← hsent]
  rfl

/-! ## One by one -/

/-- Bytes come from the acceptor alone, and a socket that has just been connected takes
the header at once. -/
def ByAcceptor : Action → State → Prop
  | .arrive _, _ => False
  | .connect (.connects taken _), _ => HEADER_SIZE ≤ taken
  | _, _ => True

/-- The heartbeat on its way to the acceptor, or the answer on its way back, with what is
written and read of them. -/
inductive Carries (header : HEADER) (link : Link) (unwritten buffer : Bytes) : Prop where
  | up : link.handed ++ unwritten = message header → link.served = false → link.incoming = [] →
      buffer = [] → Carries header link unwritten buffer
  | down : unwritten = [] → link.served = true → buffer ++ link.incoming = message header →
      Carries header link unwritten buffer

/-- Every heartbeat was answered, and none of them had anything to tell. -/
structure Answered (sent echoed : List HEADER) (_status : STATUS) : Prop where
  all : echoed = sent
  none : ∀ beat ∈ echoed, beat = heartbeat .NONE
  told : Told _status

/-- The last heartbeat is not answered yet. -/
structure Unanswered (sent echoed : List HEADER) (_status : STATUS) : Prop where
  last : sent = echoed ++ [heartbeat _status]
  none : ∀ beat ∈ echoed, beat = heartbeat .NONE
  told : Told _status

/-- The heartbeats are answered one by one; only the last may have told anything. -/
structure OneByOne (sent echoed : List HEADER) : Prop where
  inOrder : echoed <+: sent
  last : sent.length ≤ echoed.length + 1
  none : ∀ beat ∈ echoed, beat = heartbeat .NONE
  told : ∀ beat ∈ sent, beat = heartbeat .NONE ∨ beat = heartbeat .HEARTBEAT_TIMEOUT

/-- What there is where something carries the heartbeat on. -/
def Stands (s : State) : List (Handler ⊕ Op) → Prop
  | [] => OneByOne s.sent s.echoed
  | [.inl .write] | [.inr .connect] | [.inr .period] | [.inl (.periodCompleted _)] =>
      Answered s.sent s.echoed s._status
  | [.inr .write] => Unanswered s.sent s.echoed s._status ∧
      Carries (heartbeat s._status) s.link s.unwritten []
  | [.inl (.writeCompleted ec)] => Unanswered s.sent s.echoed s._status ∧
      (ec = false → Carries (heartbeat s._status) s.link [] [])
  | [.inr .waitRead] => Unanswered s.sent s.echoed s._status ∧
      Carries (heartbeat s._status) s.link [] []
  | [.inr .read] => Unanswered s.sent s.echoed s._status ∧
      Carries (heartbeat s._status) s.link [] s._heartbeatBuffer
  | [.inl (.readCompleted ec)] => Unanswered s.sent s.echoed s._status ∧
      (ec = false → s._heartbeatBuffer = message (heartbeat s._status))
  | _ => False

section Stands

variable {sent echoed : List HEADER} {_status : STATUS}

theorem Answered.oneByOne (h : Answered sent echoed _status) : OneByOne sent echoed := by
  obtain ⟨rfl, hnone, -⟩ := h
  exact ⟨List.prefix_rfl, Nat.le_succ _, hnone, fun beat hbeat => .inl (hnone beat hbeat)⟩

theorem Unanswered.oneByOne (h : Unanswered sent echoed _status) : OneByOne sent echoed := by
  obtain ⟨rfl, hnone, htold⟩ := h
  refine ⟨List.prefix_append .., by simp, hnone, fun beat hbeat => ?_⟩
  rcases List.mem_append.mp hbeat with hbeat | hbeat
  · exact .inl (hnone beat hbeat)
  · rw [List.mem_singleton.mp hbeat]
    exact htold.imp (congrArg heartbeat) (congrArg heartbeat)

theorem Stands.oneByOne {strand : List (Handler ⊕ Op)} (h : Stands s strand) :
    OneByOne s.sent s.echoed := by
  unfold Stands at h
  split at h
  · exact h
  · exact h.oneByOne
  · exact h.oneByOne
  · exact h.oneByOne
  · exact h.oneByOne
  · exact h.1.oneByOne
  · exact h.1.oneByOne
  · exact h.1.oneByOne
  · exact h.1.oneByOne
  · exact h.1.oneByOne
  · exact h.elim

/-- The next heartbeat is sent. -/
theorem Answered.sends (h : Answered sent echoed _status) :
    Unanswered (sent ++ [heartbeat _status]) echoed _status := by
  obtain ⟨rfl, hnone, htold⟩ := h
  exact ⟨rfl, hnone, htold⟩

/-- An answer that is taken is the last heartbeat, and tells nothing. -/
theorem Unanswered.takes (h : Unanswered sent echoed _status) {header : HEADER}
    (hread : deserialize default (message (heartbeat _status)) = .ok (true, header))
    (hok : isOk header = true) (late : Bool) :
    Answered sent (echoed ++ [header]) (if late then .HEARTBEAT_TIMEOUT else _status) := by
  obtain ⟨rfl, hnone, htold⟩ := h
  rw [deserialize_message htold] at hread
  obtain rfl := congrArg Prod.snd (Except.ok.inj hread)
  obtain rfl : _status = .NONE := by
    rcases htold with rfl | rfl
    · rfl
    · cases hok
  refine ⟨rfl, fun beat hbeat => ?_, ?_⟩
  · rcases List.mem_append.mp hbeat with hbeat | hbeat
    · exact hnone beat hbeat
    · exact List.mem_singleton.mp hbeat
  · cases late with
    | true => exact .inr rfl
    | false => exact .inl rfl

/-- The acceptor answers what it has got. -/
theorem Carries.accept {unwritten buffer : Bytes} (htold : Told _status)
    (h : Carries (heartbeat _status) s.link unwritten buffer) {_header : HEADER}
    {connection : Connection} {link : Link}
    (hs : s.accept keys _header connection = some { s with link }) :
    Carries (heartbeat _status) link unwritten buffer := by
  unfold State.accept at hs
  split at hs
  next hserves =>
    obtain ⟨hserved, hfound, hflatten, hnonempty⟩ := hserves
    cases h with
    | down _ hserved' =>
        rw [hserved] at hserved'
        cases hserved'
    | up hhanded _ hincoming hbuffer =>
        have hwhole := eq_message_of_found htold ⟨unwritten, hhanded⟩ hfound
        have hcut : Cut (serialize (heartbeat _status)) connection.chunks := by
          refine ⟨clean_heartbeat htold, hflatten.trans hwhole, ?_⟩
          rintro chunk hchunk rfl
          exact List.any_eq_false.mp hnonempty [] hchunk rfl
        have hunwritten : unwritten = [] := by
          rw [hwhole] at hhanded
          exact List.append_right_eq_self.mp hhanded
        rw [accept_heartbeat htold _header hcut] at hs
        obtain rfl := congrArg State.link (Option.some.inj hs)
        exact .down hunwritten rfl (by simp [hbuffer, hincoming])
  next => cases hs

/-- Some bytes of the answer are read. -/
theorem Carries.reads {link : Link} {buffer : Bytes} {header : HEADER}
    (h : Carries header link [] buffer) (n : Nat) :
    Carries header { link with incoming := link.incoming.drop n } []
      (buffer ++ link.incoming.take n) := by
  cases h with
  | up hhanded hserved hincoming hbuffer =>
      exact .up hhanded hserved (by simp [hincoming]) (by simp [hbuffer, hincoming])
  | down hunwritten hserved hincoming =>
      refine .down hunwritten hserved ?_
      rw [List.append_assoc, List.take_append_drop, hincoming]

/-- What has the terminator in it is the whole answer. -/
theorem Carries.whole {link : Link} {buffer : Bytes} (htold : Told _status)
    (h : Carries (heartbeat _status) link [] buffer) (hfound : Tcp.found buffer = true) :
    buffer = message (heartbeat _status) := by
  cases h with
  | up _ _ _ hbuffer =>
      rw [hbuffer] at hfound
      exact absurd hfound (by decide +kernel)
  | down _ _ hincoming => exact eq_message_of_found htold ⟨link.incoming, hincoming⟩ hfound

/-- The acceptor leaves the carrier where it is. -/
theorem Stands.accept {strand : List (Handler ⊕ Op)} (h : Stands s strand) {_header : HEADER}
    {connection : Connection} {link : Link}
    (hs : s.accept keys _header connection = some { s with link }) :
    Stands { s with link } strand := by
  unfold Stands at h ⊢
  split at h
  · exact h
  · exact h
  · exact h
  · exact h
  · exact h
  · exact ⟨h.1, h.2.accept h.1.told hs⟩
  · exact ⟨h.1, fun hec => (h.2 hec).accept h.1.told hs⟩
  · exact ⟨h.1, h.2.accept h.1.told hs⟩
  · exact ⟨h.1, h.2.accept h.1.told hs⟩
  · exact h
  · exact h.elim

/-- A timer that is canceled takes nothing with it. -/
theorem Stands.cancel {strand : List (Handler ⊕ Op)} (h : Stands s strand) {loop : Events} :
    Stands { s with loop } (strand.map (canceled Op.isTimer Op.aborted)) := by
  unfold Stands at h
  split at h
  all_goals first
    | exact h
    | exact h.elim

/-- The heartbeat is handed on, with what there is. -/
theorem Stands.goes {carrier carrier' : Handler ⊕ Op} (h : Stands s (carriers s.loop))
    (hgoes : Goes s.loop s'.loop carrier carrier')
    (hstands : Stands s [carrier] → Stands s' [carrier']) : Stands s' (carriers s'.loop) := by
  rw [hgoes.behind]
  rw [hgoes.before] at h
  exact hstands h

/-- The carrier and what there is are left alone. -/
theorem Stands.aside {loop : Events} (h : Stands s (carriers s.loop))
    (hcarriers : carriers loop = carriers s.loop) : Stands { s with loop } (carriers loop) := by
  rw [hcarriers]
  exact h

/-- What the socket has not taken by the time `write` returns is the terminator alone. -/
theorem drop_message {header : HEADER} {stack : Bytes} (hstack : stack.length = HEADER_SIZE)
    {taken : Nat} (htaken : HEADER_SIZE ≤ taken) :
    (message header).take taken ++ (stack ++ ENDOFMESSAGE).drop taken = message header := by
  have hdrop {front : Bytes} (hlength : front.length = HEADER_SIZE) :
      (front ++ ENDOFMESSAGE).drop taken = ENDOFMESSAGE.drop (taken - HEADER_SIZE) := by
    rw [List.drop_append, List.drop_eq_nil_of_le (hlength ▸ htaken), hlength, List.nil_append]
  rw [hdrop hstack, ← hdrop (length_serialize header)]
  exact List.take_append_drop taken (message header)

/-- Some bytes of the heartbeat are written. -/
theorem Carries.writes {link : Link} {unwritten buffer : Bytes} {header : HEADER}
    (h : Carries header link unwritten buffer) (n : Nat) :
    Carries header { link with handed := link.handed ++ unwritten.take n } (unwritten.drop n)
      buffer := by
  cases h with
  | up hhanded hserved hincoming hbuffer =>
      refine .up ?_ hserved hincoming hbuffer
      rw [List.append_assoc, List.take_append_drop, hhanded]
  | down hunwritten hserved hincoming =>
      exact .down (by rw [hunwritten, List.drop_nil]) hserved hincoming

theorem Stands.step (hplaced : Placed s.loop) (h : Stands s (carriers s.loop)) {a : Action}
    (ha : ByAcceptor a s) (hs : Progress keys s a s') : Stands s' (carriers s'.loop) := by
  cases hs with
  | runs | returns => exact h
  | accepts haccept => exact h.accept haccept
  | arrives => exact ha.elim
  | stops => exact h.aside (strand_post_of_not rfl)
  | stopsItself hnext => exact h.aside ((strand_post_of_not rfl).trans (carriers_next rfl hnext))
  | @cancels loop hnext =>
      obtain ⟨hplaced', hcarriers, -⟩ := hplaced.next rfl hnext
      show Stands _ (carriers (loop.cancel Op.isTimer Op.aborted))
      rw [carriers_cancelTimers hplaced'.alone, hcarriers]
      exact h.cancel
  | passes hnext => exact h.aside (carriers_next rfl hnext)
  | expires hloop => exact h.aside (strand_complete_of_not rfl rfl hloop)
  | begins hcarriers hhandler hcarriers' =>
      show Stands _ (carriers _)
      rw [hcarriers']
      rw [hcarriers] at h
      rcases hhandler with rfl | ⟨rfl, -⟩
      · exact h
      · exact h
  | @connects taken stack loop hgoes =>
      exact h.goes hgoes fun h =>
        ⟨Answered.sends h, .up (drop_message stack.property ha) rfl rfl rfl⟩
  | hands hcarriers =>
      show Stands _ (carriers s.loop)
      rw [hcarriers] at h ⊢
      exact ⟨h.1, h.2.writes _⟩
  | @wrote n loop hgoes _ hnil =>
      exact h.goes hgoes fun h => ⟨h.1, fun _ => hnil ▸ h.2.writes n⟩
  | writeFails hgoes => exact h.goes hgoes fun h => ⟨h.1, fun hec => by cases hec⟩
  | waits hgoes => exact h.goes hgoes fun h => ⟨h.1, h.2 rfl⟩
  | waited hgoes => exact h.goes hgoes id
  | reads hcarriers =>
      show Stands _ (carriers s.loop)
      rw [hcarriers] at h ⊢
      exact ⟨h.1, h.2.reads _⟩
  | @hasRead n loop hgoes _ hfound =>
      exact h.goes hgoes fun h => ⟨h.1, fun _ => (h.2.reads n).whole h.1.told hfound⟩
  | readFails hgoes => exact h.goes hgoes fun h => ⟨h.1, fun hec => by cases hec⟩
  | @takes header loop hcarriers hstopped hread hok hcarriers' =>
      show Stands _ (carriers loop)
      rw [hcarriers']
      rw [hcarriers] at h
      rw [h.2 rfl] at hread
      have htakes := h.1.takes hread hok (decide (timeouts s.loop = 0))
      simp only [decide_eq_true_eq] at htakes
      exact htakes
  | periodEnds hgoes => exact h.goes hgoes id
  | ends hfails hcarriers hnil =>
      show Stands _ (carriers _)
      rw [hnil]
      exact h.oneByOne

theorem Reached.stands (hs : Reached keys ByAcceptor s) : Stands s (carriers s.loop) := by
  refine Runs.Reached.invariant_of (P := fun s => Stands s (carriers s.loop))
    (fun hs => Reached.placed hs) ?_ ?_ hs
  · exact ⟨rfl, List.forall_mem_nil _, .inl rfl⟩
  · intro a s s' hplaced h ha hstep
    exact h.step hplaced ha (step_progress hplaced hstep)

end Stands

/-- With an acceptor at the other end, whatever fails and however the bytes come in pieces,
one thing at most carries the heartbeat on, every answer that is taken is the heartbeat of the
same number, and only the last heartbeat may have told that an answer was late. -/
theorem heartbeat_oneByOne (hs : Reached keys ByAcceptor s) :
    (carriers s.loop).length ≤ 1 ∧ OneByOne s.sent s.echoed :=
  ⟨hs.placed.alone, hs.stands.oneByOne⟩

/-- Nothing fails, no answer is late and nobody stops the heartbeat. -/
def Unfailing : Action → State → Prop
  | .arrive _, _ | .stop, _ | .writeFails, _ | .readFails, _ | .timeoutExpires, _ => False
  | .waitRead ec, _ => ec = false
  | .connect result, _ => ∃ taken stack, result = .connects taken stack ∧ HEADER_SIZE ≤ taken
  | _, _ => True

theorem byAcceptor_of_unfailing {a : Action} (ha : Unfailing a s) : ByAcceptor a s := by
  cases a with
  | connect result =>
      obtain ⟨taken, stack, rfl, htaken⟩ := ha
      exact htaken
  | arrive => exact ha
  | run | handle | write | writeFails | waitRead | read | readFails | periodExpires
  | timeoutExpires | stop | finish | accept => trivial

namespace OneHeartbeat

/-- A test of the actions that do not fail. -/
def unfailing : Action → State → Bool
  | .arrive _, _ | .stop, _ | .writeFails, _ | .readFails, _ | .timeoutExpires, _ => false
  | .waitRead ec, _ => !ec
  | .connect (.connects taken _), _ => decide (HEADER_SIZE ≤ taken)
  | .connect _, _ => false
  | _, _ => true

theorem unfailing_of_check (a : Action) (s : State) (h : unfailing a s = true) :
    Unfailing a s := by
  cases a with
  | connect result =>
      cases result with
      | connects taken stack => exact ⟨taken, stack, rfl, of_decide_eq_true h⟩
      | fails | throws => cases h
  | waitRead ec => exact (Bool.not_eq_true' ec).mp h
  | arrive | stop | writeFails | readFails | timeoutExpires => cases h
  | run | handle | write | read | periodExpires | finish | accept => trivial

/-- The bytes of the first heartbeat, of which the socket takes the header at once. -/
def beat : Bytes := message (heartbeat .NONE)

def connects : Action := .connect (.connects HEADER_SIZE ⟨List.replicate HEADER_SIZE 0, rfl⟩)

def actions : List Action :=
  [.run, .handle, connects, .write ENDOFMESSAGESZ, .handle, .waitRead false,
    .accept (heartbeat .NONE) ⟨[beat.take 5, beat.drop 5], true, true, ClosedConnection.drawn⟩,
    .read 7, .read (beat.length - 7), .handle]

theorem exists_run : ∃ s, Reached ClosedConnection.libraries Unfailing s ∧
    (s.sent, s.echoed) = ([heartbeat .NONE], [heartbeat .NONE]) :=
  Runs.exists_reached_of_check unfailing_of_check actions (by decide +kernel)

end OneHeartbeat

theorem heartbeat_oneByOne_oneHeartbeat :
    ∃ s : State, (s.sent, s.echoed) = ([heartbeat .NONE], [heartbeat .NONE]) ∧
      (carriers s.loop).length ≤ 1 ∧ OneByOne s.sent s.echoed := by
  obtain ⟨s, hs, hrun⟩ := OneHeartbeat.exists_run
  exact ⟨s, hrun, heartbeat_oneByOne (hs.mono fun _ _ => byAcceptor_of_unfailing)⟩

/-! ## The heartbeat goes on -/

/-- What carries a heartbeat on that goes on, with the number of timeouts that are waited
for. -/
def GoesOn (waits : Nat) : List (Handler ⊕ Op) → Prop
  | [.inl .write] | [.inr .period] | [.inl (.periodCompleted false)] => True
  | [.inr .connect] | [.inr .write] | [.inl (.writeCompleted false)] | [.inr .waitRead]
  | [.inr .read] | [.inl (.readCompleted false)] => waits = 1
  | _ => False

/-- The heartbeat goes on. -/
structure Alive (s : State) : Prop where
  pc : s.pc ≠ .returned
  stopped : s._stopped = false
  status : s._status = .NONE
  quiet : Quiet s.loop
  on : GoesOn (timeouts s.loop) (carriers s.loop)

theorem Quiet.not_stop {loop loop' : Events} {handler : Handler} (h : Quiet loop)
    (hnext : loop.next = some (handler, loop')) : handler.isStop = false :=
  h.handlers _ ((Loop.next_eq_some.mp hnext).2.1 ▸ List.mem_cons_self ..)

theorem Alive.initial : Alive .initial where
  pc h := by cases h
  stopped := rfl
  status := rfl
  quiet := by
    refine ⟨rfl, fun handler hmem => ?_⟩
    rw [List.mem_singleton.mp hmem]
    rfl
  on := trivial

/-- A loop that is at its end carries nothing on. -/
theorem Alive.not_returns (h : Alive s) : s.loop.returns = false := by
  cases hreturns : s.loop.returns with
  | false => rfl
  | true =>
      rw [Loop.returns, h.quiet.stopped, Bool.false_or, Bool.and_eq_true, List.isEmpty_iff,
        List.isEmpty_iff] at hreturns
      have hon := h.on
      rw [show carriers s.loop = [] by simp [carriers, strand, hreturns.1, hreturns.2]] at hon
      exact hon.elim

/-- Nothing ends a heartbeat that goes on. -/
theorem Fails.not_alive {a : Action} {carrier : Handler ⊕ Op} (hfails : Fails s a carrier)
    (h : Alive s) (hcarriers : carriers s.loop = [carrier])
    (hstands : Stands s (carriers s.loop)) (ha : Unfailing a s) : False := by
  have hon := h.on
  rw [hcarriers] at hon hstands
  cases hfails with
  | connect hresult =>
      obtain ⟨taken, stack, heq, -⟩ := ha
      exact hresult taken stack heq
  | waitRead => cases ha
  | written | hasRead | aborted => exact hon
  | refused hrefused =>
      obtain ⟨hunanswered, hbuffer⟩ := hstands
      rw [hbuffer rfl, deserialize_message hunanswered.told, h.status] at hrefused
      exact absurd (hrefused _ rfl) (by decide)
  | stopped hstopped =>
      rw [h.stopped] at hstopped
      cases hstopped

theorem Alive.step (hstands : Stands s (carriers s.loop)) (h : Alive s) {a : Action}
    (ha : Unfailing a s) (hs : Progress keys s a s') : Alive s' := by
  have hon := h.on
  cases hs with
  | runs => exact { h with pc := fun heq => by cases heq }
  | returns _ hreturns =>
      rw [h.not_returns] at hreturns
      cases hreturns
  | accepts | hands | reads => exact { h with }
  | arrives | stops | writeFails | readFails | expires => exact ha.elim
  | stopsItself hnext => cases h.quiet.not_stop hnext
  | cancels hnext => cases h.quiet.not_stop hnext
  | @passes ec loop hnext =>
      refine { h with quiet := h.quiet.next hnext, on := ?_ }
      show GoesOn (timeouts loop) (carriers loop)
      rw [carriers_next rfl hnext, timeouts_next hnext]
      exact hon
  | begins _ _ hcarriers' htimeouts _ hquiet =>
      refine { h with quiet := hquiet h.quiet, on := ?_ }
      show GoesOn (timeouts _) (carriers _)
      rw [hcarriers']
      exact htimeouts
  | connects hgoes | waits hgoes | waited hgoes | wrote hgoes | hasRead hgoes =>
      refine { h with quiet := hgoes.quiet h.quiet, on := ?_ }
      show GoesOn (timeouts _) (carriers _)
      rw [hgoes.behind, hgoes.timeouts]
      rw [hgoes.before] at hon
      exact hon
  | takes hcarriers _ _ _ hcarriers' _ hquiet =>
      rw [hcarriers] at hon
      have hwaits : timeouts s.loop = 1 := hon
      refine { h with quiet := hquiet h.quiet, status := ?_, on := ?_ }
      · show (if timeouts s.loop = 0 then STATUS.HEARTBEAT_TIMEOUT else s._status) = .NONE
        rw [if_neg (by omega), h.status]
      · show GoesOn (timeouts _) (carriers _)
        rw [hcarriers']
        trivial
  | periodEnds hgoes =>
      refine { h with quiet := hgoes.quiet h.quiet, on := ?_ }
      show GoesOn (timeouts _) (carriers _)
      rw [hgoes.behind]
      trivial
  | ends hfails hcarriers => exact (hfails.not_alive h hcarriers hstands ha).elim

/-! ### The next heartbeat -/

/-- How far a carrier is from the next heartbeat that is sent. -/
def ahead : List (Handler ⊕ Op) → Nat
  | [.inr .write] => 8
  | [.inl (.writeCompleted _)] => 7
  | [.inr .waitRead] => 6
  | [.inr .read] => 5
  | [.inl (.readCompleted _)] => 4
  | [.inr .period] => 3
  | [.inl (.periodCompleted _)] | [.inl .write] => 2
  | [.inr .connect] => 1
  | _ => 0

/-- What is to be done up to there, with the thread that calls `run` and the acceptor. -/
def rank (s : State) : ℕ ×ₗ ℕ :=
  toLex (ahead (carriers s.loop) + (if s.pc = .queued then 1 else 0) +
    (if s.link.served then 0 else 1), s.loop.ready.length)

theorem rank_lt (hpc : s'.pc = s.pc) (hserved : s'.link.served = s.link.served)
    (hahead : ahead (carriers s'.loop) < ahead (carriers s.loop)) : rank s' < rank s := by
  rw [rank, rank, Prod.Lex.toLex_lt_toLex, hpc, hserved]
  left
  show ahead (carriers s'.loop) + _ + _ < ahead (carriers s.loop) + _ + _
  omega

theorem Goes.rank_lt {carrier carrier' : Handler ⊕ Op}
    (hgoes : Goes s.loop s'.loop carrier carrier')
    (hpc : s'.pc = s.pc) (hserved : s'.link.served = s.link.served)
    (hahead : ahead [carrier'] < ahead [carrier]) : rank s' < rank s := by
  refine TcpClientHeartbeat.rank_lt hpc hserved ?_
  rw [hgoes.behind, hgoes.before]
  exact hahead

/-- What a handler of a heartbeat that goes on comes to. -/
theorem Alive.handle_lt (hstands : Stands s (carriers s.loop)) (h : Alive s)
    (hs : Progress keys s .handle s') : s'.sent = s.sent ∧ rank s' < rank s := by
  cases hs with
  | stopsItself hnext => cases h.quiet.not_stop hnext
  | cancels hnext => cases h.quiet.not_stop hnext
  | @passes ec loop hnext =>
      refine ⟨rfl, ?_⟩
      rw [rank, rank, Prod.Lex.toLex_lt_toLex, carriers_next rfl hnext]
      right
      refine ⟨rfl, ?_⟩
      show loop.ready.length < s.loop.ready.length
      rw [(Loop.next_eq_some.mp hnext).2.1, List.length_cons]
      exact Nat.lt_succ_self _
  | begins hcarriers hhandler hcarriers' =>
      refine ⟨rfl, rank_lt rfl rfl ?_⟩
      show ahead (carriers _) < _
      rw [hcarriers, hcarriers']
      rcases hhandler with rfl | ⟨rfl, -⟩
      · decide
      · decide
  | waits hgoes => exact ⟨rfl, hgoes.rank_lt rfl rfl (by decide)⟩
  | takes hcarriers _ _ _ hcarriers' =>
      refine ⟨rfl, rank_lt rfl rfl ?_⟩
      show ahead (carriers _) < _
      rw [hcarriers, hcarriers']
      decide
  | ends hfails hcarriers => exact (hfails.not_alive h hcarriers hstands trivial).elim

/-- The handler at the front of the queue does not throw. -/
theorem Alive.exists_handle (hplaced : Placed s.loop) (hstands : Stands s (carriers s.loop))
    (h : Alive s) {handler : Handler} (hcarriers : carriers s.loop = [.inl handler]) :
    ∃ s', s.handle = some s' := by
  have hready : s.loop.ready ≠ [] := by
    intro hready
    have hmem : Sum.inl handler ∈ carriers s.loop := hcarriers ▸ List.mem_singleton_self _
    simp [carriers, strand, hready] at hmem
  obtain ⟨first, ready, hcons⟩ := List.exists_cons_of_ne_nil hready
  have hnext : s.loop.next = some (first, { s.loop with ready }) :=
    Loop.next_eq_some.mpr ⟨h.quiet.stopped, hcons, rfl, rfl⟩
  rw [State.handle, hnext]
  cases first with
  | write | writeCompleted | periodCompleted | timeoutCompleted | stop | cancel => exact ⟨_, rfl⟩
  | readCompleted ec =>
      obtain ⟨hcarriers', -⟩ := hplaced.takes rfl hnext
      have hon := h.on
      rw [hcarriers'] at hstands hon
      cases ec with
      | true => exact hon.elim
      | false =>
          obtain ⟨hunanswered, hbuffer⟩ := hstands
          have hread := deserialize_message hunanswered.told default
          rw [← hbuffer rfl, h.status] at hread
          simp only [State.handler, State.readCompleted, h.stopped, Bool.false_eq_true, if_false,
            State.answered, State.noteTimeout, State.cancelTimeout, hread]
          exact ⟨_, rfl⟩

theorem pending_of_carriers {loop : Events} {op : Op} (h : carriers loop = [.inr op]) :
    op ∈ loop.pending :=
  (List.mem_filter.mp ((strand_eq_inr h).2 ▸ List.mem_singleton_self op)).1

/-- The thread is in no handler where the carrier is none that blocks it. -/
theorem blocked_eq_false {loop : Events} {carrier : Handler ⊕ Op} (h : carriers loop = [carrier])
    (hne : ∀ op, carrier = .inr op → op.blocks = false) : blocked loop = false := by
  rw [blocked, List.any_eq_false]
  intro op hmem hblocks
  have htimeout : op.isTimeout = false := by
    cases op with
    | timeout => cases hblocks
    | connect | write | waitRead | read | period => rfl
  have hcarrier := mem_carriers_of_pending hmem htimeout
  rw [h, List.mem_singleton] at hcarrier
  rw [hne op hcarrier.symm] at hblocks
  cases hblocks

theorem returnFrom_of_carriers {op : Op} (h : carriers s.loop = [.inr op]) :
    s.returnFrom op = some { s with loop := { s.loop with pending := s.loop.pending.erase op } } :=
  if_pos (pending_of_carriers h)

theorem complete_of_carriers {loop : Events} {op : Op} {handler : Handler}
    (h : carriers loop = [.inr op]) (hchain : chain.handler handler = true) :
    ∃ loop', loop.complete op handler = some loop' ∧ carriers loop' = [.inl handler] := by
  have hloop : loop.complete op handler = some _ :=
    Loop.complete_eq_some.mpr ⟨pending_of_carriers h, rfl⟩
  exact ⟨_, hloop, strand_complete h hchain hloop⟩

variable (keys)

/-- A step that does not fail brings the heartbeat nearer to the next one that is sent. -/
def Nears (s : State) : Prop :=
  ∃ a s', Unfailing a s ∧ step keys a s = some s' ∧ s'.sent = s.sent ∧ rank s' < rank s

/-- The thread inside `run` does it. -/
theorem step_thread {carrier : Handler ⊕ Op} (hruns : s.pc = .runs)
    (hcarriers : carriers s.loop = [carrier]) (hne : ∀ op, carrier = .inr op → op.blocks = false)
    {a : Action}
    (ha : a = .handle ∨ (∃ n, a = .write n) ∨ (∃ n, a = .read n) ∨ a = .periodExpires) :
    step keys a s = threadStep s a := by
  have hblocked := blocked_eq_false hcarriers hne
  rcases ha with rfl | ⟨n, rfl⟩ | ⟨n, rfl⟩ | rfl
  all_goals exact if_pos ⟨hruns, hblocked⟩

theorem exists_handle_lt (hplaced : Placed s.loop) (hstands : Stands s (carriers s.loop))
    (h : Alive s) (hruns : s.pc = .runs) {handler : Handler}
    (hcarriers : carriers s.loop = [.inl handler]) : Nears keys s := by
  obtain ⟨s', hs'⟩ := h.exists_handle hplaced hstands hcarriers
  have hstep : step keys .handle s = some s' :=
    (step_thread keys hruns hcarriers (fun _ heq => by cases heq) (.inl rfl)).trans hs'
  exact ⟨.handle, s', trivial, hstep, h.handle_lt hstands (step_progress hplaced hstep)⟩

theorem exists_write_lt (hruns : s.pc = .runs) (hcarriers : carriers s.loop = [.inr .write]) :
    Nears keys s := by
  obtain ⟨loop, hloop, hcarriers'⟩ := complete_of_carriers hcarriers
    (rfl : chain.handler (.writeCompleted false) = true)
  refine ⟨.write s.unwritten.length, { s with
    loop
    unwritten := []
    link := { s.link with handed := s.link.handed ++ s.unwritten } }, trivial, ?_, rfl,
    rank_lt rfl rfl ?_⟩
  · rw [step_thread keys hruns hcarriers (fun op heq => by cases heq; rfl)
      (.inr (.inl ⟨_, rfl⟩)), threadStep, State.writeSome,
      if_pos ⟨pending_of_carriers hcarriers, Nat.le_refl _⟩]
    simp [State.complete, hloop]
  · show ahead (carriers loop) < _
    rw [hcarriers, hcarriers']
    decide

theorem exists_waitRead_lt (hruns : s.pc = .runs) (hcarriers : carriers s.loop = [.inr .waitRead]) :
    Nears keys s := by
  have hstep : step keys (.waitRead false) s = some (State.waitedRead
      { s with loop := { s.loop with pending := s.loop.pending.erase .waitRead } } false) := by
    rw [step, if_pos hruns, returnFrom_of_carriers hcarriers]
    rfl
  refine ⟨.waitRead false, _, rfl, hstep, rfl, rank_lt rfl rfl ?_⟩
  show ahead (carriers (Loop.start _ .read)) < _
  rw [hcarriers, carriers_start (strand_erase hcarriers) rfl]
  decide

theorem exists_period_lt (hruns : s.pc = .runs) (hcarriers : carriers s.loop = [.inr .period]) :
    Nears keys s := by
  obtain ⟨loop, hloop, hcarriers'⟩ := complete_of_carriers hcarriers
    (rfl : chain.handler (.periodCompleted false) = true)
  refine ⟨.periodExpires, { s with loop }, trivial, ?_, rfl, rank_lt rfl rfl ?_⟩
  · rw [step_thread keys hruns hcarriers (fun op heq => by cases heq; rfl)
      (.inr (.inr (.inr rfl))), threadStep, State.complete, hloop]
  · show ahead (carriers loop) < _
    rw [hcarriers, hcarriers']
    decide

/-- The acceptor is done with a heartbeat that it has got. -/
theorem exists_accept (hserved : s.link.served = false) (hfound : Tcp.found s.link.handed = true)
    (hne : s.link.handed ≠ []) (_header : HEADER) :
    ∃ connection link, link.served = true ∧
      s.accept keys _header connection = some { s with link } := by
  let connection : Connection := ⟨[s.link.handed], true, true, ClosedConnection.drawn⟩
  have hserves : s.link.served = false ∧ Tcp.found s.link.handed = true ∧
      connection.chunks.flatten = s.link.handed ∧ connection.chunks.any List.isEmpty = false := by
    refine ⟨hserved, hfound, List.append_nil _, List.any_eq_false.mpr fun chunk hchunk => ?_⟩
    rw [List.mem_singleton.mp hchunk, List.isEmpty_iff]
    exact hne
  refine ⟨connection, ?_⟩
  rw [State.accept, if_pos hserves]
  split
  next => exact ⟨_, rfl, rfl⟩
  next => exact ⟨_, rfl, rfl⟩

/-- The acceptor answers, or the answer is read. -/
theorem exists_read_lt (hstands : Stands s (carriers s.loop)) (hruns : s.pc = .runs)
    (hcarriers : carriers s.loop = [.inr .read]) : Nears keys s := by
  rw [hcarriers] at hstands
  have hfound {buffer : Bytes} (heq : buffer = message (heartbeat s._status)) :
      Tcp.found buffer = true :=
    Tcp.found_iff.mpr (heq ▸ (List.suffix_append _ _).isInfix)
  cases hstands.2 with
  | up hhanded hserved hincoming hbuffer =>
      rw [List.append_nil] at hhanded
      have hne : s.link.handed ≠ [] := by
        rw [hhanded]
        exact List.append_ne_nil_of_right_ne_nil _ (by decide +kernel)
      obtain ⟨connection, link, hserved', haccept⟩ :=
        exists_accept keys hserved (hfound hhanded) hne (heartbeat .NONE)
      refine ⟨.accept (heartbeat .NONE) connection, { s with link }, trivial, haccept, rfl, ?_⟩
      rw [rank, rank, Prod.Lex.toLex_lt_toLex, hserved, hserved']
      exact .inl (Nat.lt_succ_self _)
  | down hunwritten hserved hincoming =>
      obtain ⟨loop, hloop, hcarriers'⟩ := complete_of_carriers hcarriers
        (rfl : chain.handler (.readCompleted false) = true)
      refine ⟨.read s.link.incoming.length, { s with
        loop
        _heartbeatBuffer := s._heartbeatBuffer ++ s.link.incoming
        link := { s.link with incoming := [] } }, trivial, ?_, rfl, rank_lt rfl rfl ?_⟩
      · rw [step_thread keys hruns hcarriers (fun op heq => by cases heq; rfl)
          (.inr (.inr (.inl ⟨_, rfl⟩))), threadStep, State.readSome,
          if_pos ⟨pending_of_carriers hcarriers, Nat.le_refl _⟩]
        simp [State.complete, hloop, hfound hincoming]
      · show ahead (carriers loop) < _
        rw [hcarriers, hcarriers']
        decide

/-- The connection comes about, and the next heartbeat is sent. -/
theorem exists_connect (hruns : s.pc = .runs) (hcarriers : carriers s.loop = [.inr .connect]) :
    ∃ a s', Unfailing a s ∧ step keys a s = some s' ∧
      s'.sent = s.sent ++ [heartbeat s._status] := by
  let stack : { bytes : Bytes // bytes.length = HEADER_SIZE } :=
    ⟨List.replicate HEADER_SIZE 0, List.length_replicate ..⟩
  have hstep : step keys (.connect (.connects HEADER_SIZE stack)) s = some (State.connected
      { s with loop := { s.loop with pending := s.loop.pending.erase .connect } }
      (.connects HEADER_SIZE stack)) := by
    rw [step, if_pos hruns, returnFrom_of_carriers hcarriers]
    rfl
  exact ⟨.connect _, _, ⟨HEADER_SIZE, stack, rfl, Nat.le_refl _⟩, hstep, rfl⟩

/-- What a heartbeat waits for comes, up to the point where the next one is sent. -/
theorem Alive.exists_lt (hplaced : Placed s.loop) (hstands : Stands s (carriers s.loop))
    (h : Alive s) : carriers s.loop = [.inr .connect] ∧ s.pc = .runs ∨ Nears keys s := by
  by_cases hqueued : s.pc = .queued
  · refine .inr ⟨.run, { s with pc := .runs }, trivial, if_pos hqueued, rfl, ?_⟩
    rw [rank, rank, Prod.Lex.toLex_lt_toLex, hqueued]
    left
    show ahead (carriers s.loop) + 0 + (if s.link.served then 0 else 1) <
      ahead (carriers s.loop) + 1 + (if s.link.served then 0 else 1)
    omega
  have hruns : s.pc = .runs := by
    have hpc := h.pc
    cases heq : s.pc with
    | queued => exact absurd heq hqueued
    | runs => rfl
    | returned => exact absurd heq hpc
  have hon := h.on
  unfold GoesOn at hon
  split at hon
  next hcarriers => exact .inr (exists_handle_lt keys hplaced hstands h hruns hcarriers)
  next hcarriers => exact .inr (exists_period_lt keys hruns hcarriers)
  next hcarriers => exact .inr (exists_handle_lt keys hplaced hstands h hruns hcarriers)
  next hcarriers => exact .inl ⟨hcarriers, hruns⟩
  next hcarriers => exact .inr (exists_write_lt keys hruns hcarriers)
  next hcarriers => exact .inr (exists_handle_lt keys hplaced hstands h hruns hcarriers)
  next hcarriers => exact .inr (exists_waitRead_lt keys hruns hcarriers)
  next hcarriers => exact .inr (exists_read_lt keys hstands hruns hcarriers)
  next hcarriers => exact .inr (exists_handle_lt keys hplaced hstands h hruns hcarriers)
  next => exact hon.elim

variable {keys}

/-- A heartbeat that goes on, with all that holds of it. -/
structure Going (s : State) : Prop where
  placed : Placed s.loop
  stands : Stands s (carriers s.loop)
  alive : Alive s

theorem Going.step {a : Action} (h : Going s) (ha : Unfailing a s)
    (hs : TcpClientHeartbeat.step keys a s = some s') : Going s' := by
  have hprogress := step_progress h.placed hs
  exact ⟨h.placed.step hprogress, h.stands.step h.placed (byAcceptor_of_unfailing ha) hprogress,
    h.alive.step h.stands ha hprogress⟩

theorem Reached.going (hs : Reached keys Unfailing s) : Going s := by
  refine Runs.Reached.invariant (P := Going) ?_ (fun h ha hstep => h.step ha hstep) hs
  exact ⟨@Reached.placed keys Unfailing _ .start, @Reached.stands keys _ .start, .initial⟩

/-- Where nothing fails, no answer is late and nobody stops it, the heartbeat has nothing to
tell and does not end: from each state, what is under way leads to one heartbeat more. -/
theorem heartbeat_goesOn (hs : Reached keys Unfailing s) :
    s.pc ≠ .returned ∧ s._status = .NONE ∧ (carriers s.loop).length = 1 ∧
      ∃ s', Relation.ReflTransGen (fun s s' => ∃ a, Unfailing a s ∧ step keys a s = some s') s s' ∧
        s'.sent = s.sent ++ [heartbeat .NONE] := by
  have hgoing := hs.going
  have hlength : (carriers s.loop).length = 1 := by
    refine Nat.le_antisymm hgoing.placed.alone (Nat.pos_of_ne_zero fun hzero => ?_)
    have hon := hgoing.alive.on
    rw [List.length_eq_zero_iff.mp hzero] at hon
    exact hon
  refine ⟨hgoing.alive.pc, hgoing.alive.status, hlength, ?_⟩
  have hnearer : ∀ t, Going t ∧ t.sent = s.sent →
      (carriers t.loop = [.inr .connect] ∧ t.pc = .runs ∧ t._status = .NONE ∧ t.sent = s.sent) ∨
        ∃ t', (∃ a, Unfailing a t ∧ step keys a t = some t') ∧ (Going t' ∧ t'.sent = s.sent) ∧
          rank t' < rank t := by
    rintro t ⟨hgoing, hsent⟩
    rcases hgoing.alive.exists_lt keys hgoing.placed hgoing.stands with
      ⟨hcarriers, hruns⟩ | ⟨a, t', ha, hstep, hsent', hlt⟩
    · exact .inl ⟨hcarriers, hruns, hgoing.alive.status, hsent⟩
    · exact .inr ⟨t', ⟨a, ha, hstep⟩, ⟨hgoing.step ha hstep, hsent'.trans hsent⟩, hlt⟩
  obtain ⟨t, hsteps, hcarriers, hruns, hstatus, hsent⟩ :=
    Runs.exists_reflTransGen_of_lt rank hnearer s ⟨hgoing, rfl⟩
  obtain ⟨a, s', ha, hstep, hsent'⟩ := exists_connect keys hruns hcarriers
  exact ⟨s', hsteps.tail ⟨a, ha, hstep⟩, by rw [hsent', hstatus, hsent]⟩

theorem heartbeat_goesOn_oneHeartbeat :
    ∃ s : State, (s.sent, s.echoed) = ([heartbeat .NONE], [heartbeat .NONE]) ∧
      s.pc ≠ .returned ∧ s._status = .NONE ∧ (carriers s.loop).length = 1 ∧
      ∃ s', Relation.ReflTransGen
        (fun s s' => ∃ a, Unfailing a s ∧ step ClosedConnection.libraries a s = some s') s s' ∧
        s'.sent = s.sent ++ [heartbeat .NONE] := by
  obtain ⟨s, hs, hrun⟩ := OneHeartbeat.exists_run
  exact ⟨s, hrun, heartbeat_goesOn hs⟩

/-! ## The heartbeat ends -/

/-- What is still sent by a heartbeat that was stopped. -/
def due : List (Handler ⊕ Op) → Nat
  | [.inl .write] | [.inr .connect] => 1
  | _ => 0

/-- What there is of a heartbeat that was stopped, where this many have been sent at most: the
timers are canceled or going to be. -/
structure Ending (sent : Nat) (s : State) : Prop where
  placed : Placed s.loop
  stopped : s._stopped = true
  timers : .cancel ∈ s.loop.ready ∨ NoTimers s.loop ∧ carriers s.loop ≠ [.inl .write]
  sent : s.sent.length + due (carriers s.loop) ≤ sent

section Ending

variable {sent : Nat}

/-- The timers that are canceled do not send. -/
theorem due_canceled {strand : List (Handler ⊕ Op)} (h : strand.length ≤ 1) :
    due (strand.map (canceled Op.isTimer Op.aborted)) = due strand := by
  match strand, h with
  | [], _ => rfl
  | [.inl handler], _ => rfl
  | [.inr op], _ => cases op <;> rfl

theorem ready_of_canceled {loop : Events}
    (h : (carriers loop).map (canceled Op.isTimer Op.aborted) = [.inl .write]) :
    .write ∈ loop.ready := by
  obtain ⟨carrier, hcarriers, heq⟩ := List.map_eq_singleton_iff.mp h
  have hmem : carrier ∈ carriers loop := hcarriers ▸ List.mem_singleton_self _
  cases carrier with
  | inl handler =>
      obtain rfl := Sum.inl.inj heq
      simpa [carriers, strand, chain] using hmem
  | inr op => cases op <;> cases heq

/-- A step that leaves the timers alone. -/
theorem Ending.keeps (h : Ending sent s) (hplaced : Placed s'.loop) (hstopped : s'._stopped = true)
    (hkeeps : Keeps s.loop s'.loop)
    (hcarriers : carriers s.loop ≠ [.inl .write] → carriers s'.loop ≠ [.inl .write])
    (hsent : s'.sent.length + due (carriers s'.loop) ≤ s.sent.length + due (carriers s.loop)) :
    Ending sent s' where
  placed := hplaced
  stopped := hstopped
  timers := h.timers.imp hkeeps.cancel fun ⟨htimers, hne⟩ => ⟨hkeeps.timers htimers, hcarriers hne⟩
  sent := hsent.trans h.sent

/-- The carrier is left alone, too. -/
theorem Ending.aside {loop : Events} (h : Ending sent s) (hplaced : Placed loop)
    (hkeeps : Keeps s.loop loop) (hcarriers : carriers loop = carriers s.loop) :
    Ending sent { s with loop } := by
  refine h.keeps hplaced h.stopped hkeeps ?_ ?_
  · show _ → carriers loop ≠ _
    rw [hcarriers]
    exact id
  · show s.sent.length + due (carriers loop) ≤ _
    rw [hcarriers]

/-- The heartbeat is handed on and is not sent. -/
theorem Ending.goes (h : Ending sent s) {carrier carrier' : Handler ⊕ Op}
    (hgoes : Goes s.loop s'.loop carrier carrier') (hstopped : s'._stopped = s._stopped)
    (hsent : s'.sent = s.sent) (hne : carrier' ≠ .inl .write) (hdue : due [carrier'] = 0) :
    Ending sent s' := by
  refine h.keeps (hgoes.placed hne) (hstopped.trans h.stopped) hgoes.keeps (fun _ heq => ?_) ?_
  · rw [hgoes.behind] at heq
    exact hne (List.singleton_inj.mp heq)
  · rw [hsent, hgoes.behind, hdue]
    omega

theorem Ending.step {a : Action} (h : Ending sent s) (hs : Progress keys s a s') :
    Ending sent s' := by
  have hplaced : Placed s'.loop := h.placed.step hs
  cases hs with
  | runs | returns | accepts | arrives | hands | reads =>
      exact ⟨h.placed, h.stopped, h.timers, h.sent⟩
  | stops => exact { h.aside hplaced (.post s.loop .cancel) (strand_post_of_not rfl) with
      stopped := rfl }
  | @stopsItself loop hnext =>
      have hkeeps : Keeps s.loop (loop.post .cancel) :=
        (Keeps.next (fun heq => by cases heq) hnext).trans (.post loop .cancel)
      have hcarriers : carriers (loop.post .cancel) = carriers s.loop :=
        (strand_post_of_not rfl).trans (carriers_next rfl hnext)
      exact { h.aside hplaced hkeeps hcarriers with stopped := rfl }
  | @cancels loop hnext =>
      obtain ⟨hplaced', hcarriers, hnot⟩ := h.placed.next rfl hnext
      have hcarriers' : carriers (loop.cancel Op.isTimer Op.aborted) =
          (carriers s.loop).map (canceled Op.isTimer Op.aborted) :=
        (carriers_cancelTimers hplaced'.alone).trans (hcarriers ▸ rfl)
      refine ⟨hplaced, h.stopped, .inr ⟨noTimers_cancel loop _, fun heq => ?_⟩, ?_⟩
      · have hbehind : carriers (loop.cancel Op.isTimer Op.aborted) = [.inl .write] := heq
        rw [hcarriers', ← hcarriers] at hbehind
        exact hnot (ready_of_canceled hbehind)
      · show s.sent.length + due (carriers (loop.cancel Op.isTimer Op.aborted)) ≤ sent
        rw [hcarriers', due_canceled h.placed.alone]
        exact h.sent
  | passes hnext =>
      exact h.aside hplaced (.next (fun heq => by cases heq) hnext) (carriers_next rfl hnext)
  | expires hloop =>
      exact h.aside hplaced (.complete hloop) (strand_complete_of_not rfl rfl hloop)
  | @begins handler loop hcarriers hhandler hcarriers' _ hcancel =>
      rcases hhandler with rfl | ⟨-, hstopped⟩
      · refine ⟨hplaced, h.stopped, ?_, ?_⟩
        · exact h.timers.imp hcancel fun htimers => absurd hcarriers htimers.2
        · have hsent := h.sent
          rw [hcarriers] at hsent
          show s.sent.length + due (carriers loop) ≤ sent
          rw [hcarriers']
          exact hsent
      · rw [h.stopped] at hstopped
        cases hstopped
  | @connects taken stack loop hgoes =>
      refine h.keeps hplaced h.stopped hgoes.keeps (fun _ heq => ?_) ?_
      · have hbehind : carriers loop = [.inl .write] := heq
        rw [hgoes.behind] at hbehind
        cases hbehind
      · show (s.sent ++ [heartbeat s._status]).length + due (carriers loop) ≤ _
        rw [hgoes.behind, hgoes.before, List.length_append]
        exact Nat.le_refl _
  | wrote hgoes | writeFails hgoes | waits hgoes | waited hgoes | hasRead hgoes | readFails hgoes
  | periodEnds hgoes => exact h.goes hgoes rfl rfl (fun heq => by cases heq) rfl
  | takes _ hstopped =>
      rw [h.stopped] at hstopped
      cases hstopped
  | @ends a carrier loop pc _status hfails hcarriers hnil hkeeps =>
      refine h.keeps hplaced h.stopped hkeeps (fun _ heq => ?_) ?_
      · have hbehind : carriers loop = [.inl .write] := heq
        rw [hnil] at hbehind
        cases hbehind
      · show s.sent.length + due (carriers loop) ≤ _
        rw [hnil]
        exact Nat.add_le_add_left (Nat.zero_le _) _

/-- Where nothing is ready, a heartbeat that was stopped is at its end or waits for the
network. -/
theorem Ending.returns (h : Ending sent s) (hready : s.loop.ready = []) :
    s.loop.returns = true ∨ ∃ op, op.isTimer = false ∧ s.loop.pending = [op] := by
  have htimers : NoTimers s.loop := by
    rcases h.timers with hmem | ⟨htimers, -⟩
    · rw [hready] at hmem
      cases hmem
    · exact htimers
  have hall : s.loop.pending.filter chain.op = s.loop.pending := by
    refine List.filter_eq_self.mpr fun op hmem => ?_
    have htimer := htimers op hmem
    cases op with
    | period | timeout => cases htimer
    | connect | write | waitRead | read => rfl
  have halone := h.placed.alone
  rw [carriers, strand, hready, hall, List.filter_nil, List.map_nil, List.nil_append,
    List.length_map] at halone
  cases hpending : s.loop.pending with
  | nil =>
      left
      rw [Loop.returns, hready, hpending]
      exact Bool.or_true _
  | cons op ops =>
      right
      rw [hpending, List.length_cons] at halone
      obtain rfl : ops = [] := List.length_eq_zero_iff.mp (by omega)
      exact ⟨op, htimers op (hpending ▸ List.mem_cons_self ..), rfl⟩

end Ending

/-- Where the heartbeat is stopped, the timers are going to be canceled. -/
theorem cancel_of_stops {a : Action} (hs : Progress keys s a s') (hnot : s._stopped = false)
    (hstopped : s'._stopped = true) : .cancel ∈ s'.loop.ready := by
  cases hs with
  | stops | stopsItself => exact List.mem_append_right _ (List.mem_singleton_self _)
  | runs | returns | accepts | arrives | cancels | passes | expires | begins | connects | hands
  | wrote | writeFails | waits | waited | reads | hasRead | readFails | takes | periodEnds | ends =>
      exact absurd (hnot.symm.trans hstopped) Bool.false_ne_true

/-- What is sent by then, and what still is. -/
theorem Reached.ending (hs : Reached keys allowed s) :
    s._stopped = true → Ending (s.sent.length + due (carriers s.loop)) s := by
  refine Runs.Reached.invariant_of (P := fun s => s._stopped = true →
    Ending (s.sent.length + due (carriers s.loop)) s) (fun hs => Reached.placed hs) ?_ ?_ hs
  · intro hstopped
    cases hstopped
  · intro a s s' hplaced h _ hstep hstopped'
    have hprogress := step_progress hplaced hstep
    refine ⟨hplaced.step hprogress, hstopped', ?_, Nat.le_refl _⟩
    cases hstopped : s._stopped with
    | false => exact .inl (cancel_of_stops hprogress hstopped hstopped')
    | true => exact ((h hstopped).step hprogress).timers

/-- Once it was stopped, one heartbeat is sent at most, and the thread waits for no timer: where
nothing is ready it is at its end or blocked for the network. -/
theorem heartbeat_ends (hs : Reached keys allowed s) (hstopped : s._stopped = true)
    (hrun : Runs.Reached (step keys) allowed s s') :
    s'.sent.length ≤ s.sent.length + 1 ∧ (s'.loop.ready = [] →
      s'.loop.returns = true ∨ ∃ op, op.isTimer = false ∧ s'.loop.pending = [op]) := by
  have hending : Ending (s.sent.length + due (carriers s.loop)) s' :=
    hrun.invariant (hs.ending hstopped) fun h _ hstep => h.step (step_progress h.placed hstep)
  have hdue : due (carriers s.loop) ≤ 1 := by
    unfold due
    split
    · exact Nat.le_refl _
    · exact Nat.le_refl _
    · exact Nat.zero_le _
  have hsent := hending.sent
  exact ⟨by omega, hending.returns⟩

namespace OneHeartbeat

/-- The heartbeat is stopped while the second connection is being made. -/
def stopping : List Action := actions ++ [.periodExpires, .handle, .handle, .stop]

def stopped : List Action := [connects, .handle, .handle]

/-- The second heartbeat is sent all the same. -/
theorem exists_stoppedRun : ∃ s s' : State,
    Reached ClosedConnection.libraries (fun _ _ => True) s ∧
    Runs.Reached (step ClosedConnection.libraries) (fun _ _ => True) s s' ∧
    (s._stopped, s.sent.length) = (true, 1) ∧ (s'.sent.length, s'.loop.ready) = (2, []) := by
  have hrun : ((stopping.foldlM (fun s a =>
      if True then step ClosedConnection.libraries a s else none) State.initial).bind fun s =>
        (stopped.foldlM (fun s a =>
          if True then step ClosedConnection.libraries a s else none) s).map fun (s' : State) =>
            ((s._stopped, s.sent.length), (s'.sent.length, s'.loop.ready))) =
      some ((true, 1), (2, [])) := by
    decide +kernel
  obtain ⟨s, hs, hrun⟩ := Option.bind_eq_some_iff.mp hrun
  obtain ⟨s', hs', hseen⟩ := Option.map_eq_some_iff.mp hrun
  obtain ⟨hstopped, hended⟩ := Prod.mk.inj hseen
  exact ⟨s, s', Runs.reached_of_foldlM _ hs, Runs.reached_of_foldlM _ hs', hstopped, hended⟩

end OneHeartbeat

theorem heartbeat_ends_oneHeartbeat :
    ∃ s s' : State, s.sent.length = 1 ∧ s'.sent.length = 2 ∧ s'.loop.ready = [] ∧
      s'.sent.length ≤ s.sent.length + 1 ∧ (s'.loop.ready = [] →
        s'.loop.returns = true ∨ ∃ op, op.isTimer = false ∧ s'.loop.pending = [op]) := by
  obtain ⟨s, s', hs, hs', hbefore, hafter⟩ := OneHeartbeat.exists_stoppedRun
  obtain ⟨hstopped, hsent⟩ := Prod.mk.inj hbefore
  obtain ⟨hsent', hready⟩ := Prod.mk.inj hafter
  exact ⟨s, s', hsent, hsent', hready, heartbeat_ends hs hstopped hs'⟩

end ClientServer.TcpClientHeartbeat
