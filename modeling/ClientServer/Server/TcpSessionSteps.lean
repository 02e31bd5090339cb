import ClientServer.Server.TcpSession

/-!
# What a step of a TCP session does

A session has one handler posted or one operation under way that carries it on, or
none.  `Progress` says for every step what carried the session before, what does
behind it and what else the step changed, `step_progress` that there are no others.
-/

namespace ClientServer.TcpSession

open EventLoop cryptooperations

/-! ## The carrier and the timer -/

/-- What carries the session on. -/
def carriers (loop : Events) : List (Handler ⊕ Op) := strand chain loop

/-- The session is over; a wait that is left is going to be canceled. -/
def Over (loop : Events) : Prop :=
  carriers loop = [] ∧ (waits loop = 0 ∨ waits loop = 1 ∧ .cancel ∈ loop.ready)

section Loops

variable {loop loop' : Events} {handler : Handler} {op : Op}

theorem chain_op (op : Op) : chain.op op = !op.isWait := by cases op <;> rfl

theorem carriers_post (h : carriers loop = []) (hhandler : chain.handler handler = true) :
    carriers (loop.post handler) = [.inl handler] := strand_post_of_nil h hhandler

theorem carriers_post_cancel (loop : Events) : carriers (loop.post .cancel) = carriers loop :=
  strand_post_of_not rfl

theorem carriers_start (h : carriers loop = []) (hop : op.isWait = false) :
    carriers (loop.start op) = [.inr op] :=
  strand_start_of_nil h (by rw [chain_op, hop, Bool.not_false])

/-- The timer is no part of the chain. -/
theorem carriers_cancel (loop : Events) (handlerOf : Op → Bool) :
    carriers (loop.cancel Op.isWait fun op => .waitCompleted (handlerOf op)) = carriers loop :=
  strand_cancel (fun op h => by rw [chain_op, h, Bool.not_true]) fun _ _ => rfl

theorem carriers_start_wait (loop : Events) : carriers (loop.start .wait) = carriers loop :=
  strand_start_of_not rfl

@[simp] theorem waits_post (loop : Events) (handler : Handler) :
    waits (loop.post handler) = waits loop := rfl

theorem waits_start (loop : Events) (op : Op) :
    waits (loop.start op) = waits loop + if op.isWait then 1 else 0 := by
  simp [waits, Loop.start, List.countP_append, List.countP_singleton]

@[simp] theorem waits_cancel (loop : Events) (handlerOf : Op → Handler) :
    waits (loop.cancel Op.isWait handlerOf) = 0 := by
  simp [waits, Loop.cancel, List.countP_eq_zero]

/-- The end of an operation leaves no more waits than there were. -/
theorem waits_complete (h : loop.complete op handler = some loop') : waits loop' ≤ waits loop := by
  obtain ⟨-, rfl⟩ := Loop.complete_eq_some.mp h
  exact (List.erase_sublist ..).countP_le

theorem waits_next (h : loop.next = some (handler, loop')) : waits loop' = waits loop := by
  rw [waits, waits, (Loop.next_eq_some.mp h).2.2.1]

/-- An error is told to the timer. -/
theorem over_post_cancel (hnil : carriers loop = []) (hwaits : waits loop ≤ 1) :
    Over (loop.post .cancel) := by
  refine ⟨(carriers_post_cancel loop).trans hnil, ?_⟩
  rw [waits_post]
  rcases Nat.eq_zero_or_pos (waits loop) with hzero | hpos
  · exact .inl hzero
  · exact .inr ⟨by omega, List.mem_append_right _ (List.mem_singleton.mpr rfl)⟩

end Loops

/-! ## The steps -/

/-- How many waits for the timer there may be, by what carries the session: one from
`sendReply` to the end of the write. -/
def Placed (loop : Events) : List (Handler ⊕ Op) → Prop
  | [] => waits loop = 0 ∨ waits loop = 1 ∧ .cancel ∈ loop.ready
  | [.inl (.write _ _)] | [.inr .write] | [.inl (.writeCompleted _)] => waits loop ≤ 1
  | [_] => waits loop = 0
  | _ => False

/-- What is done leaves the carrier alone, and may end a wait. -/
structure Beside (loop loop' : Events) : Prop where
  carriers : carriers loop' = carriers loop
  waits : waits loop' ≤ waits loop
  cancel : .cancel ∈ loop.ready → TcpSession.waits loop' = 0 ∨ .cancel ∈ loop'.ready

/-- What an action does, and what it found. -/
inductive Progress (setup : SessionSetup) (s : State) : Action → State → Prop where
  | arrives (chunk : Bytes) : Progress setup s (.arrive chunk)
      { s with socket := { s.socket with incoming := s.socket.incoming ++ chunk } }
  | departs (n : Nat) : Progress setup s (.depart n)
      { s with socket := { s.socket with outgoing := s.socket.outgoing.drop n } }
  | runs : s.pc = .queued → Progress setup s .run s.run
  | returns : s.pc = .runs → s.loop.returns = true →
      Progress setup s .finish { s with pc := .returned }
  | beside {a : Action} {loop : Events} : Beside s.loop loop → Progress setup s a { s with loop }
  | startsRead {input : Input} {loop : Events} :
      carriers s.loop = [.inl .readRequest] → carriers loop = [.inr .read] → waits loop = 0 →
      Progress setup s (.handle input) { s with loop }
  | readFails {loop : Events} :
      carriers s.loop = [.inr .read] → carriers loop = [.inl (.readCompleted true 0)] →
      waits loop ≤ waits s.loop → Progress setup s .readFails { s with loop }
  | reads {n : Nat} :
      carriers s.loop = [.inr .read] → n ≤ s.socket.incoming.length →
      Text.find ENDOFMESSAGE (s._request ++ s.socket.incoming.take n) = none →
      Progress setup s (.read n) { s with
        _request := s._request ++ s.socket.incoming.take n
        socket := { s.socket with incoming := s.socket.incoming.drop n } }
  | hasRead {n pos : Nat} {loop : Events} :
      carriers s.loop = [.inr .read] → n ≤ s.socket.incoming.length →
      Text.find ENDOFMESSAGE (s._request ++ s.socket.incoming.take n) = some pos →
      carriers loop = [.inl (.readCompleted false (pos + ENDOFMESSAGESZ))] →
      waits loop ≤ waits s.loop →
      Progress setup s (.read n) { s with
        loop
        _request := s._request ++ s.socket.incoming.take n
        socket := { s.socket with incoming := s.socket.incoming.drop n }
        requests := s.requests ++ [s._request ++ s.socket.incoming.take n] }
  | responds {input : Input} {transferred : Nat} {loop : Events} {_buffer _request : Bytes}
      {_header : HEADER} {_responseData : Bytes} {taken : Events} :
      carriers s.loop = [.inl (.readCompleted false transferred)] →
      s.loop.next = some (.readCompleted false transferred, taken) →
      TcpSession.readRequest setup.lib setup.terminal setup.options.toDecryptionOptions
        input.work.buffer.bytes s._header s._request transferred =
          .ok (_buffer, _header, _request) →
      input.response = some _responseData →
      carriers loop = [.inl .sendReply] → waits loop = waits s.loop →
      Progress setup s (.handle input) { s with loop, _header, _request, _responseData }
  | replies {input : Input} {header : HEADER} {payload : Bytes} {loop : Events} :
      carriers s.loop = [.inl .sendReply] →
      Session.buildReply setup input.drawn input.work s._responseData s._status =
        .ok (header, payload) →
      payload ≠ [] → carriers loop = [.inl (.write header payload)] → waits loop = 1 →
      Progress setup s (.handle input) { s with loop }
  | writes {input : Input} {header : HEADER} {payload : Bytes} {loop taken : Events} :
      carriers s.loop = [.inl (.write header payload)] →
      s.loop.next = some (.write header payload, taken) →
      carriers loop = [.inr .write] → waits loop = waits s.loop →
      Progress setup s (.handle input) { s with
        loop
        socket := { s.socket with
          outgoing := s.socket.outgoing ++
            (sendMessage header payload [] [] []).take input.taken }
        unwritten := (input.stack.val ++ payload ++ ENDOFMESSAGE).drop input.taken
        replies := s.replies ++ [(header, payload)] }
  | hands {n : Nat} :
      carriers s.loop = [.inr .write] → n ≤ s.unwritten.length → s.unwritten.drop n ≠ [] →
      Progress setup s (.write n) { s with
        unwritten := s.unwritten.drop n
        socket := { s.socket with outgoing := s.socket.outgoing ++ s.unwritten.take n } }
  | wrote {n : Nat} {loop : Events} :
      carriers s.loop = [.inr .write] → n ≤ s.unwritten.length → s.unwritten.drop n = [] →
      carriers loop = [.inl (.writeCompleted false)] → waits loop ≤ waits s.loop →
      Progress setup s (.write n) { s with
        loop
        unwritten := s.unwritten.drop n
        socket := { s.socket with outgoing := s.socket.outgoing ++ s.unwritten.take n } }
  | writeFails {loop : Events} :
      carriers s.loop = [.inr .write] → carriers loop = [.inl (.writeCompleted true)] →
      waits loop ≤ waits s.loop → Progress setup s .writeFails { s with loop }
  | again {input : Input} {loop : Events} :
      carriers s.loop = [.inl (.writeCompleted false)] → carriers loop = [.inl .readRequest] →
      waits loop = 0 → Progress setup s (.handle input) { s with loop, _request := [] }
  | timesOut {input : Input} {loop : Events} :
      carriers s.loop = [.inl (.writeCompleted false)] → Over loop →
      Progress setup s (.handle input) { s with loop, _status := .TCP_TIMEOUT }
  | ends {input : Input} {handler : Handler} {loop : Events} {pc : Pc} {_header : HEADER}
      {_request : Bytes} :
      carriers s.loop = [.inl handler] → handler ≠ .writeCompleted false → Over loop →
      pc ≠ .queued →
      Progress setup s (.handle input) { s with loop, pc, _header, _request }

section Progress

variable {setup : SessionSetup} {s s' : State}

theorem Placed.eq_nil {loop : Events} {carrier : Handler ⊕ Op} {rest : List (Handler ⊕ Op)}
    (h : Placed loop (carrier :: rest)) : rest = [] := by
  unfold Placed at h
  split at h
  all_goals first | exact h.elim | simp_all

theorem Placed.waits_le {loop : Events} {strand : List (Handler ⊕ Op)}
    (h : Placed loop strand) : waits loop ≤ 1 := by
  unfold Placed at h
  split at h
  all_goals first | exact h.elim | omega

variable (h : Placed s.loop (carriers s.loop))
include h

/-- An operation of the chain that is under way is all that carries it. -/
theorem Placed.carriers_eq {op : Op} (hop : op.isWait = false) (hmem : op ∈ s.loop.pending) :
    carriers s.loop = [.inr op] := by
  have hmem' : .inr op ∈ carriers s.loop := by
    refine List.mem_append_right _ (List.mem_map_of_mem (List.mem_filter.mpr ⟨hmem, ?_⟩))
    rw [chain_op, hop, Bool.not_false]
  cases hcarriers : carriers s.loop with
  | nil =>
      rw [hcarriers] at hmem'
      cases hmem'
  | cons carrier rest =>
      rw [hcarriers] at h hmem'
      obtain rfl := h.eq_nil
      rw [List.mem_singleton.mp hmem']

/-- A handler of the chain was all that carried it. -/
theorem Placed.takes {handler : Handler} {loop : Events} (hchain : chain.handler handler = true)
    (hnext : s.loop.next = some (handler, loop)) :
    carriers s.loop = [.inl handler] ∧ carriers loop = [] ∧ waits loop = waits s.loop := by
  have hstrand := strand_next chain hnext
  rw [if_pos hchain] at hstrand
  rw [carriers, hstrand] at h
  have hnil : strand chain loop = [] := h.eq_nil
  exact ⟨by rw [carriers, hstrand, hnil], hnil, waits_next hnext⟩

/-! ### Handlers -/

section Handlers

variable {input : Input} {loop : Events} (hruns : s.pc = .runs)

omit h in
/-- What is no part of the chain is taken from the queue. -/
theorem beside_of_next {handler : Handler} (hchain : chain.handler handler = false)
    (hne : handler ≠ .cancel) (hnext : s.loop.next = some (handler, loop)) :
    Beside s.loop loop := by
  obtain ⟨-, hready, -, -⟩ := Loop.next_eq_some.mp hnext
  have hstrand := strand_next chain hnext
  rw [if_neg (by rw [hchain]; exact Bool.false_ne_true)] at hstrand
  refine ⟨hstrand.symm, Nat.le_of_eq (waits_next hnext), fun hmem => .inr ?_⟩
  rw [hready] at hmem
  exact List.mem_of_ne_of_mem hne.symm hmem

omit h in
theorem beside_of_cancel (hnext : s.loop.next = some (.cancel, loop)) :
    Beside s.loop (loop.cancel Op.isWait fun _ => .waitCompleted true) := by
  have hstrand := strand_next chain hnext
  rw [if_neg (by exact Bool.false_ne_true)] at hstrand
  refine ⟨(carriers_cancel loop _).trans hstrand.symm, ?_, fun _ => .inl (waits_cancel loop _)⟩
  rw [waits_cancel]
  exact Nat.zero_le _

theorem Progress.readRequest (hnext : s.loop.next = some (.readRequest, loop)) :
    Progress setup s (.handle input) { s with loop }.readRequest := by
  obtain ⟨hcarriers, hnil, -⟩ := h.takes rfl hnext
  have hwaits : waits (((loop.cancel Op.isWait fun _ => .waitCompleted true).start .wait).start
      .read) = 1 := by
    rw [waits_start, waits_start, waits_cancel]
    rfl
  have hnil' : carriers ((loop.cancel Op.isWait fun _ => .waitCompleted true).start .wait) = [] := by
    rw [carriers_start_wait, carriers_cancel, hnil]
  unfold State.readRequest
  dsimp only [State.asyncWait, State.cancelTimer, State.startOp]
  rw [hwaits, if_neg Nat.one_ne_zero]
  refine .startsRead hcarriers ?_ (waits_cancel _ _)
  rw [carriers_cancel, carriers_start hnil' rfl]

include hruns in
theorem Progress.readCompleted {ec : Bool} {transferred : Nat}
    (hnext : s.loop.next = some (.readCompleted ec transferred, loop))
    (hs : { s with loop }.readCompleted setup ec transferred input.work.buffer.bytes
      input.response = some s') : Progress setup s (.handle input) s' := by
  obtain ⟨hcarriers, hnil, hwaits⟩ := h.takes rfl hnext
  have hle : waits loop ≤ 1 := hwaits ▸ h.waits_le
  have hne : Handler.readCompleted ec transferred ≠ .writeCompleted false := fun heq => by cases heq
  have hpc : s.pc ≠ .queued := by simp [hruns]
  unfold State.readCompleted at hs
  cases ec with
  | true =>
      obtain rfl := Option.some.inj hs
      exact .ends hcarriers hne (over_post_cancel hnil hle) hpc
  | false =>
      have hzero : waits s.loop = 0 := by
        rw [hcarriers] at h
        exact h
      rw [if_neg Bool.false_ne_true] at hs
      cases hread : TcpSession.readRequest setup.lib setup.terminal
          setup.options.toDecryptionOptions input.work.buffer.bytes s._header s._request
          transferred with
      | error fault =>
          simp only [hread, State.throws] at hs
          split at hs
          next =>
            obtain rfl := Option.some.inj hs
            exact .ends hcarriers hne ⟨hnil, .inl (hwaits.trans hzero)⟩
              (fun heq : Pc.returned = .queued => by cases heq)
          next => cases hs
      | ok result =>
          obtain ⟨_buffer, _header, _request⟩ := result
          simp only [hread] at hs
          split at hs
          next _responseData hresponse =>
            obtain rfl := Option.some.inj hs
            exact .responds hcarriers hnext hread hresponse (carriers_post hnil rfl) hwaits
          next =>
            obtain rfl := Option.some.inj hs
            exact .ends hcarriers hne (over_post_cancel hnil hle) hpc

include hruns in
theorem Progress.sendReply (hnext : s.loop.next = some (.sendReply, loop))
    (hs : { s with loop }.sendReply setup input.drawn input.work = some s') :
    Progress setup s (.handle input) s' := by
  obtain ⟨hcarriers, hnil, hwaits⟩ := h.takes rfl hnext
  have hzero : waits s.loop = 0 := by
    rw [hcarriers] at h
    exact h
  have hover : Over loop := ⟨hnil, .inl (hwaits.trans hzero)⟩
  have hne : Handler.sendReply ≠ .writeCompleted false := fun heq => by cases heq
  unfold State.sendReply at hs
  cases hreply : Session.buildReply setup input.drawn input.work s._responseData s._status with
  | error fault =>
      simp only [hreply, State.throws] at hs
      split at hs
      next =>
        obtain rfl := Option.some.inj hs
        exact .ends hcarriers hne hover (fun heq : Pc.returned = .queued => by cases heq)
      next => cases hs
  | ok reply =>
      obtain ⟨header, payload⟩ := reply
      simp only [hreply] at hs
      split at hs
      next =>
        obtain rfl := Option.some.inj hs
        exact .ends hcarriers hne hover (by simp [hruns])
      next hpayload =>
        obtain rfl := Option.some.inj hs
        refine .replies hcarriers hreply hpayload (carriers_post ?_ rfl) ?_
        · rw [State.asyncWait, State.startOp, carriers_start_wait, State.cancelTimer,
            carriers_cancel, hnil]
        · rw [waits_post, State.asyncWait, State.startOp, waits_start, State.cancelTimer,
            waits_cancel]
          rfl

theorem Progress.write {header : HEADER} {payload : Bytes}
    (hnext : s.loop.next = some (.write header payload, loop)) :
    Progress setup s (.handle input)
      ({ s with loop }.write header payload input.taken input.stack.val) := by
  obtain ⟨hcarriers, hnil, hwaits⟩ := h.takes rfl hnext
  refine .writes hcarriers hnext (carriers_start hnil rfl) ?_
  show waits (loop.start .write) = waits s.loop
  rw [waits_start, hwaits]
  rfl

include hruns in
theorem Progress.writeCompleted {ec : Bool} (hnext : s.loop.next = some (.writeCompleted ec, loop)) :
    Progress setup s (.handle input) ({ s with loop }.writeCompleted ec) := by
  obtain ⟨hcarriers, hnil, hwaits⟩ := h.takes rfl hnext
  have hle : waits loop ≤ 1 := hwaits ▸ h.waits_le
  unfold State.writeCompleted
  cases ec with
  | true =>
      exact .ends hcarriers (fun heq => by cases heq) (over_post_cancel hnil hle) (by simp [hruns])
  | false =>
      rw [if_neg Bool.false_ne_true]
      have hcanceled : carriers (loop.cancel Op.isWait fun _ => .waitCompleted true) = [] := by
        rw [carriers_cancel, hnil]
      dsimp only
      split
      next => exact .timesOut hcarriers ⟨hcanceled, .inl (waits_cancel _ _)⟩
      next =>
        refine .again hcarriers (carriers_post hcanceled rfl) ?_
        rw [waits_post]
        exact waits_cancel _ _

include hruns in
theorem handle_progress (hs : s.handle setup input = some s') :
    Progress setup s (.handle input) s' := by
  unfold State.handle at hs
  split at hs
  next => cases hs
  next handler loop hnext =>
    cases handler with
    | readRequest =>
        obtain rfl := Option.some.inj hs
        exact .readRequest h hnext
    | readCompleted ec transferred => exact .readCompleted h hruns hnext hs
    | sendReply => exact .sendReply h hruns hnext hs
    | write header payload =>
        obtain rfl := Option.some.inj hs
        exact .write h hnext
    | writeCompleted ec =>
        obtain rfl := Option.some.inj hs
        exact .writeCompleted h hruns hnext
    | cancel =>
        obtain rfl := Option.some.inj hs
        exact .beside (beside_of_cancel hnext)
    | waitCompleted ec =>
        obtain rfl := Option.some.inj hs
        exact .beside (beside_of_next rfl (fun heq => by cases heq) hnext)

end Handlers

/-! ### Operations -/

omit h in
/-- What the end of an operation changes. -/
theorem complete_eq_some {op : Op} {handler : Handler} (hs : s.complete op handler = some s') :
    ∃ loop, s.loop.complete op handler = some loop ∧ s' = { s with loop } := by
  unfold State.complete at hs
  split at hs
  next => cases hs
  next loop hloop => exact ⟨loop, hloop, (Option.some.inj hs).symm⟩

theorem read_progress {n : Nat} (hs : s.read n = some s') : Progress setup s (.read n) s' := by
  unfold State.read at hs
  split at hs
  next hpending =>
    have hcarriers := h.carriers_eq rfl hpending.1
    dsimp only at hs
    split at hs
    next hfind =>
      obtain rfl := Option.some.inj hs
      exact .reads hcarriers hpending.2 hfind
    next pos hfind =>
      obtain ⟨loop, hloop, rfl⟩ := complete_eq_some hs
      exact .hasRead hcarriers hpending.2 hfind (strand_complete hcarriers rfl hloop)
        (waits_complete hloop)
  next => cases hs

theorem writeSome_progress {n : Nat} (hs : s.writeSome n = some s') :
    Progress setup s (.write n) s' := by
  unfold State.writeSome at hs
  split at hs
  next hpending =>
    have hcarriers := h.carriers_eq rfl hpending.1
    dsimp only at hs
    split at hs
    next hnil =>
      obtain ⟨loop, hloop, rfl⟩ := complete_eq_some hs
      exact .wrote hcarriers hpending.2 hnil (strand_complete hcarriers rfl hloop)
        (waits_complete hloop)
    next hne =>
      obtain rfl := Option.some.inj hs
      exact .hands hcarriers hpending.2 hne
  next => cases hs

theorem step_progress {a : Action} (hs : step setup a s = some s') : Progress setup s a s' := by
  cases a with
  | arrive chunk =>
      obtain rfl := Option.some.inj hs
      exact .arrives chunk
  | depart n =>
      obtain rfl := Option.some.inj hs
      exact .departs n
  | stop =>
      obtain rfl := Option.some.inj hs
      exact .beside ⟨strand_stop, Nat.le_refl _, .inr⟩
  | run =>
      rw [step] at hs
      split at hs
      next hqueued =>
        obtain rfl := Option.some.inj hs
        exact .runs hqueued
      next => cases hs
  | finish =>
      rw [step] at hs
      split at hs
      next hreturns =>
        obtain rfl := Option.some.inj hs
        exact .returns hreturns.1 hreturns.2
      next => cases hs
  | handle input =>
      rw [step] at hs
      split at hs
      next hruns => exact handle_progress h hruns hs
      next => cases hs
  | read n =>
      rw [step] at hs
      split at hs
      next => exact read_progress h hs
      next => cases hs
  | readFails =>
      rw [step] at hs
      split at hs
      next =>
        obtain ⟨loop, hloop, rfl⟩ := complete_eq_some hs
        have hcarriers := h.carriers_eq rfl (Loop.complete_eq_some.mp hloop).1
        exact .readFails hcarriers (strand_complete hcarriers rfl hloop) (waits_complete hloop)
      next => cases hs
  | write n =>
      rw [step] at hs
      split at hs
      next => exact writeSome_progress h hs
      next => cases hs
  | writeFails =>
      rw [step] at hs
      split at hs
      next =>
        obtain ⟨loop, hloop, rfl⟩ := complete_eq_some hs
        have hcarriers := h.carriers_eq rfl (Loop.complete_eq_some.mp hloop).1
        exact .writeFails hcarriers (strand_complete hcarriers rfl hloop) (waits_complete hloop)
      next => cases hs
  | expire =>
      rw [step] at hs
      split at hs
      next =>
        obtain ⟨loop, hloop, rfl⟩ := complete_eq_some hs
        refine .beside ⟨strand_complete_of_not rfl rfl hloop, waits_complete hloop, fun hmem => ?_⟩
        obtain ⟨-, rfl⟩ := Loop.complete_eq_some.mp hloop
        exact .inr (List.mem_append_left _ hmem)
      next => cases hs

/-! ## The place of the timer -/

omit h in
theorem Beside.placed {loop loop' : Events} (h : Beside loop loop') {strand : List (Handler ⊕ Op)}
    (hplaced : Placed loop strand) : Placed loop' strand := by
  have hle := h.waits
  unfold Placed at hplaced ⊢
  split at hplaced
  next =>
    rcases hplaced with hzero | ⟨hone, hmem⟩
    · exact .inl (by omega)
    · rcases h.cancel hmem with hzero | hmem'
      · exact .inl hzero
      · rcases Nat.eq_zero_or_pos (TcpSession.waits loop') with hzero | hpos
        · exact .inl hzero
        · exact .inr ⟨by omega, hmem'⟩
  all_goals first | exact hplaced.elim | exact hle.trans hplaced |
    exact Nat.eq_zero_of_le_zero (hle.trans (Nat.le_of_eq hplaced))

omit h in
theorem Over.placed {loop : Events} (h : Over loop) : Placed loop (carriers loop) := by
  rw [h.1]
  exact h.2

theorem Placed.step {a : Action} (hs : Progress setup s a s') :
    Placed s'.loop (carriers s'.loop) := by
  have hle := h.waits_le
  cases hs with
  | arrives | departs | runs | returns | reads | hands => exact h
  | beside hbeside =>
      show Placed _ (carriers _)
      rw [hbeside.carriers]
      exact hbeside.placed h
  | startsRead hcarriers hcarriers' hzero | again hcarriers hcarriers' hzero =>
      show Placed _ (carriers _)
      rw [hcarriers']
      exact hzero
  | readFails hcarriers hcarriers' hwaits =>
      rw [hcarriers] at h
      show Placed _ (carriers _)
      rw [hcarriers']
      exact Nat.eq_zero_of_le_zero (hwaits.trans (Nat.le_of_eq h))
  | hasRead hcarriers hlength hfind hcarriers' hwaits =>
      rw [hcarriers] at h
      show Placed _ (carriers _)
      rw [hcarriers']
      exact Nat.eq_zero_of_le_zero (hwaits.trans (Nat.le_of_eq h))
  | responds hcarriers hnext hread hresponse hcarriers' hwaits =>
      rw [hcarriers] at h
      show Placed _ (carriers _)
      rw [hcarriers']
      exact hwaits.trans h
  | replies hcarriers hreply hpayload hcarriers' hone =>
      show Placed _ (carriers _)
      rw [hcarriers']
      exact Nat.le_of_eq hone
  | writes hcarriers hnext hcarriers' hwaits =>
      show Placed _ (carriers _)
      rw [hcarriers']
      exact (Nat.le_of_eq hwaits).trans hle
  | wrote hcarriers hlength hnil hcarriers' hwaits =>
      show Placed _ (carriers _)
      rw [hcarriers']
      exact hwaits.trans hle
  | writeFails hcarriers hcarriers' hwaits =>
      show Placed _ (carriers _)
      rw [hcarriers']
      exact hwaits.trans hle
  | timesOut hcarriers hover => exact hover.placed
  | ends hcarriers hne hover hpc => exact hover.placed

end Progress

end ClientServer.TcpSession
