import ClientServer.Client.TcpClientHeartbeat

/-!
# What a step of the heartbeat does

A heartbeat has one handler posted or one operation under way that carries it on, or
none.  `Progress` says for every step what carried it before and what does behind it,
what became of the timers and what else the step changed; `step_progress` that there
are no others.
-/

namespace ClientServer.TcpClientHeartbeat

open EventLoop

/-! ## The carrier and the timers -/

/-- What carries the heartbeat on. -/
def carriers (loop : Events) : List (Handler ⊕ Op) := strand chain loop

/-- No timer is waited for. -/
def NoTimers (loop : Events) : Prop := ∀ op ∈ loop.pending, op.isTimer = false

def Handler.isStop : Handler → Bool
  | stop | cancel => true
  | _ => false

/-- Nobody has stopped the heartbeat. -/
structure Quiet (loop : Events) : Prop where
  stopped : loop.stopped = false
  handlers : ∀ handler ∈ loop.ready, handler.isStop = false

/-- What `start` posts is the first of what is ready, and there is one carrier at
most. -/
structure Placed (loop : Events) : Prop where
  alone : (carriers loop).length ≤ 1
  first : .write ∈ loop.ready → ∃ ready, loop.ready = .write :: ready

/-- No timer is started, and the timers are still going to be canceled. -/
structure Keeps (loop loop' : Events) : Prop where
  cancel : .cancel ∈ loop.ready → .cancel ∈ loop'.ready
  timers : NoTimers loop → NoTimers loop'

section Loops

variable {loop loop' : Events} {handler : Handler} {op : Op}

theorem chain_op (op : Op) : chain.op op = !op.isTimeout := by cases op <;> rfl

theorem carriers_start (h : carriers loop = []) (hop : op.isTimeout = false) :
    carriers (loop.start op) = [.inr op] :=
  strand_start_of_nil h (by rw [chain_op, hop, Bool.not_false])

theorem carriers_start_timeout (loop : Events) :
    carriers (loop.start .timeout) = carriers loop :=
  strand_start_of_not rfl

/-- The timeout is no part of the chain. -/
theorem carriers_cancelTimeout (loop : Events) :
    carriers (loop.cancel Op.isTimeout Op.aborted) = carriers loop := by
  refine strand_cancel (fun op h => by rw [chain_op, h, Bool.not_true]) fun op h => ?_
  cases op with
  | timeout => rfl
  | connect | write | waitRead | read | period => cases h

theorem carriers_cancelTimers (h : (carriers loop).length ≤ 1) :
    carriers (loop.cancel Op.isTimer Op.aborted) =
      (carriers loop).map (canceled Op.isTimer Op.aborted) := by
  refine strand_cancel_le h fun op hop => ?_
  cases op with
  | period | timeout => rfl
  | connect | write | waitRead | read => cases hop

theorem timeouts_start (loop : Events) (op : Op) :
    timeouts (loop.start op) = timeouts loop + if op.isTimeout then 1 else 0 := by
  simp [timeouts, Loop.start, List.countP_append, List.countP_singleton]

@[simp] theorem timeouts_cancel (loop : Events) (handlerOf : Op → Handler) :
    timeouts (loop.cancel Op.isTimeout handlerOf) = 0 := by
  simp [timeouts, Loop.cancel, List.countP_eq_zero]

theorem timeouts_erase (loop : Events) (hop : op.isTimeout = false) :
    timeouts { loop with pending := loop.pending.erase op } = timeouts loop := by
  rw [timeouts, timeouts, List.countP_erase]
  simp [hop]

theorem timeouts_complete (hop : op.isTimeout = false)
    (h : loop.complete op handler = some loop') : timeouts loop' = timeouts loop := by
  obtain ⟨-, rfl⟩ := Loop.complete_eq_some.mp h
  exact timeouts_erase loop hop

theorem timeouts_next (h : loop.next = some (handler, loop')) :
    timeouts loop' = timeouts loop := by
  rw [timeouts, timeouts, (Loop.next_eq_some.mp h).2.2.1]

theorem noTimers_cancel (loop : Events) (handlerOf : Op → Handler) :
    NoTimers (loop.cancel Op.isTimer handlerOf) := by
  intro op hmem
  simpa using (List.mem_filter.mp hmem).2

/-! ### What keeps the timers -/

theorem Keeps.trans {loop'' : Events} (h : Keeps loop loop') (h' : Keeps loop' loop'') :
    Keeps loop loop'' where
  cancel := h'.cancel ∘ h.cancel
  timers := h'.timers ∘ h.timers

theorem Keeps.post (loop : Events) (handler : Handler) : Keeps loop (loop.post handler) where
  cancel := List.mem_append_left _
  timers := id

theorem Keeps.start (loop : Events) (hop : op.isTimer = false) : Keeps loop (loop.start op) where
  cancel := id
  timers h op' hmem := by
    rcases List.mem_append.mp hmem with hmem | hmem
    · exact h op' hmem
    · rw [List.mem_singleton.mp hmem]
      exact hop

theorem Keeps.cancelTimeout (loop : Events) :
    Keeps loop (loop.cancel Op.isTimeout Op.aborted) where
  cancel := List.mem_append_left _
  timers h op hmem := h op (List.mem_filter.mp hmem).1

theorem Keeps.erase (loop : Events) (op : Op) :
    Keeps loop { loop with pending := loop.pending.erase op } where
  cancel := id
  timers h op' hmem := h op' (List.mem_of_mem_erase hmem)

theorem Keeps.complete (h : loop.complete op handler = some loop') : Keeps loop loop' := by
  obtain ⟨-, rfl⟩ := Loop.complete_eq_some.mp h
  exact ⟨List.mem_append_left _, fun h op' hmem => h op' (List.mem_of_mem_erase hmem)⟩

theorem Keeps.next (hne : handler ≠ .cancel) (h : loop.next = some (handler, loop')) :
    Keeps loop loop' := by
  obtain ⟨-, hready, hpending, -⟩ := Loop.next_eq_some.mp h
  refine ⟨fun hmem => ?_, fun h op hmem => h op (hpending ▸ hmem)⟩
  rw [hready] at hmem
  exact List.mem_of_ne_of_mem hne.symm hmem

/-! ### What is quiet -/

theorem Quiet.next (h : Quiet loop) (hnext : loop.next = some (handler, loop')) : Quiet loop' := by
  obtain ⟨hstopped, hready, -, hstopped'⟩ := Loop.next_eq_some.mp hnext
  refine ⟨hstopped'.trans hstopped, fun handler' hmem => ?_⟩
  exact h.handlers handler' (hready ▸ List.mem_cons_of_mem _ hmem)

theorem Quiet.cancelTimeout (h : Quiet loop) :
    Quiet (loop.cancel Op.isTimeout Op.aborted) := by
  refine ⟨h.stopped, fun handler hmem => ?_⟩
  rcases List.mem_append.mp hmem with hmem | hmem
  · exact h.handlers handler hmem
  · obtain ⟨op, -, rfl⟩ := List.mem_map.mp hmem
    cases op <;> rfl

theorem Quiet.start (h : Quiet loop) (op : Op) : Quiet (loop.start op) :=
  ⟨h.stopped, h.handlers⟩

theorem Quiet.complete (h : Quiet loop) (hchain : handler.isStop = false)
    (hloop : loop.complete op handler = some loop') : Quiet loop' := by
  obtain ⟨-, rfl⟩ := Loop.complete_eq_some.mp hloop
  refine ⟨h.stopped, fun handler' hmem => ?_⟩
  rcases List.mem_append.mp hmem with hmem | hmem
  · exact h.handlers handler' hmem
  · rw [List.mem_singleton.mp hmem]
    exact hchain

/-! ### The place of the carrier -/

theorem mem_carriers_of_ready (hmem : handler ∈ loop.ready)
    (hchain : chain.handler handler = true) : .inl handler ∈ carriers loop :=
  List.mem_append_left _ (List.mem_map_of_mem (List.mem_filter.mpr ⟨hmem, hchain⟩))

theorem mem_carriers_of_pending (hmem : op ∈ loop.pending) (hop : op.isTimeout = false) :
    .inr op ∈ carriers loop := by
  refine List.mem_append_right _ (List.mem_map_of_mem (List.mem_filter.mpr ⟨hmem, ?_⟩))
  rw [chain_op, hop, Bool.not_false]

theorem placed_of_nil (h : carriers loop = []) : Placed loop where
  alone := by simp [h]
  first hmem := by
    have hmem' := mem_carriers_of_ready hmem rfl
    rw [h] at hmem'
    cases hmem'

theorem placed_of_carriers {carrier : Handler ⊕ Op} (h : carriers loop = [carrier])
    (hne : carrier ≠ .inl .write) : Placed loop where
  alone := by simp [h]
  first hmem := by
    have hmem' := mem_carriers_of_ready hmem rfl
    rw [h] at hmem'
    exact absurd (List.mem_singleton.mp hmem').symm hne

theorem Placed.eq_of_mem (h : Placed loop) {carrier : Handler ⊕ Op}
    (hmem : carrier ∈ carriers loop) : carriers loop = [carrier] := by
  have halone := h.alone
  cases hcarriers : carriers loop with
  | nil =>
      rw [hcarriers] at hmem
      cases hmem
  | cons first rest =>
      rw [hcarriers] at hmem halone
      rw [List.length_cons] at halone
      obtain rfl : rest = [] := List.length_eq_zero_iff.mp (by omega)
      rw [List.mem_singleton.mp hmem]

/-- A handler of the chain was all that carried it. -/
theorem Placed.takes (h : Placed loop) (hchain : chain.handler handler = true)
    (hnext : loop.next = some (handler, loop')) :
    carriers loop = [.inl handler] ∧ carriers loop' = [] := by
  have hstrand := strand_next chain hnext
  rw [if_pos hchain] at hstrand
  have halone := h.alone
  rw [carriers, hstrand, List.length_cons] at halone
  have hnil : strand chain loop' = [] := List.length_eq_zero_iff.mp (by omega)
  exact ⟨by rw [carriers, hstrand, hnil], hnil⟩

/-- Another handler leaves the carrier alone. -/
theorem carriers_next (hchain : chain.handler handler = false)
    (hnext : loop.next = some (handler, loop')) : carriers loop' = carriers loop := by
  have hstrand := strand_next chain hnext
  rw [if_neg (by rw [hchain]; exact Bool.false_ne_true)] at hstrand
  exact hstrand.symm

/-- What `start` posts is not behind another handler. -/
theorem Placed.not_first (h : Placed loop) (hne : handler ≠ .write)
    (hnext : loop.next = some (handler, loop')) : .write ∉ loop.ready := by
  intro hmem
  obtain ⟨ready, hready⟩ := h.first hmem
  rw [(Loop.next_eq_some.mp hnext).2.1] at hready
  exact hne (List.cons.inj hready).1

end Loops

/-! ## The steps -/

/-- The carrier hands the heartbeat on and leaves the timeout alone. -/
structure Goes (loop loop' : Events) (carrier carrier' : Handler ⊕ Op) : Prop where
  before : carriers loop = [carrier]
  behind : carriers loop' = [carrier']
  timeouts : timeouts loop' = timeouts loop
  keeps : Keeps loop loop'
  quiet : Quiet loop → Quiet loop'

/-- Why nothing carries the heartbeat on behind a carrier. -/
inductive Fails (s : State) : Action → Handler ⊕ Op → Prop where
  | connect {result : Connect} : (∀ taken stack, result ≠ .connects taken stack) →
      Fails s (.connect result) (.inr .connect)
  | waitRead : Fails s (.waitRead true) (.inr .waitRead)
  | written : Fails s .handle (.inl (.writeCompleted true))
  | hasRead : Fails s .handle (.inl (.readCompleted true))
  | refused : (∀ header, deserialize default s._heartbeatBuffer = .ok (true, header) →
      isOk header = false) → Fails s .handle (.inl (.readCompleted false))
  | aborted : Fails s .handle (.inl (.periodCompleted true))
  | stopped {handler : Handler} : s._stopped = true → Fails s .handle (.inl handler)

/-- What an action does, and what it found. -/
inductive Progress (keys : KeyLibraries) (s : State) : Action → State → Prop where
  | runs : s.pc = .queued → Progress keys s .run { s with pc := .runs }
  | returns : s.pc = .runs → s.loop.returns = true →
      Progress keys s .finish { s with pc := .returned }
  | accepts {_header : HEADER} {connection : Connection} {link : Link} :
      s.accept keys _header connection = some { s with link } →
      Progress keys s (.accept _header connection) { s with link }
  | arrives (chunk : Bytes) : Progress keys s (.arrive chunk)
      { s with link := { s.link with incoming := s.link.incoming ++ chunk } }
  | stops : Progress keys s .stop s.stop
  | stopsItself {loop : Events} : s.loop.next = some (.stop, loop) →
      Progress keys s .handle { s with loop }.stop
  | cancels {loop : Events} : s.loop.next = some (.cancel, loop) → blocked s.loop = false →
      Progress keys s .handle { s with loop }.cancelTimers
  | passes {ec : Bool} {loop : Events} : s.loop.next = some (.timeoutCompleted ec, loop) →
      Progress keys s .handle { s with loop }
  | expires {loop : Events} : s.loop.complete .timeout (.timeoutCompleted false) = some loop →
      Progress keys s .timeoutExpires { s with loop }
  | begins {handler : Handler} {loop : Events} : carriers s.loop = [.inl handler] →
      handler = .write ∨ handler = .periodCompleted false ∧ s._stopped = false →
      carriers loop = [.inr .connect] → timeouts loop = 1 →
      (.cancel ∈ s.loop.ready → .cancel ∈ loop.ready) → (Quiet s.loop → Quiet loop) →
      Progress keys s .handle { s with loop }
  | connects {taken : Nat} {stack : { bytes : Bytes // bytes.length = HEADER_SIZE }}
      {loop : Events} : Goes s.loop loop (.inr .connect) (.inr .write) →
      Progress keys s (.connect (.connects taken stack)) { s with
        loop
        link := ⟨(message (heartbeat s._status)).take taken, [], false⟩
        unwritten := (stack.val ++ ENDOFMESSAGE).drop taken
        sent := s.sent ++ [heartbeat s._status] }
  | hands {n : Nat} : carriers s.loop = [.inr .write] → n ≤ s.unwritten.length →
      Progress keys s (.write n) { s with
        unwritten := s.unwritten.drop n
        link := { s.link with handed := s.link.handed ++ s.unwritten.take n } }
  | wrote {n : Nat} {loop : Events} :
      Goes s.loop loop (.inr .write) (.inl (.writeCompleted false)) →
      n ≤ s.unwritten.length → s.unwritten.drop n = [] →
      Progress keys s (.write n) { s with
        loop
        unwritten := []
        link := { s.link with handed := s.link.handed ++ s.unwritten.take n } }
  | writeFails {loop : Events} :
      Goes s.loop loop (.inr .write) (.inl (.writeCompleted true)) →
      Progress keys s .writeFails { s with loop }
  | waits {loop : Events} : Goes s.loop loop (.inl (.writeCompleted false)) (.inr .waitRead) →
      Progress keys s .handle { s with loop }
  | waited {loop : Events} : Goes s.loop loop (.inr .waitRead) (.inr .read) →
      Progress keys s (.waitRead false) { s with loop, _heartbeatBuffer := [] }
  | reads {n : Nat} : carriers s.loop = [.inr .read] → n ≤ s.link.incoming.length →
      Tcp.found (s._heartbeatBuffer ++ s.link.incoming.take n) = false →
      Progress keys s (.read n) { s with
        _heartbeatBuffer := s._heartbeatBuffer ++ s.link.incoming.take n
        link := { s.link with incoming := s.link.incoming.drop n } }
  | hasRead {n : Nat} {loop : Events} :
      Goes s.loop loop (.inr .read) (.inl (.readCompleted false)) →
      n ≤ s.link.incoming.length →
      Tcp.found (s._heartbeatBuffer ++ s.link.incoming.take n) = true →
      Progress keys s (.read n) { s with
        loop
        _heartbeatBuffer := s._heartbeatBuffer ++ s.link.incoming.take n
        link := { s.link with incoming := s.link.incoming.drop n } }
  | readFails {loop : Events} :
      Goes s.loop loop (.inr .read) (.inl (.readCompleted true)) →
      Progress keys s .readFails { s with loop }
  | takes {header : HEADER} {loop : Events} :
      carriers s.loop = [.inl (.readCompleted false)] → s._stopped = false →
      deserialize default s._heartbeatBuffer = .ok (true, header) → isOk header = true →
      carriers loop = [.inr .period] → timeouts loop = 0 → (Quiet s.loop → Quiet loop) →
      Progress keys s .handle { s with
        loop
        _status := if timeouts s.loop = 0 then .HEARTBEAT_TIMEOUT else s._status
        echoed := s.echoed ++ [header] }
  | periodEnds {loop : Events} :
      Goes s.loop loop (.inr .period) (.inl (.periodCompleted false)) →
      Progress keys s .periodExpires { s with loop }
  | ends {a : Action} {carrier : Handler ⊕ Op} {loop : Events} {pc : Pc} {_status : STATUS} :
      Fails s a carrier → carriers s.loop = [carrier] → carriers loop = [] →
      Keeps s.loop loop → pc ≠ .queued → Progress keys s a { s with loop, pc, _status }

section Progress

variable {keys : KeyLibraries} {s s' : State} {loop : Events} (h : Placed s.loop)
  (hruns : s.pc = .runs)

/-! ### Handlers -/

section Handlers

include h

theorem Progress.begins_of_next {handler : Handler}
    (hhandler : handler = .write ∨ handler = .periodCompleted false ∧ s._stopped = false)
    (hnext : s.loop.next = some (handler, loop)) :
    Progress keys s .handle { s with loop }.write := by
  have hchain : chain.handler handler = true := by
    rcases hhandler with rfl | ⟨rfl, -⟩ <;> rfl
  have hne : handler ≠ .cancel := by
    rintro rfl
    cases hchain
  obtain ⟨hcarriers, hnil⟩ := h.takes hchain hnext
  have hwaits : carriers ((loop.cancel Op.isTimeout Op.aborted).start .timeout) = [] := by
    rw [carriers_start_timeout, carriers_cancelTimeout, hnil]
  refine .begins hcarriers hhandler (carriers_start hwaits rfl) ?_ (fun hmem => ?_)
    fun hquiet => ((hquiet.next hnext).cancelTimeout.start .timeout).start .connect
  · show timeouts (((loop.cancel Op.isTimeout Op.aborted).start .timeout).start .connect) = 1
    rw [timeouts_start, timeouts_start, timeouts_cancel]
    rfl
  · exact (Keeps.cancelTimeout loop).cancel ((Keeps.next hne hnext).cancel hmem)

include hruns in
theorem Progress.writeCompleted {ec : Bool}
    (hnext : s.loop.next = some (.writeCompleted ec, loop)) :
    Progress keys s .handle ({ s with loop }.writeCompleted ec) := by
  obtain ⟨hcarriers, hnil⟩ := h.takes rfl hnext
  have hkeeps : Keeps s.loop loop := .next (fun heq => by cases heq) hnext
  cases ec with
  | true => exact .ends .written hcarriers hnil hkeeps (by simp [hruns])
  | false =>
      refine .waits ⟨hcarriers, carriers_start hnil rfl, ?_, hkeeps.trans (.start loop rfl),
        fun hquiet => (hquiet.next hnext).start .waitRead⟩
      rw [timeouts_start, timeouts_next hnext]
      rfl

include hruns in
theorem Progress.readCompleted {ec : Bool} (hnext : s.loop.next = some (.readCompleted ec, loop))
    (hs : { s with loop }.readCompleted ec = some s') : Progress keys s .handle s' := by
  obtain ⟨hcarriers, hnil⟩ := h.takes rfl hnext
  have hkeeps : Keeps s.loop loop := .next (fun heq => by cases heq) hnext
  have hpc : s.pc ≠ .queued := by simp [hruns]
  have hcanceled : carriers (loop.cancel Op.isTimeout Op.aborted) = [] :=
    (carriers_cancelTimeout loop).trans hnil
  have hkeeps' : Keeps s.loop (loop.cancel Op.isTimeout Op.aborted) :=
    hkeeps.trans (.cancelTimeout loop)
  unfold State.readCompleted at hs
  split at hs
  next hstopped =>
    obtain rfl := Option.some.inj hs
    exact .ends (.stopped hstopped) hcarriers hnil hkeeps hpc
  next hstopped =>
    have hstopped' : s._stopped = false := Bool.not_eq_true _ ▸ hstopped
    have htimeouts : timeouts { s with loop }.loop = timeouts s.loop := timeouts_next hnext
    rw [State.noteTimeout, htimeouts] at hs
    unfold State.answered at hs
    cases ec with
    | true =>
        obtain rfl := Option.some.inj hs
        refine .ends .hasRead hcarriers ?_ (hkeeps'.trans (.post _ .stop)) hpc
        exact (strand_post_of_not rfl).trans hcanceled
    | false =>
        rw [if_neg Bool.false_ne_true] at hs
        cases hread : deserialize default s._heartbeatBuffer with
        | error fault =>
            have hrefused : ∀ header,
                deserialize default s._heartbeatBuffer = .ok (true, header) →
                isOk header = false := by simp [hread]
            simp only [State.cancelTimeout, hread, State.throws] at hs
            split at hs
            next =>
              obtain rfl := Option.some.inj hs
              exact .ends (.refused hrefused) hcarriers hcanceled hkeeps'
                (fun heq : Pc.returned = .queued => by cases heq)
            next => cases hs
        | ok result =>
            obtain ⟨ok, header⟩ := result
            simp only [State.cancelTimeout, hread] at hs
            split at hs
            next hok =>
              rw [Bool.and_eq_true] at hok
              obtain ⟨rfl, hok⟩ := hok
              obtain rfl := Option.some.inj hs
              refine .takes hcarriers hstopped' hread hok (carriers_start hcanceled rfl) ?_
                fun hquiet => (hquiet.next hnext).cancelTimeout.start .period
              show timeouts ((loop.cancel Op.isTimeout Op.aborted).start .period) = 0
              rw [timeouts_start, timeouts_cancel]
              rfl
            next hok =>
              obtain rfl := Option.some.inj hs
              refine .ends (.refused fun header' heq => ?_) hcarriers hcanceled hkeeps' hpc
              obtain ⟨rfl, rfl⟩ := Prod.mk.inj (Except.ok.inj (hread.symm.trans heq))
              simpa using hok

include hruns in
theorem Progress.periodCompleted {ec : Bool}
    (hnext : s.loop.next = some (.periodCompleted ec, loop)) :
    Progress keys s .handle ({ s with loop }.periodCompleted ec) := by
  obtain ⟨hcarriers, hnil⟩ := h.takes rfl hnext
  have hkeeps : Keeps s.loop loop := .next (fun heq => by cases heq) hnext
  have hpc : s.pc ≠ .queued := by simp [hruns]
  unfold State.periodCompleted
  split
  next hor =>
    rcases Bool.or_eq_true_iff.mp hor with hstopped | rfl
    · exact .ends (.stopped hstopped) hcarriers hnil hkeeps hpc
    · exact .ends .aborted hcarriers hnil hkeeps hpc
  next hor =>
    rw [Bool.not_eq_true, Bool.or_eq_false_iff] at hor
    obtain ⟨hstopped, rfl⟩ := hor
    exact .begins_of_next h (.inr ⟨rfl, hstopped⟩) hnext

include hruns in
theorem handle_progress (hblocked : blocked s.loop = false) (hs : s.handle = some s') :
    Progress keys s .handle s' := by
  unfold State.handle at hs
  split at hs
  next => cases hs
  next handler loop hnext =>
    cases handler with
    | write =>
        obtain rfl := Option.some.inj hs
        exact .begins_of_next h (.inl rfl) hnext
    | writeCompleted ec =>
        obtain rfl := Option.some.inj hs
        exact .writeCompleted h hruns hnext
    | readCompleted ec => exact .readCompleted h hruns hnext hs
    | periodCompleted ec =>
        obtain rfl := Option.some.inj hs
        exact .periodCompleted h hruns hnext
    | timeoutCompleted ec =>
        obtain rfl := Option.some.inj hs
        exact .passes hnext
    | stop =>
        obtain rfl := Option.some.inj hs
        exact .stopsItself hnext
    | cancel =>
        obtain rfl := Option.some.inj hs
        exact .cancels hnext hblocked

end Handlers

/-! ### Operations -/

section Operations

omit h hruns in
/-- What the end of an operation changes. -/
theorem complete_eq_some {op : Op} {handler : Handler} (hs : s.complete op handler = some s') :
    ∃ loop, s.loop.complete op handler = some loop ∧ s' = { s with loop } := by
  unfold State.complete at hs
  split at hs
  next => cases hs
  next loop hloop => exact ⟨loop, hloop, (Option.some.inj hs).symm⟩

omit hruns
include h

/-- An operation of the chain hands it on. -/
theorem Goes.of_complete {op : Op} {handler : Handler} (hop : op.isTimeout = false)
    (hchain : chain.handler handler = true) (hstop : handler.isStop = false)
    (hloop : s.loop.complete op handler = some loop) :
    Goes s.loop loop (.inr op) (.inl handler) := by
  have hmem := (Loop.complete_eq_some.mp hloop).1
  have hcarriers := h.eq_of_mem (mem_carriers_of_pending hmem hop)
  exact ⟨hcarriers, strand_complete hcarriers hchain hloop, timeouts_complete hop hloop,
    .complete hloop, fun hquiet => hquiet.complete hstop hloop⟩

/-- A call that blocked the thread has returned. -/
theorem returnFrom_eq_some {op : Op} (hop : op.isTimeout = false)
    (hs : s.returnFrom op = some s') :
    ∃ loop, s' = { s with loop } ∧ carriers s.loop = [.inr op] ∧ carriers loop = [] ∧
      timeouts loop = timeouts s.loop ∧ Keeps s.loop loop ∧ loop.ready = s.loop.ready ∧
      loop.stopped = s.loop.stopped := by
  unfold State.returnFrom at hs
  split at hs
  next hmem =>
    have hcarriers := h.eq_of_mem (mem_carriers_of_pending hmem hop)
    exact ⟨_, (Option.some.inj hs).symm, hcarriers, strand_erase hcarriers,
      timeouts_erase s.loop hop, .erase s.loop op, rfl, rfl⟩
  next => cases hs

theorem connect_progress (hruns : s.pc = .runs) {result : Connect}
    (hs : (s.returnFrom .connect).map (·.connected result) = some s') :
    Progress keys s (.connect result) s' := by
  obtain ⟨s₁, hreturn, rfl⟩ := Option.map_eq_some_iff.mp hs
  obtain ⟨loop, rfl, hcarriers, hnil, htimeouts, hkeeps, hready, hstopped⟩ :=
    returnFrom_eq_some h rfl hreturn
  cases result with
  | fails =>
      exact .ends (.connect fun _ _ heq => by cases heq) hcarriers hnil hkeeps (by simp [hruns])
  | throws =>
      exact .ends (.connect fun _ _ heq => by cases heq) hcarriers hnil hkeeps
        (fun heq : Pc.returned = .queued => by cases heq)
  | connects taken stack =>
      refine .connects ⟨hcarriers, carriers_start hnil rfl, ?_, hkeeps.trans (.start loop rfl),
        fun hquiet => ⟨hstopped.trans hquiet.stopped, hready ▸ hquiet.handlers⟩⟩
      show timeouts (loop.start .write) = timeouts s.loop
      rw [timeouts_start, htimeouts]
      rfl

theorem waitRead_progress (hruns : s.pc = .runs) {ec : Bool}
    (hs : (s.returnFrom .waitRead).map (·.waitedRead ec) = some s') :
    Progress keys s (.waitRead ec) s' := by
  obtain ⟨s₁, hreturn, rfl⟩ := Option.map_eq_some_iff.mp hs
  obtain ⟨loop, rfl, hcarriers, hnil, htimeouts, hkeeps, hready, hstopped⟩ :=
    returnFrom_eq_some h rfl hreturn
  cases ec with
  | true => exact .ends .waitRead hcarriers hnil hkeeps (by simp [hruns])
  | false =>
      refine .waited ⟨hcarriers, carriers_start hnil rfl, ?_, hkeeps.trans (.start loop rfl),
        fun hquiet => ⟨hstopped.trans hquiet.stopped, hready ▸ hquiet.handlers⟩⟩
      rw [timeouts_start, htimeouts]
      rfl

theorem writeSome_progress {n : Nat} (hs : s.writeSome n = some s') :
    Progress keys s (.write n) s' := by
  unfold State.writeSome at hs
  split at hs
  next hpending =>
    dsimp only at hs
    split at hs
    next hnil =>
      obtain ⟨loop, hloop, rfl⟩ := complete_eq_some hs
      rw [hnil]
      exact .wrote (.of_complete h rfl rfl rfl hloop) hpending.2 hnil
    next =>
      obtain rfl := Option.some.inj hs
      exact .hands (h.eq_of_mem (mem_carriers_of_pending hpending.1 rfl)) hpending.2
  next => cases hs

theorem readSome_progress {n : Nat} (hs : s.readSome n = some s') :
    Progress keys s (.read n) s' := by
  unfold State.readSome at hs
  split at hs
  next hpending =>
    dsimp only at hs
    split at hs
    next hfound =>
      obtain ⟨loop, hloop, rfl⟩ := complete_eq_some hs
      exact .hasRead (.of_complete h rfl rfl rfl hloop) hpending.2 hfound
    next hfound =>
      obtain rfl := Option.some.inj hs
      exact .reads (h.eq_of_mem (mem_carriers_of_pending hpending.1 rfl)) hpending.2
        (Bool.not_eq_true _ ▸ hfound)
  next => cases hs

theorem threadStep_progress (hruns : s.pc = .runs) (hblocked : blocked s.loop = false)
    {a : Action} (hs : threadStep s a = some s') : Progress keys s a s' := by
  cases a with
  | handle => exact handle_progress h hruns hblocked hs
  | write n => exact writeSome_progress h hs
  | read n => exact readSome_progress h hs
  | writeFails =>
      obtain ⟨loop, hloop, rfl⟩ := complete_eq_some hs
      exact .writeFails (.of_complete h rfl rfl rfl hloop)
  | readFails =>
      obtain ⟨loop, hloop, rfl⟩ := complete_eq_some hs
      exact .readFails (.of_complete h rfl rfl rfl hloop)
  | periodExpires =>
      obtain ⟨loop, hloop, rfl⟩ := complete_eq_some hs
      exact .periodEnds (.of_complete h rfl rfl rfl hloop)
  | timeoutExpires =>
      obtain ⟨loop, hloop, rfl⟩ := complete_eq_some hs
      exact .expires hloop
  | finish =>
      rw [threadStep] at hs
      split at hs
      next hreturns =>
        obtain rfl := Option.some.inj hs
        exact .returns hruns hreturns
      next => cases hs
  | run | connect | waitRead | stop | accept | arrive => cases hs

omit h in
/-- The acceptor changes the connection alone. -/
theorem accept_progress {_header : HEADER} {connection : Connection}
    (hs : s.accept keys _header connection = some s') :
    Progress keys s (.accept _header connection) s' := by
  have hlink : ∃ link, s' = { s with link } := by
    unfold State.accept at hs
    split at hs
    next =>
      split at hs
      next => exact ⟨_, (Option.some.inj hs).symm⟩
      next => exact ⟨_, (Option.some.inj hs).symm⟩
    next => cases hs
  obtain ⟨link, rfl⟩ := hlink
  exact .accepts hs

theorem step_progress {a : Action} (hs : step keys a s = some s') : Progress keys s a s' := by
  have hthread : ∀ {a : Action}, (if s.pc = .runs ∧ blocked s.loop = false then threadStep s a
      else none) = some s' → Progress keys s a s' := by
    intro a hs
    split at hs
    next hruns => exact threadStep_progress h hruns.1 hruns.2 hs
    next => cases hs
  cases a with
  | run =>
      rw [step] at hs
      split at hs
      next hqueued =>
        obtain rfl := Option.some.inj hs
        exact .runs hqueued
      next => cases hs
  | connect result =>
      rw [step] at hs
      split at hs
      next hruns => exact connect_progress h hruns hs
      next => cases hs
  | waitRead ec =>
      rw [step] at hs
      split at hs
      next hruns => exact waitRead_progress h hruns hs
      next => cases hs
  | stop =>
      obtain rfl := Option.some.inj hs
      exact .stops
  | accept _header connection => exact accept_progress hs
  | arrive chunk =>
      obtain rfl := Option.some.inj hs
      exact .arrives chunk
  | handle | write | writeFails | read | readFails | periodExpires | timeoutExpires | finish =>
      exact hthread hs

end Operations

/-! ### The place of the carrier -/

theorem Goes.placed {loop' : Events} {carrier carrier' : Handler ⊕ Op}
    (hgoes : Goes loop loop' carrier carrier') (hne : carrier' ≠ .inl .write) : Placed loop' :=
  placed_of_carriers hgoes.behind hne

/-- What is behind a handler that is not the one `start` posted. -/
theorem Placed.next {handler : Handler} (h : Placed s.loop)
    (hchain : chain.handler handler = false) (hnext : s.loop.next = some (handler, loop)) :
    Placed loop ∧ carriers loop = carriers s.loop ∧ .write ∉ loop.ready := by
  have hcarriers := carriers_next hchain hnext
  have hne : handler ≠ .write := by
    rintro rfl
    cases hchain
  have hnot := h.not_first hne hnext
  rw [(Loop.next_eq_some.mp hnext).2.1] at hnot
  have hnot' : .write ∉ loop.ready := fun hmem => hnot (List.mem_cons_of_mem _ hmem)
  exact ⟨⟨hcarriers ▸ h.alone, fun hmem => absurd hmem hnot'⟩, hcarriers, hnot'⟩

theorem Placed.post {handler : Handler} (h : Placed loop) (hchain : chain.handler handler = false) :
    Placed (loop.post handler) where
  alone := by
    rw [carriers, strand_post_of_not hchain]
    exact h.alone
  first hmem := by
    rcases List.mem_append.mp hmem with hmem | hmem
    · obtain ⟨ready, hready⟩ := h.first hmem
      exact ⟨ready ++ [handler], by rw [Loop.post, hready, List.cons_append]⟩
    · rw [← List.mem_singleton.mp hmem] at hchain
      cases hchain

/-- The timers may be canceled where the heartbeat has begun. -/
theorem Placed.cancel (h : Placed loop) (hnot : .write ∉ loop.ready) :
    Placed (loop.cancel Op.isTimer Op.aborted) where
  alone := by
    rw [carriers_cancelTimers h.alone, List.length_map]
    exact h.alone
  first hmem := by
    rcases List.mem_append.mp hmem with hmem | hmem
    · exact absurd hmem hnot
    · obtain ⟨op, -, hop⟩ := List.mem_map.mp hmem
      cases op <;> cases hop

include h in
theorem Placed.step {a : Action} (hs : Progress keys s a s') : Placed s'.loop := by
  cases hs with
  | runs | returns | accepts | arrives | hands | reads => exact h
  | stops => exact h.post rfl
  | stopsItself hnext => exact (h.next rfl hnext).1.post rfl
  | cancels hnext =>
      obtain ⟨hplaced, -, hnot⟩ := h.next rfl hnext
      exact hplaced.cancel hnot
  | passes hnext => exact (h.next rfl hnext).1
  | @expires loop hloop =>
      have hcarriers : carriers loop = carriers s.loop := strand_complete_of_not rfl rfl hloop
      refine ⟨?_, fun hmem => ?_⟩
      · rw [hcarriers]
        exact h.alone
      obtain ⟨-, rfl⟩ := Loop.complete_eq_some.mp hloop
      rcases List.mem_append.mp hmem with hmem | hmem
      · obtain ⟨ready, hready⟩ := h.first hmem
        exact ⟨ready ++ [.timeoutCompleted false], by simp [hready]⟩
      · cases List.mem_singleton.mp hmem
  | begins _ _ hcarriers => exact placed_of_carriers hcarriers (fun heq => by cases heq)
  | takes _ _ _ _ hcarriers => exact placed_of_carriers hcarriers (fun heq => by cases heq)
  | connects hgoes | wrote hgoes | writeFails hgoes | waits hgoes | waited hgoes
  | hasRead hgoes | readFails hgoes | periodEnds hgoes =>
      exact hgoes.placed (fun heq => by cases heq)
  | ends _ _ hnil => exact placed_of_nil hnil

end Progress

end ClientServer.TcpClientHeartbeat
