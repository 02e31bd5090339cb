import ClientServer.Server.PoolSteps

/-!
# The accounts of the pool of sessions

One invariant ties the queue, the threads and the counters together: a session
that was pushed is in the queue or was returned by `get`, a thread holds what it
got, and the counters count the threads inside `run`.
-/

namespace ClientServer.ThreadPoolSessions

open Slots
open scoped List

variable {τ : Type} {limits : Limits τ}

variable [DecidableEq τ]

/-- What holds between any two steps. -/
structure Inv (limits : Limits τ) (s : State τ) : Prop where
  ids : (s.pushed ++ s.arrival.runnable.toList).map Runnable.id = List.range s.arrived
  owned : s._queue ++ s.got.map Prod.snd ~ s.pushed
  inOrder : s._queue <+ s.pushed
  holds : ∀ {i : Nat} {pc : ThreadPc τ} {runnable : Runnable τ},
    s._threads[i]? = some pc → pc.held = some runnable → (i, runnable) ∈ s.got
  byType : ∀ type, s._numberRunningByType type =
    UInt32.ofNat (s.insideRun.countP fun r => r.type = type)
  total : s._numberRunningTotal = UInt32.ofNat s.insideRun.length
  threads : s._threads.length ≤ limits._maxSize.toNat

namespace Inv

variable {s s' : State τ} {i : Nat} {pc pc' : ThreadPc τ} {runnable : Runnable τ}

theorem initial : Inv limits (State.initial : State τ) where
  ids := rfl
  owned := .nil
  inOrder := .slnil
  holds h := by cases h
  byType _ := rfl
  total := rfl
  threads := Nat.zero_le _

theorem ids_nodup (h : Inv limits s) :
    ((s.pushed ++ s.arrival.runnable.toList).map Runnable.id).Nodup := by
  rw [h.ids]
  exact List.nodup_range

theorem pushed_nodup (h : Inv limits s) : s.pushed.Nodup :=
  h.ids_nodup.of_map.of_append_left

omit [DecidableEq τ] in
/-- A thread moves, and what it then holds it got. -/
theorem holds_setThread
    (hholds : ∀ {j : Nat} {pc : ThreadPc τ} {r : Runnable τ},
      s._threads[j]? = some pc → pc.held = some r → (j, r) ∈ s.got)
    (hthis : ∀ r, pc'.held = some r → (i, r) ∈ s.got) {j : Nat} {pc : ThreadPc τ} {r : Runnable τ}
    (hj : (s.setThread i pc')._threads[j]? = some pc) (hr : pc.held = some r) :
    (j, r) ∈ s.got := by
  cases threads_setThread hj with
  | inl heq =>
      obtain ⟨rfl, rfl⟩ := heq
      exact hthis r hr
  | inr hother => exact hholds hother.2 hr

/-- The counters stay where they are as long as the same sessions are inside
`run`. -/
theorem byType_of_insideRun (h : Inv limits s) (hinside : s'.insideRun = s.insideRun) (type : τ) :
    s._numberRunningByType type = UInt32.ofNat (s'.insideRun.countP fun r => r.type = type) := by
  rw [hinside]
  exact h.byType type

theorem total_of_insideRun (h : Inv limits s) (hinside : s'.insideRun = s.insideRun) :
    s._numberRunningTotal = UInt32.ofNat s'.insideRun.length := by
  rw [hinside]
  exact h.total

/-- A step of a thread that takes no session and leaves none. -/
theorem move (h : Inv limits s) (hi : s._threads[i]? = some pc) (hinside : pc'.inside = pc.inside)
    (hheld : pc'.held = pc.held ∨ pc'.held = none) : Inv limits (s.setThread i pc') where
  ids := h.ids
  owned := h.owned
  inOrder := h.inOrder
  holds := holds_setThread h.holds fun r hr => by
    cases hheld with
    | inl hsame => exact h.holds hi (hsame ▸ hr)
    | inr hnone => cases hnone.symm.trans hr
  byType := h.byType_of_insideRun (insideRun_setThread hi hinside)
  total := h.total_of_insideRun (insideRun_setThread hi hinside)
  threads := by simpa [State.setThread] using h.threads

/-- `get` returns a session. -/
theorem take {position : Nat} (h : Inv limits s) (hi : s._threads[i]? = some (.scan position))
    (hr : s._queue[position]? = some runnable) :
    Inv limits ((s.take i position runnable).setThread i (.run runnable)) where
  ids := h.ids
  owned := by
    obtain ⟨hlt, rfl⟩ := List.getElem?_eq_some_iff.mp hr
    calc s._queue.eraseIdx position ++ (s.got ++ [(i, s._queue[position])]).map Prod.snd
        _ = s._queue.eraseIdx position ++ (s.got.map Prod.snd ++ [s._queue[position]]) := by
          rw [List.map_append, List.map_singleton]
        _ ~ [s._queue[position]] ++ (s._queue.eraseIdx position ++ s.got.map Prod.snd) := by
          rw [← List.append_assoc]
          exact List.perm_append_comm
        _ ~ s._queue ++ s.got.map Prod.snd :=
          (List.getElem_cons_eraseIdx_perm hlt).append_right _
        _ ~ s.pushed := h.owned
  inOrder := (List.eraseIdx_sublist _ _).trans h.inOrder
  holds := by
    refine holds_setThread (s := s.take i position runnable)
      (fun hj hr' => List.mem_append_left _ (h.holds hj hr')) fun r hr' => ?_
    obtain rfl := Option.some.inj hr'
    exact List.mem_append_right _ (List.mem_singleton.mpr rfl)
  byType := h.byType_of_insideRun (filterMap_set_of_eq hi rfl)
  total := h.total_of_insideRun (filterMap_set_of_eq hi rfl)
  threads := by simpa [State.setThread, State.take] using h.threads

/-- The constructor of `CountRunning`. -/
theorem count (h : Inv limits s) (hi : s._threads[i]? = some (.run runnable)) :
    Inv limits ((s.countRunning runnable.type).setThread i (.running runnable)) where
  ids := h.ids
  owned := h.owned
  inOrder := h.inOrder
  holds := by
    refine holds_setThread (s := s.countRunning runnable.type) h.holds fun _ hr => ?_
    exact h.holds hi hr
  byType type := by
    have hperm : ((s.countRunning runnable.type).setThread i (.running runnable)).insideRun ~
        runnable :: s.insideRun := filterMap_set_perm ThreadPc.inside hi _
    rw [hperm.countP_eq, List.countP_cons]
    show Function.update s._numberRunningByType _ _ type = _
    by_cases ht : runnable.type = type
    · subst ht
      rw [Function.update_self, h.byType]
      simp
    · rw [Function.update_of_ne (Ne.symm ht), h.byType]
      simp [ht]
  total := by
    have hperm : ((s.countRunning runnable.type).setThread i (.running runnable)).insideRun ~
        runnable :: s.insideRun := filterMap_set_perm ThreadPc.inside hi _
    rw [hperm.length_eq, List.length_cons, UInt32.ofNat_add, ← h.total]
    rfl
  threads := by simpa [State.setThread, State.countRunning] using h.threads

/-- The destructor of `CountRunning`. -/
theorem uncount (h : Inv limits s) (hi : s._threads[i]? = some (.running runnable)) :
    Inv limits ((s.uncountRunning runnable.type).setThread i .test) where
  ids := h.ids
  owned := h.owned
  inOrder := h.inOrder
  holds := holds_setThread (s := s.uncountRunning runnable.type) h.holds fun _ hr => by cases hr
  byType type := by
    have hperm : runnable :: ((s.uncountRunning runnable.type).setThread i .test).insideRun ~
        s.insideRun := filterMap_set_perm ThreadPc.inside hi _
    have hcount := h.byType type
    rw [← hperm.countP_eq, List.countP_cons] at hcount
    show Function.update s._numberRunningByType _ _ type = _
    by_cases ht : runnable.type = type
    · subst ht
      rw [Function.update_self, hcount]
      simp
    · rw [Function.update_of_ne (Ne.symm ht), hcount]
      simp [ht]
  total := by
    have hperm : runnable :: ((s.uncountRunning runnable.type).setThread i .test).insideRun ~
        s.insideRun := filterMap_set_perm ThreadPc.inside hi _
    show s._numberRunningTotal - 1 = _
    rw [h.total, ← hperm.length_eq, List.length_cons]
    simp
  threads := by simpa [State.setThread, State.uncountRunning] using h.threads

theorem threadStep (h : Inv limits s) (hi : s._threads[i]? = some pc)
    (hstep : ThreadStep limits s i pc s') : Inv limits s' := by
  cases hstep with
  | leave | enter | wake | wait | notified | lock | endOfQueue | pass | positive | zero =>
      exact h.move hi rfl (.inl rfl)
  | take hr _ => exact h.take hi hr
  | count => exact h.count hi
  | uncount => exact h.uncount hi
  | decrement =>
      have hframe : Inv limits { s with _totalNumberObjects := s._totalNumberObjects - 1 } := { h with }
      exact hframe.move hi rfl (.inl rfl)

theorem toNat_size (h : Inv limits s) : s.size.toNat = s._threads.length := by
  have hle := h.threads
  have hlt := limits._maxSize.toNat_lt
  rw [State.size, UInt32.toNat_ofNat', Nat.mod_eq_of_lt (by omega)]

omit [DecidableEq τ] in
theorem insideRun_createThread (s : State τ) : s.createThread.insideRun = s.insideRun := by
  simp [State.insideRun, State.createThread, ThreadPc.inside]

theorem createThread (h : Inv limits s) (hsize : s.size < limits._maxSize) :
    Inv limits s.createThread where
  ids := h.ids
  owned := h.owned
  inOrder := h.inOrder
  holds {j pc r} hj hr := by
    rw [State.createThread, List.getElem?_append] at hj
    split at hj
    next => exact h.holds hj hr
    next =>
      have hmem := List.mem_of_getElem? hj
      obtain rfl := List.mem_singleton.mp hmem
      cases hr
  byType := h.byType_of_insideRun (insideRun_createThread s)
  total := h.total_of_insideRun (insideRun_createThread s)
  threads := by
    rw [UInt32.lt_iff_toNat_lt, h.toNat_size] at hsize
    simpa [State.createThread] using hsize

theorem arrive {type : τ} (h : Inv limits s) (hs : s.arrive type = some s') : Inv limits s' := by
  obtain ⟨ha, rfl⟩ := arrive_eq_some hs
  refine { h with ids := ?_ }
  have hids := h.ids
  rw [ha] at hids
  simp only [ArrivalPc.runnable, Option.toList_none, List.append_nil] at hids
  simp [ArrivalPc.runnable, hids, List.range_succ]

theorem advance (h : Inv limits s) (hs : s.advance limits = some s') : Inv limits s' := by
  have hstep := arrivalStep_of hs
  generalize harrival : s.arrival = arrival at hstep
  have hids := h.ids
  rw [harrival] at hids
  cases hstep with
  | objects => exact { h with ids := hids }
  | condition1 => exact { h with ids := hids }
  | condition2 => exact { h with ids := hids }
  | decide hdecision =>
      cases hdecision with
      | createThread _ _ hsize => exact { h.createThread hsize with ids := hids }
      | objectsOfType => exact { h with ids := hids }
      | totalObjects => exact { h with ids := hids }
      | keep => exact { h with ids := hids }

theorem enqueue (h : Inv limits s) (harrival : s.arrival = .push runnable) :
    Inv limits (s.enqueue runnable) := by
  have hids := h.ids
  rw [harrival] at hids
  refine { h with ids := ?_, owned := ?_, inOrder := h.inOrder.append (.refl _) }
  · simpa [ArrivalPc.runnable, State.enqueue] using hids
  · calc s._queue ++ [runnable] ++ s.got.map Prod.snd
        _ ~ s._queue ++ (s.got.map Prod.snd ++ [runnable]) := by
          rw [List.append_assoc]
          exact List.perm_append_comm.append_left _
        _ = s._queue ++ s.got.map Prod.snd ++ [runnable] := (List.append_assoc _ _ _).symm
        _ ~ s.pushed ++ [runnable] := h.owned.append_right _

theorem push (h : Inv limits s) (hs : s.push i = some s') : Inv limits s' := by
  have hstep := pushStep_of hs
  generalize harrival : s.arrival = arrival at hstep
  cases hstep with
  | quiet => exact h.enqueue harrival
  | wake _ hi => exact (h.enqueue harrival).move hi rfl (.inl rfl)

/-- `notify_all`. -/
theorem notifyAll (h : Inv limits s) :
    Inv limits { s with _threads := s._threads.map ThreadPc.notified } := by
  have hinside : (s._threads.map ThreadPc.notified).filterMap ThreadPc.inside = s.insideRun :=
    filterMap_notified rfl _
  refine { h with
    holds := ?_
    byType := h.byType_of_insideRun hinside
    total := h.total_of_insideRun hinside
    threads := ?_ }
  · intro i pc runnable hi hr
    obtain ⟨pc₀, hi₀, rfl⟩ : ∃ pc₀, s._threads[i]? = some pc₀ ∧ pc₀.notified = pc := by
      simpa [List.getElem?_map] using hi
    refine h.holds hi₀ ?_
    cases pc₀ with
    | run r | running r => exact hr
    | loop | get | waiting | scan | test | decrement | exited => cases hr
  · simpa using h.threads

theorem step {a : Action τ} (h : Inv limits s) (hs : step limits a s = some s') :
    Inv limits s' := by
  cases a with
  | arrive type => exact h.arrive hs
  | advance => exact h.advance hs
  | push i => exact h.push hs
  | thread i =>
      obtain ⟨pc, hi, hstep⟩ := threadStep_of hs
      exact h.threadStep hi hstep
  | stopRunnable id =>
      obtain rfl := Option.some.inj hs
      exact { h with }
  | stop =>
      obtain ⟨_, rfl⟩ := stop_eq_some hs
      exact { h.notifyAll with }

theorem pushed_increasing (h : Inv limits s) : s.pushed.Pairwise fun a b => a.id < b.id := by
  have hids : ((s.pushed ++ s.arrival.runnable.toList).map Runnable.id).Pairwise (· < ·) := by
    rw [h.ids]
    exact List.pairwise_lt_range
  exact (List.pairwise_append.mp (List.pairwise_map.mp hids)).1

/-- Two threads have different sessions. -/
theorem held_nodup (h : Inv limits s) : s.held.Nodup := by
  rw [List.Nodup, State.held, List.pairwise_filterMap, List.pairwise_iff_getElem]
  intro i j hi hj hij r hr r' hr' heq
  subst heq
  have hgoti := h.holds (List.getElem?_eq_getElem hi) hr
  have hgotj := h.holds (List.getElem?_eq_getElem hj) hr'
  have hnodup : (s.got.map Prod.snd).Nodup :=
    (h.owned.nodup_iff.mpr h.pushed_nodup).of_append_right
  have : (i, r) = (j, r) := List.inj_on_of_nodup_map hnodup hgoti hgotj rfl
  exact absurd (congrArg Prod.fst this) (Nat.ne_of_lt hij)

theorem insideRun_length_le (h : Inv limits s) : s.insideRun.length ≤ limits._maxSize.toNat :=
  (List.length_filterMap_le _ _).trans h.threads

/-- The counters do not wrap. -/
theorem toNat_ofNat (h : Inv limits s) {n : Nat} (hn : n ≤ s.insideRun.length) :
    (UInt32.ofNat n).toNat = n := by
  have hle := h.insideRun_length_le
  have hlt := limits._maxSize.toNat_lt
  rw [UInt32.toNat_ofNat', Nat.mod_eq_of_lt (by omega)]

theorem toNat_byType (h : Inv limits s) (type : τ) :
    (s._numberRunningByType type).toNat = s.insideRun.countP fun r => r.type = type := by
  rw [h.byType, h.toNat_ofNat List.countP_le_length]

theorem toNat_total (h : Inv limits s) : s._numberRunningTotal.toNat = s.insideRun.length := by
  rw [h.total, h.toNat_ofNat (Nat.le_refl _)]

end Inv

theorem Reachable.inv {s : State τ} (hr : Reachable limits s) : Inv limits s :=
  Runs.Reached.invariant .initial (fun h _ hs => h.step hs) hr

/-! ## The accounts -/

/-- No session is lost or doubled, and the limit of all sessions is kept. -/
structure Accounts (limits : Limits τ) (s : State τ) : Prop where
  /-- A session that was pushed is in the queue until `get` returns it. -/
  kept : s._queue ++ s.got.map Prod.snd ~ s.pushed
  /-- `get` returns it once. -/
  once : ((s._queue ++ s.got.map Prod.snd).map Runnable.id).Nodup
  /-- A thread runs what it got itself. -/
  holds : ∀ {i : Nat} {pc : ThreadPc τ} {runnable : Runnable τ},
    s._threads[i]? = some pc → pc.held = some runnable → (i, runnable) ∈ s.got
  /-- No session is with two threads. -/
  held : s.held.Nodup
  inside : s.insideRun.Nodup
  byType : ∀ type, (s._numberRunningByType type).toNat =
    s.insideRun.countP fun r => r.type = type
  total : s._numberRunningTotal.toNat = s.insideRun.length
  threads : s._threads.length ≤ limits._maxSize.toNat
  insideRun : s.insideRun.length ≤ limits._maxSize.toNat

theorem pool_keepsAccounts {s : State τ} (hr : Reachable limits s) : Accounts limits s := by
  have h := hr.inv
  refine ⟨h.owned, ?_, h.holds, h.held_nodup, h.held_nodup.sublist (insideRun_sublist_held s),
    h.toNat_byType, h.toNat_total, h.threads, h.insideRun_length_le⟩
  have hids := h.ids_nodup
  rw [List.map_append] at hids
  exact (h.owned.map Runnable.id).nodup_iff.mpr hids.of_append_left

theorem pool_keepsAccounts_twoSessions :
    ∃ s, Accounts (ServerOptions.limits 10 1 10) s ∧
      s.insideRun = [⟨0, .TcpSession⟩] ∧ s._queue = [⟨1, .TcpSession⟩] := by
  obtain ⟨s, hr, hs⟩ : ∃ s, Reachable (ServerOptions.limits 10 1 10) s ∧
      (s.insideRun, s._queue) = ([⟨0, .TcpSession⟩], [⟨1, .TcpSession⟩]) :=
    Runs.exists_reached (arrival .TcpSession ++ moves 0 4 ++ arrival .TcpSession) (by decide)
  exact ⟨s, pool_keepsAccounts hr, congrArg Prod.fst hs, congrArg Prod.snd hs⟩

end ClientServer.ThreadPoolSessions
