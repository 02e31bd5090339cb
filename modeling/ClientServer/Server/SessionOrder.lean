import ClientServer.Server.PoolAccounts

/-!
# The order in which sessions start

The scan of `get` compares the counter of a type entry by entry, and a session
that ends between two entries lets the later one pass.  Nothing else changes the
order of the queue.
-/

namespace ClientServer.ThreadPoolSessions

open Slots
open scoped List

variable {τ : Type} {limits : Limits τ}

def ThreadPc.position : ThreadPc τ → Option Nat
  | scan position => some position
  | _ => none

namespace State

/-- Where the scans stand. -/
def scans (s : State τ) : List Nat := s._threads.filterMap ThreadPc.position

/-- What the next step takes out of the queue was pushed before every session of
its type that is queued and not stopped. -/
def TakesFirst (limits : Limits τ) (s : State τ) : Prop :=
  ∀ i runnable, s.taken limits i = some runnable →
    ∀ earlier ∈ s._queue, [earlier, runnable] <+ s.pushed → earlier.type = runnable.type →
      s.runnableStopped earlier.id = true

end State

theorem locked_eq_false_iff (s : State τ) : s.locked = false ↔ s.scans = [] := by
  rw [State.locked, List.any_eq_false, State.scans, List.filterMap_eq_nil_iff]
  refine forall₂_congr fun pc _ => ?_
  cases pc <;> simp [ThreadPc.isScan, ThreadPc.position]

theorem mem_scans {s : State τ} {i position : Nat} (hi : s._threads[i]? = some (.scan position)) :
    position ∈ s.scans :=
  List.mem_filterMap.mpr ⟨_, List.mem_of_getElem? hi, rfl⟩

variable [DecidableEq τ]

/-! ## The condition -/

/-- A session of a type that waits. -/
def State.Waits (s : State τ) (type : τ) (runnable : Runnable τ) : Prop :=
  runnable.type = type ∧ s.runnableStopped runnable.id = false

/-- A scan is between two sessions of a type that wait. -/
def State.ScanBetween (s : State τ) (type : τ) : Prop :=
  ∃ position ∈ s.scans, (∃ runnable ∈ s._queue.take position, s.Waits type runnable) ∧
    ∃ runnable ∈ s._queue.drop position, s.Waits type runnable

variable (limits) in
/-- A session of a type at its limit does not end while a scan is between two
that wait. -/
def EndsBesideScan : Action τ → State τ → Prop
  | .thread i, s => ∀ runnable ∈ s._threads[i]?.bind ThreadPc.inside,
      s._numberRunningByType runnable.type ≤ limits._maxNumberRunningByType runnable.type →
        ¬ s.ScanBetween runnable.type
  | _, _ => True

instance (s : State τ) (type : τ) (runnable : Runnable τ) : Decidable (s.Waits type runnable) :=
  inferInstanceAs (Decidable (_ ∧ _))

instance (s : State τ) (type : τ) : Decidable (s.ScanBetween type) :=
  inferInstanceAs (Decidable (∃ position ∈ s.scans, _))

instance : ∀ (a : Action τ) (s : State τ), Decidable (EndsBesideScan limits a s)
  | .thread i, s =>
      inferInstanceAs (Decidable (∀ runnable ∈ s._threads[i]?.bind ThreadPc.inside, _))
  | .arrive _, _ | .advance, _ | .push _, _ | .stopRunnable _, _ | .stop, _ =>
      inferInstanceAs (Decidable True)

/-! ## The invariant of the scan -/

/-- How many sessions of a type are inside `run`. -/
def State.runningOf (s : State τ) (type : τ) : Nat := s.insideRun.countP fun r => r.type = type

/-- A scan that passed a session that waits finds none of the type, or finds the
type at its limit. -/
def State.Passed (limits : Limits τ) (s : State τ) (position : Nat) : Prop :=
  ∀ earlier ∈ s._queue.take position, s.runnableStopped earlier.id = false →
    (limits._maxNumberRunningByType earlier.type).toNat ≤ s.runningOf earlier.type ∨
      ∀ runnable ∈ s._queue.drop position, runnable.type = earlier.type →
        s.runnableStopped runnable.id = true

structure ScanInv (limits : Limits τ) (s : State τ) : Prop where
  single : s.scans.length ≤ 1
  passed : ∀ position ∈ s.scans, s.Passed limits position

namespace ScanInv

variable {s s' : State τ} {i : Nat} {pc : ThreadPc τ}

theorem of_unlocked (h : s.scans = []) : ScanInv limits s := by
  constructor
  · simp [h]
  · simp [h]

theorem scans_eq (h : ScanInv limits s) {position : Nat}
    (hi : s._threads[i]? = some (.scan position)) : s.scans = [position] := by
  have hmem := mem_scans hi
  have hsingle := h.single
  cases hs : s.scans with
  | nil => rw [hs] at hmem; cases hmem
  | cons p ps =>
      rw [hs] at hmem hsingle
      cases ps with
      | nil =>
          obtain rfl := List.mem_singleton.mp hmem
          rfl
      | cons q qs => simp at hsingle

/-- The scans stay where they are, and no session ends or is pushed or taken. -/
theorem frame (h : ScanInv limits s) (hscans : s'.scans = s.scans) (hqueue : s'._queue = s._queue)
    (hstopped : ∀ id, s.runnableStopped id = true → s'.runnableStopped id = true)
    (hrunning : ∀ type, s.runningOf type ≤ s'.runningOf type) : ScanInv limits s' where
  single := hscans ▸ h.single
  passed position hposition earlier hmem hwaits := by
    rw [hqueue] at hmem ⊢
    have hwaits' : s.runnableStopped earlier.id = false := by
      cases hs : s.runnableStopped earlier.id with
      | false => rfl
      | true => rw [hstopped _ hs] at hwaits; cases hwaits
    cases h.passed position (hscans ▸ hposition) earlier hmem hwaits' with
    | inl hlimit => exact .inl (Nat.le_trans hlimit (hrunning _))
    | inr hrest => exact .inr fun r hr ht => hstopped _ (hrest r hr ht)

/-- A step of the scan past an entry that is not eligible. -/
theorem pass {position : Nat} {runnable : Runnable τ} (hinv : Inv limits s) (h : ScanInv limits s)
    (hi : s._threads[i]? = some (.scan position)) (hr : s._queue[position]? = some runnable)
    (he : s.eligible limits runnable = false) :
    ScanInv limits (s.setThread i (.scan (position + 1))) := by
  have hscans : (s.setThread i (.scan (position + 1))).scans = [position + 1] := by
    have hperm : position :: (s.setThread i (.scan (position + 1))).scans ~
        (position + 1) :: s.scans := filterMap_set_perm ThreadPc.position hi _
    rw [h.scans_eq hi] at hperm
    exact List.perm_singleton.mp ((hperm.trans (.swap _ _ _)).cons_inv)
  have hinside : (s.setThread i (.scan (position + 1))).insideRun = s.insideRun :=
    insideRun_setThread hi rfl
  obtain ⟨hlt, rfl⟩ := List.getElem?_eq_some_iff.mp hr
  refine ⟨by simp [hscans], ?_⟩
  rw [hscans]
  intro position' hposition' earlier hmem hwaits
  obtain rfl := List.mem_singleton.mp hposition'
  rw [State.runningOf, hinside]
  change earlier ∈ s._queue.take (position + 1) at hmem
  rw [← List.take_concat_get' s._queue position hlt, List.mem_append] at hmem
  cases hmem with
  | inl hmem =>
      refine (h.passed position (mem_scans hi) earlier hmem hwaits).imp_right fun hrest r hmem => ?_
      exact hrest r ((List.drop_sublist_drop_left _ (Nat.le_succ _)).mem hmem)
  | inr hmem =>
      obtain rfl := List.mem_singleton.mp hmem
      have hge : ¬ s._numberRunningByType s._queue[position].type <
          limits._maxNumberRunningByType s._queue[position].type := by
        intro hlt'
        have hwaits' : s.runnableStopped s._queue[position].id = false := hwaits
        simp [State.eligible, hlt', hwaits'] at he
      refine .inl ?_
      rw [← hinv.toNat_byType]
      exact Nat.le_of_not_lt hge

/-- A session ends. -/
theorem uncount {runnable : Runnable τ} (hinv : Inv limits s) (h : ScanInv limits s)
    (hok : EndsBesideScan limits (.thread i) s) (hi : s._threads[i]? = some (.running runnable)) :
    ScanInv limits ((s.uncountRunning runnable.type).setThread i .test) := by
  have hscans : ((s.uncountRunning runnable.type).setThread i .test).scans = s.scans :=
    filterMap_set_of_eq hi rfl
  have hperm : runnable :: ((s.uncountRunning runnable.type).setThread i .test).insideRun ~
      s.insideRun := filterMap_set_perm ThreadPc.inside hi _
  refine ⟨hscans ▸ h.single, ?_⟩
  intro position hposition earlier hmem hwaits
  rw [hscans] at hposition
  have hrunning := hperm.countP_eq fun r => r.type = earlier.type
  rw [List.countP_cons] at hrunning
  cases h.passed position hposition earlier hmem hwaits with
  | inr hrest => exact .inr hrest
  | inl hlimit =>
      by_cases ht : runnable.type = earlier.type
      · rw [if_pos (decide_eq_true ht)] at hrunning
        by_cases hstill : (limits._maxNumberRunningByType earlier.type).toNat ≤
            ((s.uncountRunning runnable.type).setThread i .test).runningOf earlier.type
        · exact .inl hstill
        · -- the type was at its limit: by the condition nothing of it waits ahead
          refine .inr fun r hr hrt => ?_
          have hle : s._numberRunningByType runnable.type ≤
              limits._maxNumberRunningByType runnable.type := by
            rw [UInt32.le_iff_toNat_le, ht, hinv.toNat_byType, ← hrunning]
            exact Nat.lt_of_not_le hstill
          have hbetween := hok runnable (by simp [hi, ThreadPc.inside]) hle
          cases hs : s.runnableStopped r.id with
          | true => exact hs
          | false =>
              exact absurd ⟨position, hposition, ⟨earlier, hmem, ht.symm, hwaits⟩,
                ⟨r, hr, hrt.trans ht.symm, hs⟩⟩ hbetween
      · rw [if_neg (by simpa using ht)] at hrunning
        rw [State.runningOf, ← hrunning] at hlimit
        exact .inl hlimit

/-- A session is counted. -/
theorem count {runnable : Runnable τ} (h : ScanInv limits s)
    (hi : s._threads[i]? = some (.run runnable)) :
    ScanInv limits ((s.countRunning runnable.type).setThread i (.running runnable)) := by
  have hperm : ((s.countRunning runnable.type).setThread i (.running runnable)).insideRun ~
      runnable :: s.insideRun := filterMap_set_perm ThreadPc.inside hi _
  refine h.frame (filterMap_set_of_eq hi rfl) rfl (fun _ h => h) fun type => ?_
  rw [State.runningOf, State.runningOf, hperm.countP_eq]
  exact (List.sublist_cons_self _ _).countP_le

/-- A step outside the scan and outside `run`. -/
theorem move {pc' : ThreadPc τ} (h : ScanInv limits s) (hi : s._threads[i]? = some pc)
    (hposition : pc'.position = pc.position) (hinside : pc'.inside = pc.inside) :
    ScanInv limits (s.setThread i pc') := by
  refine h.frame (filterMap_set_of_eq hi hposition) rfl (fun _ h => h) fun type => ?_
  rw [State.runningOf, State.runningOf, insideRun_setThread hi hinside]

/-- The scan ends. -/
theorem leave {position : Nat} {pc' : ThreadPc τ} (h : ScanInv limits s)
    (hi : s._threads[i]? = some (.scan position)) (hpc : pc'.position = none) :
    (s.setThread i pc').scans = [] := by
  have hperm : position :: (s.setThread i pc').scans ~ pc'.position.toList ++ s.scans :=
    filterMap_set_perm ThreadPc.position hi _
  rw [hpc, h.scans_eq hi] at hperm
  exact List.perm_nil.mp hperm.cons_inv

theorem threadStep (hinv : Inv limits s) (h : ScanInv limits s)
    (hok : EndsBesideScan limits (.thread i) s) (hi : s._threads[i]? = some pc)
    (hstep : ThreadStep limits s i pc s') : ScanInv limits s' := by
  cases hstep with
  | leave | enter | wake | wait | notified | positive | zero => exact h.move hi rfl rfl
  | lock hlocked =>
      have hscans : (s.setThread i (.scan 0)).scans ~ 0 :: s.scans :=
        filterMap_set_perm ThreadPc.position hi _
      rw [(locked_eq_false_iff s).mp hlocked] at hscans
      have hscans := List.perm_singleton.mp hscans
      refine ⟨by simp [hscans], ?_⟩
      rw [hscans]
      intro position hposition earlier hmem
      obtain rfl := List.mem_singleton.mp hposition
      cases hmem
  | endOfQueue => exact .of_unlocked (h.leave hi rfl)
  | take => exact .of_unlocked (h.leave hi rfl)
  | pass hr he => exact h.pass hinv hi hr he
  | count => exact h.count hi
  | uncount => exact h.uncount hinv hok hi
  | decrement =>
      have hframe : ScanInv limits { s with _totalNumberObjects := s._totalNumberObjects - 1 } :=
        ⟨h.single, h.passed⟩
      exact hframe.move hi rfl rfl

theorem advance (h : ScanInv limits s) (hs : s.advance limits = some s') : ScanInv limits s' := by
  have hstep := arrivalStep_of hs
  generalize s.arrival = arrival at hstep
  cases hstep with
  | objects | condition1 | condition2 => exact h.frame rfl rfl (fun _ h => h) fun _ => Nat.le_refl _
  | decide hdecision =>
      cases hdecision with
      | createThread =>
          refine h.frame ?_ rfl (fun _ h => h) fun type => Nat.le_of_eq ?_
          · simp [State.scans, State.createThread, ThreadPc.position]
          · exact congrArg (List.countP _) (Inv.insideRun_createThread s).symm
      | objectsOfType | totalObjects | keep =>
          exact h.frame rfl rfl (fun _ h => h) fun _ => Nat.le_refl _

theorem push (hs : s.push i = some s') : ScanInv limits s' := by
  have hstep := pushStep_of hs
  generalize s.arrival = arrival at hstep
  cases hstep with
  | quiet hlocked => exact .of_unlocked ((locked_eq_false_iff s).mp hlocked)
  | wake hlocked hi =>
      have hscans : (s._threads.set i .get).filterMap ThreadPc.position = s.scans :=
        filterMap_set_of_eq hi rfl
      exact .of_unlocked (hscans.trans ((locked_eq_false_iff s).mp hlocked))

theorem step {a : Action τ} (hinv : Inv limits s) (h : ScanInv limits s)
    (hok : EndsBesideScan limits a s) (hs : step limits a s = some s') : ScanInv limits s' := by
  cases a with
  | arrive type =>
      obtain ⟨_, rfl⟩ := arrive_eq_some hs
      exact h.frame rfl rfl (fun _ h => h) fun _ => Nat.le_refl _
  | advance => exact h.advance hs
  | push i => exact push hs
  | thread i =>
      obtain ⟨pc, hi, hstep⟩ := threadStep_of hs
      exact h.threadStep hinv hok hi hstep
  | stopRunnable id =>
      obtain rfl := Option.some.inj hs
      refine h.frame rfl rfl (fun id' hstopped => ?_) fun _ => Nat.le_refl _
      by_cases hid : id' = id
      · subst hid
        exact Function.update_self ..
      · exact (Function.update_of_ne hid ..).trans hstopped
  | stop =>
      obtain ⟨hlocked, rfl⟩ := stop_eq_some hs
      exact .of_unlocked ((filterMap_notified rfl _).trans ((locked_eq_false_iff s).mp hlocked))

theorem takesFirst (hinv : Inv limits s) (h : ScanInv limits s) : s.TakesFirst limits := by
  intro i runnable htaken earlier hmem hbefore htype
  obtain ⟨position, hi, hr, he⟩ := taken_eq_some_iff.mp htaken
  obtain ⟨hlt, rfl⟩ := List.getElem?_eq_some_iff.mp hr
  obtain ⟨j, hj, rfl⟩ := List.mem_iff_getElem.mp hmem
  have hid : s._queue[j].id < s._queue[position].id := by
    have hpair := hinv.pushed_increasing.sublist hbefore
    simpa using hpair
  have hjlt : j < position := by
    refine Nat.lt_of_not_le fun hle => ?_
    cases Nat.lt_or_eq_of_le hle with
    | inl hlt' =>
        have hqueue := hinv.pushed_increasing.sublist hinv.inOrder
        have := List.pairwise_iff_getElem.mp hqueue position j hlt hj hlt'
        omega
    | inr heq =>
        subst heq
        exact absurd hid (Nat.lt_irrefl _)
  have hpassed : s._queue[j] ∈ s._queue.take position :=
    List.mem_take_iff_getElem.mpr ⟨j, by omega, rfl⟩
  have hahead : s._queue[position] ∈ s._queue.drop position :=
    List.mem_drop_iff_getElem.mpr ⟨0, by omega, rfl⟩
  obtain ⟨hbelow, hwaits⟩ : s._numberRunningByType s._queue[position].type <
      limits._maxNumberRunningByType s._queue[position].type ∧
      s.runnableStopped s._queue[position].id = false := by
    simpa [State.eligible] using he
  cases hs : s.runnableStopped s._queue[j].id with
  | true => rfl
  | false =>
      cases h.passed position (mem_scans hi) _ hpassed hs with
      | inl hlimit =>
          rw [UInt32.lt_iff_toNat_lt, hinv.toNat_byType, ← htype] at hbelow
          exact absurd hlimit (Nat.not_le_of_lt hbelow)
      | inr hrest =>
          rw [hrest _ hahead htype.symm] at hwaits
          cases hwaits

end ScanInv

/-! ## The order -/

theorem takesFirst_of_endsBesideScan {s : State τ}
    (hr : Reached limits (EndsBesideScan limits) s) : s.TakesFirst limits := by
  have h : ScanInv limits s :=
    Runs.Reached.invariant_of (fun hr => Reachable.inv hr) (.of_unlocked rfl)
      (fun hinv h hok hs => h.step hinv hok hs) hr
  exact h.takesFirst (Reachable.inv (hr.mono fun _ _ _ => trivial))

theorem takesFirst_twoSessions :
    ∃ s : State SessionType, s._queue = [⟨1, .TcpSession⟩, ⟨2, .TcpSession⟩] ∧
      s.taken (ServerOptions.limits 10 1 10) 0 = some ⟨1, .TcpSession⟩ ∧
      s.TakesFirst (ServerOptions.limits 10 1 10) := by
  obtain ⟨s, hr, hs⟩ : ∃ s, Reached (ServerOptions.limits 10 1 10)
      (EndsBesideScan (ServerOptions.limits 10 1 10)) s ∧
      (s._queue, s.taken (ServerOptions.limits 10 1 10) 0) =
        ([⟨1, .TcpSession⟩, ⟨2, .TcpSession⟩], some ⟨1, .TcpSession⟩) :=
    Runs.exists_reached (arrival .TcpSession ++ moves 0 4 ++ arrival .TcpSession ++
      arrival .TcpSession ++ moves 0 5) (by decide)
  obtain ⟨hqueue, htaken⟩ := Prod.mk.inj hs
  exact ⟨s, hqueue, htaken, takesFirst_of_endsBesideScan hr⟩

/-- A scan passes the first session while the type is at its limit; the session
inside `run` ends, and the scan takes the second. -/
theorem takesFirst_fails :
    ∃ s : State SessionType, Reachable (ServerOptions.limits 10 1 10) s ∧
      ¬ s.TakesFirst (ServerOptions.limits 10 1 10) := by
  obtain ⟨s, hr, hs⟩ : ∃ s, Reachable (ServerOptions.limits 10 1 10) s ∧
      (s._queue, s.pushed, s.runnableStopped 1, s.taken (ServerOptions.limits 10 1 10) 1) =
        ([⟨1, .TcpSession⟩, ⟨2, .TcpSession⟩, ⟨3, .FifoSession⟩],
          [⟨0, .TcpSession⟩, ⟨1, .TcpSession⟩, ⟨2, .TcpSession⟩, ⟨3, .FifoSession⟩],
          false, some ⟨2, .TcpSession⟩) :=
    Runs.exists_reached (arrival .TcpSession ++ moves 0 4 ++ arrival .TcpSession ++
      arrival .TcpSession ++ arrival .FifoSession ++ moves 1 3 ++ moves 0 1) (by decide)
  obtain ⟨hqueue, hs⟩ := Prod.mk.inj hs
  obtain ⟨hpushed, hs⟩ := Prod.mk.inj hs
  obtain ⟨hwaits, htaken⟩ := Prod.mk.inj hs
  refine ⟨s, hr, fun h => ?_⟩
  have hstopped := h 1 _ htaken ⟨1, .TcpSession⟩ (by simp [hqueue]) (by rw [hpushed]; decide) rfl
  rw [hwaits] at hstopped
  cases hstopped

end ClientServer.ThreadPoolSessions
