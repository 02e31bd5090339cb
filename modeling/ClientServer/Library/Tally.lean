import Mathlib.Data.Finset.Card
import Mathlib.Data.Finset.Range
import Mathlib.Order.Nat

/-!
# A counter of objects

Objects come one at a time and wait for a worker.  The workers take turns, and at
the end of a turn a worker looks at the counter and, if it is not zero, decrements
it; the look and the decrement are two steps.  A turn may end without an object,
and then the decrement is one too many.

`Right` says that the counter counts, and `Right.step` that it goes on to do so
with every step that is `Sound`: a worker without an object does not come past its
look, and no object comes when the counter is at its top.
-/

namespace Tally

section Counter

variable {ω : Type _} [DecidableEq ω]

structure State (ω : Type _) where
  counter : Nat
  /-- The objects that no worker has taken. -/
  waiting : Nat
  /-- The workers with an object that is not counted down. -/
  holders : Finset ω
  /-- The workers between their look and their decrement. -/
  past : Finset ω

inductive Action (ω : Type _) where
  | come
  | take (w : ω)
  | look (w : ω)
  | leave (w : ω)
  | decrement (w : ω)

/-- The steps with a counter that counts modulo `m`. -/
inductive Step (m : Nat) (s : State ω) : Action ω → State ω → Prop where
  | come :
      Step m s .come { s with counter := (s.counter + 1) % m, waiting := s.waiting + 1 }
  | take (w : ω) : w ∉ s.holders → 0 < s.waiting →
      Step m s (.take w) { s with waiting := s.waiting - 1, holders := insert w s.holders }
  | look (w : ω) : 0 < s.counter → Step m s (.look w) { s with past := insert w s.past }
  | leave (w : ω) : s.counter = 0 →
      Step m s (.leave w) { s with holders := s.holders.erase w }
  | decrement (w : ω) : w ∈ s.past →
      Step m s (.decrement w) { s with
        counter := (m - 1 + s.counter) % m
        holders := s.holders.erase w
        past := s.past.erase w }

/-- The steps that do the counter no harm. -/
def Sound (m : Nat) (s : State ω) : Action ω → Prop
  | .come => s.counter + 1 < m
  | .look w => w ∈ s.holders
  | .take _ | .leave _ | .decrement _ => True

/-- The objects that are not counted down. -/
def State.objects (s : State ω) : Nat := s.waiting + s.holders.card

/-- The counter counts the objects, and who is past the look has one. -/
structure Right (m : Nat) (s : State ω) : Prop where
  counter : s.counter = s.objects
  past : s.past ⊆ s.holders
  lt : s.counter < m

variable {m : Nat} {s s' : State ω} {a : Action ω} {w : ω}

omit [DecidableEq ω] in
/-- A worker that has an object is counted. -/
theorem Right.pos (h : Right m s) (hw : w ∈ s.holders) : 0 < s.counter := by
  have hcard : 0 < s.holders.card := Finset.card_pos.mpr ⟨w, hw⟩
  rw [h.counter, State.objects]
  omega

theorem Right.step (h : Right m s) (hsound : Sound m s a) (hstep : Step m s a s') :
    Right m s' := by
  obtain ⟨hcounter, hpast, hlt⟩ := h
  have hobjects : s.objects = s.waiting + s.holders.card := rfl
  cases hstep with
  | come =>
      have hcome : (s.counter + 1) % m = s.counter + 1 := Nat.mod_eq_of_lt hsound
      refine ⟨?_, hpast, Nat.mod_lt _ (by omega)⟩
      show (s.counter + 1) % m = s.waiting + 1 + s.holders.card
      rw [hcome]
      omega
  | take w hw hwaiting =>
      have hcard := Finset.card_insert_of_notMem hw
      refine ⟨?_, hpast.trans (Finset.subset_insert w _), hlt⟩
      show s.counter = s.waiting - 1 + (insert w s.holders).card
      omega
  | look w hw => exact ⟨hcounter, Finset.insert_subset hsound hpast, hlt⟩
  | leave w hzero =>
      -- nobody has an object
      have hnone : s.holders = ∅ := Finset.card_eq_zero.mp (by omega)
      have herase : s.holders.erase w = s.holders :=
        Finset.erase_eq_of_notMem (by rw [hnone]; exact Finset.notMem_empty w)
      rw [herase]
      exact ⟨hcounter, hpast, hlt⟩
  | decrement w hw =>
      have hcard := Finset.card_erase_of_mem (hpast hw)
      have hpos : 0 < s.holders.card := Finset.card_pos.mpr ⟨w, hpast hw⟩
      have hdown : (m - 1 + s.counter) % m = s.counter - 1 := by
        have hsum : m - 1 + s.counter = s.counter - 1 + m := by omega
        rw [hsum, Nat.add_mod_right, Nat.mod_eq_of_lt (by omega)]
      refine ⟨?_, Finset.erase_subset_erase w hpast, Nat.mod_lt _ (by omega)⟩
      show (m - 1 + s.counter) % m = s.waiting + (s.holders.erase w).card
      rw [hdown]
      omega

/-- A step of something with a counter: one that is none for the counter, or one that
does it no harm. -/
def Follows (m : Nat) (s s' : State ω) : Prop := s' = s ∨ ∃ a, Step m s a s' ∧ Sound m s a

theorem Follows.of_step {t : State ω} (heq : s' = t) (hstep : Step m s a t) (hsound : Sound m s a) :
    Follows m s s' := .inr ⟨a, heq ▸ hstep, hsound⟩

theorem Right.follows (h : Right m s) (hfollows : Follows m s s') : Right m s' := by
  rcases hfollows with rfl | ⟨a, hstep, hsound⟩
  · exact h
  · exact h.step hsound hstep

end Counter

/-! ## Workers in a list

Who has an object is not written on a worker that is at the end of its turn, so it
is noted beside the list what each worker was given last.
-/

/-- The turns of workers that stand in a list. -/
structure Turns (P : Type _) where
  /-- The worker is between the beginning of its turn and its end. -/
  busy : P → Bool
  /-- It is between its look and its decrement. -/
  past : P → Bool
  /-- Whether it is given an object, where a turn begins. -/
  given : P → P → Option Bool
  stays : ∀ pc, given pc pc = none

variable {P : Type _} {workers : List P} {i j : Nat} {pc pc' : P}

/-- The places in a list at which a predicate holds. -/
def places (p : P → Bool) (workers : List P) : Finset Nat :=
  (Finset.range workers.length).filter fun i => workers[i]?.any p = true

theorem mem_places {p : P → Bool} :
    i ∈ places p workers ↔ ∃ pc, workers[i]? = some pc ∧ p pc = true := by
  rw [places, Finset.mem_filter, Finset.mem_range, Option.any_eq_true]
  constructor
  · exact And.right
  · rintro ⟨pc, hi, hp⟩
    exact ⟨(List.getElem?_eq_some_iff.mp hi).1, pc, hi, hp⟩

namespace Turns

variable (turns : Turns P) (notes : Nat → Bool)

/-- The notes behind a step. -/
def note (workers workers' : List P) (i : Nat) : Bool :=
  match workers[i]?, workers'[i]? with
  | some pc, some pc' => (turns.given pc pc').getD (notes i)
  | _, _ => notes i

/-- The workers with an object. -/
def holders (workers : List P) : Finset Nat :=
  (places turns.busy workers).filter fun i => notes i = true

variable {turns notes}

theorem mem_holders : i ∈ turns.holders notes workers ↔
    ∃ pc, workers[i]? = some pc ∧ turns.busy pc = true ∧ notes i = true := by
  rw [holders, Finset.mem_filter, mem_places]
  constructor
  · rintro ⟨⟨pc, hi, hbusy⟩, hnote⟩
    exact ⟨pc, hi, hbusy, hnote⟩
  · rintro ⟨pc, hi, hbusy, hnote⟩
    exact ⟨⟨pc, hi, hbusy⟩, hnote⟩

theorem mem_holders_of (hi : workers[i]? = some pc) :
    i ∈ turns.holders notes workers ↔ turns.busy pc = true ∧ notes i = true := by
  rw [mem_holders]
  constructor
  · rintro ⟨pc', hi', h⟩
    obtain rfl := Option.some.inj (hi'.symm.trans hi)
    exact h
  · exact fun h => ⟨pc, hi, h⟩

theorem notMem_holders (hi : workers[i]? = some pc) (hbusy : turns.busy pc = false) :
    i ∉ turns.holders notes workers := by
  rw [mem_holders_of hi, hbusy]
  exact fun h => Bool.false_ne_true h.1

/-- A worker that does not move is given nothing. -/
theorem note_of_eq (workers' : List P) (h : workers'[i]? = workers[i]?) :
    turns.note notes workers workers' i = notes i := by
  rw [note, h]
  cases workers[i]? with
  | none => rfl
  | some pc =>
      dsimp only
      rw [turns.stays, Option.getD_none]

theorem note_self (workers : List P) : turns.note notes workers workers = notes :=
  funext fun _ => note_of_eq workers rfl

/-- Nobody moves. -/
theorem holders_self (workers : List P) :
    turns.holders (turns.note notes workers workers) workers = turns.holders notes workers := by
  rw [note_self]

theorem note_set (hi : workers[i]? = some pc) (pc' : P) :
    turns.note notes workers (workers.set i pc') i = (turns.given pc pc').getD (notes i) := by
  obtain ⟨hlt, -⟩ := List.getElem?_eq_some_iff.mp hi
  rw [note, hi, List.getElem?_set_self hlt]

/-- A worker moves, and the others keep what they have. -/
theorem mem_holders_set_of_ne (hne : j ≠ i) (pc' : P) :
    j ∈ turns.holders (turns.note notes workers (workers.set i pc')) (workers.set i pc') ↔
      j ∈ turns.holders notes workers := by
  have hj : (workers.set i pc')[j]? = workers[j]? := List.getElem?_set_ne hne.symm
  rw [mem_holders, mem_holders, hj, note_of_eq _ hj]

theorem holders_set_insert (hi : workers[i]? = some pc) (hbusy : turns.busy pc' = true)
    (hgiven : (turns.given pc pc').getD (notes i) = true) :
    turns.holders (turns.note notes workers (workers.set i pc')) (workers.set i pc') =
      insert i (turns.holders notes workers) := by
  obtain ⟨hlt, -⟩ := List.getElem?_eq_some_iff.mp hi
  ext j
  by_cases hji : j = i
  · subst hji
    rw [mem_holders_of (List.getElem?_set_self hlt), note_set hi]
    exact iff_of_true ⟨hbusy, hgiven⟩ (Finset.mem_insert_self j _)
  · rw [mem_holders_set_of_ne hji, Finset.mem_insert, or_iff_right hji]

theorem holders_set_erase (hi : workers[i]? = some pc)
    (h : turns.busy pc' = false ∨ (turns.given pc pc').getD (notes i) = false) :
    turns.holders (turns.note notes workers (workers.set i pc')) (workers.set i pc') =
      (turns.holders notes workers).erase i := by
  obtain ⟨hlt, -⟩ := List.getElem?_eq_some_iff.mp hi
  ext j
  by_cases hji : j = i
  · subst hji
    rw [mem_holders_of (List.getElem?_set_self hlt), note_set hi]
    refine iff_of_false ?_ (Finset.notMem_erase j _)
    rintro ⟨hbusy, hgiven⟩
    rcases h with h | h
    · exact Bool.false_ne_true (h.symm.trans hbusy)
    · exact Bool.false_ne_true (h.symm.trans hgiven)
  · rw [mem_holders_set_of_ne hji, Finset.mem_erase, and_iff_right hji]

/-- A worker outside of a turn stays outside, or begins one with nothing. -/
theorem holders_set_of_idle (hi : workers[i]? = some pc) (hidle : turns.busy pc = false)
    (h : turns.busy pc' = false ∨ turns.given pc pc' = some false) :
    turns.holders (turns.note notes workers (workers.set i pc')) (workers.set i pc') =
      turns.holders notes workers := by
  rw [holders_set_erase hi (h.imp_right fun hgiven => by rw [hgiven, Option.getD_some])]
  exact Finset.erase_eq_of_notMem (notMem_holders hi hidle)

/-- A worker goes on in its turn. -/
theorem holders_set_of_busy (hi : workers[i]? = some pc) (hbusy : turns.busy pc = true)
    (hbusy' : turns.busy pc' = true) (hgiven : turns.given pc pc' = none) :
    turns.holders (turns.note notes workers (workers.set i pc')) (workers.set i pc') =
      turns.holders notes workers := by
  cases hnote : notes i with
  | true =>
      rw [holders_set_insert hi hbusy' (by rw [hgiven, Option.getD_none, hnote])]
      exact Finset.insert_eq_of_mem ((mem_holders_of hi).mpr ⟨hbusy, hnote⟩)
  | false =>
      rw [holders_set_erase hi (.inr (by rw [hgiven, Option.getD_none, hnote]))]
      refine Finset.erase_eq_of_notMem fun hmem => ?_
      exact Bool.false_ne_true (hnote.symm.trans ((mem_holders_of hi).mp hmem).2)

/-- A new worker has nothing. -/
theorem holders_append (workers : List P) (hidle : turns.busy pc = false) :
    turns.holders (turns.note notes workers (workers ++ [pc])) (workers ++ [pc]) =
      turns.holders notes workers := by
  ext j
  rcases Nat.lt_or_ge j workers.length with hlt | hge
  · have hj : (workers ++ [pc])[j]? = workers[j]? := List.getElem?_append_left hlt
    rw [mem_holders, mem_holders, hj, note_of_eq _ hj]
  · have hout : workers[j]? = none := List.getElem?_eq_none hge
    refine iff_of_false ?_ ?_
    · rintro hmem
      obtain ⟨pc', hj, hbusy, -⟩ := mem_holders.mp hmem
      rw [List.getElem?_append_right hge] at hj
      obtain rfl := List.mem_singleton.mp (List.mem_of_getElem? hj)
      exact Bool.false_ne_true (hidle.symm.trans hbusy)
    · rintro hmem
      obtain ⟨pc', hj, -⟩ := mem_holders.mp hmem
      rw [hout] at hj
      cases hj

/-- All workers move and go on as before. -/
theorem holders_map {f : P → P} (workers : List P) (hbusy : ∀ pc, turns.busy (f pc) = turns.busy pc)
    (hgiven : ∀ pc, turns.given pc (f pc) = none) :
    turns.holders (turns.note notes workers (workers.map f)) (workers.map f) =
      turns.holders notes workers := by
  ext j
  have hj : (workers.map f)[j]? = workers[j]?.map f := List.getElem?_map
  cases hworker : workers[j]? with
  | none =>
      rw [hworker, Option.map_none] at hj
      rw [mem_holders, mem_holders, hj, hworker]
      exact iff_of_false (fun ⟨_, h, _⟩ => by cases h) (fun ⟨_, h, _⟩ => by cases h)
  | some pc =>
      rw [hworker, Option.map_some] at hj
      have hnote : turns.note notes workers (workers.map f) j = notes j := by
        rw [note, hworker, hj]
        dsimp only
        rw [hgiven, Option.getD_none]
      rw [mem_holders_of hj, mem_holders_of hworker, hbusy, hnote]

end Turns

section Places

variable {p : P → Bool}

theorem places_set_insert (hi : workers[i]? = some pc) (hp : p pc' = true) :
    places p (workers.set i pc') = insert i (places p workers) := by
  obtain ⟨hlt, -⟩ := List.getElem?_eq_some_iff.mp hi
  ext j
  by_cases hji : j = i
  · subst hji
    rw [mem_places]
    exact iff_of_true ⟨pc', List.getElem?_set_self hlt, hp⟩ (Finset.mem_insert_self j _)
  · rw [mem_places, List.getElem?_set_ne (Ne.symm hji), Finset.mem_insert, or_iff_right hji,
      mem_places]

theorem places_set_erase (hi : workers[i]? = some pc) (hp : p pc' = false) :
    places p (workers.set i pc') = (places p workers).erase i := by
  obtain ⟨hlt, -⟩ := List.getElem?_eq_some_iff.mp hi
  ext j
  by_cases hji : j = i
  · subst hji
    refine iff_of_false (fun hmem => ?_) (Finset.notMem_erase j _)
    obtain ⟨pc₁, hj, hp₁⟩ := mem_places.mp hmem
    obtain rfl := Option.some.inj ((List.getElem?_set_self hlt).symm.trans hj)
    exact Bool.false_ne_true (hp.symm.trans hp₁)
  · rw [mem_places, List.getElem?_set_ne (Ne.symm hji), Finset.mem_erase, and_iff_right hji,
      mem_places]

theorem places_set_of_not (hi : workers[i]? = some pc) (hp : p pc = false) (hp' : p pc' = false) :
    places p (workers.set i pc') = places p workers := by
  rw [places_set_erase hi hp']
  refine Finset.erase_eq_of_notMem fun hmem => ?_
  obtain ⟨pc₁, hj, hp₁⟩ := mem_places.mp hmem
  obtain rfl := Option.some.inj (hi.symm.trans hj)
  exact Bool.false_ne_true (hp.symm.trans hp₁)

theorem places_append (workers : List P) (hp : p pc = false) :
    places p (workers ++ [pc]) = places p workers := by
  ext j
  rw [mem_places, mem_places]
  constructor
  · rintro ⟨pc₁, hj, hp₁⟩
    rcases Nat.lt_or_ge j workers.length with hlt | hge
    · exact ⟨pc₁, by rwa [List.getElem?_append_left hlt] at hj, hp₁⟩
    · rw [List.getElem?_append_right hge] at hj
      obtain rfl := List.mem_singleton.mp (List.mem_of_getElem? hj)
      exact absurd (hp.symm.trans hp₁) Bool.false_ne_true
  · rintro ⟨pc₁, hj, hp₁⟩
    exact ⟨pc₁, by rw [List.getElem?_append_left (List.getElem?_eq_some_iff.mp hj).1, hj], hp₁⟩

theorem places_map {f : P → P} (workers : List P) (hp : ∀ pc, p (f pc) = p pc) :
    places p (workers.map f) = places p workers := by
  ext j
  rw [mem_places, mem_places, List.getElem?_map]
  cases workers[j]? with
  | none => exact iff_of_false (fun ⟨_, h, _⟩ => by cases h) (fun ⟨_, h, _⟩ => by cases h)
  | some pc =>
      simp only [Option.map_some, Option.some.injEq, exists_eq_left']
      rw [hp]

end Places

/-- The counter with the workers of a list. -/
def Turns.tally (turns : Turns P) (notes : Nat → Bool) (workers : List P) (counter waiting : Nat) :
    State Nat where
  counter := counter
  waiting := waiting
  holders := turns.holders notes workers
  past := places turns.past workers

theorem Turns.tally_eq {turns : Turns P} {notes : Nat → Bool} {counter counter' waiting waiting' : Nat}
    {holders past : Finset Nat} (hcounter : counter = counter') (hwaiting : waiting = waiting')
    (hholders : turns.holders notes workers = holders)
    (hpast : places turns.past workers = past) :
    turns.tally notes workers counter waiting =
      { counter := counter', waiting := waiting', holders, past } := by
  subst hcounter hwaiting hholders hpast
  rfl

namespace Turns

variable {turns : Turns P} {notes : Nat → Bool} {counter waiting : Nat}

/-- Nobody moves. -/
theorem tally_self : turns.tally (turns.note notes workers workers) workers counter waiting =
    turns.tally notes workers counter waiting := by
  rw [note_self]

/-- A worker goes on that has nothing, and gets nothing. -/
theorem tally_set_of_idle (hi : workers[i]? = some pc) (hidle : turns.busy pc = false)
    (hpast : turns.past pc = false) (hpast' : turns.past pc' = false)
    (h : turns.busy pc' = false ∨ turns.given pc pc' = some false) :
    turns.tally (turns.note notes workers (workers.set i pc')) (workers.set i pc') counter waiting =
      turns.tally notes workers counter waiting :=
  tally_eq rfl rfl (holders_set_of_idle hi hidle h) (places_set_of_not hi hpast hpast')

/-- A worker goes on in its turn, in front of its look. -/
theorem tally_set_of_busy (hi : workers[i]? = some pc) (hbusy : turns.busy pc = true)
    (hbusy' : turns.busy pc' = true) (hgiven : turns.given pc pc' = none)
    (hpast : turns.past pc = false) (hpast' : turns.past pc' = false) :
    turns.tally (turns.note notes workers (workers.set i pc')) (workers.set i pc') counter waiting =
      turns.tally notes workers counter waiting :=
  tally_eq rfl rfl (holders_set_of_busy hi hbusy hbusy' hgiven) (places_set_of_not hi hpast hpast')

/-- A worker is hired. -/
theorem tally_append (hidle : turns.busy pc = false) (hpast : turns.past pc = false) :
    turns.tally (turns.note notes workers (workers ++ [pc])) (workers ++ [pc]) counter waiting =
      turns.tally notes workers counter waiting :=
  tally_eq rfl rfl (holders_append workers hidle) (places_append workers hpast)

/-- All workers move and go on as before. -/
theorem tally_map {f : P → P} (hbusy : ∀ pc, turns.busy (f pc) = turns.busy pc)
    (hgiven : ∀ pc, turns.given pc (f pc) = none)
    (hpast : ∀ pc, turns.past (f pc) = turns.past pc) :
    turns.tally (turns.note notes workers (workers.map f)) (workers.map f) counter waiting =
      turns.tally notes workers counter waiting :=
  tally_eq rfl rfl (holders_map workers hbusy hgiven) (places_map workers hpast)

end Turns

end Tally
