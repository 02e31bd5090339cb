import Mathlib.Data.List.Nodup
import Mathlib.Data.List.Range
import Mathlib.Logic.Function.Basic

/-!
# Sharing work by a counter

Workers share the items below a size.  Each takes the next item off a counter
they have in common, handles it if there is one, and then reads the counter once
more: it goes on while the counter is below the size, and leaves otherwise.  The
counter may run past the size by one for each worker.

`Inv` is what holds at every moment of such a phase, and `Inv.perm` what it says
at the end: when all workers have left, every item has been handled once.
-/

namespace SharedCounter

/-- Where a worker stands. -/
inductive Position where
  | starting
  | holding (item : Nat)
  | checking
  | left
deriving DecidableEq

variable {ω : Type _}

/-- The items handled so far, the counter and the workers belong together. -/
structure Inv (size counter : Nat) (handled : List Nat) (position : ω → Position) : Prop where
  nodup : handled.Nodup
  handled_lt : ∀ i ∈ handled, i < size ∧ i < counter
  holding_lt : ∀ w i, position w = .holding i → i < size ∧ i < counter ∧ i ∉ handled
  holding_inj : ∀ w w' i, position w = .holding i → position w' = .holding i → w = w'
  covered : ∀ i < size, i < counter → i ∈ handled ∨ ∃ w, position w = .holding i
  left_ge : ∀ w, position w = .left → size ≤ counter

/-- A phase begins. -/
theorem Inv.start (size : Nat) {position : ω → Position} (h : ∀ w, position w = .starting) :
    Inv size 0 [] position where
  nodup := List.nodup_nil
  handled_lt i hi := absurd hi List.not_mem_nil
  holding_lt w i hw := by
    rw [h w] at hw
    exact nomatch hw
  holding_inj w w' i hw := by
    rw [h w] at hw
    exact nomatch hw
  covered i _ hi := absurd hi (Nat.not_lt_zero i)
  left_ge w hw := by
    rw [h w] at hw
    exact nomatch hw

/-- When everyone has left, the items handled are all items, each once. -/
theorem Inv.perm [Nonempty ω] {size counter : Nat} {handled : List Nat} {position : ω → Position}
    (h : Inv size counter handled position) (hleft : ∀ w, position w = .left) :
    handled.Perm (List.range size) := by
  obtain ⟨worker⟩ := ‹Nonempty ω›
  have hcounter := h.left_ge worker (hleft worker)
  refine (List.perm_ext_iff_of_nodup h.nodup List.nodup_range).mpr fun i => ?_
  rw [List.mem_range]
  constructor
  · exact fun hi => (h.handled_lt i hi).1
  · intro hi
    rcases h.covered i hi (Nat.lt_of_lt_of_le hi hcounter) with hhandled | ⟨w, hw⟩
    · exact hhandled
    · rw [hleft w] at hw
      exact nomatch hw

section Steps

variable [DecidableEq ω] {size counter : Nat} {handled : List Nat} {position : ω → Position}
  {w : ω}

/-- Where a worker stands after a step of another one. -/
theorem holding_of_update {p : Position} {w' : ω} {i : Nat}
    (h : Function.update position w p w' = .holding i) :
    (w' = w ∧ p = .holding i) ∨ position w' = .holding i := by
  rcases eq_or_ne w' w with rfl | hne
  · rw [Function.update_self] at h
    exact .inl ⟨rfl, h⟩
  · rw [Function.update_of_ne hne] at h
    exact .inr h

theorem left_of_update {p : Position} {w' : ω} (h : Function.update position w p w' = .left) :
    p = .left ∨ position w' = .left := by
  rcases eq_or_ne w' w with rfl | hne
  · rw [Function.update_self] at h
    exact .inl h
  · rw [Function.update_of_ne hne] at h
    exact .inr h

/-- A worker that holds nothing moves without taking an item. -/
theorem Inv.move (h : Inv size counter handled position) (hw : ∀ i, position w ≠ .holding i)
    {p : Position} (hp : ∀ i, p ≠ .holding i) (hleft : p = .left → size ≤ counter) :
    Inv size counter handled (Function.update position w p) where
  nodup := h.nodup
  handled_lt := h.handled_lt
  holding_lt w' i hw' := by
    rcases holding_of_update hw' with ⟨-, hpi⟩ | hold
    · exact absurd hpi (hp i)
    · exact h.holding_lt w' i hold
  holding_inj w' w'' i hw' hw'' := by
    rcases holding_of_update hw' with ⟨-, hpi⟩ | hold
    · exact absurd hpi (hp i)
    · rcases holding_of_update hw'' with ⟨-, hpi⟩ | hold'
      · exact absurd hpi (hp i)
      · exact h.holding_inj w' w'' i hold hold'
  covered i hi hcounter := by
    rcases h.covered i hi hcounter with hhandled | ⟨w', hw'⟩
    · exact .inl hhandled
    · have hne : w' ≠ w := by
        rintro rfl
        exact hw i hw'
      exact .inr ⟨w', by rw [Function.update_of_ne hne, hw']⟩
  left_ge w' hw' := by
    rcases left_of_update hw' with hp | hold
    · exact hleft hp
    · exact h.left_ge w' hold

/-- A worker takes an item. -/
theorem Inv.fetch (h : Inv size counter handled position) (hw : ∀ i, position w ≠ .holding i)
    (hlt : counter < size) :
    Inv size (counter + 1) handled (Function.update position w (.holding counter)) where
  nodup := h.nodup
  handled_lt i hi := by
    obtain ⟨hsize, hcounter⟩ := h.handled_lt i hi
    exact ⟨hsize, Nat.lt_succ_of_lt hcounter⟩
  holding_lt w' i hw' := by
    rcases holding_of_update hw' with ⟨-, hpi⟩ | hold
    · obtain rfl : counter = i := Position.holding.inj hpi
      refine ⟨hlt, Nat.lt_succ_self _, fun hi => ?_⟩
      exact absurd (h.handled_lt _ hi).2 (Nat.lt_irrefl _)
    · obtain ⟨hsize, hcounter, hi⟩ := h.holding_lt w' i hold
      exact ⟨hsize, Nat.lt_succ_of_lt hcounter, hi⟩
  holding_inj w' w'' i hw' hw'' := by
    rcases holding_of_update hw' with ⟨rfl, hpi⟩ | hold <;>
      rcases holding_of_update hw'' with ⟨rfl, hpi'⟩ | hold'
    · rfl
    · obtain rfl : counter = i := Position.holding.inj hpi
      exact absurd (h.holding_lt w'' _ hold').2.1 (Nat.lt_irrefl _)
    · obtain rfl : counter = i := Position.holding.inj hpi'
      exact absurd (h.holding_lt w' _ hold).2.1 (Nat.lt_irrefl _)
    · exact h.holding_inj w' w'' i hold hold'
  covered i hi hcounter := by
    rcases Nat.lt_succ_iff_lt_or_eq.mp hcounter with hold | rfl
    · rcases h.covered i hi hold with hhandled | ⟨w', hw'⟩
      · exact .inl hhandled
      · have hne : w' ≠ w := by
          rintro rfl
          exact hw i hw'
        exact .inr ⟨w', by rw [Function.update_of_ne hne, hw']⟩
    · exact .inr ⟨w, Function.update_self ..⟩
  left_ge w' hw' := by
    rcases left_of_update hw' with hp | hold
    · exact nomatch hp
    · exact Nat.le_succ_of_le (h.left_ge w' hold)

/-- A worker finds nothing to take. -/
theorem Inv.fetch_none (h : Inv size counter handled position)
    (hw : ∀ i, position w ≠ .holding i) (hge : size ≤ counter) :
    Inv size (counter + 1) handled (Function.update position w .checking) where
  nodup := h.nodup
  handled_lt i hi := by
    obtain ⟨hsize, hcounter⟩ := h.handled_lt i hi
    exact ⟨hsize, Nat.lt_succ_of_lt hcounter⟩
  holding_lt w' i hw' := by
    rcases holding_of_update hw' with ⟨-, hpi⟩ | hold
    · exact nomatch hpi
    · obtain ⟨hsize, hcounter, hi⟩ := h.holding_lt w' i hold
      exact ⟨hsize, Nat.lt_succ_of_lt hcounter, hi⟩
  holding_inj := (h.move hw (fun _ => Position.noConfusion) Position.noConfusion).holding_inj
  covered i hi _ :=
    (h.move hw (fun _ => Position.noConfusion) Position.noConfusion).covered i hi
      (Nat.lt_of_lt_of_le hi hge)
  left_ge _ _ := Nat.le_succ_of_le hge

/-- A worker handles the item it holds. -/
theorem Inv.handle (h : Inv size counter handled position) {i : Nat}
    (hw : position w = .holding i) :
    Inv size counter (handled ++ [i]) (Function.update position w .checking) where
  nodup := by
    obtain ⟨-, -, hi⟩ := h.holding_lt w i hw
    refine List.nodup_append.mpr ⟨h.nodup, List.nodup_singleton i, ?_⟩
    rintro j hj _ hmem rfl
    exact hi (List.mem_singleton.mp hmem ▸ hj)
  handled_lt j hj := by
    rcases List.mem_append.mp hj with hj | hj
    · exact h.handled_lt j hj
    · obtain rfl := List.mem_singleton.mp hj
      obtain ⟨hsize, hcounter, -⟩ := h.holding_lt w _ hw
      exact ⟨hsize, hcounter⟩
  holding_lt w' j hw' := by
    rcases eq_or_ne w' w with rfl | hne
    · rw [Function.update_self] at hw'
      exact nomatch hw'
    · rw [Function.update_of_ne hne] at hw'
      obtain ⟨hsize, hcounter, hj⟩ := h.holding_lt w' j hw'
      refine ⟨hsize, hcounter, fun hmem => ?_⟩
      rcases List.mem_append.mp hmem with hmem | hmem
      · exact hj hmem
      · obtain rfl := List.mem_singleton.mp hmem
        exact hne (h.holding_inj w' w _ hw' hw)
  holding_inj w' w'' j hw' hw'' := by
    rcases holding_of_update hw' with ⟨-, hp⟩ | hold
    · exact nomatch hp
    · rcases holding_of_update hw'' with ⟨-, hp⟩ | hold'
      · exact nomatch hp
      · exact h.holding_inj w' w'' j hold hold'
  covered j hj hcounter := by
    rcases h.covered j hj hcounter with hhandled | ⟨w', hw'⟩
    · exact .inl (List.mem_append_left _ hhandled)
    · rcases eq_or_ne w' w with rfl | hne
      · obtain rfl : i = j := Position.holding.inj (hw.symm.trans hw')
        exact .inl (List.mem_append_right _ (List.mem_singleton_self _))
      · exact .inr ⟨w', by rw [Function.update_of_ne hne, hw']⟩
  left_ge w' hw' := by
    rcases left_of_update hw' with hp | hold
    · exact nomatch hp
    · exact h.left_ge w' hold

end Steps

end SharedCounter
