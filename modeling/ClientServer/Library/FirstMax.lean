import Mathlib.Order.Lattice
import Mathlib.Data.List.Basic

/-!
# The first of the largest

The maximum of a list under a score, where the first of several with the largest
score counts.  A loop that keeps the best element so far and replaces it only by a
better one finds it (`isFirstMax_foldl`).  In a list of several parts it is that of
the first part that none behind beats (`IsFirstMax.append_cases`).
-/

namespace FirstMax

variable {α β : Type _} [LinearOrder β]

/-- An element with a larger score than all in front of it, and a score as large
as any behind it. -/
def IsFirstMax (score : α → β) (list : List α) (best : α) : Prop :=
  ∃ front behind, list = front ++ best :: behind ∧
    (∀ a ∈ front, score a < score best) ∧ ∀ a ∈ behind, score a ≤ score best

/-- The loop. -/
def firstMax (score : α → β) (best : α) (rest : List α) : α :=
  rest.foldl (fun best a => if score best < score a then a else best) best

variable {score : α → β} {list : List α} {best : α}

theorem isFirstMax_singleton (score : α → β) (best : α) : IsFirstMax score [best] best :=
  ⟨[], [], rfl, fun _ h => absurd h List.not_mem_nil, fun _ h => absurd h List.not_mem_nil⟩

namespace IsFirstMax

theorem mem (h : IsFirstMax score list best) : best ∈ list := by
  obtain ⟨front, behind, rfl, -, -⟩ := h
  exact List.mem_append_right front List.mem_cons_self

theorem le (h : IsFirstMax score list best) : ∀ a ∈ list, score a ≤ score best := by
  obtain ⟨front, behind, rfl, hfront, hbehind⟩ := h
  rw [List.forall_mem_append, List.forall_mem_cons]
  exact ⟨fun a ha => (hfront a ha).le, le_rfl, hbehind⟩

/-- One more element behind. -/
theorem concat (h : IsFirstMax score list best) (a : α) :
    IsFirstMax score (list ++ [a]) (if score best < score a then a else best) := by
  by_cases hlt : score best < score a
  · rw [if_pos hlt]
    exact ⟨list, [], rfl, fun b hb => (h.le b hb).trans_lt hlt,
      fun b hb => absurd hb List.not_mem_nil⟩
  · obtain ⟨front, behind, rfl, hfront, hbehind⟩ := h
    rw [if_neg hlt]
    refine ⟨front, behind ++ [a], by simp, hfront, ?_⟩
    rw [List.forall_mem_append, List.forall_mem_singleton]
    exact ⟨hbehind, not_lt.mp hlt⟩

/-- It is that of the first of two parts, or beats all of that part. -/
theorem append_cases {list' : List α} (h : IsFirstMax score (list ++ list') best) :
    IsFirstMax score list best ∨
      IsFirstMax score list' best ∧ ∀ a ∈ list, score a < score best := by
  obtain ⟨front, behind, heq, hfront, hbehind⟩ := h
  rcases List.append_eq_append_iff.mp heq with ⟨between, rfl, rfl⟩ | ⟨between, rfl, hrest⟩
  · rw [List.forall_mem_append] at hfront
    exact .inr ⟨⟨between, behind, rfl, hfront.2, hbehind⟩, hfront.1⟩
  · cases between with
    | nil =>
        obtain rfl : best :: behind = list' := hrest
        rw [List.append_nil]
        exact .inr ⟨⟨[], behind, rfl, fun _ h => absurd h List.not_mem_nil, hbehind⟩, hfront⟩
    | cons a between =>
        obtain ⟨rfl, rfl⟩ := List.cons.inj hrest
        exact .inl ⟨front, between, rfl, hfront,
          fun a ha => hbehind a (List.mem_append_left list' ha)⟩

/-- Of a list of images it is the image of an element. -/
theorem of_map {γ : Type _} {f : γ → α} {list : List γ}
    (h : IsFirstMax score (list.map f) best) :
    ∃ a, f a = best ∧ IsFirstMax (fun a => score (f a)) list a := by
  obtain ⟨front, behind, heq, hfront, hbehind⟩ := h
  obtain ⟨front, rest, rfl, rfl, hrest⟩ := List.map_eq_append_iff.mp heq
  obtain ⟨a, behind, rfl, rfl, rfl⟩ := List.map_eq_cons_iff.mp hrest
  rw [List.forall_mem_map] at hfront hbehind
  exact ⟨a, rfl, front, behind, rfl, hfront, hbehind⟩

end IsFirstMax

/-- The loop finds the first of the largest. -/
theorem isFirstMax_foldl (h : IsFirstMax score list best) (rest : List α) :
    IsFirstMax score (list ++ rest) (firstMax score best rest) := by
  induction rest generalizing list best with
  | nil => simpa [firstMax] using h
  | cons a rest ih =>
      have hstep := ih (h.concat a)
      rwa [List.append_assoc, List.singleton_append] at hstep

theorem isFirstMax_firstMax (score : α → β) (best : α) (rest : List α) :
    IsFirstMax score (best :: rest) (firstMax score best rest) :=
  isFirstMax_foldl (isFirstMax_singleton score best) rest

end FirstMax
