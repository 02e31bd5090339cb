import Mathlib.Data.List.TakeWhile

/-!
# Gathering chunks

A reader appends what arrives to a buffer, one chunk at a time, until a test
accepts the buffer.  How the bytes are cut into chunks matters: the test only
sees the buffer between two chunks, so bytes that arrive together with the last
ones that were wanted are gathered with them.
-/

namespace Gather

variable {α : Type _} (done : List α → Bool)

/-- The buffer as the test first accepts it; `none` if the chunks run out. -/
def gather : (buffer : List α) → (chunks : List (List α)) → Option (List α)
  | buffer, [] => if done buffer then some buffer else none
  | buffer, chunk :: chunks =>
      if done buffer then some buffer else gather (buffer ++ chunk) chunks

/-- The buffer is gathered after some of the chunks and not before. -/
structure Gathers (buffer : List α) (chunks : List (List α)) (n : Nat) : Prop where
  accepts : done (buffer ++ (chunks.take n).flatten) = true
  first : ∀ m, m < n → done (buffer ++ (chunks.take m).flatten) = false

variable {done}

/-- A chunk the test was not content with is part of the buffer. -/
theorem gathers_succ {buffer chunk : List α} {chunks : List (List α)}
    (h : done buffer = false) (n : Nat) :
    Gathers done buffer (chunk :: chunks) (n + 1) ↔ Gathers done (buffer ++ chunk) chunks n := by
  have hcons : ∀ m, buffer ++ ((chunk :: chunks).take (m + 1)).flatten =
      buffer ++ chunk ++ (chunks.take m).flatten := by
    intro m
    rw [List.take_succ_cons, List.flatten_cons, List.append_assoc]
  constructor
  · intro hg
    refine ⟨by rw [← hcons]; exact hg.accepts, fun m hm => ?_⟩
    rw [← hcons]
    exact hg.first (m + 1) (Nat.succ_lt_succ hm)
  · intro hg
    refine ⟨by rw [hcons]; exact hg.accepts, fun m hm => ?_⟩
    cases m with
    | zero => simpa using h
    | succ m =>
        rw [hcons]
        exact hg.first m (Nat.lt_of_succ_lt_succ hm)

theorem gathers_zero {buffer : List α} {chunks : List (List α)} :
    Gathers done buffer chunks 0 ↔ done buffer = true := by
  constructor
  · intro hg
    simpa using hg.accepts
  · intro h
    exact ⟨by simpa using h, fun m hm => absurd hm (Nat.not_lt_zero m)⟩

theorem gather_eq_some_iff {buffer result : List α} {chunks : List (List α)} :
    gather done buffer chunks = some result ↔
      ∃ n, n ≤ chunks.length ∧ Gathers done buffer chunks n ∧
        result = buffer ++ (chunks.take n).flatten := by
  induction chunks generalizing buffer with
  | nil =>
      rw [gather]
      cases h : done buffer with
      | true =>
          simp only [if_true, Option.some.injEq, List.length_nil, Nat.le_zero]
          constructor
          · rintro rfl
            exact ⟨0, rfl, gathers_zero.mpr h, by simp⟩
          · rintro ⟨n, rfl, -, rfl⟩
            simp
      | false =>
          simp only [Bool.false_eq_true, if_false, List.length_nil, Nat.le_zero]
          constructor
          · intro hnone
            exact absurd hnone (by simp)
          · rintro ⟨n, rfl, hg, -⟩
            rw [gathers_zero, h] at hg
            exact Bool.noConfusion hg
  | cons chunk chunks ih =>
      rw [gather]
      cases h : done buffer with
      | true =>
          simp only [if_true, Option.some.injEq]
          constructor
          · rintro rfl
            exact ⟨0, Nat.zero_le _, gathers_zero.mpr h, by simp⟩
          · rintro ⟨n, -, hg, rfl⟩
            -- nothing is gathered past a buffer that was accepted
            cases n with
            | zero => simp
            | succ n =>
                have hzero := hg.first 0 (Nat.zero_lt_succ n)
                rw [List.take_zero, List.flatten_nil, List.append_nil, h] at hzero
                exact Bool.noConfusion hzero
      | false =>
          simp only [Bool.false_eq_true, if_false]
          rw [ih]
          constructor
          · rintro ⟨n, hn, hg, rfl⟩
            exact ⟨n + 1, Nat.succ_le_succ hn, (gathers_succ h n).mpr hg, by simp⟩
          · rintro ⟨n, hn, hg, rfl⟩
            cases n with
            | zero =>
                rw [gathers_zero, h] at hg
                exact Bool.noConfusion hg
            | succ n => exact ⟨n, Nat.le_of_succ_le_succ hn, (gathers_succ h n).mp hg, by simp⟩

/-- The chunks ran out. -/
theorem gather_eq_none_iff {buffer : List α} {chunks : List (List α)} :
    gather done buffer chunks = none ↔
      ∀ n, n ≤ chunks.length → done (buffer ++ (chunks.take n).flatten) = false := by
  induction chunks generalizing buffer with
  | nil =>
      rw [gather]
      cases h : done buffer <;> simp [h]
  | cons chunk chunks ih =>
      rw [gather]
      cases h : done buffer with
      | true =>
          simp only [if_true, reduceCtorEq, false_iff, not_forall]
          exact ⟨0, Nat.zero_le _, by simp [h]⟩
      | false =>
          simp only [Bool.false_eq_true, if_false]
          rw [ih]
          constructor
          · intro hall n hn
            cases n with
            | zero => simpa using h
            | succ n => simpa using hall n (Nat.le_of_succ_le_succ hn)
          · intro hall n hn
            simpa using hall (n + 1) (Nat.succ_le_succ hn)

end Gather
