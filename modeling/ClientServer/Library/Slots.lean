import Mathlib.Algebra.GroupWithZero.Nat
import Mathlib.Data.List.Nodup
import Mathlib.Data.List.Perm.Basic

/-!
# Slots

A list whose entries are exchanged one at a time, such as the states of a set of
threads, and what is counted or collected over all of them.
-/

namespace Slots

open scoped List

variable {α β : Type*}

/-- A list around one of its entries. -/
theorem exists_around {l : List α} {i : Nat} {a : α} (hi : l[i]? = some a) :
    ∃ before after, l = before ++ a :: after ∧
      ∀ a', l.set i a' = before ++ a' :: after := by
  obtain ⟨hlt, rfl⟩ := List.getElem?_eq_some_iff.mp hi
  refine ⟨l.take i, l.drop (i + 1), ?_, ?_⟩
  · rw [← List.drop_eq_getElem_cons hlt, List.take_append_drop]
  · intro a'
    rw [List.set_eq_take_append_cons_drop, if_pos hlt]

theorem filterMap_around (f : α → Option β) (before after : List α) (a : α) :
    (before ++ a :: after).filterMap f ~
      (f a).toList ++ (before.filterMap f ++ after.filterMap f) := by
  have hcons : (a :: after).filterMap f = (f a).toList ++ after.filterMap f := by
    cases h : f a with
    | none => exact List.filterMap_cons_none h
    | some b => exact List.filterMap_cons_some h
  rw [List.filterMap_append, hcons]
  exact List.perm_append_comm_assoc _ _ _

/-- One entry is exchanged. -/
theorem filterMap_set_perm (f : α → Option β) {l : List α} {i : Nat} {a : α}
    (hi : l[i]? = some a) (a' : α) :
    (f a).toList ++ (l.set i a').filterMap f ~ (f a').toList ++ l.filterMap f := by
  obtain ⟨before, after, rfl, hset⟩ := exists_around hi
  rw [hset]
  calc (f a).toList ++ (before ++ a' :: after).filterMap f
      _ ~ (f a).toList ++ ((f a').toList ++ (before.filterMap f ++ after.filterMap f)) :=
        (filterMap_around f before after a').append_left _
      _ ~ (f a').toList ++ ((f a).toList ++ (before.filterMap f ++ after.filterMap f)) :=
        List.perm_append_comm_assoc _ _ _
      _ ~ (f a').toList ++ (before ++ a :: after).filterMap f :=
        (filterMap_around f before after a).symm.append_left _

theorem filterMap_set_of_eq {f : α → Option β} {l : List α} {i : Nat} {a a' : α}
    (hi : l[i]? = some a) (hf : f a' = f a) : (l.set i a').filterMap f = l.filterMap f := by
  obtain ⟨before, after, rfl, hset⟩ := exists_around hi
  rw [hset, List.filterMap_append, List.filterMap_append, List.filterMap_cons,
    List.filterMap_cons, hf]

/-- The lists of all entries, joined, with another entry at one place. -/
theorem flatMap_set (f : α → List β) {l : List α} {i : Nat} (hi : i < l.length) (a : α) :
    (l.set i a).flatMap f = (l.take i).flatMap f ++ (f a ++ (l.drop (i + 1)).flatMap f) := by
  rw [List.set_eq_take_append_cons_drop, if_pos hi, List.flatMap_append, List.flatMap_cons]

theorem flatMap_around (f : α → List β) {l : List α} {i : Nat} {a : α} (hi : l[i]? = some a) :
    l.flatMap f = (l.take i).flatMap f ++ (f a ++ (l.drop (i + 1)).flatMap f) := by
  obtain ⟨hlt, rfl⟩ := List.getElem?_eq_some_iff.mp hi
  rw [← flatMap_set f hlt, List.set_getElem_self]

theorem toNat_eq_ite (b : Bool) : b.toNat = if b = true then 1 else 0 := by
  cases b with
  | false => rfl
  | true => rfl

theorem countP_set_add (p : α → Bool) {l : List α} {i : Nat} {a : α}
    (hi : l[i]? = some a) (a' : α) :
    (l.set i a').countP p + (p a).toNat = l.countP p + (p a').toNat := by
  obtain ⟨before, after, rfl, hset⟩ := exists_around hi
  rw [hset]
  simp only [List.countP_append, List.countP_cons, toNat_eq_ite]
  omega

theorem sum_map_set_add (f : α → Nat) {l : List α} {i : Nat} {a : α} (hi : l[i]? = some a)
    (a' : α) : ((l.set i a').map f).sum + f a = (l.map f).sum + f a' := by
  obtain ⟨before, after, rfl, hset⟩ := exists_around hi
  rw [hset]
  simp only [List.map_append, List.map_cons, List.sum_append, List.sum_cons]
  omega

theorem filterMap_sublist_of {f g : α → Option β}
    (h : ∀ {a b}, f a = some b → g a = some b) (l : List α) : l.filterMap f <+ l.filterMap g := by
  induction l with
  | nil => exact .slnil
  | cons a l ih =>
      cases hf : f a with
      | none =>
          rw [List.filterMap_cons_none hf]
          cases hg : g a with
          | none => rwa [List.filterMap_cons_none hg]
          | some b =>
              rw [List.filterMap_cons_some hg]
              exact ih.cons b
      | some b =>
          rw [List.filterMap_cons_some hf, List.filterMap_cons_some (h hf)]
          exact ih.cons_cons b

/-- What is left of a list without its last part. -/
theorem filter_notMem_perm [DecidableEq α] {l before after : List α}
    (h : before ++ after ~ l) (hnodup : l.Nodup) : l.filter (· ∉ after) ~ before := by
  have hsplit := h.symm.filter fun a => decide (a ∉ after)
  have hafter : after.filter (fun a => decide (a ∉ after)) = [] :=
    List.filter_eq_nil_iff.mpr fun a hmem => by simp [hmem]
  have hbefore : before.filter (fun a => decide (a ∉ after)) = before := by
    refine List.filter_eq_self.mpr fun a hmem => decide_eq_true fun hafter => ?_
    exact List.disjoint_of_nodup_append (h.nodup_iff.mpr hnodup) hmem hafter
  rwa [List.filter_append, hbefore, hafter, List.append_nil] at hsplit

end Slots
