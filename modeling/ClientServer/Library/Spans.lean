import Mathlib.Data.List.Basic
import Mathlib.Order.Nat

/-!
# Searches from a position

The first place from a position on where a character has a property, and the
longest parts of a text without a separator.  A search for the next such part
looks for a character that is no separator, and behind it for one that is
(`Collected.step`).
-/

namespace Spans

variable {α : Type _}

/-- There is a character at this place, and it has the property. -/
def holdsAt (p : α → Bool) (text : List α) (i : Nat) : Bool := text[i]?.any p

/-- The first place from `pos` on where the property holds. -/
def findFrom (p : α → Bool) (text : List α) (pos : Nat) : Option Nat :=
  ((text.drop pos).findIdx? p).map (pos + ·)

section Find

variable {p : α → Bool} {text : List α} {pos i : Nat}

theorem holdsAt_eq_true_iff : holdsAt p text i = true ↔ ∃ h : i < text.length, p text[i] = true := by
  rw [holdsAt, Option.any_eq_true]
  constructor
  · rintro ⟨c, hc, hp⟩
    obtain ⟨hlt, rfl⟩ := List.getElem?_eq_some_iff.mp hc
    exact ⟨hlt, hp⟩
  · rintro ⟨hlt, hp⟩
    exact ⟨_, List.getElem?_eq_getElem hlt, hp⟩

theorem lt_of_holdsAt (h : holdsAt p text i = true) : i < text.length :=
  (holdsAt_eq_true_iff.mp h).1

theorem holdsAt_drop : holdsAt p (text.drop pos) i = holdsAt p text (pos + i) := by
  rw [holdsAt, List.getElem?_drop, holdsAt]

/-- Inside the text a character has the property or has not. -/
theorem holdsAt_not (h : i < text.length) :
    holdsAt (fun c => !p c) text i = !holdsAt p text i := by
  rw [holdsAt, holdsAt, List.getElem?_eq_getElem h]
  rfl

theorem findIdx?_eq_some_iff_holdsAt : text.findIdx? p = some i ↔
    holdsAt p text i = true ∧ ∀ j < i, holdsAt p text j = false := by
  rw [List.findIdx?_eq_some_iff_getElem, holdsAt_eq_true_iff]
  constructor
  · rintro ⟨hlt, hp, hfirst⟩
    refine ⟨⟨hlt, hp⟩, fun j hj => Bool.eq_false_iff.mpr fun hjp => ?_⟩
    obtain ⟨hjlt, hjp⟩ := holdsAt_eq_true_iff.mp hjp
    exact hfirst j hj hjp
  · rintro ⟨⟨hlt, hp⟩, hfirst⟩
    refine ⟨hlt, hp, fun j hj hjp => ?_⟩
    exact Bool.eq_false_iff.mp (hfirst j hj) (holdsAt_eq_true_iff.mpr ⟨hj.trans hlt, hjp⟩)

theorem findFrom_eq_some_iff : findFrom p text pos = some i ↔
    pos ≤ i ∧ holdsAt p text i = true ∧ ∀ j, pos ≤ j → j < i → holdsAt p text j = false := by
  rw [findFrom, Option.map_eq_some_iff]
  simp only [findIdx?_eq_some_iff_holdsAt, holdsAt_drop]
  constructor
  · rintro ⟨k, ⟨hp, hfirst⟩, rfl⟩
    refine ⟨Nat.le_add_right pos k, hp, fun j hpos hlt => ?_⟩
    have hj := hfirst (j - pos) (by omega)
    rwa [Nat.add_sub_cancel' hpos] at hj
  · rintro ⟨hpos, hp, hfirst⟩
    refine ⟨i - pos, ⟨by rwa [Nat.add_sub_cancel' hpos], fun j hj => ?_⟩, Nat.add_sub_cancel' hpos⟩
    exact hfirst (pos + j) (Nat.le_add_right pos j) (by omega)

theorem findFrom_eq_none_iff : findFrom p text pos = none ↔
    ∀ j, pos ≤ j → holdsAt p text j = false := by
  constructor
  · intro hnone j hpos
    rw [Bool.eq_false_iff]
    intro hp
    rw [findFrom, Option.map_eq_none_iff, List.findIdx?_eq_none_iff] at hnone
    obtain ⟨hlt, hp⟩ := holdsAt_eq_true_iff.mp hp
    have hmem : text[j] ∈ text.drop pos :=
      List.mem_drop_iff_getElem.mpr ⟨j - pos, by omega, by simp [Nat.add_sub_cancel' hpos]⟩
    exact Bool.eq_false_iff.mp (hnone _ hmem) hp
  · intro hfirst
    rw [Option.eq_none_iff_forall_ne_some]
    intro i hi
    obtain ⟨hpos, hp, -⟩ := findFrom_eq_some_iff.mp hi
    exact Bool.eq_false_iff.mp (hfirst i hpos) hp

end Find

/-! ## Pieces of a text -/

/-- The characters from `b` up to `e`. -/
def slice (text : List α) (b e : Nat) : List α := (text.take e).drop b

section Slice

variable {p : α → Bool} {text : List α} {b e : Nat}

theorem slice_append_drop (hle : b ≤ e) (he : e ≤ text.length) :
    slice text b e ++ text.drop e = text.drop b := by
  have hcut : (text.take e ++ text.drop e).drop b = slice text b e ++ text.drop e :=
    List.drop_append_of_le_length (by rwa [List.length_take, Nat.min_eq_left he])
  rw [← hcut, List.take_append_drop]

theorem slice_length (text : List α) (b : Nat) : slice text b text.length = text.drop b := by
  rw [slice, List.take_length]

theorem length_slice (he : e ≤ text.length) : (slice text b e).length = e - b := by
  rw [slice, List.length_drop, List.length_take, Nat.min_eq_left he]

/-- The characters of a piece stand in the text. -/
theorem forall_mem_slice (h : ∀ i, b ≤ i → i < e → holdsAt p text i = false) :
    ∀ c ∈ slice text b e, p c = false := by
  intro c hc
  obtain ⟨k, hk, hget⟩ := List.mem_drop_iff_getElem.mp hc
  have hlt : b + k < e := by
    rw [List.length_take] at hk
    omega
  have hat := h (b + k) (Nat.le_add_right b k) hlt
  rw [Bool.eq_false_iff] at hat ⊢
  intro hp
  refine hat (holdsAt_eq_true_iff.mpr ⟨?_, ?_⟩)
  · rw [List.length_take] at hk
    omega
  · rwa [← hget, List.getElem_take] at hp

/-- What stands from a position on, around the first place found. -/
theorem drop_of_findFrom {pos i : Nat} (h : findFrom p text pos = some i) :
    ∃ c, p c = true ∧ (∀ c' ∈ slice text pos i, p c' = false) ∧ pos ≤ i ∧ i < text.length ∧
      text.drop i = c :: text.drop (i + 1) := by
  obtain ⟨hle, hat, hfirst⟩ := findFrom_eq_some_iff.mp h
  obtain ⟨hlt, hp⟩ := holdsAt_eq_true_iff.mp hat
  exact ⟨text[i], hp, forall_mem_slice hfirst, hle, hlt, List.drop_eq_getElem_cons hlt⟩

/-- Nothing is found from a position on. -/
theorem forall_mem_drop {pos : Nat} (h : findFrom p text pos = none) :
    ∀ c ∈ text.drop pos, p c = false := by
  rw [← slice_length]
  exact forall_mem_slice fun i hi _ => findFrom_eq_none_iff.mp h i hi

end Slice

/-! ## The longest parts without a separator -/

variable (sep : α → Bool) (text : List α)

/-- A longest part without a separator, from `b` up to `e`. -/
structure IsSpan (b e : Nat) : Prop where
  lt : b < e
  le : e ≤ text.length
  inside : ∀ i, b ≤ i → i < e → holdsAt sep text i = false
  front : b = 0 ∨ holdsAt sep text (b - 1) = true
  behind : e = text.length ∨ holdsAt sep text e = true

/-- A longest part begins here. -/
structure Starts (b : Nat) : Prop where
  noSep : holdsAt (fun c => !sep c) text b = true
  front : b = 0 ∨ holdsAt sep text (b - 1) = true

/-- The longest parts that begin in front of a position, in order. -/
structure Collected (pos : Nat) (spans : List (Nat × Nat)) : Prop where
  mem_iff : ∀ b e, (b, e) ∈ spans ↔ IsSpan sep text b e ∧ b < pos
  sorted : spans.Pairwise fun span span' => span.2 < span'.1

/-- The longest parts of a text, in order. -/
structure All (spans : List (Nat × Nat)) : Prop where
  mem_iff : ∀ b e, (b, e) ∈ spans ↔ IsSpan sep text b e
  sorted : spans.Pairwise fun span span' => span.2 < span'.1

/-- Where the part ends that begins here. -/
def endOf (b : Nat) : Nat := (findFrom sep text (b + 1)).getD text.length

variable {sep text} {pos b e : Nat} {spans : List (Nat × Nat)}

theorem Starts.isSpan (h : Starts sep text b) : IsSpan sep text b (endOf sep text b) := by
  have hlt := lt_of_holdsAt h.noSep
  have hfirst : holdsAt sep text b = false := by
    simpa [holdsAt_not hlt] using h.noSep
  cases hfind : findFrom sep text (b + 1) with
  | none =>
      have hend : endOf sep text b = text.length := by rw [endOf, hfind]; rfl
      rw [hend]
      refine ⟨hlt, Nat.le_refl _, fun i hle _ => ?_, h.front, .inl rfl⟩
      rcases Nat.eq_or_lt_of_le hle with rfl | hgt
      · exact hfirst
      · exact findFrom_eq_none_iff.mp hfind i hgt
  | some e =>
      have hend : endOf sep text b = e := by rw [endOf, hfind]; rfl
      obtain ⟨hle, hsep, hbetween⟩ := findFrom_eq_some_iff.mp hfind
      rw [hend]
      refine ⟨hle, (lt_of_holdsAt hsep).le, fun i hbi hie => ?_, h.front, .inr hsep⟩
      rcases Nat.eq_or_lt_of_le hbi with rfl | hgt
      · exact hfirst
      · exact hbetween i hgt hie

/-- A longest part is not longer or shorter than another from the same place. -/
theorem IsSpan.end_le {e' : Nat} (h : IsSpan sep text b e) (h' : IsSpan sep text b e') : e' ≤ e := by
  rcases h.behind with rfl | hsep
  · exact h'.le
  · by_contra hlt
    have hinside := h'.inside e h.lt.le (Nat.not_le.mp hlt)
    exact absurd (hinside.symm.trans hsep) Bool.false_ne_true

/-- Between the end of a part and the next character that is no separator no part
begins. -/
theorem IsSpan.begin_cases {b' e' : Nat} (h : IsSpan sep text b e) (h' : IsSpan sep text b' e')
    (hle : b ≤ b') : b' = b ∨ e < b' := by
  rcases Nat.eq_or_lt_of_le hle with rfl | hgt
  · exact .inl rfl
  · refine .inr (Nat.lt_of_not_le fun hbe => ?_)
    rcases Nat.eq_or_lt_of_le hbe with rfl | hlt
    · -- a separator stands at the end
      rcases h.behind with hend | hsep
      · exact Nat.lt_irrefl _ (Nat.lt_of_lt_of_le (hend ▸ h'.lt) h'.le)
      · exact absurd ((h'.inside _ (Nat.le_refl _) h'.lt).symm.trans hsep) Bool.false_ne_true
    · rcases h'.front with hzero | hsep
      · omega
      · have hinside := h.inside (b' - 1) (by omega) (by omega)
        exact absurd (hinside.symm.trans hsep) Bool.false_ne_true

theorem IsSpan.holdsAt_begin (h : IsSpan sep text b e) :
    holdsAt (fun c => !sep c) text b = true := by
  rw [holdsAt_not (h.lt.trans_le h.le), h.inside b (Nat.le_refl b) h.lt]
  rfl

/-- The parts up to and with the one that begins here. -/
theorem Collected.concat (h : Collected sep text b spans) (hstarts : Starts sep text b) :
    Collected sep text (endOf sep text b + 1) (spans ++ [(b, endOf sep text b)]) where
  mem_iff b' e' := by
    have hspan := hstarts.isSpan
    rw [List.mem_append, h.mem_iff, List.mem_singleton, Prod.mk.injEq]
    constructor
    · rintro (⟨hspan', hlt⟩ | ⟨rfl, rfl⟩)
      · exact ⟨hspan', (hlt.trans hspan.lt).trans (Nat.lt_succ_self _)⟩
      · exact ⟨hspan, hspan.lt.trans (Nat.lt_succ_self _)⟩
    · rintro ⟨hspan', hlt⟩
      rcases Nat.lt_or_ge b' b with hfront | hle
      · exact .inl ⟨hspan', hfront⟩
      · rcases hspan.begin_cases hspan' hle with rfl | hbehind
        · exact .inr ⟨rfl, Nat.le_antisymm (hspan.end_le hspan') (hspan'.end_le hspan)⟩
        · omega
  sorted := by
    refine List.pairwise_append.mpr ⟨h.sorted, List.pairwise_singleton _ _, ?_⟩
    rintro ⟨b', e'⟩ hmem _ hlast
    obtain rfl := List.mem_singleton.mp hlast
    obtain ⟨hspan', hlt⟩ := (h.mem_iff b' e').mp hmem
    rcases hspan'.begin_cases hstarts.isSpan hlt.le with rfl | hbehind
    · exact absurd hlt (Nat.lt_irrefl _)
    · exact hbehind

/-- Nothing begins before the next character that is no separator. -/
theorem Collected.skip (h : Collected sep text pos spans)
    (hfront : pos = 0 ∨ text.length < pos ∨ holdsAt sep text (pos - 1) = true) :
    match findFrom (fun c => !sep c) text pos with
    | none => All sep text spans
    | some b => Starts sep text b ∧ Collected sep text b spans := by
  split
  next hnone =>
    refine ⟨fun b e => (h.mem_iff b e).trans (and_iff_left_of_imp fun hspan => ?_), h.sorted⟩
    by_contra hge
    have hnot := findFrom_eq_none_iff.mp hnone b (Nat.not_lt.mp hge)
    exact absurd (hnot.symm.trans hspan.holdsAt_begin) Bool.false_ne_true
  next b hfind =>
    obtain ⟨hpos, hnoSep, hbetween⟩ := findFrom_eq_some_iff.mp hfind
    have hlt := lt_of_holdsAt hnoSep
    have hseps : ∀ i, pos ≤ i → i < b → holdsAt sep text i = true := by
      intro i hi hib
      have hnot := hbetween i hi hib
      rwa [holdsAt_not (hib.trans hlt), Bool.not_eq_false'] at hnot
    refine ⟨⟨hnoSep, ?_⟩, fun b' e' => (h.mem_iff b' e').trans (and_congr_right fun hspan => ?_),
      h.sorted⟩
    · rcases Nat.eq_or_lt_of_le hpos with rfl | hgt
      · exact hfront.imp_right fun h => h.resolve_left (by omega)
      · exact .inr (hseps (b - 1) (by omega) (by omega))
    · refine ⟨fun h => h.trans_le hpos, fun hb' => Nat.lt_of_not_le fun hge => ?_⟩
      have hnot := hbetween b' hge hb'
      exact absurd (hnot.symm.trans hspan.holdsAt_begin) Bool.false_ne_true

theorem Collected.start : Collected sep text 0 [] where
  mem_iff b e := by simp
  sorted := .nil

/-- One turn of the search: the part that begins here, and where the next begins. -/
theorem Collected.step (h : Collected sep text b spans) (hstarts : Starts sep text b) :
    match findFrom (fun c => !sep c) text (endOf sep text b + 1) with
    | none => All sep text (spans ++ [(b, endOf sep text b)])
    | some b' => Starts sep text b' ∧ Collected sep text b' (spans ++ [(b, endOf sep text b)]) := by
  refine (h.concat hstarts).skip (.inr ?_)
  rcases hstarts.isSpan.behind with hend | hsep
  · exact .inl (by omega)
  · exact .inr hsep

end Spans
