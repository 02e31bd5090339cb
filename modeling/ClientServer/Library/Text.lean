import Mathlib.Data.List.TakeWhile
import Mathlib.Data.Nat.Find

/-!
# Searching a text

The first place where a string stands in a text, and the first match of a
pattern.  A pattern is a sequence of pieces that are either literal or a longest
run of one class of characters.  Taking runs greedily loses no match where the
piece behind a run begins outside of its class.
-/

namespace Text

variable {α : Type _} [DecidableEq α]

/-! ## The first occurrence -/

/-- The first position of a string in a text. -/
def find (needle : List α) : List α → Option Nat
  | [] => if needle = [] then some 0 else none
  | c :: text =>
      if needle.isPrefixOf (c :: text) then some 0 else (find needle text).map (· + 1)

theorem find_nil {needle : List α} : find needle [] = if needle = [] then some 0 else none := rfl

theorem find_cons {needle : List α} {c : α} {text : List α} :
    find needle (c :: text) =
      if needle.isPrefixOf (c :: text) then some 0 else (find needle text).map (· + 1) := rfl

/-- A string is found exactly in the texts it stands in. -/
theorem find_isSome_iff {needle text : List α} :
    (find needle text).isSome = true ↔ needle <:+: text := by
  induction text with
  | nil =>
      rw [find_nil, List.infix_nil]
      split
      · next h => simp [h]
      · next h => simp [h]
  | cons c text ih =>
      rw [find_cons, List.infix_cons_iff]
      split
      · next hprefix => simp [List.isPrefixOf_iff_prefix.mp hprefix]
      · next hprefix =>
          rw [List.isPrefixOf_iff_prefix] at hprefix
          rw [Option.isSome_map, ih]
          exact ⟨.inr, fun h => h.resolve_left hprefix⟩

/-- The first place where a string stands in a text. -/
def FirstAt (needle text : List α) (pos : Nat) : Prop :=
  needle <+: text.drop pos ∧ ∀ q < pos, ¬ needle <+: text.drop q

omit [DecidableEq α] in
theorem firstAt_zero {needle text : List α} : FirstAt needle text 0 ↔ needle <+: text := by
  simp [FirstAt]

omit [DecidableEq α] in
theorem firstAt_succ {needle text : List α} {c : α} {pos : Nat} :
    FirstAt needle (c :: text) (pos + 1) ↔
      ¬ needle <+: c :: text ∧ FirstAt needle text pos := by
  constructor
  · rintro ⟨hpos, hbefore⟩
    refine ⟨hbefore 0 (Nat.succ_pos pos), hpos, fun q hq => ?_⟩
    exact hbefore (q + 1) (Nat.succ_lt_succ hq)
  · rintro ⟨hzero, hpos, hbefore⟩
    refine ⟨hpos, fun q hq => ?_⟩
    cases q with
    | zero => exact hzero
    | succ q => exact hbefore q (Nat.lt_of_succ_lt_succ hq)

theorem find_eq_some_iff {needle text : List α} {pos : Nat} :
    find needle text = some pos ↔ FirstAt needle text pos := by
  induction text generalizing pos with
  | nil =>
      rw [find_nil]
      cases pos with
      | zero => simp [firstAt_zero]
      | succ pos =>
          refine ⟨fun h => absurd h (by split <;> simp), fun h => ?_⟩
          have hnot := h.2 0 (Nat.succ_pos pos)
          rw [List.drop_nil] at hnot
          exact absurd (by simpa using h.1) hnot
  | cons c text ih =>
      rw [find_cons]
      by_cases hprefix : needle <+: c :: text
      · rw [if_pos (List.isPrefixOf_iff_prefix.mpr hprefix)]
        cases pos with
        | zero => simp [firstAt_zero, hprefix]
        | succ pos => simp [firstAt_succ, hprefix]
      · rw [if_neg (by rwa [List.isPrefixOf_iff_prefix])]
        cases pos with
        | zero => simp [firstAt_zero, hprefix]
        | succ pos => simp [firstAt_succ, hprefix, ih]

theorem find_eq_none_iff {needle text : List α} : find needle text = none ↔ ¬ needle <:+: text := by
  rw [← find_isSome_iff, Bool.not_eq_true, Option.isSome_eq_false_iff, Option.isNone_iff_eq_none]

/-- Nothing is found in a part without the first character of the string. -/
theorem find_append_of_not_mem {c : α} {needle skipped : List α} (h : c ∉ skipped)
    (text : List α) :
    find (c :: needle) (skipped ++ text) =
      (find (c :: needle) text).map (· + skipped.length) := by
  induction skipped with
  | nil => simp
  | cons d skipped ih =>
      rw [List.mem_cons, not_or] at h
      obtain ⟨hd, hskipped⟩ := h
      rw [List.cons_append, find_cons, if_neg (by simp [List.isPrefixOf, hd]), ih hskipped,
        Option.map_map]
      rfl

/-! ## Terminators -/

/-- No proper part of a string both begins and ends it. -/
def Unbordered (t : List α) : Prop :=
  ∀ n < t.length, 0 < n → t.take n ≠ t.drop (t.length - n)

instance (t : List α) : Decidable (Unbordered t) :=
  inferInstanceAs (Decidable (∀ n < t.length, _))

omit [DecidableEq α] in
/-- Behind a text it does not stand in, an unbordered terminator ends nothing
but the whole. -/
theorem Unbordered.eq_of_prefix {t m p : List α} (ht : Unbordered t) (hm : ¬ t <:+: m)
    (hp : p <+: m ++ t) (hs : t <:+ p) : p = m ++ t := by
  obtain ⟨a, rfl⟩ := hs
  obtain ⟨q, hq⟩ := hp
  obtain ⟨c, hmc, rfl⟩ | ⟨c, hac, hct⟩ := List.append_eq_append_iff.mp hq
  · exact absurd ⟨a, c, hmc.symm⟩ hm
  · -- c begins the terminator and ends it
    have hbegin : c = t.take c.length := by
      rw [hct, List.take_left]
    have hle : c.length ≤ t.length := by
      have := congrArg List.length hct
      rw [List.length_append] at this
      omega
    have hend : c = t.drop (t.length - c.length) := by
      have hdrop := congrArg (List.drop (a.length + (t.length - c.length))) hac
      have hlength := congrArg List.length hac
      rw [List.length_append, List.length_append] at hlength
      rw [List.drop_append, List.drop_of_length_le (Nat.le_add_right _ _), List.nil_append,
        Nat.add_sub_cancel_left, show a.length + (t.length - c.length) = m.length by omega,
        List.drop_left] at hdrop
      exact hdrop.symm
    cases Nat.lt_or_eq_of_le hle with
    | inr heq =>
        rw [heq, List.take_length] at hbegin
        rw [hac, hbegin]
    | inl hlt =>
        cases Nat.eq_zero_or_pos c.length with
        | inl hzero =>
            rw [List.length_eq_zero_iff.mp hzero, List.append_nil] at hac
            exact absurd ⟨a, [], by rw [List.append_nil, hac]⟩ hm
        | inr hpos => exact absurd (hbegin.symm.trans hend) (ht c.length hlt hpos)

omit [DecidableEq α] in
/-- Nor does it stand in less than the whole. -/
theorem Unbordered.eq_of_infix {t m p : List α} (ht : Unbordered t) (hm : ¬ t <:+: m)
    (hp : p <+: m ++ t) (hs : t <:+: p) : p = m ++ t := by
  obtain ⟨before, behind, rfl⟩ := hs
  have hwhole := ht.eq_of_prefix hm ((List.prefix_append ..).trans hp)
    (List.suffix_append before t)
  rw [hwhole] at hp ⊢
  have hle := hp.length_le
  rw [List.length_append] at hle
  rw [List.length_eq_zero_iff.mp (show behind.length = 0 by omega), List.append_nil]

/-- It is found behind the text. -/
theorem Unbordered.find_append {t m : List α} (ht : Unbordered t) (hm : ¬ t <:+: m) :
    find t (m ++ t) = some m.length := by
  refine find_eq_some_iff.mpr ⟨⟨[], ?_⟩, fun q hq hprefix => ?_⟩
  · rw [List.drop_left, List.append_nil]
  · obtain ⟨rest, hrest⟩ := hprefix
    have hsplit : (m ++ t).take q ++ t ++ rest = m ++ t := by
      rw [List.append_assoc, hrest, List.take_append_drop]
    have hwhole := ht.eq_of_prefix hm ⟨rest, hsplit⟩ (List.suffix_append ..)
    have hlength := congrArg List.length hwhole
    rw [List.length_append, List.length_append, List.length_take, List.length_append] at hlength
    omega

/-! ## Patterns -/

inductive Piece (α : Type _) where
  | literal (s : List α)
  /-- The longest run of characters of a class, which is not empty. -/
  | run (p : α → Bool)

/-- What is left of a text that begins with the piece. -/
def Piece.strip : Piece α → List α → Option (List α)
  | .literal s, text => if s.isPrefixOf text then some (text.drop s.length) else none
  | .run p, text => if text.takeWhile p = [] then none else some (text.dropWhile p)

/-- What is left of a text that begins with the pattern. -/
def strip (pattern : List (Piece α)) (text : List α) : Option (List α) :=
  pattern.foldlM (fun rest piece => piece.strip rest) text

/-- The first match of a pattern at a place an anchor allows; the anchor looks
at the character in front of the place and at the text behind it. -/
def search (anchor : Option α → List α → Bool) (pattern : List (Piece α)) :
    Option α → List α → Option (List α)
  | before, [] => if anchor before [] then (strip pattern []).map fun _ => [] else none
  | before, c :: text =>
      match if anchor before (c :: text) then strip pattern (c :: text) else none with
      | some rest => some ((c :: text).take ((c :: text).length - rest.length))
      | none => search anchor pattern (some c) text

/-- The first match anywhere. -/
def searchAny (pattern : List (Piece α)) (text : List α) : Option (List α) :=
  search (fun _ _ => true) pattern none text

theorem strip_nil {text : List α} : strip [] text = some text := rfl

theorem strip_cons_literal {s : List α} {pattern : List (Piece α)} {text : List α} :
    strip (.literal s :: pattern) text =
      if s.isPrefixOf text then strip pattern (text.drop s.length) else none := by
  simp only [strip, List.foldlM_cons, Piece.strip]
  split <;> rfl

theorem strip_cons_run {p : α → Bool} {pattern : List (Piece α)} {text : List α} :
    strip (.run p :: pattern) text =
      if text.takeWhile p = [] then none else strip pattern (text.dropWhile p) := by
  simp only [strip, List.foldlM_cons, Piece.strip]
  split <;> rfl

/-! ### The first match -/

section Anywhere

variable {pattern : List (Piece α)} {text rest : List α}

theorem search_of_first {before : Option α} {pos : Nat}
    (hstrip : strip pattern (text.drop pos) = some rest)
    (hfirst : ∀ q < pos, strip pattern (text.drop q) = none) :
    search (fun _ _ => true) pattern before text =
      some ((text.drop pos).take ((text.drop pos).length - rest.length)) := by
  induction text generalizing pos before with
  | nil =>
      rw [List.drop_nil] at hstrip ⊢
      simp [search, hstrip]
  | cons c text ih =>
      cases pos with
      | zero =>
          rw [List.drop_zero] at hstrip ⊢
          simp [search, hstrip]
      | succ pos =>
          have hnone : strip pattern (c :: text) = none := hfirst 0 (Nat.succ_pos pos)
          simp only [search, if_true, hnone]
          exact ih hstrip fun q hq => hfirst (q + 1) (Nat.succ_lt_succ hq)

/-- The match is the one at the first place where the pattern can be stripped. -/
theorem searchAny_of_first {pos : Nat} (hstrip : strip pattern (text.drop pos) = some rest)
    (hfirst : ∀ q < pos, strip pattern (text.drop q) = none) :
    searchAny pattern text = some ((text.drop pos).take ((text.drop pos).length - rest.length)) :=
  search_of_first hstrip hfirst

theorem search_eq_none {before : Option α} (h : ∀ pos, strip pattern (text.drop pos) = none) :
    search (fun _ _ => true) pattern before text = none := by
  induction text generalizing before with
  | nil => simp [search, show strip pattern [] = none from h 0]
  | cons c text ih =>
      simp only [search, if_true, show strip pattern (c :: text) = none from h 0]
      exact ih fun pos => h (pos + 1)

theorem searchAny_eq_none (h : ∀ pos, strip pattern (text.drop pos) = none) :
    searchAny pattern text = none := search_eq_none h

/-- A pattern that can be stripped somewhere can be stripped at a first place. -/
theorem exists_first {pos : Nat} (h : strip pattern (text.drop pos) ≠ none) :
    ∃ pos rest, strip pattern (text.drop pos) = some rest ∧
      ∀ q < pos, strip pattern (text.drop q) = none := by
  have hex : ∃ pos, strip pattern (text.drop pos) ≠ none := ⟨pos, h⟩
  obtain ⟨rest, hrest⟩ := Option.ne_none_iff_exists'.mp (Nat.find_spec hex)
  exact ⟨Nat.find hex, rest, hrest, fun q hq => not_not.mp (Nat.find_min hex hq)⟩

end Anywhere

/-! ### Patterns that begin with a literal -/

section Literal

variable {s : List α} {pattern : List (Piece α)} {text rest : List α}

theorem prefix_of_strip (h : strip (.literal s :: pattern) text = some rest) : s <+: text := by
  rw [strip_cons_literal] at h
  split at h
  · next hprefix => exact List.isPrefixOf_iff_prefix.mp hprefix
  · exact absurd h (by simp)

/-- A match needs the literal somewhere. -/
theorem infix_of_search {anchor : Option α → List α → Bool} {before : Option α}
    {matched : List α}
    (h : search anchor (.literal s :: pattern) before text = some matched) : s <:+: text := by
  induction text generalizing before with
  | nil =>
      rw [search] at h
      split at h
      · obtain ⟨rest, hstrip, -⟩ := Option.map_eq_some_iff.mp h
        exact (prefix_of_strip hstrip).isInfix
      · exact absurd h (by simp)
  | cons c text ih =>
      rw [search] at h
      split at h
      · next rest hstrip =>
          split at hstrip
          · exact (prefix_of_strip hstrip).isInfix
          · exact absurd hstrip (by simp)
      · exact (ih h).trans (List.suffix_cons c text).isInfix

/-- Nothing matches in a part without the first character of the literal. -/
theorem searchAny_append_of_not_mem {c : α} {skipped : List α} (h : c ∉ skipped) (text : List α) :
    searchAny (.literal (c :: s) :: pattern) (skipped ++ text) =
      searchAny (.literal (c :: s) :: pattern) text := by
  have hbefore (text : List α) (before before' : Option α) :
      search (fun _ _ => true) (.literal (c :: s) :: pattern) before text =
        search (fun _ _ => true) (.literal (c :: s) :: pattern) before' text := by
    cases text with
    | nil => rfl
    | cons d text => rfl
  induction skipped with
  | nil => rfl
  | cons d skipped ih =>
      rw [List.mem_cons, not_or] at h
      have hnone : strip (.literal (c :: s) :: pattern) (d :: (skipped ++ text)) = none := by
        rw [strip_cons_literal, if_neg (by simp [List.isPrefixOf, h.1])]
      rw [← ih h.2, searchAny, searchAny, List.cons_append, search]
      simp only [if_true, hnone]
      exact hbefore _ _ _

end Literal

/-- A match at the beginning is found. -/
theorem search_of_strip {anchor : Option α → List α → Bool} {pattern : List (Piece α)}
    {before : Option α} {matched rest : List α} (hne : matched ≠ [])
    (hanchor : anchor before (matched ++ rest) = true)
    (hstrip : strip pattern (matched ++ rest) = some rest) :
    search anchor pattern before (matched ++ rest) = some matched := by
  cases matched with
  | nil => exact absurd rfl hne
  | cons c matched =>
      rw [List.cons_append] at hanchor hstrip ⊢
      rw [search, hanchor, if_pos rfl, hstrip]
      dsimp only
      rw [← List.cons_append, List.length_append, Nat.add_sub_cancel_right, List.take_left]

end Text
