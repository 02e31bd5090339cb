import Mathlib.Data.List.Basic

/-!
# The words of a text

A text is split at any of several separators, and empty words are left out.  The
rules take a text apart from the left: a separator is skipped, and a word ends at
the first separator behind it.
-/

namespace Words

variable {α : Type _} (sep : α → Bool)

/-- The words of a text behind the beginning of a word. -/
def wordsFrom : (word text : List α) → List (List α)
  | [], [] => []
  | word, [] => [word]
  | [], c :: text => if sep c then wordsFrom [] text else wordsFrom [c] text
  | word, c :: text => if sep c then word :: wordsFrom [] text else wordsFrom (word ++ [c]) text

/-- The longest parts of a text without a separator. -/
def words (text : List α) : List (List α) := wordsFrom sep [] text

/-- A part of a text that can be a word. -/
structure IsWord (word : List α) : Prop where
  ne_nil : word ≠ []
  noSep : ∀ c ∈ word, sep c = false

variable {sep}

/-- A word is one for fewer separators, too. -/
theorem IsWord.mono {sep' : α → Bool} {word : List α} (hword : IsWord sep word)
    (h : ∀ c, sep' c = true → sep c = true) : IsWord sep' word where
  ne_nil := hword.ne_nil
  noSep c hc := by
    rw [Bool.eq_false_iff]
    intro hsep
    exact Bool.eq_false_iff.mp (hword.noSep c hc) (h c hsep)

@[simp] theorem words_nil : words sep [] = [] := rfl

theorem words_cons_sep {c : α} (hc : sep c = true) (text : List α) :
    words sep (c :: text) = words sep text := by
  simp [words, wordsFrom, hc]

/-- Separators in front of a text. -/
theorem words_append_seps {seps : List α} (h : ∀ c ∈ seps, sep c = true) (text : List α) :
    words sep (seps ++ text) = words sep text := by
  induction seps with
  | nil => rfl
  | cons c seps ih =>
      rw [List.cons_append, words_cons_sep (h c (by simp)),
        ih fun d hd => h d (List.mem_cons_of_mem c hd)]

theorem wordsFrom_append {word : List α} (h : ∀ c ∈ word, sep c = false) :
    ∀ (begun text : List α), wordsFrom sep begun (word ++ text) = wordsFrom sep (begun ++ word) text := by
  induction word with
  | nil => simp
  | cons c word ih =>
      intro begun text
      have hc := h c (by simp)
      have hword := ih fun d hd => h d (List.mem_cons_of_mem c hd)
      cases begun with
      | nil => simp [wordsFrom, hc, hword]
      | cons d begun => simp [wordsFrom, hc, hword]

theorem wordsFrom_cons_sep {word : List α} (hne : word ≠ []) {c : α} (hc : sep c = true)
    (text : List α) : wordsFrom sep word (c :: text) = word :: words sep text := by
  cases word with
  | nil => exact absurd rfl hne
  | cons d word => simp [wordsFrom, hc, words]

/-- A word and the separators behind it. -/
theorem words_append {word seps : List α} (hword : IsWord sep word)
    (hseps : ∀ c ∈ seps, sep c = true) (hne : seps ≠ []) (text : List α) :
    words sep (word ++ (seps ++ text)) = word :: words sep text := by
  cases seps with
  | nil => exact absurd rfl hne
  | cons c seps =>
      rw [words, wordsFrom_append hword.noSep, List.nil_append, List.cons_append,
        wordsFrom_cons_sep hword.ne_nil (hseps c (by simp)),
        words_append_seps fun d hd => hseps d (List.mem_cons_of_mem c hd)]

/-- A last word. -/
theorem words_of_isWord {word : List α} (hword : IsWord sep word) : words sep word = [word] := by
  have h := wordsFrom_append hword.noSep [] []
  rw [List.append_nil, List.nil_append] at h
  rw [words, h]
  cases word with
  | nil => exact absurd rfl hword.ne_nil
  | cons c word => rfl

/-- A last word with separators behind it. -/
theorem words_append_last {word seps : List α} (hword : IsWord sep word)
    (hseps : ∀ c ∈ seps, sep c = true) : words sep (word ++ seps) = [word] := by
  cases seps with
  | nil => rw [List.append_nil, words_of_isWord hword]
  | cons c seps =>
      have h := words_append hword hseps (List.cons_ne_nil c seps) []
      rwa [List.append_nil, words_nil] at h

end Words
