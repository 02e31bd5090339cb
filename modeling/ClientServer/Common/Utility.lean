import ClientServer.Common.Fault
import Mathlib.Data.List.Basic

/-!
# Splitting

`utility::split` and `utility::splitReuseVector` over one delimiter.  Both walk
from delimiter to delimiter; what follows the last delimiter is a row of its own
if it is not empty.  `splitReuseVector` writes that row as well but returns the
number of rows in front of it.

The search for the next delimiter is the walk over the bytes of a row here, so
`row` holds the bytes from `start` to the place reached.
-/

namespace ClientServer

/-- `split`: the rows appended to the container. -/
def split (delim : UInt8) (keepDelim : Bool) : (row input : Bytes) → List Bytes
  | row, [] => if row = [] then [] else [row]
  | row, c :: input =>
      if c = delim then
        (if keepDelim then row ++ [c] else row) :: split delim keepDelim [] input
      else split delim keepDelim (row ++ [c]) input

/-- With the delimiters kept, the rows are the input cut into pieces. -/
theorem flatten_split (delimiter : UInt8) (row source : Bytes) :
    (split delimiter true row source).flatten = row ++ source := by
  induction source generalizing row with
  | nil =>
      rw [split]
      split
      next h => simp [h]
      next => simp
  | cons c source ih =>
      rw [split]
      split
      next h => simp [ih, h]
      next => simp [ih]

/-! ## Into a reused vector -/

section SplitReuseVector

/- A row that `emplace_back` makes, and the assignment of a view to a row. -/
variable {ρ : Type _} (emplaced : ρ) (assign : ρ → Bytes → ρ)

/-- `rows[index] = row`, behind an `emplace_back` where the vector is too short. -/
def assignRow (rows : List ρ) (index : Nat) (row : Bytes) : List ρ :=
  if rows.length ≤ index then rows ++ [assign emplaced row]
  else rows.modify index fun old => assign old row

/-- `splitReuseVector`: the number of rows and the vector. -/
def splitReuseVector (delim : UInt8) (keepDelim : Bool) :
    (row : Bytes) → (index : Nat) → (rows : List ρ) → (input : Bytes) → Nat × List ρ
  | row, index, rows, [] =>
      (index, if row = [] then rows else assignRow emplaced assign rows index row)
  | row, index, rows, c :: input =>
      if c = delim then
        splitReuseVector delim keepDelim [] (index + 1)
          (assignRow emplaced assign rows index (if keepDelim then row ++ [c] else row)) input
      else splitReuseVector delim keepDelim (row ++ [c]) index rows input

end SplitReuseVector

/-! ## The lines with a delimiter behind them -/

/-- The lines of a text that end in a delimiter; the last line need not. -/
def completeLines (delim : UInt8) (text : Bytes) : List Bytes := (text.splitOn delim).dropLast

theorem completeLines_nil (delim : UInt8) : completeLines delim [] = [] := rfl

theorem completeLines_cons_self (delim : UInt8) (text : Bytes) :
    completeLines delim (delim :: text) = [] :: completeLines delim text := by
  rw [completeLines, List.splitOn_cons_eq_if_modifyHead, if_pos (beq_self_eq_true delim),
    List.dropLast_cons_of_ne_nil (List.splitOn_ne_nil delim text), completeLines]

/-- A line goes on up to its delimiter. -/
theorem completeLines_cons_of_ne {delim c : UInt8} (h : c ≠ delim) (text : Bytes) :
    completeLines delim (c :: text) = (completeLines delim text).modifyHead (List.cons c) := by
  have hbeq : (c == delim) = false := by simpa using h
  rw [completeLines, List.splitOn_cons_eq_if_modifyHead, hbeq, completeLines]
  simp only [Bool.false_eq_true, if_false]
  cases hsplit : text.splitOn delim with
  | nil => rfl
  | cons row rows =>
      cases rows with
      | nil => rfl
      | cons row' rows => rfl

section SplitReuseVector

variable {ρ : Type _} {emplaced : ρ} {assign : ρ → Bytes → ρ}

theorem length_le_assignRow (rows : List ρ) {index : Nat} (h : index ≤ rows.length)
    (row : Bytes) : index + 1 ≤ (assignRow emplaced assign rows index row).length := by
  unfold assignRow
  split
  · rw [List.length_append, List.length_singleton]
    exact Nat.succ_le_succ h
  · next hlt =>
      rw [List.length_modify]
      exact Nat.not_le.mp hlt

/-- The rows in front of the one assigned stay. -/
theorem take_assignRow (rows : List ρ) {index : Nat} (h : index ≤ rows.length) (row : Bytes) :
    (assignRow emplaced assign rows index row).take index = rows.take index := by
  unfold assignRow
  split
  · exact List.take_append_of_le_length h
  · refine List.ext_getElem? fun i => ?_
    rw [List.getElem?_take, List.getElem?_take]
    split
    · next hlt => exact List.getElem?_modify_ne _ _ (Nat.ne_of_gt hlt)
    · rfl

/- A function that reads the assigned view off a row. -/
variable {view : ρ → Bytes} (hview : ∀ row input, view (assign row input) = input)
include hview

theorem map_take_assignRow (rows : List ρ) {index : Nat} (h : index ≤ rows.length)
    (row : Bytes) :
    ((assignRow emplaced assign rows index row).take (index + 1)).map view =
      (rows.take index).map view ++ [row] := by
  have hassigned : ((assignRow emplaced assign rows index row)[index]?).map view = some row := by
    unfold assignRow
    split
    · next hge =>
        have hindex : index = rows.length := Nat.le_antisymm h hge
        rw [hindex, List.getElem?_concat_length, Option.map_some, hview]
    · next hlt =>
        rw [List.getElem?_modify_eq, List.getElem?_eq_getElem (Nat.not_le.mp hlt)]
        exact congrArg some (hview _ row)
  obtain ⟨assigned, hget, hrow⟩ := Option.map_eq_some_iff.mp hassigned
  rw [List.take_add_one, take_assignRow rows h, hget, List.map_append]
  simp [hrow]

/-- `splitReuseVector` counts the delimiters, and so many rows of the vector are
rows of `split`, whatever stood in them. -/
theorem splitReuseVector_rows (delim : UInt8) (keepDelim : Bool) (input row : Bytes) {index : Nat}
    {rows : List ρ} (h : index ≤ rows.length) :
    let result := splitReuseVector emplaced assign delim keepDelim row index rows input
    result.1 = index + input.count delim ∧
    result.1 ≤ result.2.length ∧
    (result.2.take result.1).map view =
      (rows.take index).map view ++ (split delim keepDelim row input).take (input.count delim) := by
  induction input generalizing row index rows with
  | nil =>
      simp only [splitReuseVector, List.count_nil, Nat.add_zero, List.take_zero, List.append_nil,
        true_and]
      split
      · exact ⟨h, rfl⟩
      · rw [take_assignRow rows h]
        exact ⟨Nat.le_of_succ_le (length_le_assignRow rows h row), rfl⟩
  | cons c input ih =>
      by_cases hc : c = delim
      · subst hc
        simp only [splitReuseVector, split, if_true, List.count_cons_self, List.take_succ_cons]
        obtain ⟨hcount, hle, hrows⟩ := ih [] (@length_le_assignRow ρ emplaced assign rows index h
          (if keepDelim = true then row ++ [c] else row))
        refine ⟨?_, hle, ?_⟩
        · rw [hcount]
          omega
        · rw [hrows, map_take_assignRow hview rows h, List.append_assoc]
          rfl
      · simp only [splitReuseVector, split, hc, if_false, List.count_cons_of_ne hc]
        exact ih (row ++ [c]) h

end SplitReuseVector

/-! ## Against the rows of `split`

Both functions take a row at every delimiter.  They differ in the row behind the
last one.
-/

/-- Nothing stands behind the last delimiter. -/
def Terminated (delim : UInt8) (text : Bytes) : Prop := ∀ c ∈ text.getLast?, c = delim

instance (delim : UInt8) (text : Bytes) : Decidable (Terminated delim text) :=
  inferInstanceAs (Decidable (∀ c ∈ text.getLast?, c = delim))

theorem terminated_nil (delim : UInt8) : Terminated delim [] := by
  simp [Terminated]

theorem terminated_cons {delim c : UInt8} {text : Bytes} :
    Terminated delim (c :: text) ↔ Terminated delim text ∧ (text = [] → c = delim) := by
  cases text with
  | nil => simp [Terminated]
  | cons c' text => simp [Terminated, List.getLast?_cons_cons]

theorem length_completeLines (delim : UInt8) (text : Bytes) :
    (completeLines delim text).length = text.count delim := by
  induction text with
  | nil => rfl
  | cons c text ih =>
      by_cases hc : c = delim
      · subst hc
        rw [completeLines_cons_self, List.length_cons, ih, List.count_cons_self]
      · rw [completeLines_cons_of_ne hc, List.length_modifyHead, ih, List.count_cons_of_ne hc]

/-- `split` has one row for each delimiter and one for what stands behind the
last. -/
theorem length_split (delim : UInt8) (keepDelim : Bool) (row input : Bytes) :
    (split delim keepDelim row input).length =
      input.count delim +
        if Terminated delim input ∧ (input = [] → row = []) then 0 else 1 := by
  induction input generalizing row with
  | nil =>
      by_cases hrow : row = []
      · simp [split, hrow, terminated_nil]
      · simp [split, hrow]
  | cons c input ih =>
      by_cases hc : c = delim
      · subst hc
        simp [split, ih, terminated_cons]
        omega
      · simp [split, ih, hc, terminated_cons]

/-- The rows with a delimiter behind them are the complete lines. -/
theorem take_split (delim : UInt8) (row input : Bytes) :
    (split delim false row input).take (input.count delim) =
      (completeLines delim input).modifyHead (row ++ ·) := by
  induction input generalizing row with
  | nil => simp [completeLines_nil]
  | cons c input ih =>
      by_cases hc : c = delim
      · subst hc
        have hnil := ih []
        simp only [List.nil_append] at hnil
        simp [split, completeLines_cons_self, hnil]
        cases completeLines c input <;> rfl
      · rw [split, if_neg hc, List.count_cons_of_ne hc, ih, completeLines_cons_of_ne hc,
          List.modifyHead_modifyHead]
        congr 2
        funext line
        exact List.append_assoc row [c] line

/-- The first rows are the complete lines of the input, whatever stood in them. -/
theorem splitReuseVector_spec {ρ : Type _} {emplaced : ρ} {assign : ρ → Bytes → ρ}
    {view : ρ → Bytes} (hview : ∀ row input, view (assign row input) = input) (delim : UInt8)
    (input row : Bytes) {index : Nat} {rows : List ρ} (h : index ≤ rows.length) :
    let result := splitReuseVector emplaced assign delim false row index rows input
    result.1 = index + (completeLines delim input).length ∧
    result.1 ≤ result.2.length ∧
    (result.2.take result.1).map view =
      (rows.take index).map view ++ (completeLines delim input).modifyHead (row ++ ·) := by
  obtain ⟨hcount, hle, hrows⟩ := splitReuseVector_rows hview delim false input row h
  exact ⟨by rw [hcount, length_completeLines], hle, by rw [hrows, take_split]⟩

end ClientServer
