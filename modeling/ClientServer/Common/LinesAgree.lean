import ClientServer.Common.Lines2
import ClientServer.Common.LinesStop
import Mathlib.Data.List.Chain

/-!
# The two families of readers

For a source that the array has all of, a loop over `getLine` of the first family
returns the rows of `split` unless a line is empty, at which the loop ends, or the
last line has no delimiter and the array holds one behind it.  The second family
returns the rows of `split` in any case.
-/

namespace ClientServer.Lines

/-! ## What a loop gets to see -/

section Reads

variable {s s' : Lines} {row view : Bytes} {rows rows' : List Bytes} {fault : Fault}
  {ending ending' : Option Fault}

theorem Reads.of_false (h : Reads s rows ending) (hread : s.getLineImpl = .ok (false, view, s')) :
    rows = [] ∧ ending = none := by
  cases rows with
  | nil =>
      cases ending with
      | none => exact ⟨rfl, rfl⟩
      | some fault =>
          rw [Reads, hread] at h
          cases h
  | cons row rows =>
      obtain ⟨s₁, hread', -⟩ := h
      rw [hread] at hread'
      cases hread'

theorem Reads.of_error (h : Reads s rows ending) (hread : s.getLineImpl = .error fault) :
    rows = [] ∧ ending = some fault := by
  cases rows with
  | nil =>
      cases ending with
      | none =>
          obtain ⟨view, s₁, hread'⟩ := h
          rw [hread] at hread'
          cases hread'
      | some fault' =>
          rw [Reads, hread] at h
          cases h
          exact ⟨rfl, rfl⟩
  | cons row rows =>
      obtain ⟨s₁, hread', -⟩ := h
      rw [hread] at hread'
      cases hread'

theorem Reads.of_true (h : Reads s rows ending) (hread : s.getLineImpl = .ok (true, row, s')) :
    ∃ rows', rows = row :: rows' ∧ Reads s' rows' ending := by
  cases rows with
  | nil =>
      cases ending with
      | none =>
          obtain ⟨view, s₁, hread'⟩ := h
          rw [hread] at hread'
          cases hread'
      | some fault =>
          rw [Reads, hread] at h
          cases h
  | cons row rows =>
      obtain ⟨s₁, hread', hrest⟩ := h
      rw [hread] at hread'
      cases hread'
      exact ⟨rows, rfl, hrest⟩

theorem Reads.unique (h : Reads s rows ending) (h' : Reads s rows' ending') :
    rows = rows' ∧ ending = ending' := by
  induction rows generalizing s rows' with
  | nil =>
      cases ending with
      | none =>
          obtain ⟨view, s₁, hread⟩ := h
          obtain ⟨rfl, rfl⟩ := h'.of_false hread
          exact ⟨rfl, rfl⟩
      | some fault =>
          obtain ⟨rfl, rfl⟩ := h'.of_error h
          exact ⟨rfl, rfl⟩
  | cons row rows ih =>
      obtain ⟨s₁, hread, hrest⟩ := h
      obtain ⟨rows', rfl, hrest'⟩ := h'.of_true hread
      obtain ⟨rfl, rfl⟩ := ih hrest hrest'
      exact ⟨rfl, rfl⟩

end Reads

/-! ## Blank lines -/

/-- No delimiter stands at the beginning or behind another one. -/
def NoBlank (delimiter : UInt8) (source : Bytes) : Prop :=
  (delimiter :: source).IsChain fun b c => ¬ (b = delimiter ∧ c = delimiter)

instance (delimiter : UInt8) (source : Bytes) : Decidable (NoBlank delimiter source) :=
  inferInstanceAs (Decidable (List.IsChain _ _))

/-- The byte in front of what is left is the last of the row, or the delimiter in
front of the row. -/
theorem split_ne_blank_iff {delimiter : UInt8} {row source : Bytes} (hrow : delimiter ∉ row) :
    (∀ line ∈ split delimiter true row source, line ≠ [delimiter]) ↔
      ((row.getLast?).getD delimiter :: source).IsChain
        fun b c => ¬ (b = delimiter ∧ c = delimiter) := by
  induction source generalizing row with
  | nil =>
      refine iff_of_true ?_ (List.isChain_singleton _)
      rw [split]
      split
      next => simp
      next =>
        intro line hline heq
        rw [List.mem_singleton.mp hline] at heq
        rw [heq] at hrow
        exact hrow List.mem_cons_self
  | cons c source ih =>
      rw [split, List.isChain_cons_cons]
      split
      next hc =>
        subst hc
        rw [if_pos rfl, List.forall_mem_cons, ih List.not_mem_nil]
        refine and_congr_left fun _ => ?_
        cases hlast : row.getLast? with
        | none =>
            rw [List.getLast?_eq_none_iff] at hlast
            simp [hlast]
        | some b =>
            have hmem := List.mem_of_getLast? hlast
            refine iff_of_true ?_ ?_
            · intro heq
              have hnil : row = [] := by simpa using congrArg List.length heq
              rw [hnil] at hmem
              exact List.not_mem_nil hmem
            · rintro ⟨hb, -⟩
              rw [Option.getD_some] at hb
              exact hrow (hb ▸ hmem)
      next hc =>
        rw [ih (not_mem_append_singleton hrow hc), List.getLast?_concat]
        exact (and_iff_right fun h => hc h.2).symm

theorem noBlank_iff (delimiter : UInt8) (source : Bytes) :
    NoBlank delimiter source ↔ ∀ line ∈ split delimiter true [] source, line ≠ [delimiter] :=
  (split_ne_blank_iff List.not_mem_nil).symm

/-! ## A source that the array has all of -/

theorem RowsOf.ne_nil {delimiter : UInt8} {rows : List Bytes} (h : RowsOf delimiter rows) :
    ∀ row ∈ rows, row ≠ [] := by
  induction h with
  | nil => simp
  | last hne => simpa using hne
  | cons _ _ ih => simpa using ih

/-- The source ends with a delimiter if its last row does. -/
theorem terminated_iff (delimiter : UInt8) (source : Bytes) :
    Terminated delimiter source ↔
      ∀ row ∈ (split delimiter true [] source).getLast?, row.getLast? = some delimiter := by
  have hflatten : (split delimiter true [] source).flatten = source :=
    flatten_split delimiter [] source
  have hrows : RowsOf delimiter (split delimiter true [] source) := rowsOf_split List.not_mem_nil
  generalize split delimiter true [] source = rows at hflatten hrows ⊢
  subst hflatten
  rcases List.eq_nil_or_concat rows with rfl | ⟨front, last, rfl⟩
  · simp [Terminated]
  · have hne : last ≠ [] := hrows.ne_nil last (by simp)
    have hc := List.getLast?_eq_some_getLast hne
    rw [Terminated, List.concat_eq_append, List.flatten_append, List.flatten_singleton,
      List.getLast?_append, hc, List.getLast?_concat]
    simp [hc]

/-- The byte behind the source is the one the array had there. -/
theorem refill_getElem? {content source : Bytes} (hfits : source.length ≤ content.length) :
    (refill content source)[source.length]? = content[source.length]? := by
  rw [refill, List.take_of_length_le hfits, List.getElem?_append_right (Nat.le_refl _),
    Nat.sub_self, List.getElem?_drop, Nat.add_zero]

/-- Without blank lines, only the byte behind the last line can disturb. -/
theorem undisturbedTo_fits_iff {delimiter : UInt8} {content : Bytes} {offset : Nat}
    {rows : List Bytes} (hfits : offset + rows.flatten.length ≤ content.length)
    (hblank : ∀ row ∈ rows, row ≠ [delimiter]) :
    UndisturbedTo delimiter content offset rows ↔
      (∀ row ∈ rows.getLast?, row.getLast? = some delimiter) ∨
        content[offset + rows.flatten.length]? ≠ some delimiter := by
  induction rows generalizing offset with
  | nil => exact iff_of_true trivial (.inl (by simp))
  | cons row rows ih =>
      rw [List.forall_mem_cons] at hblank
      rw [List.flatten_cons, List.length_append, ← Nat.add_assoc] at hfits ⊢
      rw [UndisturbedTo, place, if_pos (Nat.le_trans (Nat.le_add_right _ _) hfits)]
      simp only [hblank.1, false_or, ih hfits hblank.2]
      cases rows with
      | nil => simp
      | cons row' rows => simp

/-- A loop over a source that the array has all of. -/
theorem reads_fits_iff {_buffer source : Bytes} (hfits : source.length ≤ _buffer.length)
    (delimiter : UInt8) (keepDelimiter : Bool) :
    Reads (StringLines.new _buffer source delimiter keepDelimiter)
        (split delimiter keepDelimiter [] source) none ↔
      NoBlank delimiter source ∧
        (Terminated delimiter source ∨ _buffer[source.length]? ≠ some delimiter) := by
  have hflatten : (split delimiter true [] source).flatten = source :=
    flatten_split delimiter [] source
  have hrows : RowsOf delimiter (split delimiter true [] source) := rowsOf_split List.not_mem_nil
  have hat : At delimiter keepDelimiter (StringLines.new _buffer source delimiter keepDelimiter)
      (refill _buffer source) 0 (split delimiter true [] source).flatten := by
    rw [hflatten]
    exact At.new _buffer source delimiter keepDelimiter
  have hcontent : source.length ≤ (refill _buffer source).length := by
    rwa [length_refill]
  have hlength : ∀ row ∈ split delimiter true [] source,
      row.length ≤ (refill _buffer source).length := by
    intro row hrow
    refine le_trans ?_ hcontent
    rw [← hflatten]
    exact (List.sublist_flatten_of_mem hrow).length_le
  have hall : 0 + (split delimiter true [] source).flatten.length ≤
      (refill _buffer source).length := by
    rwa [hflatten, Nat.zero_add]
  have hundisturbed (hblank : NoBlank delimiter source) :=
    undisturbedTo_fits_iff hall ((noBlank_iff delimiter source).mp hblank)
  rw [hflatten, Nat.zero_add, refill_getElem? hfits, ← terminated_iff] at hundisturbed
  rw [split_eq_map_shown List.not_mem_nil]
  constructor
  · intro hreads
    cases hat.reads hrows hlength with
    | inl hread =>
        obtain ⟨hto, hread⟩ := hread
        have hrowsEq := (hread.unique hreads).1
        have hlengthEq := congrArg List.length hrowsEq
        rw [List.length_map, List.length_map] at hlengthEq
        have hall := (List.takeWhile_prefix _).eq_of_length hlengthEq
        have hblank : NoBlank delimiter source := by
          rw [noBlank_iff]
          intro line hline
          simpa using List.takeWhile_eq_self_iff.mp hall line hline
        exact ⟨hblank, (hundisturbed hblank).mp hto⟩
    | inr hthrows =>
        obtain ⟨-, front, fault, -, hread⟩ := hthrows
        cases (hread.unique hreads).2
  · intro ⟨hblank, hbehind⟩
    have hto := (hundisturbed hblank).mpr hbehind
    have hall : (split delimiter true [] source).takeWhile (· ≠ [delimiter]) =
        split delimiter true [] source := by
      rw [List.takeWhile_eq_self_iff]
      intro line hline
      simpa using (noBlank_iff delimiter source).mp hblank line hline
    cases hat.reads hrows hlength with
    | inl hread =>
        rw [hall] at hread
        exact hread.2
    | inr hthrows => exact absurd hto hthrows.1

/-- Both families return the rows of `split` just when no line is blank and the byte
behind a last line without delimiter is none. -/
theorem readers_agree_iff {_buffer source : Bytes} (hfits : source.length ≤ _buffer.length)
    (delimiter : UInt8) (keepDelimiter : Bool) :
    (∃ lines,
      utility.split delimiter keepDelimiter source source.length [] = some (.ok lines) ∧
      Reads (StringLines.new _buffer source delimiter keepDelimiter) lines none ∧
      Lines2.Reads 0 (({} : Lines2.State).construct (.text source) delimiter keepDelimiter)
        lines) ↔
      NoBlank delimiter source ∧
        (Terminated delimiter source ∨ _buffer[source.length]? ≠ some delimiter) := by
  rw [← reads_fits_iff hfits delimiter keepDelimiter,
    utility.split_eq delimiter keepDelimiter source [] (Nat.le_refl _), List.nil_append]
  constructor
  · rintro ⟨lines, hsplit, hreads, -⟩
    rwa [← Except.ok.inj (Option.some.inj hsplit)] at hreads
  · intro hreads
    exact ⟨_, rfl, hreads, Lines2.reads_fresh source delimiter keepDelimiter⟩

/-- Two lines in an array of eight bytes. -/
theorem readers_agree_two : ∃ lines,
    utility.split 10 true (bytes "a\nb") 3 [] = some (.ok lines) ∧
    Reads (StringLines.new [0, 0, 0, 0, 0, 0, 0, 0] (bytes "a\nb") 10 true) lines none ∧
    Lines2.Reads 0 (({} : Lines2.State).construct (.text (bytes "a\nb")) 10 true) lines :=
  (readers_agree_iff (show (bytes "a\nb").length ≤ [0, 0, 0, 0, 0, 0, 0, 0].length by
    decide +kernel) 10 true).mpr (by decide +kernel)

/-- The first family ends at the blank line, the second does not. -/
theorem readers_differ : ¬ ∀ (_buffer source : Bytes) (delimiter : UInt8) (keepDelimiter : Bool),
    source.length ≤ _buffer.length → ∃ lines,
      utility.split delimiter keepDelimiter source source.length [] = some (.ok lines) ∧
      Reads (StringLines.new _buffer source delimiter keepDelimiter) lines none ∧
      Lines2.Reads 0 (({} : Lines2.State).construct (.text source) delimiter keepDelimiter)
        lines := by
  intro hall
  obtain ⟨lines, hsplit, hreads, -⟩ := hall (List.replicate 500000 0) (bytes "a\n\nb") 10 false (by
    rw [List.length_replicate]
    decide +kernel)
  rw [utility.split_eq 10 false _ [] (Nat.le_refl _), List.nil_append] at hsplit
  rw [← Except.ok.inj (Option.some.inj hsplit),
    reads_fits_iff (by rw [List.length_replicate]; decide +kernel)] at hreads
  exact absurd hreads.1 (by decide +kernel)

end ClientServer.Lines
