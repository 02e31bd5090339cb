import ClientServer.Common.LinesExact

/-!
# Reading up to an empty line

A loop over `getLine` ends where it returns false.  That is the end of the
source, and it is an empty line as well: nothing stands in front of its
delimiter.  `At.reads` says for every source whose lines fit into the array what
such a loop gets to see: the lines in front of the first empty one, unless a call
throws before.
-/

namespace ClientServer.Lines

/-- The rows of a source, empty lines included. -/
inductive RowsOf (delimiter : UInt8) : List Bytes → Prop where
  | nil : RowsOf delimiter []
  | last {line : Bytes} : line ≠ [] → delimiter ∉ line → RowsOf delimiter [line]
  | cons {line : Bytes} {rows : List Bytes} : delimiter ∉ line →
      RowsOf delimiter rows → RowsOf delimiter ((line ++ [delimiter]) :: rows)

theorem rowsOf_split {delimiter : UInt8} {row source : Bytes} (hrow : delimiter ∉ row) :
    RowsOf delimiter (split delimiter true row source) := by
  induction source generalizing row with
  | nil =>
      rw [split]
      split
      next => exact .nil
      next h => exact .last h hrow
  | cons c source ih =>
      rw [split]
      split
      next hc =>
          subst hc
          exact .cons hrow (ih List.not_mem_nil)
      next hc => exact ih (not_mem_append_singleton hrow hc)

theorem IsRow.shown {delimiter : UInt8} {line row rest : Bytes} (h : IsRow delimiter line row rest)
    (hline : delimiter ∉ line) : Lines.shown delimiter false row = line := by
  cases h with
  | delimited rest => exact shown_row hline false
  | last => exact shown_line hline false

theorem IsRow.length_le {delimiter : UInt8} {line row rest : Bytes}
    (h : IsRow delimiter line row rest) : row.length ≤ line.length + 1 := by
  cases h with
  | delimited rest => simp
  | last => exact Nat.le_succ _

/-- The first row, and when it is an empty line. -/
theorem RowsOf.uncons {delimiter : UInt8} {row : Bytes} {rows : List Bytes}
    (h : RowsOf delimiter (row :: rows)) :
    ∃ line, delimiter ∉ line ∧ RowsOf delimiter rows ∧ IsRow delimiter line row rows.flatten ∧
      (line = [] ↔ row = [delimiter]) := by
  cases h with
  | last hne hline =>
      refine ⟨row, hline, .nil, .last, fun h => absurd h hne, ?_⟩
      rintro rfl
      exact absurd List.mem_cons_self hline
  | @cons line _ hline hrows => exact ⟨line, hline, hrows, .delimited _, by simp⟩

theorem RowsOf.flatten_eq_nil_iff {delimiter : UInt8} {rows : List Bytes}
    (h : RowsOf delimiter rows) : rows.flatten = [] ↔ rows = [] := by
  cases h with
  | nil => simp
  | last hne => simpa using hne
  | cons => simp

/-- No row is empty: an empty line has its delimiter. -/
theorem RowsOf.length_le {delimiter : UInt8} {rows : List Bytes} (h : RowsOf delimiter rows) :
    rows.length ≤ rows.flatten.length := by
  induction h with
  | nil => simp
  | @last line hne =>
      have := List.length_pos_of_ne_nil hne
      simp only [List.length_singleton, List.flatten_cons, List.flatten_nil, List.append_nil]
      omega
  | @cons line rows _ _ ih =>
      rw [List.flatten_cons, List.length_append, List.length_append, List.length_cons,
        List.length_singleton]
      omega

/-- The lines in front of the first empty one. -/
theorem takeWhile_ne_shown {delimiter : UInt8} {rows : List Bytes} (h : RowsOf delimiter rows) :
    (rows.takeWhile (· ≠ [delimiter])).map (shown delimiter false) =
      (rows.map (shown delimiter false)).takeWhile (· ≠ []) := by
  induction rows with
  | nil => rfl
  | cons row rows ih =>
      obtain ⟨line, hline, hrows, hrow, hempty⟩ := h.uncons
      rw [List.map_cons, hrow.shown hline]
      by_cases hdelimiter : row = [delimiter]
      · rw [List.takeWhile_cons_of_neg (by simp [hdelimiter]),
          List.takeWhile_cons_of_neg (by simp [hempty.mpr hdelimiter]), List.map_nil]
      · rw [List.takeWhile_cons_of_pos (by simp [hdelimiter]),
          List.takeWhile_cons_of_pos (by simp [mt hempty.mp hdelimiter]), List.map_cons,
          hrow.shown hline, ih hrows]

/-- Lines that are shorter than the array fit into it with their delimiters. -/
theorem RowsOf.length_row_le {delimiter : UInt8} {rows : List Bytes} (h : RowsOf delimiter rows)
    {length : Nat} (hlength : ∀ line ∈ rows.map (shown delimiter false), line.length < length) :
    ∀ row ∈ rows, row.length ≤ length := by
  induction rows with
  | nil => simp
  | cons row rows ih =>
      obtain ⟨line, hline, hrows, hrow, -⟩ := h.uncons
      rw [List.map_cons, List.forall_mem_cons, hrow.shown hline] at hlength
      rw [List.forall_mem_cons]
      exact ⟨hrow.length_le.trans hlength.1, ih hrows hlength.2⟩

/-! ## The calls of a loop -/

/-- The calls of `getLine` return the rows one by one, and then false or a
fault. -/
def Reads : Lines → List Bytes → Option Fault → Prop
  | s, [], none => ∃ view s', s.getLineImpl = .ok (false, view, s')
  | s, [], some fault => s.getLineImpl = .error fault
  | s, row :: rows, ending => ∃ s', s.getLineImpl = .ok (true, row, s') ∧ Reads s' rows ending

/-- As `Undisturbed`, up to the first empty line. -/
def UndisturbedTo (delimiter : UInt8) : (content : Bytes) → (offset : Nat) → List Bytes → Prop
  | _, _, [] => True
  | content, offset, row :: rows =>
      match place content offset row (row :: rows).flatten with
      | none => False
      | some (content, offset) =>
          row = [delimiter] ∨
            (rows = [] → row.getLast? = some delimiter ∨
              content[offset + row.length]? ≠ some delimiter) ∧
            UndisturbedTo delimiter content (offset + row.length) rows

instance decidableUndisturbedTo (delimiter : UInt8) : (content : Bytes) → (offset : Nat) →
    (rows : List Bytes) → Decidable (UndisturbedTo delimiter content offset rows)
  | _, _, [] => isTrue trivial
  | content, offset, row :: rows =>
      match hplace : place content offset row (row :: rows).flatten with
      | none => isFalse (by rw [UndisturbedTo, hplace]; exact id)
      | some (content', offset') =>
          have := decidableUndisturbedTo delimiter content' (offset' + row.length) rows
          decidable_of_iff
            (row = [delimiter] ∨ (rows = [] → row.getLast? = some delimiter ∨
              content'[offset' + row.length]? ≠ some delimiter) ∧
              UndisturbedTo delimiter content' (offset' + row.length) rows)
            (by rw [UndisturbedTo, hplace])

/-- Nothing disturbs the reader where the array has all of the source and every line
has its delimiter. -/
theorem undisturbedTo_of_fits {delimiter : UInt8} {content : Bytes} {offset : Nat}
    {rows : List Bytes} (hfits : offset + rows.flatten.length ≤ content.length)
    (hlast : ∀ row ∈ rows, row.getLast? = some delimiter) :
    UndisturbedTo delimiter content offset rows := by
  induction rows generalizing offset with
  | nil => trivial
  | cons row rows ih =>
      rw [List.flatten_cons, List.length_append, ← Nat.add_assoc] at hfits
      rw [List.forall_mem_cons] at hlast
      rw [UndisturbedTo, place, if_pos (Nat.le_trans (Nat.le_add_right _ _) hfits)]
      exact .inr ⟨fun _ => .inl hlast.1, ih hfits hlast.2⟩

section Call

variable {delimiter : UInt8} {keepDelimiter : Bool} {s : Lines} {content : Bytes} {offset : Nat}
  {line row rest : Bytes}

/-- Nothing stands in front of the delimiter of an empty line. -/
theorem At.takeLine_empty (h : At delimiter keepDelimiter s content offset rest) :
    s.takeLine offset = (false, [], s) := by
  rw [Lines.takeLine, h.processed, Nat.sub_self]
  rfl

/-- A reader that took the byte behind the source for a delimiter has no place to
search from. -/
theorem At.takeLine_behind (hne : line ≠ []) (h : At delimiter keepDelimiter s content offset line)
    (hbehind : content[offset + line.length]? = some delimiter) :
    ∃ view s', s.takeLine (offset + line.length) = (true, view, s') ∧
      s'.getLineImpl = .error .outOfBounds := by
  have hend := (List.getElem?_eq_some_iff.mp hbehind).1
  refine ⟨_, _, h.takeLine (mt List.length_eq_zero_iff.mp hne) (iff_of_true hbehind rfl), ?_⟩
  have hlt : s._sizeInUse < offset + (line.length + 1) := by
    rw [h.sizeInUse_eq]
    omega
  simp only [Lines.getLineImpl, Lines.find, if_true, if_pos hlt]
  rfl

end Call

/-- By induction on the rows; each call finds the reader in front of the next. -/
theorem At.reads {delimiter : UInt8} {keepDelimiter : Bool} {s : Lines} {content : Bytes}
    {offset : Nat} {rows : List Bytes} (h : At delimiter keepDelimiter s content offset rows.flatten)
    (hrows : RowsOf delimiter rows) (hlength : ∀ row ∈ rows, row.length ≤ content.length) :
    (UndisturbedTo delimiter content offset rows ∧
      Reads s ((rows.takeWhile (· ≠ [delimiter])).map (shown delimiter keepDelimiter)) none) ∨
    (¬ UndisturbedTo delimiter content offset rows ∧
      ∃ front fault, front.length ≤ rows.length ∧ Reads s front (some fault)) := by
  induction rows generalizing s content offset with
  | nil => exact .inl ⟨trivial, _, _, h.getLineImpl_nil⟩
  | cons row rows ih =>
      obtain ⟨line, hline, hrows', hrow, hempty⟩ := hrows.uncons
      rw [List.flatten_cons] at h
      have hcall := h.getLineImpl_place hline hrow (hlength row List.mem_cons_self)
      rw [UndisturbedTo, List.flatten_cons]
      cases hplace : place content offset row (row ++ rows.flatten) with
      | none =>
          rw [hplace] at hcall
          exact .inr ⟨id, [], _, Nat.zero_le _, hcall⟩
      | some placed =>
          obtain ⟨content', offset'⟩ := placed
          rw [hplace] at hcall
          obtain ⟨s₁, hat, -, hfits, hcontent, hread⟩ := hcall
          cases Classical.em (row = [delimiter]) with
          | inl hdelimiter =>
              rw [hempty.mpr hdelimiter, List.length_nil, Nat.add_zero, hat.takeLine_empty] at hread
              refine .inl ⟨.inl hdelimiter, ?_⟩
              rw [List.takeWhile_cons_of_neg (by simp [hdelimiter])]
              exact ⟨_, _, hread⟩
          | inr hdelimiter =>
              have hne : line ≠ [] := mt hempty.mp hdelimiter
              have hbehind := hrow.behind_iff hline hrows'.flatten_eq_nil_iff
                (content'[offset' + row.length]? ≠ some delimiter)
              simp only [hbehind, hdelimiter, false_or]
              cases Classical.em (row = line → content'[offset' + row.length]? ≠ some delimiter) with
              | inl hnone =>
                  obtain ⟨s₂, htake, -, -, hat₂⟩ := hat.takeLine_row hne hline hrow hfits hnone
                  rw [htake] at hread
                  have hrest := fun row hmem => hcontent ▸ hlength row (.tail _ hmem)
                  rw [List.takeWhile_cons_of_pos (by simp [hdelimiter]), List.map_cons]
                  cases ih hat₂ hrows' hrest with
                  | inl hreads => exact .inl ⟨⟨hnone, hreads.1⟩, s₂, hread, hreads.2⟩
                  | inr hthrows =>
                      obtain ⟨hdisturbed, front, fault, hle, hreads⟩ := hthrows
                      exact .inr ⟨fun h => hdisturbed h.2, _ :: front, fault,
                        Nat.succ_le_succ hle, s₂, hread, hreads⟩
              | inr hsome =>
                  have hdisturbed := hsome
                  rw [Classical.not_imp, not_not] at hsome
                  obtain ⟨rfl, hbyte⟩ := hsome
                  rw [hrow.rest_eq_nil rfl, List.append_nil] at hat
                  obtain ⟨view, s₂, htake, hthrows⟩ := hat.takeLine_behind hne hbyte
                  rw [htake] at hread
                  exact .inr ⟨fun h => hdisturbed h.1, [view], _, Nat.succ_le_succ (Nat.zero_le _),
                    s₂, hread, hthrows⟩

end ClientServer.Lines
