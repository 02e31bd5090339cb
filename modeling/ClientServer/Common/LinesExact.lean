import ClientServer.Common.LinesAt
import Mathlib.Data.List.TakeWhile

/-!
# Which sources are read exactly

Two things go wrong in the array.  A line that ends at the last byte of the full
array leaves nothing to move to the front, and the next call throws.  And the
byte behind the part in use is compared with the delimiter: a last line without
one is taken for a line with a delimiter if the array holds one there from
before.
-/

namespace ClientServer.Lines

/-! ## The lines of a source -/

/-- Lines of at least one byte in front of the delimiter; the last one need not
have a delimiter. -/
inductive LinesOf (delimiter : UInt8) : List Bytes → Prop where
  | nil : LinesOf delimiter []
  | last {line : Bytes} : line ≠ [] → delimiter ∉ line → LinesOf delimiter [line]
  | cons {line : Bytes} {rows : List Bytes} : line ≠ [] → delimiter ∉ line →
      LinesOf delimiter rows → LinesOf delimiter ((line ++ [delimiter]) :: rows)

/-- A line as it is handed out. -/
def shown (delimiter : UInt8) (keepDelimiter : Bool) (row : Bytes) : Bytes :=
  if keepDelimiter then row else row.takeWhile (· ≠ delimiter)

theorem not_mem_append_singleton {delimiter c : UInt8} {row : Bytes} (hrow : delimiter ∉ row)
    (hc : c ≠ delimiter) : delimiter ∉ row ++ [c] :=
  List.not_mem_append hrow (List.mem_singleton.not.mpr hc.symm)

theorem linesOf_split {delimiter : UInt8} {row source : Bytes} (hrow : delimiter ∉ row)
    (h : ∀ line ∈ split delimiter true row source, line ≠ [delimiter]) :
    LinesOf delimiter (split delimiter true row source) := by
  induction source generalizing row with
  | nil =>
      rw [split]
      split
      next => exact .nil
      next hne => exact .last hne hrow
  | cons c source ih =>
      rw [split] at h ⊢
      split
      next hc =>
        subst hc
        rw [if_pos rfl, if_pos rfl] at h
        have hne : row ≠ [] := by
          rintro rfl
          exact h [c] List.mem_cons_self rfl
        exact .cons hne hrow (ih List.not_mem_nil fun line hline => h line (.tail _ hline))
      next hc =>
        rw [if_neg hc] at h
        exact ih (not_mem_append_singleton hrow hc) h

theorem decide_ne_of_mem {delimiter : UInt8} {line : Bytes} (h : delimiter ∉ line) :
    ∀ b ∈ line, decide (b ≠ delimiter) = true := by
  intro b hb
  refine decide_eq_true ?_
  rintro rfl
  exact h hb

theorem shown_line {delimiter : UInt8} {line : Bytes} (h : delimiter ∉ line)
    (keepDelimiter : Bool) : shown delimiter keepDelimiter line = line := by
  cases keepDelimiter with
  | true => rfl
  | false => exact List.takeWhile_eq_self_iff.mpr (decide_ne_of_mem h)

theorem shown_row {delimiter : UInt8} {line : Bytes} (h : delimiter ∉ line)
    (keepDelimiter : Bool) : shown delimiter keepDelimiter (line ++ [delimiter]) =
      if keepDelimiter then line ++ [delimiter] else line := by
  cases keepDelimiter with
  | true => rfl
  | false =>
      show (line ++ [delimiter]).takeWhile (fun b => decide (b ≠ delimiter)) = line
      rw [List.takeWhile_append_of_pos (decide_ne_of_mem h), List.takeWhile_cons_of_neg (by simp), List.append_nil]

/-- The lines with and without delimiters. -/
theorem split_eq_map_shown {delimiter : UInt8} {row source : Bytes} (hrow : delimiter ∉ row)
    (keepDelimiter : Bool) :
    split delimiter keepDelimiter row source =
      (split delimiter true row source).map (shown delimiter keepDelimiter) := by
  induction source generalizing row with
  | nil =>
      rw [split, split]
      split
      next => rfl
      next => rw [List.map_singleton, shown_line hrow]
  | cons c source ih =>
      rw [split, split]
      split
      next hc =>
        subst hc
        rw [List.map_cons, ih List.not_mem_nil, if_pos rfl, shown_row hrow]
      next hc =>
        exact ih (not_mem_append_singleton hrow hc)

/-- A line at the beginning of what is left of the source: with the delimiter, or
at the end. -/
inductive IsRow (delimiter : UInt8) (line : Bytes) : (row rest : Bytes) → Prop where
  | delimited (rest : Bytes) : IsRow delimiter line (line ++ [delimiter]) rest
  | last : IsRow delimiter line line []

theorem LinesOf.uncons {delimiter : UInt8} {row : Bytes} {rows : List Bytes}
    (h : LinesOf delimiter (row :: rows)) :
    ∃ line, line ≠ [] ∧ delimiter ∉ line ∧ LinesOf delimiter rows ∧
      IsRow delimiter line row rows.flatten := by
  cases h with
  | last hne hline => exact ⟨row, hne, hline, .nil, .last⟩
  | cons hne hline hrows => exact ⟨_, hne, hline, hrows, .delimited _⟩

theorem LinesOf.flatten_eq_nil_iff {delimiter : UInt8} {rows : List Bytes}
    (h : LinesOf delimiter rows) : rows.flatten = [] ↔ rows = [] := by
  cases h with
  | nil => simp
  | last hne => simpa using hne
  | cons => simp

/-! ## The condition -/

/-- Where the next line stands when it is handed out: where it is if the array
has all of it, and otherwise at the beginning, unless nothing can be moved
there. -/
def place (content : Bytes) (offset : Nat) (row rest : Bytes) : Option (Bytes × Nat) :=
  if offset + row.length ≤ content.length then some (content, offset)
  else if offset = content.length then none
  else some (refill content rest, 0)

/-- No line ends at the last byte of the array in front of a line for which the
array must be filled again, and the byte behind a last line without delimiter is
none. -/
def Undisturbed (delimiter : UInt8) : (content : Bytes) → (offset : Nat) → List Bytes → Prop
  | _, _, [] => True
  | content, offset, row :: rows =>
      match place content offset row (row :: rows).flatten with
      | none => False
      | some (content, offset) =>
          (rows = [] → row.getLast? = some delimiter ∨
            content[offset + row.length]? ≠ some delimiter) ∧
          Undisturbed delimiter content (offset + row.length) rows

instance decidableUndisturbed (delimiter : UInt8) : (content : Bytes) → (offset : Nat) →
    (rows : List Bytes) → Decidable (Undisturbed delimiter content offset rows)
  | _, _, [] => isTrue trivial
  | content, offset, row :: rows =>
      match hplace : place content offset row (row :: rows).flatten with
      | none => isFalse (by rw [Undisturbed, hplace]; exact id)
      | some (content', offset') =>
          have := decidableUndisturbed delimiter content' (offset' + row.length) rows
          decidable_of_iff
            ((rows = [] → row.getLast? = some delimiter ∨
              content'[offset' + row.length]? ≠ some delimiter) ∧
              Undisturbed delimiter content' (offset' + row.length) rows)
            (by rw [Undisturbed, hplace])

/-! ## Reading -/

/-- The calls of `getLine` return the rows one by one, count them, and know the
last; and then there is none. -/
def ReadsExactly : Lines → Int → List Bytes → Prop
  | s, _, [] => s.getLineImpl = .ok (false, [], s)
  | s, index, row :: rows => ∃ s', s.getLineImpl = .ok (true, row, s') ∧ s'._index = index ∧
      (s'._last = true ↔ rows = []) ∧ ReadsExactly s' (index + 1) rows

section Views

variable {views : List Bytes} {s s' : Lines} {n : Nat} {view : Bytes}

/-- What is handed out is the next line. -/
theorem ReadsExactly.next (h : ReadsExactly s n (views.drop n))
    (hread : s.getLineImpl = .ok (true, view, s')) :
    views[n]? = some view ∧ s'._index = n ∧ (s'._last = true ↔ views.length ≤ n + 1) ∧
      ReadsExactly s' (n + 1 : Nat) (views.drop (n + 1)) := by
  cases hdrop : views.drop n with
  | nil =>
      rw [hdrop, ReadsExactly, hread] at h
      simp at h
  | cons row rest =>
      rw [hdrop, ReadsExactly, hread] at h
      obtain ⟨s'', heq, hindex, hlast, hrest⟩ := h
      obtain ⟨rfl, rfl⟩ : view = row ∧ s' = s'' := by simpa using heq
      have hdrop' : views.drop (n + 1) = rest := by
        rw [← List.drop_drop, hdrop, List.drop_succ_cons, List.drop_zero]
      refine ⟨?_, hindex, ?_, ?_⟩
      · rw [← List.head?_drop, hdrop, List.head?_cons]
      · rw [hlast, ← hdrop', List.drop_eq_nil_iff]
      · rw [hdrop']
        exact_mod_cast hrest

/-- All lines are handed out. -/
theorem ReadsExactly.noLine (h : ReadsExactly s n (views.drop n))
    (hread : s.getLineImpl = .ok (false, view, s')) : views.length ≤ n := by
  cases hdrop : views.drop n with
  | nil => exact List.drop_eq_nil_iff.mp hdrop
  | cons row rest =>
      rw [hdrop, ReadsExactly, hread] at h
      obtain ⟨s'', heq, -⟩ := h
      simp at heq

theorem ReadsExactly.exists_next (h : ReadsExactly s n (views.drop n)) (hn : n < views.length) :
    ∃ s', s.getLineImpl = .ok (true, views[n], s') := by
  rw [List.drop_eq_getElem_cons hn, ReadsExactly] at h
  exact ⟨h.choose, h.choose_spec.1⟩

end Views

/-! ## One call -/

section Call

variable {delimiter : UInt8} {keepDelimiter : Bool} {s : Lines} {content : Bytes} {offset : Nat}
  {line row rest : Bytes}

/-- The delimiter is found behind a line which the array has all of. -/
theorem IsRow.idxOf_take (hline : delimiter ∉ line) (hrow : IsRow delimiter line row rest) {n : Nat}
    (hn : row.length ≤ n) : ((row ++ rest).take n).idxOf delimiter = line.length := by
  rw [List.take_append, List.take_of_length_le hn]
  cases hrow with
  | delimited rest =>
      rw [List.append_assoc, List.idxOf_append, if_neg hline, List.singleton_append,
        List.idxOf_cons_self, Nat.zero_add]
  | last => rw [List.take_nil, List.append_nil, List.idxOf_eq_length hline]

/-- It is not found if the array ends before. -/
theorem IsRow.idxOf_take_short (hline : delimiter ∉ line) (hrow : IsRow delimiter line row rest)
    {n : Nat} (hn : n < row.length) : ((row ++ rest).take n).idxOf delimiter = n := by
  have htake : row.take n = line.take n := by
    cases hrow with
    | delimited rest =>
        rw [List.length_append, List.length_singleton] at hn
        exact List.take_append_of_le_length (by omega)
    | last => rfl
  have hlength : n ≤ line.length := by
    cases hrow with
    | delimited rest =>
        rw [List.length_append, List.length_singleton] at hn
        omega
    | last => omega
  rw [List.take_append_of_le_length (by omega), htake,
    List.idxOf_eq_length fun hmem => hline (List.mem_of_mem_take hmem), List.length_take]
  omega

theorem IsRow.rest_eq_nil (hrow : IsRow delimiter line row rest) (h : row = line) :
    rest = [] := by
  cases hrow with
  | delimited rest =>
      have := congrArg List.length h
      simp at this
  | last => rfl

/-- A line which the array has all of. -/
theorem At.getLineImpl_fits (hline : delimiter ∉ line) (hrow : IsRow delimiter line row rest)
    (h : At delimiter keepDelimiter s content offset (row ++ rest))
    (hfits : offset + row.length ≤ content.length) :
    s.getLineImpl = .ok (s.takeLine (offset + line.length)) := by
  refine h.getLineImpl_stays (hrow.idxOf_take hline (by omega)) fun hend => ?_
  cases hrow with
  | delimited rest =>
      rw [List.length_append, List.length_singleton] at hfits
      omega
  | last =>
      rw [List.append_nil]
      exact hfits

/-- What a call does with the array: it takes the line from where `place` has
it. -/
theorem At.getLineImpl_place (hline : delimiter ∉ line) (hrow : IsRow delimiter line row rest)
    (h : At delimiter keepDelimiter s content offset (row ++ rest))
    (hlength : row.length ≤ content.length) :
    match place content offset row (row ++ rest) with
    | none => s.getLineImpl = .error (.runtimeError ": The buffer is too small.")
    | some (content', offset') => ∃ s', At delimiter keepDelimiter s' content' offset' (row ++ rest) ∧
        s'._index = s._index ∧ offset' + row.length ≤ content'.length ∧
        content'.length = content.length ∧
        s.getLineImpl = .ok (s'.takeLine (offset' + line.length)) := by
  cases Nat.decLe (offset + row.length) content.length with
  | isTrue hfits =>
      rw [place, if_pos hfits]
      exact ⟨s, h, rfl, hfits, rfl, h.getLineImpl_fits hline hrow hfits⟩
  | isFalse hfits =>
      have hle := h.offset_le
      have hmore : content.length < offset + (row ++ rest).length := by
        rw [List.length_append]
        omega
      have hend : offset + ((row ++ rest).take (content.length - offset)).idxOf delimiter =
          content.length := by
        rw [hrow.idxOf_take_short hline (by omega)]
        omega
      rw [place, if_neg hfits]
      cases Nat.decEq offset content.length with
      | isTrue hoffset =>
          rw [if_pos hoffset]
          exact h.getLineImpl_full hend hmore (.inr hoffset)
      | isFalse hoffset =>
          have hlt := Nat.lt_of_le_of_ne hle hoffset
          obtain ⟨s', hat, hindex, hread⟩ := h.getLineImpl_moves hend hmore (by omega) hlt
          rw [hrow.idxOf_take hline hlength] at hread
          rw [if_neg hoffset]
          refine ⟨s', hat, hindex, ?_, length_refill _ _, hread⟩
          rw [length_refill, Nat.zero_add]
          exact hlength

/-- The line is handed out and the reader is behind it, unless the array has a
delimiter behind a last line. -/
theorem At.takeLine_row (hne : line ≠ []) (hline : delimiter ∉ line)
    (hrow : IsRow delimiter line row rest)
    (h : At delimiter keepDelimiter s content offset (row ++ rest))
    (hfits : offset + row.length ≤ content.length)
    (hbehind : row = line → content[offset + row.length]? ≠ some delimiter) :
    ∃ s', s.takeLine (offset + line.length) = (true, shown delimiter keepDelimiter row, s') ∧
      s'._index = s._index + 1 ∧ (s'._last = true ↔ rest = []) ∧
      At delimiter keepDelimiter s' content (offset + row.length) rest := by
  have hn : line.length ≠ 0 := mt List.length_eq_zero_iff.mp hne
  have hlast : decide (offset + row.length = s._sizeInUse ∧ s._inputPosition = s._inputSize) =
      true ↔ rest = [] := by
    rw [decide_eq_true_iff, h.sizeInUse_eq, h.inputPosition_eq_iff, List.length_append,
      ← List.length_eq_zero_iff]
    omega
  cases hrow with
  | delimited rest =>
      have hends : content[offset + line.length]? = some delimiter := by
        rw [List.length_append, List.length_singleton] at hfits
        rw [h.getElem?_content (by omega) (by simp), List.append_assoc,
          List.getElem?_append_right (Nat.le_refl _), Nat.sub_self]
        rfl
      have hview : (content.drop offset).take
          (line.length + if (true && keepDelimiter) = true then 1 else 0) =
            shown delimiter keepDelimiter (line ++ [delimiter]) := by
        rw [shown_row hline]
        cases keepDelimiter with
        | true =>
            show (content.drop offset).take (line.length + 1) = line ++ [delimiter]
            exact (h.take_row (by simp) hfits).trans (List.take_of_length_le (by simp))
        | false =>
            show (content.drop offset).take line.length = line
            exact (h.take_row (by simp) hfits).trans List.take_left
      rw [h.takeLine hn (iff_of_true hends rfl), hview]
      rw [List.length_append, List.length_singleton] at hlast
      exact ⟨_, rfl, rfl, hlast, by
        have := h.past hfits
        rw [List.length_append, List.length_singleton] at this ⊢
        exact this _ _⟩
  | last =>
      have hends : content[offset + line.length]? = some delimiter ↔ false = true :=
        iff_of_false (hbehind rfl) Bool.false_ne_true
      have hview : (content.drop offset).take (line.length + 0) =
          shown delimiter keepDelimiter line := by
        rw [shown_line hline, Nat.add_zero, h.take_row (Nat.le_refl _) hfits, List.take_length]
      rw [h.takeLine hn hends]
      exact ⟨_, congrArg (fun view => (true, view, _)) hview, rfl, hlast, h.past hfits _ _⟩

/-- The byte behind a last line is taken for its delimiter. -/
theorem At.takeLine_disturbed (hne : line ≠ [])
    (h : At delimiter keepDelimiter s content offset line)
    (hbehind : content[offset + line.length]? = some delimiter) :
    (s.takeLine (offset + line.length)).2.2._last = false := by
  have hend : offset + line.length < content.length :=
    (List.getElem?_eq_some_iff.mp hbehind).1
  rw [h.takeLine (mt List.length_eq_zero_iff.mp hne) (iff_of_true hbehind rfl)]
  show decide _ = false
  refine decide_eq_false fun hlast => ?_
  have hsize := hlast.1
  rw [h.sizeInUse_eq, if_pos rfl] at hsize
  omega

end Call

/-! ## All calls -/

theorem IsRow.behind_iff {delimiter : UInt8} {line row rest : Bytes} {rows : List Bytes}
    (hrow : IsRow delimiter line row rest) (hline : delimiter ∉ line) (hrest : rest = [] ↔ rows = [])
    (P : Prop) : (rows = [] → row.getLast? = some delimiter ∨ P) ↔ (row = line → P) := by
  cases hrow with
  | delimited rest =>
      refine iff_of_true (fun _ => .inl List.getLast?_concat) fun heq => ?_
      have := congrArg List.length heq
      simp at this
  | last =>
      have hlast : line.getLast? ≠ some delimiter :=
        fun hlast => hline (List.mem_of_getLast? hlast)
      constructor
      · intro h _
        exact (h (hrest.mp rfl)).resolve_left hlast
      · intro h _
        exact .inr (h rfl)

/-- By induction on the lines; each call finds the reader in front of the next. -/
theorem At.readsExactly_iff {delimiter : UInt8} {keepDelimiter : Bool} {s : Lines}
    {content : Bytes} {offset : Nat} {rows : List Bytes} {index : Int}
    (h : At delimiter keepDelimiter s content offset rows.flatten) (hrows : LinesOf delimiter rows)
    (hlength : ∀ row ∈ rows, row.length ≤ content.length) (hindex : s._index + 1 = index) :
    ReadsExactly s index (rows.map (shown delimiter keepDelimiter)) ↔
      Undisturbed delimiter content offset rows := by
  induction rows generalizing s content offset index with
  | nil => exact iff_of_true h.getLineImpl_nil trivial
  | cons row rows ih =>
      obtain ⟨line, hne, hline, hrows', hrow⟩ := hrows.uncons
      rw [List.flatten_cons] at h
      have hcall := h.getLineImpl_place hline hrow (hlength row List.mem_cons_self)
      rw [List.map_cons, ReadsExactly, Undisturbed, List.flatten_cons]
      cases hplace : place content offset row (row ++ rows.flatten) with
      | none =>
          rw [hplace] at hcall
          refine iff_of_false ?_ not_false
          intro ⟨s', hs', _⟩
          rw [hcall] at hs'
          cases hs'
      | some placed =>
          obtain ⟨content', offset'⟩ := placed
          rw [hplace] at hcall
          obtain ⟨s₁, hat, hindex₁, hfits, hcontent, hread⟩ := hcall
          have hbehind := hrow.behind_iff hline hrows'.flatten_eq_nil_iff
            (content'[offset' + row.length]? ≠ some delimiter)
          simp only [hread, hbehind]
          cases Classical.em (row = line → content'[offset' + row.length]? ≠ some delimiter) with
          | inl hnone =>
              obtain ⟨s₂, htake, hindex₂, hlast, hat₂⟩ := hat.takeLine_row hne hline hrow hfits hnone
              have hnext := ih hat₂ hrows'
                (fun row hmem => hcontent ▸ hlength row (.tail _ hmem)) rfl
              rw [hindex₂, hindex₁, hindex] at hnext
              rw [hrows'.flatten_eq_nil_iff] at hlast
              rw [htake]
              constructor
              · intro ⟨s', hs', _, _, hreads⟩
                cases hs'
                exact ⟨hnone, hnext.mp hreads⟩
              · intro ⟨_, hundisturbed⟩
                exact ⟨s₂, rfl, by rw [hindex₂, hindex₁, hindex],
                  hlast.trans List.map_eq_nil_iff.symm, hnext.mpr hundisturbed⟩
          | inr hsome =>
              refine iff_of_false ?_ fun h => hsome h.1
              intro ⟨s', hs', _, hlast, _⟩
              rw [Classical.not_imp, not_not] at hsome
              obtain ⟨rfl, hdelimiter⟩ := hsome
              have hend := hrow.rest_eq_nil rfl
              rw [hend, List.append_nil] at hat
              have hdisturbed := hat.takeLine_disturbed hne hdelimiter
              rw [Except.ok.inj hs'] at hdisturbed
              have hrowsNil := hrows'.flatten_eq_nil_iff.mp hend
              rw [hlast.mpr (List.map_eq_nil_iff.mpr hrowsNil)] at hdisturbed
              cases hdisturbed

theorem readsExactly_new_iff {_buffer source : Bytes} {delimiter : UInt8}
    (hempty : ∀ row ∈ split delimiter true [] source, row ≠ [delimiter])
    (hlength : ∀ row ∈ split delimiter true [] source, row.length ≤ _buffer.length)
    (keepDelimiter : Bool) :
    ReadsExactly (StringLines.new _buffer source delimiter keepDelimiter) 0
        (split delimiter keepDelimiter [] source) ↔
      Undisturbed delimiter (refill _buffer source) 0 (split delimiter true [] source) := by
  have hflatten : (split delimiter true [] source).flatten = source := flatten_split delimiter [] source
  have hat : At delimiter keepDelimiter (StringLines.new _buffer source delimiter keepDelimiter)
      (refill _buffer source) 0 (split delimiter true [] source).flatten := by
    rw [hflatten]
    exact At.new _buffer source delimiter keepDelimiter
  rw [split_eq_map_shown List.not_mem_nil]
  refine hat.readsExactly_iff (linesOf_split List.not_mem_nil hempty) ?_ rfl
  intro row hrow
  rw [length_refill]
  exact hlength row hrow

/-- For a source whose lines are not empty and fit into the array, the calls of
`getLine` are exact just when the array is never full at the end of a line with
more to come, and holds no delimiter behind a last line without one. -/
theorem getLine_exact_iff (_buffer source : Bytes) (delimiter : UInt8) (keepDelimiter : Bool)
    (hempty : ∀ row ∈ split delimiter true [] source, row ≠ [delimiter])
    (hlength : ∀ row ∈ split delimiter true [] source, row.length ≤ _buffer.length) :
    (ReadsExactly (StringLines.new _buffer source delimiter keepDelimiter) 0
        (split delimiter keepDelimiter [] source) ∧
      ∃ lines, FileLines.new _buffer (some source) delimiter keepDelimiter = .ok lines ∧
        ReadsExactly lines 0 (split delimiter keepDelimiter [] source)) ↔
      Undisturbed delimiter (refill _buffer source) 0 (split delimiter true [] source) := by
  rw [← readsExactly_new_iff hempty hlength keepDelimiter]
  constructor
  · intro h
    exact h.1
  · intro h
    exact ⟨h, _, rfl, h⟩

/-- Two lines of five bytes in an array of four. -/
theorem getLine_exact_ab :
    ReadsExactly (StringLines.new [0, 0, 0, 0] (bytes "a\nbcd") 10 true) 0
        [bytes "a\n", bytes "bcd"] ∧
      ∃ lines, FileLines.new [0, 0, 0, 0] (some (bytes "a\nbcd")) 10 true = .ok lines ∧
        ReadsExactly lines 0 [bytes "a\n", bytes "bcd"] :=
  (getLine_exact_iff [0, 0, 0, 0] (bytes "a\nbcd") 10 true (by decide +kernel)
    (by decide +kernel)).mpr (by decide +kernel)

/-- The second line ends with the array of five bytes; and the array of four bytes
has a delimiter behind the only line. -/
theorem getLine_not_exact :
    ((∀ row ∈ split 10 true [] (bytes "aa\nb\nc\n"), row ≠ [10] ∧ row.length ≤ 5) ∧
      ¬ ReadsExactly (StringLines.new [0, 0, 0, 0, 0] (bytes "aa\nb\nc\n") 10 false) 0
        [bytes "aa", bytes "b", bytes "c"]) ∧
    (∀ row ∈ split 10 true [] (bytes "ab"), row ≠ [10] ∧ row.length ≤ 4) ∧
      ¬ ReadsExactly (StringLines.new [0, 0, 10, 0] (bytes "ab") 10 true) 0 [bytes "ab"] := by
  refine ⟨⟨by decide +kernel, ?_⟩, by decide +kernel, ?_⟩
  · exact fun h => absurd ((readsExactly_new_iff (by decide +kernel) (by decide +kernel) false).mp h)
      (by decide +kernel)
  · exact fun h => absurd ((readsExactly_new_iff (by decide +kernel) (by decide +kernel) true).mp h)
      (by decide +kernel)

end ClientServer.Lines
