import ClientServer.Common.LinesStale
import ClientServer.Common.SplitLoops

/-!
# How many lines a reader hands out

A reader hands out the lines of its source up to the end, the first empty line or
a line for which there is no place in the array; of a line that is longer than the
array it hands out the front part.  This depends on the lengths of the lines and
of the array alone, not on what stands behind the part in use.
-/

namespace ClientServer.Lines

/-- The first calls of `getLine` return lines; only the last of these may be marked
as the last. -/
def GoesOn : Lines → Nat → Prop
  | _, 0 => True
  | s, n + 1 => ∃ view s', s.getLineImpl = .ok (true, view, s') ∧ (s'._last = true → n = 0) ∧
      GoesOn s' n

/-- The reader after some calls that returned lines. -/
inductive Handed (start : Lines) : Nat → Lines → Prop where
  | start : Handed start 0 start
  | line {n : Nat} {s s' : Lines} {view : Bytes} :
      Handed start n s → s.getLineImpl = .ok (true, view, s') → Handed start (n + 1) s'

/-- The number of lines that are handed out. -/
def handedOut (delimiter : UInt8) (capacity : Nat) : (offset : Nat) → List Bytes → Nat
  | _, [] => 0
  | offset, row :: rows =>
      match placeAt capacity offset row with
      | none => if offset = 0 ∨ offset = capacity then 0 else 1
      | some offset =>
          if row = [delimiter] then 0
          else handedOut delimiter capacity (offset + row.length) rows + 1

section Call

variable {delimiter : UInt8} {keepDelimiter : Bool} {capacity : Nat} {s t : Lines}
  {line row rest : Bytes} {offset : Nat} {_index : Int} {_last : Bool}

theorem getLineImpl_of_prepare {itEnd : Nat} (hprepare : s.prepare = .ok t)
    (hfind : t.find = .ok itEnd) : s.getLineImpl = .ok (t.takeLine itEnd) := by
  rw [getLineImpl_eq_prepare, hprepare, Outcome.ok_bind, hfind, Outcome.ok_bind]

theorem getLineImpl_of_throws {fault : Fault} (hprepare : s.prepare = .error fault) :
    s.getLineImpl = .error fault := by
  rw [getLineImpl_eq_prepare, hprepare, Outcome.error_bind]

theorem eq_of_seen {result : Bool × Bytes × Lines} {o : Seen} (h : seen result = (o, t)) :
    result = (o.found, o.view, t) := by
  obtain ⟨rfl, rfl⟩ := Prod.mk.inj h
  rfl

/-- A line that has a place is handed out.  Behind it the reader stands in front of
the next, or it took the byte behind the source for a delimiter. -/
theorem Stands.getLineImpl_row (hs : Stands delimiter keepDelimiter capacity
      ⟨offset, row ++ rest, _index, _last⟩ s) (hne : line ≠ []) (hline : delimiter ∉ line)
    (hrow : IsRow delimiter line row rest) {offset' : Nat}
    (hplace : placeAt capacity offset row = some offset') :
    ∃ view s', s.getLineImpl = .ok (true, view, s') ∧
      (view = shown delimiter keepDelimiter row ∧ (s'._last = true ↔ rest = []) ∧
        (∃ _index _last, Stands delimiter keepDelimiter capacity
          ⟨offset' + row.length, rest, _index, _last⟩ s') ∨
        rest = [] ∧ s'.getLineImpl = .error .outOfBounds) := by
  obtain ⟨t, hprepare, ht⟩ := prepare_placeAt hline hrow hplace hs
  have hfits := placeAt_le hplace
  have hat : At delimiter keepDelimiter t t._buffer offset' (row ++ rest) := ht.at_spot
  have hfind : t.find = .ok (offset' + line.length) := by
    rw [hat.find, ht.capacity, hrow.idxOf_take hline (Nat.le_sub_of_add_le' hfits)]
  have hread := getLineImpl_of_prepare hprepare hfind
  by_cases hbehind : row = line → t._buffer[offset' + row.length]? ≠ some delimiter
  · obtain ⟨s', htake, -, hlast, hat'⟩ :=
      hat.takeLine_row hne hline hrow (ht.capacity.symm ▸ hfits) hbehind
    rw [htake] at hread
    exact ⟨_, s', hread, .inl ⟨rfl, hlast, _, _, hat'.stands ht.capacity⟩⟩
  · rw [Classical.not_imp, not_not] at hbehind
    obtain ⟨rfl, hbyte⟩ := hbehind
    have hnil := hrow.rest_eq_nil rfl
    rw [hnil, List.append_nil] at hat
    obtain ⟨view, s', htake, hthrows⟩ := hat.takeLine_behind hne hbyte
    rw [htake] at hread
    exact ⟨view, s', hread, .inr ⟨hnil, hthrows⟩⟩

/-- An empty line is none. -/
theorem Stands.getLineImpl_blank (hs : Stands delimiter keepDelimiter capacity
      ⟨offset, row ++ rest, _index, _last⟩ s) (hrow : IsRow delimiter [] row rest) {offset' : Nat}
    (hplace : placeAt capacity offset row = some offset') :
    ∃ view s', s.getLineImpl = .ok (false, view, s') := by
  have hline : delimiter ∉ ([] : Bytes) := List.not_mem_nil
  obtain ⟨t, hprepare, ht⟩ := prepare_placeAt hline hrow hplace hs
  have hfits := placeAt_le hplace
  have hat : At delimiter keepDelimiter t t._buffer offset' (row ++ rest) := ht.at_spot
  have hfind : t.find = .ok offset' := by
    rw [hat.find, ht.capacity, hrow.idxOf_take hline (Nat.le_sub_of_add_le' hfits)]
    rfl
  have hread := getLineImpl_of_prepare hprepare hfind
  rw [hat.takeLine_empty] at hread
  exact ⟨_, _, hread⟩

/-- Of a line that is longer than the array the front part is handed out if
something can be moved. -/
theorem Stands.getLineImpl_none (hs : Stands delimiter keepDelimiter capacity
      ⟨offset, row ++ rest, _index, _last⟩ s) (hline : delimiter ∉ line)
    (hrow : IsRow delimiter line row rest) (hplace : placeAt capacity offset row = none) :
    if offset = 0 ∨ offset = capacity then ∃ fault, s.getLineImpl = .error fault
    else ∃ view s' fault, s.getLineImpl = .ok (true, view, s') ∧
      s'.getLineImpl = .error fault := by
  have hle : offset ≤ capacity := hs.capacity ▸ hs.at_spot.offset_le
  rw [placeAt] at hplace
  split at hplace
  · cases hplace
  next hfits =>
    split at hplace
    next hnone =>
      have hmore : capacity < offset + (row ++ rest).length := lt_length_of_not_fits hfits
      by_cases hoffset : offset = capacity
      · rw [if_pos (.inr hoffset)]
        refine ⟨_, getLineImpl_of_throws (prepare_at_end hs hoffset fun hnil => ?_)⟩
        rw [show row ++ rest = [] from hnil, List.length_nil] at hmore
        omega
      · have hlong : capacity < row.length := hnone.resolve_left hoffset
        have hlong' := hlong.trans_le (List.length_append ▸ Nat.le_add_right row.length rest.length)
        by_cases hzero : offset = 0
        · subst hzero
          rw [if_pos (.inl rfl)]
          exact ⟨_, getLineImpl_of_throws (prepare_at_start hline hrow hfits hs)⟩
        · rw [if_neg (not_or.mpr ⟨hzero, hoffset⟩)]
          obtain ⟨t, hprepare, ht⟩ :=
            prepare_moved hline hrow hfits (Nat.pos_of_ne_zero hzero) hoffset hs
          obtain ⟨itEnd, s', hfind, hseen, hs'⟩ := takes_front ht (by omega) hlong'
            (hrow.idxOf_take_short hline hlong)
          have hread := getLineImpl_of_prepare hprepare hfind
          rw [eq_of_seen hseen] at hread
          have hrest : (row ++ rest).drop capacity ≠ [] :=
            List.drop_eq_nil_iff.not.mpr (Nat.not_le.mpr hlong')
          have hthrows := prepare_at_end hs' rfl hrest
          exact ⟨_, s', _, hread, getLineImpl_of_throws hthrows⟩
    · cases hplace

end Call

/-! ## The index -/

section Index

variable {s s' t : Lines} {view : Bytes}

theorem removeProcessedLines_index (h : s.removeProcessedLines = .ok s') : s'._index = s._index := by
  rw [Lines.removeProcessedLines] at h
  split at h
  · cases h
  · cases h
    rfl

theorem prepare_index (h : s.prepare = .ok t) : t._index = s._index := by
  rw [prepare] at h
  obtain ⟨itEnd, -, h⟩ := Outcome.bind_eq_ok.mp h
  split at h
  · obtain ⟨s', hremove, h⟩ := Outcome.bind_eq_ok.mp h
    cases h
    have hindex : s'._index = s._index := removeProcessedLines_index hremove
    exact hindex
  · cases h
    rfl

theorem takeLine_index {itEnd : Nat} (h : s.takeLine itEnd = (true, view, s')) :
    s'._index = s._index + 1 := by
  rw [takeLine] at h
  dsimp only at h
  split at h
  · cases h
  · cases h
    rfl

/-- A line is counted. -/
theorem getLineImpl_index (h : s.getLineImpl = .ok (true, view, s')) :
    s'._index = s._index + 1 := by
  rw [getLineImpl_eq_prepare] at h
  obtain ⟨t, hprepare, h⟩ := Outcome.bind_eq_ok.mp h
  obtain ⟨itEnd, -, h⟩ := Outcome.bind_eq_ok.mp h
  rw [← prepare_index hprepare]
  exact takeLine_index (Except.ok.inj h)

end Index

/-! ## All calls -/

/-- Such a loop has not met a fault. -/
theorem Reads.not_error {s : Lines} {views : List Bytes} {fault : Fault} (h : Reads s views none)
    (hthrows : s.getLineImpl = .error fault) : False := by
  cases views with
  | nil =>
      obtain ⟨view, s', hread⟩ := h
      rw [hthrows] at hread
      cases hread
  | cons view views =>
      obtain ⟨s', hread, -⟩ := h
      rw [hthrows] at hread
      cases hread

theorem Reads.uncons {s s' : Lines} {view : Bytes} {views : List Bytes} (h : Reads s views none)
    (hread : s.getLineImpl = .ok (true, view, s')) :
    ∃ views', views = view :: views' ∧ Reads s' views' none := by
  cases views with
  | nil =>
      obtain ⟨view', s₁, hread'⟩ := h
      rw [hread] at hread'
      cases hread'
  | cons view' views =>
      obtain ⟨s₁, hread', hrest⟩ := h
      rw [hread] at hread'
      cases hread'
      exact ⟨views, rfl, hrest⟩

theorem Reads.eq_nil {s s' : Lines} {view : Bytes} {views : List Bytes} (h : Reads s views none)
    (hread : s.getLineImpl = .ok (false, view, s')) : views = [] := by
  cases views with
  | nil => rfl
  | cons view' views =>
      obtain ⟨s₁, hread', -⟩ := h
      rw [hread] at hread'
      cases hread'

section Handed

variable {s s' s'' : Lines} {n : Nat}

theorem Handed.index (h : Handed s n s') : s'._index = s._index + n := by
  induction h with
  | start => exact (Int.add_zero _).symm
  | line _ hread ih =>
      rw [getLineImpl_index hread, ih]
      push_cast
      omega

/-- The first of the calls. -/
theorem Handed.uncons (h : Handed s (n + 1) s'') :
    ∃ view s', s.getLineImpl = .ok (true, view, s') ∧ Handed s' n s'' := by
  generalize hm : n + 1 = m at h
  induction h generalizing n with
  | start => cases hm
  | @line m s₁ s₂ view h hread ih =>
      cases hm
      cases m with
      | zero =>
          cases h
          exact ⟨view, _, hread, .start⟩
      | succ m =>
          obtain ⟨view', s', hread', hrest⟩ := ih rfl
          exact ⟨view', s', hread', hrest.line hread⟩

theorem Handed.eq_zero {fault : Fault} (h : Handed s n s') (hthrows : s.getLineImpl = .error fault) :
    n = 0 := by
  cases n with
  | zero => rfl
  | succ n =>
      obtain ⟨view, s₁, hread, -⟩ := h.uncons
      rw [hthrows] at hread
      cases hread

variable {delimiter : UInt8} {keepDelimiter : Bool} {capacity offset : Nat} {rows : List Bytes}
  {_index : Int} {_last : Bool}

/-- By induction on the rows. -/
theorem Stands.handed_le (hrows : RowsOf delimiter rows)
    (hs : Stands delimiter keepDelimiter capacity ⟨offset, rows.flatten, _index, _last⟩ s)
    (h : Handed s n s') : n ≤ handedOut delimiter capacity offset rows := by
  induction rows generalizing s n offset _index _last with
  | nil =>
      cases n with
      | zero => exact Nat.le_refl 0
      | succ n =>
          obtain ⟨view, s₁, hread, -⟩ := h.uncons
          rw [hs.at_spot.getLineImpl_nil] at hread
          cases hread
  | cons row rows ih =>
      cases n with
      | zero => exact Nat.zero_le _
      | succ n =>
          obtain ⟨line, hline, hrows', hrow, hempty⟩ := hrows.uncons
          obtain ⟨view, s₁, hread, hrest⟩ := h.uncons
          rw [handedOut]
          cases hplace : placeAt capacity offset row with
          | none =>
              have hcall := Stands.getLineImpl_none hs hline hrow hplace
              simp only
              split at hcall
              next hends =>
                obtain ⟨fault, hthrows⟩ := hcall
                rw [hthrows] at hread
                cases hread
              next hends =>
                obtain ⟨view', s₂, fault, hread', hthrows⟩ := hcall
                rw [hread'] at hread
                cases hread
                rw [hrest.eq_zero hthrows, if_neg hends]
          | some offset' =>
              simp only
              by_cases hblank : row = [delimiter]
              · obtain rfl := hempty.mpr hblank
                obtain ⟨view', s₂, hread'⟩ := Stands.getLineImpl_blank hs hrow hplace
                rw [hread'] at hread
                cases hread
              · obtain ⟨view', s₂, hread', hnext⟩ :=
                  Stands.getLineImpl_row hs (mt hempty.mp hblank) hline hrow hplace
                rw [hread'] at hread
                cases hread
                rw [if_neg hblank]
                refine Nat.succ_le_succ ?_
                rcases hnext with ⟨-, -, _index', _last', hs'⟩ | ⟨-, hthrows⟩
                · exact ih hrows' hs' hrest
                · rw [hrest.eq_zero hthrows]
                  exact Nat.zero_le _

/-- So many lines are handed out, too. -/
theorem Stands.goesOn (hrows : RowsOf delimiter rows)
    (hs : Stands delimiter keepDelimiter capacity ⟨offset, rows.flatten, _index, _last⟩ s)
    (h : n ≤ handedOut delimiter capacity offset rows) : GoesOn s n := by
  induction rows generalizing s n offset _index _last with
  | nil =>
      obtain rfl := Nat.le_zero.mp h
      trivial
  | cons row rows ih =>
      cases n with
      | zero => trivial
      | succ n =>
          obtain ⟨line, hline, hrows', hrow, hempty⟩ := hrows.uncons
          rw [handedOut] at h
          cases hplace : placeAt capacity offset row with
          | none =>
              have hcall := Stands.getLineImpl_none hs hline hrow hplace
              simp only [hplace] at h
              split at hcall
              next hends =>
                rw [if_pos hends] at h
                cases h
              next hends =>
                obtain ⟨view, s', fault, hread, -⟩ := hcall
                rw [if_neg hends] at h
                obtain rfl : n = 0 := Nat.le_zero.mp (Nat.le_of_succ_le_succ h)
                exact ⟨view, s', hread, fun _ => rfl, trivial⟩
          | some offset' =>
              simp only [hplace] at h
              split at h
              next => cases h
              next hblank =>
                have hn := Nat.le_of_succ_le_succ h
                have hnil (hrest : rows.flatten = []) : n = 0 := by
                  obtain rfl := hrows'.flatten_eq_nil_iff.mp hrest
                  exact Nat.le_zero.mp hn
                obtain ⟨view, s', hread, hnext⟩ :=
                  Stands.getLineImpl_row hs (mt hempty.mp hblank) hline hrow hplace
                rcases hnext with ⟨-, hlast, _index', _last', hs'⟩ | ⟨hrest, -⟩
                · exact ⟨view, s', hread, fun h => hnil (hlast.mp h), ih hrows' hs' hn⟩
                · rw [hnil hrest]
                  exact ⟨view, s', hread, fun _ => rfl, trivial⟩

/-- A loop over `getLine` that ends without a fault has seen the lines in front of the
first empty one, whatever the length of the lines. -/
theorem Stands.eq_of_reads (hrows : RowsOf delimiter rows)
    (hs : Stands delimiter keepDelimiter capacity ⟨offset, rows.flatten, _index, _last⟩ s)
    {views : List Bytes} (h : Reads s views none) :
    views = (rows.takeWhile (· ≠ [delimiter])).map (shown delimiter keepDelimiter) := by
  induction rows generalizing s views offset _index _last with
  | nil =>
      cases views with
      | nil => rfl
      | cons view views =>
          obtain ⟨s', hread, -⟩ := h
          rw [hs.at_spot.getLineImpl_nil] at hread
          cases hread
  | cons row rows ih =>
      obtain ⟨line, hline, hrows', hrow, hempty⟩ := hrows.uncons
      cases hplace : placeAt capacity offset row with
      | none =>
          have hcall := Stands.getLineImpl_none hs hline hrow hplace
          split at hcall
          · obtain ⟨fault, hthrows⟩ := hcall
            exact (h.not_error hthrows).elim
          · obtain ⟨view, s', fault, hread, hthrows⟩ := hcall
            obtain ⟨views', -, hrest⟩ := h.uncons hread
            exact (hrest.not_error hthrows).elim
      | some offset' =>
          by_cases hblank : row = [delimiter]
          · obtain rfl := hempty.mpr hblank
            obtain ⟨view, s', hread⟩ := Stands.getLineImpl_blank hs hrow hplace
            rw [List.takeWhile_cons_of_neg (by simp [hblank]), List.map_nil]
            exact h.eq_nil hread
          · obtain ⟨view, s', hread, hnext⟩ :=
              Stands.getLineImpl_row hs (mt hempty.mp hblank) hline hrow hplace
            obtain ⟨views', rfl, hrest⟩ := h.uncons hread
            rw [List.takeWhile_cons_of_pos (by simp [hblank]), List.map_cons]
            rcases hnext with ⟨rfl, -, _index', _last', hs'⟩ | ⟨-, hthrows⟩
            · rw [ih hrows' hs' hrest]
            · exact (hrest.not_error hthrows).elim

end Handed

/-- A new reader hands out so many lines and no more. -/
theorem handed_new_le {_buffer source : Bytes} {delimiter : UInt8} {keepDelimiter : Bool} {n : Nat}
    {s : Lines} (h : Handed (StringLines.new _buffer source delimiter keepDelimiter) n s) :
    n ≤ handedOut delimiter _buffer.length 0 (split delimiter true [] source) :=
  (stands_new _buffer source delimiter keepDelimiter).handed_le (rowsOf_split List.not_mem_nil) h

theorem goesOn_new {_buffer source : Bytes} {delimiter : UInt8} {n : Nat}
    (h : n ≤ handedOut delimiter _buffer.length 0 (split delimiter true [] source))
    (keepDelimiter : Bool) : GoesOn (StringLines.new _buffer source delimiter keepDelimiter) n :=
  (stands_new _buffer source delimiter keepDelimiter).goesOn (rowsOf_split List.not_mem_nil) h

/-! ## Sources made of lines -/

/-- The lines are those of the source they make. -/
theorem RowsOf.split_flatten {delimiter : UInt8} {rows : List Bytes} (h : RowsOf delimiter rows) :
    split delimiter true [] rows.flatten = rows := by
  have hwalk {line : Bytes} (hline : delimiter ∉ line) (rest : Bytes) :
      split delimiter true [] (line ++ rest) = split delimiter true line rest := by
    refine utility.split_append (fun c hc => decide_eq_false ?_) [] rest
    rintro rfl
    exact hline hc
  induction h with
  | nil => rfl
  | @last line hne hline =>
      rw [List.flatten_singleton, ← List.append_nil line, hwalk hline, List.append_nil, split,
        if_neg hne]
  | @cons line rows hline _ ih =>
      rw [List.flatten_cons, List.append_assoc, hwalk hline, List.singleton_append, split,
        if_pos rfl, ih]
      rfl

theorem rowsOf_replicate {delimiter : UInt8} {line : Bytes} (hline : delimiter ∉ line) (n : Nat) :
    RowsOf delimiter (List.replicate n (line ++ [delimiter])) := by
  induction n with
  | zero => exact .nil
  | succ n ih =>
      rw [List.replicate_succ]
      exact .cons hline ih

/-- All lines are handed out of an array that has all of the source. -/
theorem handedOut_of_fits {delimiter : UInt8} {capacity offset : Nat} {rows : List Bytes}
    (hfits : offset + rows.flatten.length ≤ capacity) (hblank : ∀ row ∈ rows, row ≠ [delimiter]) :
    handedOut delimiter capacity offset rows = rows.length := by
  induction rows generalizing offset with
  | nil => rfl
  | cons row rows ih =>
      rw [List.flatten_cons, List.length_append, ← Nat.add_assoc] at hfits
      rw [List.forall_mem_cons] at hblank
      rw [handedOut, placeAt, if_pos (Nat.le_trans (Nat.le_add_right _ _) hfits)]
      simp only [if_neg hblank.1, ih hfits hblank.2, List.length_cons]

end ClientServer.Lines
