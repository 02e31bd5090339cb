import ClientServer.Common.LinesStop
import ClientServer.Library.Unwinding

/-!
# The bytes behind the part in use

Behind `_sizeInUse` the array holds what the constructor found there, or what is
left of lines that were moved to the front.  A reader looks there for the
delimiter of a last line that has none and ends before the array does.

So that a dependence can be seen, a call is taken with any bytes there, at its
beginning and behind what it moves to the front.
-/

namespace ClientServer.Lines

/-- Equal up to the bytes behind the part in use. -/
structure Agree (s t : Lines) : Prop where
  eq : t = { s with _buffer := t._buffer }
  length : t._buffer.length = s._buffer.length
  used : t._buffer.take s._sizeInUse = s._buffer.take s._sizeInUse

/-- `getLineImpl` up to where the line is looked for in the filled array. -/
def prepare (s : Lines) : Call Lines := do
  let itEnd ← s.find
  if itEnd = s._buffer.length ∧ s._inputPosition < s._inputSize then
    let s ← s.removeProcessedLines
    return s.refillBuffer
  else
    return s

/-- What a call tells: whether there is a line, the line, and the members that the
caller or a later call can see. -/
structure Seen where
  found : Bool
  view : Bytes
  _last : Bool
  _index : Int
  _processed : Nat
deriving DecidableEq, Repr

def seen (result : Bool × Bytes × Lines) : Seen × Lines :=
  ({ found := result.1
     view := result.2.1
     _last := result.2.2._last
     _index := result.2.2._index
     _processed := result.2.2._processed }, result.2.2)

/-- A call of `getLine` with any bytes behind the part in use. -/
inductive Gets (s : Lines) : Call (Seen × Lines) → Prop where
  | throws {s₁ : Lines} {fault : Fault} :
      Agree s s₁ → s₁.prepare = .error fault → Gets s (.error fault)
  | takes {s₁ s₂ s₃ : Lines} :
      Agree s s₁ → s₁.prepare = .ok s₂ → Agree s₂ s₃ →
      Gets s (s₃.find >>= fun itEnd => .ok (seen (s₃.takeLine itEnd)))

theorem Agree.refl (s : Lines) : Agree s s where
  eq := rfl
  length := rfl
  used := rfl

/-- Where nothing is moved, the search is repeated and finds the same. -/
theorem getLineImpl_eq_prepare (s : Lines) :
    s.getLineImpl = s.prepare >>= fun s => s.find >>= fun itEnd => .ok (s.takeLine itEnd) := by
  rw [getLineImpl, prepare]
  cases hfind : s.find with
  | error fault => rfl
  | ok itEnd =>
      simp only [Outcome.ok_bind]
      split
      · cases s.removeProcessedLines with
        | error fault => rfl
        | ok s' => rfl
      · simp only [Outcome.pure_eq_ok, Outcome.ok_bind, hfind]

/-- What the code does is one of these calls. -/
theorem gets_getLineImpl (s : Lines) :
    Gets s (s.getLineImpl >>= fun result => .ok (seen result)) := by
  rw [getLineImpl_eq_prepare]
  cases hprepare : s.prepare with
  | error fault => exact .throws (.refl s) hprepare
  | ok s₂ =>
      have htakes := Gets.takes (.refl s) hprepare (.refl s₂)
      simp only [Outcome.ok_bind]
      cases hfind : s₂.find with
      | error fault =>
          rw [hfind] at htakes
          exact htakes
      | ok itEnd =>
          rw [hfind] at htakes
          exact htakes

/-- No call looks behind the part in use, and the part in use ends in the array. -/
structure Blind (s : Lines) : Prop where
  unique : ∀ (n : Nat) (seen seen' : List (Call Seen)),
    Unwinding.Sees Gets n s seen → Unwinding.Sees Gets n s seen' → seen = seen'
  bounds : ∀ s', Unwinding.Called Gets s s' →
    s'._processed ≤ s'._sizeInUse ∧ s'._sizeInUse ≤ s'._buffer.length

/-! ## Where a last line is exposed -/

/-- Where a row stands when it is handed out: where it is if the array has all of
it, and otherwise at the beginning.  A reader at the end of its array throws, and
so does one behind the front part of a row that is longer than the array. -/
def placeAt (capacity offset : Nat) (row : Bytes) : Option Nat :=
  if offset + row.length ≤ capacity then some offset
  else if offset = capacity ∨ capacity < row.length then none
  else some 0

/-- The reader gets to the last line, which has no delimiter and ends before the
array.  It does not get past an empty line. -/
def Exposed (delimiter : UInt8) (capacity : Nat) : (offset : Nat) → List Bytes → Prop
  | _, [] => False
  | offset, row :: rows =>
      match placeAt capacity offset row with
      | none => False
      | some offset =>
          row ≠ [delimiter] ∧
            (rows = [] ∧ row.getLast? ≠ some delimiter ∧ offset + row.length < capacity ∨
              Exposed delimiter capacity (offset + row.length) rows)

instance decidableExposed (delimiter : UInt8) (capacity : Nat) : (offset : Nat) →
    (rows : List Bytes) → Decidable (Exposed delimiter capacity offset rows)
  | _, [] => isFalse id
  | offset, row :: rows =>
      match hplace : placeAt capacity offset row with
      | none => isFalse (by rw [Exposed, hplace]; exact id)
      | some offset' =>
          have := decidableExposed delimiter capacity (offset' + row.length) rows
          decidable_of_iff
            (row ≠ [delimiter] ∧
              (rows = [] ∧ row.getLast? ≠ some delimiter ∧ offset' + row.length < capacity ∨
                Exposed delimiter capacity (offset' + row.length) rows))
            (by rw [Exposed, hplace])

/-! ## One call -/

section Call

variable {delimiter : UInt8} {keepDelimiter : Bool} {s t : Lines} {content : Bytes} {offset : Nat}
  {line row rest : Bytes}

/-- A reader stands where it stood, with other bytes behind the part in use. -/
theorem At.agree (h : At delimiter keepDelimiter s content offset rest) (hagree : Agree s t) :
    At delimiter keepDelimiter t t._buffer offset rest ∧ t._buffer.length = content.length ∧
      t._index = s._index ∧ t._last = s._last := by
  have hlength : t._buffer.length = content.length := hagree.length.trans (congrArg _ h.buffer)
  have hused := hagree.used
  rw [h.buffer] at hused
  have heq := hagree.eq
  have hsize : t._sizeInUse = s._sizeInUse := by rw [heq]
  refine ⟨?_, hlength, by rw [heq], by rw [heq]⟩
  constructor
  case delimiter => rw [heq]; exact h.delimiter
  case keepDelimiter => rw [heq]; exact h.keepDelimiter
  case buffer => rfl
  case processed => rw [heq]; exact h.processed
  case offset_le => rw [hlength]; exact h.offset_le
  case sizeInUse => rw [hsize, hlength]; exact h.sizeInUse
  case bytes => rw [hsize, hused, hlength]; exact h.bytes
  case unread =>
    rw [hlength]
    rw [heq]
    exact h.unread
  case inputSize => rw [heq]; exact h.inputSize
  case inputPosition => rw [heq]; exact h.inputPosition

theorem At.prepare_stays (h : At delimiter keepDelimiter s content offset rest)
    (hstays : offset + (rest.take (content.length - offset)).idxOf delimiter = content.length →
      offset + rest.length ≤ content.length) : s.prepare = .ok s := by
  have hfull : ¬ (offset + (rest.take (content.length - offset)).idxOf delimiter =
      s._buffer.length ∧ s._inputPosition < s._inputSize) := by
    rw [h.inputPosition_lt_iff, h.buffer]
    intro hand
    exact Nat.not_le.mpr hand.2 (hstays hand.1)
  rw [prepare, h.find]
  exact if_neg hfull

theorem At.prepare_refills (h : At delimiter keepDelimiter s content offset rest)
    (hend : offset + (rest.take (content.length - offset)).idxOf delimiter = content.length)
    (hmore : content.length < offset + rest.length) :
    s.prepare = s.removeProcessedLines >>= fun s => .ok s.refillBuffer := by
  have hfull : s._inputPosition < s._inputSize := h.inputPosition_lt_iff.mpr hmore
  rw [prepare, h.find]
  exact if_pos ⟨hend.trans (congrArg List.length h.buffer).symm, hfull⟩

theorem At.prepare_full (h : At delimiter keepDelimiter s content offset rest)
    (hend : offset + (rest.take (content.length - offset)).idxOf delimiter = content.length)
    (hmore : content.length < offset + rest.length)
    (hoffset : offset = 0 ∨ offset = content.length) :
    s.prepare = .error (.runtimeError ": The buffer is too small.") := by
  have hnone : s._processed = 0 ∨ s._processed ≥ s._sizeInUse := by
    rw [h.processed, h.sizeInUse, Nat.min_eq_left (Nat.le_of_lt hmore)]
    omega
  rw [h.prepare_refills hend hmore, Lines.removeProcessedLines, if_pos hnone]
  rfl

theorem removeProcessedLines_last {s' : Lines} (h : s.removeProcessedLines = .ok s') :
    s'._last = s._last := by
  rw [Lines.removeProcessedLines] at h
  split at h
  · cases h
  · cases h
    rfl

theorem At.prepare_moves (h : At delimiter keepDelimiter s content offset rest)
    (hend : offset + (rest.take (content.length - offset)).idxOf delimiter = content.length)
    (hmore : content.length < offset + rest.length) (hpos : 0 < offset)
    (hlt : offset < content.length) :
    ∃ s', s.prepare = .ok s' ∧ At delimiter keepDelimiter s' (refill content rest) 0 rest ∧
      s'._index = s._index ∧ s'._last = s._last := by
  obtain ⟨s', hremove, hindex, hat⟩ := h.removeProcessedLines hpos hlt (Nat.le_of_lt hmore)
  have hlast : s'._last = s._last := removeProcessedLines_last hremove
  rw [h.prepare_refills hend hmore, hremove]
  exact ⟨s'.refillBuffer, rfl, hat, hindex, hlast⟩

end Call

/-! ## Where a reader stands -/

/-- What a reader's calls depend on if they do not look behind the part in use. -/
structure Spot where
  offset : Nat
  rest : Bytes
  _index : Int
  _last : Bool

section Stands

variable (delimiter : UInt8) (keepDelimiter : Bool) (capacity : Nat)

/-- A reader at this place, whatever its array holds elsewhere. -/
structure Stands (spot : Spot) (s : Lines) : Prop where
  at_spot : At delimiter keepDelimiter s s._buffer spot.offset spot.rest
  capacity : s._buffer.length = capacity
  index : s._index = spot._index
  last : s._last = spot._last

/-- No last line is exposed from here; or the reader is at the end of its array,
where it throws. -/
def Sheltered (spot : Spot) : Prop :=
  (∃ rows, RowsOf delimiter rows ∧ rows.flatten = spot.rest ∧
    ¬ Exposed delimiter capacity spot.offset rows) ∨
  spot.offset = capacity ∧ spot.rest ≠ []

variable {delimiter keepDelimiter capacity} {spot spot' spot'' : Spot} {s t : Lines}

theorem At.stands {content rest : Bytes} {offset : Nat}
    (h : At delimiter keepDelimiter s content offset rest) (hlength : content.length = capacity) :
    Stands delimiter keepDelimiter capacity ⟨offset, rest, s._index, s._last⟩ s := by
  obtain rfl := h.buffer
  exact ⟨h, hlength, rfl, rfl⟩

theorem Stands.agree (h : Stands delimiter keepDelimiter capacity spot s) (hagree : Agree s t) :
    Stands delimiter keepDelimiter capacity spot t := by
  obtain ⟨hat, hlength, hindex, hlast⟩ := h.at_spot.agree hagree
  exact ⟨hat, hlength.trans h.capacity, hindex.trans h.index, hlast.trans h.last⟩

/-- Every call from here throws. -/
theorem leads_of_throws
    (hthrows : ∀ t, Stands delimiter keepDelimiter capacity spot t →
      t.prepare = .error (.runtimeError ": The buffer is too small.")) :
    Unwinding.Leads Gets (Stands delimiter keepDelimiter capacity) (Sheltered delimiter capacity)
      spot := by
  refine .inl ⟨.runtimeError ": The buffer is too small.", fun s hs result hgets => ?_⟩
  cases hgets with
  | throws hagree hprepare =>
      rw [hthrows _ (hs.agree hagree)] at hprepare
      cases hprepare
      rfl
  | takes hagree hprepare _ =>
      rw [hthrows _ (hs.agree hagree)] at hprepare
      cases hprepare

/-- Every call from here takes what stands at the second place, and leads to the
third. -/
theorem leads_of_takes {o : Seen} (hsheltered : Sheltered delimiter capacity spot'')
    (hprepare : ∀ t, Stands delimiter keepDelimiter capacity spot t →
      ∃ t', t.prepare = .ok t' ∧ Stands delimiter keepDelimiter capacity spot' t')
    (htakes : ∀ t, Stands delimiter keepDelimiter capacity spot' t →
      ∃ itEnd t', t.find = .ok itEnd ∧ seen (t.takeLine itEnd) = (o, t') ∧
        Stands delimiter keepDelimiter capacity spot'' t') :
    Unwinding.Leads Gets (Stands delimiter keepDelimiter capacity) (Sheltered delimiter capacity)
      spot := by
  refine .inr ⟨o, spot'', hsheltered, fun s hs result hgets => ?_⟩
  cases hgets with
  | throws hagree hthrows =>
      obtain ⟨t', hready, -⟩ := hprepare _ (hs.agree hagree)
      rw [hready] at hthrows
      cases hthrows
  | takes hagree hready hagree' =>
      obtain ⟨t', hready', hstands⟩ := hprepare _ (hs.agree hagree)
      rw [hready'] at hready
      cases hready
      obtain ⟨itEnd, t'', hfind, hseen, hstands'⟩ := htakes _ (hstands.agree hagree')
      refine ⟨t'', ?_, hstands'⟩
      rw [hfind, Outcome.ok_bind, hseen]

/-! ## What the calls take -/

variable {line row rest : Bytes} {offset : Nat} {_index : Int} {_last : Bool}

/-- The end of the source, or an empty line. -/
theorem takes_nothing (h : Stands delimiter keepDelimiter capacity spot t)
    (hnothing : (spot.rest.take (capacity - spot.offset)).idxOf delimiter = 0) :
    ∃ itEnd t', t.find = .ok itEnd ∧
      seen (t.takeLine itEnd) = (⟨false, [], spot._last, spot._index, spot.offset⟩, t') ∧
      Stands delimiter keepDelimiter capacity spot t' := by
  refine ⟨spot.offset, t, ?_, ?_, h⟩
  · rw [h.at_spot.find, h.capacity, hnothing, Nat.add_zero]
  · rw [h.at_spot.takeLine_empty, seen, h.last, h.index, h.at_spot.processed]

/-- A line with its delimiter, or one at the end of the source and of the array. -/
theorem takes_row (h : Stands delimiter keepDelimiter capacity ⟨offset, row ++ rest, _index, _last⟩ t)
    (hne : line ≠ []) (hline : delimiter ∉ line) (hrow : IsRow delimiter line row rest)
    (hfits : offset + row.length ≤ capacity) (hend : row = line → offset + row.length = capacity) :
    ∃ itEnd t', t.find = .ok itEnd ∧
      seen (t.takeLine itEnd) =
        (⟨true, shown delimiter keepDelimiter row, decide (rest = []), _index + 1,
          offset + row.length⟩, t') ∧
      Stands delimiter keepDelimiter capacity
        ⟨offset + row.length, rest, _index + 1, decide (rest = [])⟩ t' := by
  have hat : At delimiter keepDelimiter t t._buffer offset (row ++ rest) := h.at_spot
  have hbehind : row = line → t._buffer[offset + row.length]? ≠ some delimiter := by
    intro hlast
    rw [List.getElem?_eq_none (h.capacity.le.trans (hend hlast).ge)]
    exact (Option.some_ne_none delimiter).symm
  obtain ⟨t', htake, hindex, hlast, hat'⟩ :=
    hat.takeLine_row hne hline hrow (h.capacity.symm ▸ hfits) hbehind
  have hlast' : t'._last = decide (rest = []) := by
    rw [Bool.eq_iff_iff, hlast, decide_eq_true_iff]
  have hindex' : t'._index = _index + 1 := hindex.trans (congrArg (· + 1) h.index)
  refine ⟨offset + line.length, t', ?_, ?_, ?_⟩
  · rw [hat.find, h.capacity, hrow.idxOf_take hline (Nat.le_sub_of_add_le' hfits)]
  · rw [htake, seen]
    simp only [hlast', hindex', hat'.processed]
  · have hstands := hat'.stands h.capacity
    rwa [hindex', hlast'] at hstands

/-- The front part of a line that is longer than the array. -/
theorem takes_front (h : Stands delimiter keepDelimiter capacity ⟨0, rest, _index, _last⟩ t)
    (hpos : capacity ≠ 0) (hlong : capacity < rest.length)
    (hnone : (rest.take capacity).idxOf delimiter = capacity) :
    ∃ itEnd t', t.find = .ok itEnd ∧
      seen (t.takeLine itEnd) = (⟨true, rest.take capacity, false, _index + 1, capacity⟩, t') ∧
      Stands delimiter keepDelimiter capacity ⟨capacity, rest.drop capacity, _index + 1, false⟩ t' := by
  have hat : At delimiter keepDelimiter t t._buffer 0 rest := h.at_spot
  have hcapacity := h.capacity
  have hbehind : t._buffer[0 + capacity]? = some delimiter ↔ false = true := by
    rw [List.getElem?_eq_none (by omega)]
    exact iff_of_false (Option.some_ne_none delimiter).symm Bool.false_ne_true
  have hmore : t._inputPosition ≠ t._inputSize := by
    rw [Ne, hat.inputPosition_eq_iff]
    omega
  have htake := hat.takeLine hpos hbehind
  have hview : (t._buffer.drop 0).take (capacity + 0) = rest.take capacity :=
    hat.take_content (by omega) hlong.le
  have hfront : (rest.take capacity).length = capacity := by
    rw [List.length_take, Nat.min_eq_left hlong.le]
  have hpast : At delimiter keepDelimiter
      { t with _index := t._index + 1, _processed := 0 + capacity, _last := false } t._buffer
      (0 + capacity) (rest.drop capacity) := by
    rw [← List.take_append_drop capacity rest] at hat
    have hat' := hat.past (by omega) (t._index + 1) false
    rwa [hfront] at hat'
  have hlast : decide (0 + capacity = t._sizeInUse ∧ t._inputPosition = t._inputSize) = false :=
    decide_eq_false fun hand => hmore hand.2
  have hindex : t._index = _index := h.index
  refine ⟨0 + capacity, { t with _index := t._index + 1, _processed := 0 + capacity, _last := false },
    ?_, ?_, ?_⟩
  · rw [hat.find, Nat.sub_zero, h.capacity, hnone]
  · rw [htake]
    show seen (true, (t._buffer.drop 0).take (capacity + 0), { t with
      _index := t._index + 1
      _processed := 0 + capacity
      _last := decide (0 + capacity = t._sizeInUse ∧ t._inputPosition = t._inputSize) }) = _
    rw [hlast, hview, seen]
    simp only [hindex, Nat.zero_add]
  · have hstands := hpast.stands h.capacity
    rw [Nat.zero_add] at hstands ⊢
    rwa [hindex] at hstands ⊢

/-! ## All calls -/

/-- A reader at the end of its array cannot move anything. -/
theorem prepare_at_end (ht : Stands delimiter keepDelimiter capacity spot t)
    (hoffset : spot.offset = capacity) (hne : spot.rest ≠ []) :
    t.prepare = .error (.runtimeError ": The buffer is too small.") := by
  have hlength := List.length_pos_of_ne_nil hne
  have hcapacity := ht.capacity
  refine ht.at_spot.prepare_full ?_ (by omega) (.inr (by omega))
  rw [show t._buffer.length - spot.offset = 0 by omega, List.take_zero, List.idxOf_nil]
  omega

theorem placeAt_le {offset' : Nat} (h : placeAt capacity offset row = some offset') :
    offset' + row.length ≤ capacity := by
  rw [placeAt] at h
  split at h
  next hfits =>
    cases h
    exact hfits
  next =>
    split at h
    · cases h
    · cases h
      omega

theorem search_fails (hline : delimiter ∉ line) (hrow : IsRow delimiter line row rest)
    (hfits : ¬ offset + row.length ≤ capacity)
    (ht : Stands delimiter keepDelimiter capacity ⟨offset, row ++ rest, _index, _last⟩ t) :
    offset + ((row ++ rest).take (t._buffer.length - offset)).idxOf delimiter =
      t._buffer.length := by
  have hcapacity := ht.capacity
  have hle : offset ≤ t._buffer.length := ht.at_spot.offset_le
  rw [hrow.idxOf_take_short hline (by omega)]
  omega

theorem lt_length_of_not_fits (hfits : ¬ offset + row.length ≤ capacity) :
    capacity < offset + (row ++ rest).length := by
  rw [List.length_append]
  omega

/-- Neither can one at the beginning that has not all of the row. -/
theorem prepare_at_start (hline : delimiter ∉ line) (hrow : IsRow delimiter line row rest)
    (hfits : ¬ 0 + row.length ≤ capacity)
    (ht : Stands delimiter keepDelimiter capacity ⟨0, row ++ rest, _index, _last⟩ t) :
    t.prepare = .error (.runtimeError ": The buffer is too small.") :=
  ht.at_spot.prepare_full (search_fails hline hrow hfits ht)
    (ht.capacity.symm ▸ lt_length_of_not_fits hfits) (.inl rfl)

/-- A row that the array does not have all of is moved to the front. -/
theorem prepare_moved (hline : delimiter ∉ line) (hrow : IsRow delimiter line row rest)
    (hfits : ¬ offset + row.length ≤ capacity) (hpos : 0 < offset) (hne : offset ≠ capacity)
    (ht : Stands delimiter keepDelimiter capacity ⟨offset, row ++ rest, _index, _last⟩ t) :
    ∃ t', t.prepare = .ok t' ∧
      Stands delimiter keepDelimiter capacity ⟨0, row ++ rest, _index, _last⟩ t' := by
  have hat : At delimiter keepDelimiter t t._buffer offset (row ++ rest) := ht.at_spot
  have hcapacity := ht.capacity
  have hle := hat.offset_le
  have hmore : capacity < offset + (row ++ rest).length := lt_length_of_not_fits hfits
  obtain ⟨t', hprepare, hat', hindex, hlast⟩ :=
    hat.prepare_moves (search_fails hline hrow hfits ht) (hcapacity.symm ▸ hmore) hpos (by omega)
  have hstands := hat'.stands ((length_refill _ _).trans hcapacity)
  rw [hindex, hlast, ht.index, ht.last] at hstands
  exact ⟨t', hprepare, hstands⟩

/-- The row is at its place. -/
theorem prepare_placeAt (hline : delimiter ∉ line) (hrow : IsRow delimiter line row rest)
    {offset' : Nat} (hplace : placeAt capacity offset row = some offset')
    (ht : Stands delimiter keepDelimiter capacity ⟨offset, row ++ rest, _index, _last⟩ t) :
    ∃ t', t.prepare = .ok t' ∧
      Stands delimiter keepDelimiter capacity ⟨offset', row ++ rest, _index, _last⟩ t' := by
  have hat : At delimiter keepDelimiter t t._buffer offset (row ++ rest) := ht.at_spot
  have hcapacity := ht.capacity
  have hle := hat.offset_le
  rw [placeAt] at hplace
  split at hplace
  next hfits =>
    cases hplace
    refine ⟨t, hat.prepare_stays fun hend => ?_, ht⟩
    rw [hrow.idxOf_take hline (by omega)] at hend
    cases hrow with
    | delimited rest =>
        rw [List.length_append, List.length_singleton] at hfits
        omega
    | last =>
        rw [List.append_nil]
        omega
  next hfits =>
    split at hplace
    · cases hplace
    next hmoves =>
      cases hplace
      exact prepare_moved hline hrow hfits (by omega) (fun h => hmoves (.inl h)) ht

/-- A row that has no place in the array. -/
theorem leads_of_placeAt_none (hline : delimiter ∉ line) (hrow : IsRow delimiter line row rest)
    (hplace : placeAt capacity offset row = none) :
    Unwinding.Leads Gets (Stands delimiter keepDelimiter capacity) (Sheltered delimiter capacity)
      ⟨offset, row ++ rest, _index, _last⟩ := by
  rw [placeAt] at hplace
  split at hplace
  · cases hplace
  next hfits =>
    split at hplace
    next hnone =>
      by_cases hoffset : offset = capacity
      · refine leads_of_throws fun t ht => prepare_at_end ht hoffset fun hnil => ?_
        have hmore : capacity < offset + (row ++ rest).length := lt_length_of_not_fits hfits
        rw [show row ++ rest = [] from hnil, List.length_nil] at hmore
        omega
      · have hlong : capacity < row.length := hnone.resolve_left hoffset
        have hlong' := hlong.trans_le (List.length_append ▸ Nat.le_add_right row.length rest.length)
        by_cases hzero : offset = 0
        · subst hzero
          exact leads_of_throws fun t ht => prepare_at_start hline hrow hfits ht
        · by_cases hcapacity : capacity = 0
          · -- no reader stands behind the end of its array
            refine leads_of_throws fun t ht => ?_
            have hle : offset ≤ t._buffer.length := ht.at_spot.offset_le
            rw [ht.capacity] at hle
            omega
          · have hcut : Sheltered delimiter capacity
                ⟨capacity, (row ++ rest).drop capacity, _index + 1, false⟩ :=
              .inr ⟨rfl, List.drop_eq_nil_iff.not.mpr (Nat.not_le.mpr hlong')⟩
            exact leads_of_takes hcut
              (fun t ht => prepare_moved hline hrow hfits (Nat.pos_of_ne_zero hzero) hoffset ht)
              fun t ht => takes_front ht hcapacity hlong' (hrow.idxOf_take_short hline hlong)
    · cases hplace

/-- By the first row that is left. -/
theorem leads_of_sheltered (h : Sheltered delimiter capacity spot) :
    Unwinding.Leads Gets (Stands delimiter keepDelimiter capacity) (Sheltered delimiter capacity)
      spot := by
  rcases h with ⟨rows, hrows, hflatten, hexposed⟩ | ⟨hoffset, hne⟩
  · obtain ⟨offset, rest, _index, _last⟩ := spot
    obtain rfl : rows.flatten = rest := hflatten
    cases rows with
    | nil =>
        refine leads_of_takes (.inl ⟨[], hrows, rfl, hexposed⟩) (fun t ht => ⟨t, ?_, ht⟩)
          fun t ht => takes_nothing ht ?_
        · refine ht.at_spot.prepare_stays fun _ => ?_
          exact ht.at_spot.offset_le
        · rw [List.flatten_nil, List.take_nil, List.idxOf_nil]
    | cons row rows =>
        obtain ⟨line, hline, hrows', hrow, hempty⟩ := hrows.uncons
        rw [List.flatten_cons]
        rw [Exposed] at hexposed
        cases hplace : placeAt capacity offset row with
        | none => exact leads_of_placeAt_none hline hrow hplace
        | some offset' =>
            have hfits := placeAt_le hplace
            rw [show Spot.offset ⟨offset, _, _index, _last⟩ = offset from rfl, hplace] at hexposed
            by_cases hblank : row = [delimiter]
            · have hnothing : ((row ++ rows.flatten).take (capacity - offset')).idxOf delimiter = 0 := by
                rw [hrow.idxOf_take hline (Nat.le_sub_of_add_le' hfits), hempty.mpr hblank]
                rfl
              refine leads_of_takes (.inl ⟨row :: rows, hrows, rfl, ?_⟩)
                (fun t ht => prepare_placeAt hline hrow hplace ht)
                fun t ht => takes_nothing ht hnothing
              rw [Exposed, placeAt, if_pos hfits]
              exact fun h => h.1 hblank
            · have hnot := not_or.mp fun hor => hexposed ⟨hblank, hor⟩
              refine leads_of_takes (.inl ⟨rows, hrows', rfl, hnot.2⟩)
                (fun t ht => prepare_placeAt hline hrow hplace ht)
                fun t ht => takes_row ht (mt hempty.mp hblank) hline hrow hfits fun hlast => ?_
              have hnil := hrows'.flatten_eq_nil_iff.mp (hrow.rest_eq_nil hlast)
              have hgetLast : row.getLast? ≠ some delimiter :=
                fun hd => (hlast ▸ hline) (List.mem_of_getLast? hd)
              exact Nat.le_antisymm hfits (Nat.not_lt.mp fun hlt => hnot.1 ⟨hnil, hgetLast, hlt⟩)
  · exact leads_of_throws fun t ht => prepare_at_end ht hoffset hne

/-! ## An exposed last line -/

theorem Agree.set (s : Lines) (b : UInt8) :
    Agree s { s with _buffer := s._buffer.set s._sizeInUse b } where
  eq := rfl
  length := List.length_set
  used := List.take_set_of_le (Nat.le_refl _)

/-- Whatever byte stands behind the last line counts. -/
theorem sees_last (hne : line ≠ []) (hline : delimiter ∉ line)
    (ht : Stands delimiter keepDelimiter capacity ⟨offset, line, _index, _last⟩ t)
    (hlt : offset + line.length < capacity) (hprepare : s.prepare = .ok t) (b : UInt8) :
    ∃ o, Unwinding.Sees Gets 1 s [.ok o] ∧
      o._processed = offset + (line.length + if decide (b = delimiter) then 1 else 0) := by
  have hcapacity := ht.capacity
  have hat : At delimiter keepDelimiter t t._buffer offset line := ht.at_spot
  have hsize : t._sizeInUse = offset + line.length := by
    rw [hat.sizeInUse]
    omega
  have hagree := Agree.set t b
  obtain ⟨hat', hlength, -, -⟩ := hat.agree hagree
  have hbehind : (t._buffer.set t._sizeInUse b)[offset + line.length]? = some delimiter ↔
      decide (b = delimiter) = true := by
    rw [hsize, List.getElem?_set_self (by omega), Option.some_inj, decide_eq_true_iff]
  have hgets := Gets.takes (.refl s) hprepare hagree
  have hfind : (line.take ((t._buffer.set t._sizeInUse b).length - offset)).idxOf delimiter =
      line.length := by
    rw [List.take_of_length_le (by rw [hlength]; omega), List.idxOf_eq_length hline]
  rw [hat'.find, hfind, Outcome.ok_bind,
    hat'.takeLine (mt List.length_eq_zero_iff.mp hne) hbehind] at hgets
  exact ⟨_, .answer hgets (.zero _), rfl⟩

/-- By induction on the rows, up to the exposed one. -/
theorem At.exists_differ {content : Bytes} {rows : List Bytes}
    (h : At delimiter keepDelimiter s content offset rows.flatten) (hrows : RowsOf delimiter rows)
    (hexposed : Exposed delimiter content.length offset rows) :
    ∃ (n : Nat) (seen seen' : List (Call Seen)),
      Unwinding.Sees Gets n s seen ∧ Unwinding.Sees Gets n s seen' ∧ seen ≠ seen' := by
  induction rows generalizing s content offset with
  | nil => exact hexposed.elim
  | cons row rows ih =>
      obtain ⟨line, hline, hrows', hrow, hempty⟩ := hrows.uncons
      rw [List.flatten_cons] at h
      rw [Exposed] at hexposed
      cases hplace : placeAt content.length offset row with
      | none =>
          rw [hplace] at hexposed
          exact hexposed.elim
      | some offset' =>
          rw [hplace] at hexposed
          obtain ⟨hblank, hexposed⟩ := hexposed
          have hne : line ≠ [] := mt hempty.mp hblank
          obtain ⟨t, hprepare, ht⟩ := prepare_placeAt hline hrow hplace (h.stands rfl)
          rcases hexposed with ⟨rfl, hlast, hlt⟩ | hexposed
          · have hrowLine : row = line := by
              cases hrow with
              | delimited rest => exact absurd List.getLast?_concat hlast
              | last => rfl
            subst hrowLine
            rw [List.flatten_nil, List.append_nil] at ht
            obtain ⟨b, hb⟩ : ∃ b : UInt8, b ≠ delimiter := by
              by_cases hzero : delimiter = 0
              · exact ⟨1, by rw [hzero]; decide⟩
              · exact ⟨0, Ne.symm hzero⟩
            obtain ⟨o, hsees, ho⟩ := sees_last hne hline ht hlt hprepare delimiter
            obtain ⟨o', hsees', ho'⟩ := sees_last hne hline ht hlt hprepare b
            refine ⟨1, _, _, hsees, hsees', fun heq => ?_⟩
            cases heq
            rw [ho'] at ho
            simp [hb] at ho
          · have hflatten : rows.flatten ≠ [] := by
              rw [Ne, hrows'.flatten_eq_nil_iff]
              rintro rfl
              exact hexposed
            obtain ⟨itEnd, t', hfind, hseen, ht'⟩ := takes_row ht hne hline hrow
              (placeAt_le hplace) fun hlast => absurd (hrow.rest_eq_nil hlast) hflatten
            have hgets := gets_getLineImpl s
            rw [getLineImpl_eq_prepare, hprepare, Outcome.ok_bind, hfind, Outcome.ok_bind,
              Outcome.ok_bind, hseen] at hgets
            obtain ⟨n, seen, seen', hsees, hsees', hdiffer⟩ :=
              ih ht'.at_spot hrows' (by rw [ht'.capacity]; exact hexposed)
            exact ⟨n + 1, _, _, .answer hgets hsees, .answer hgets hsees',
              fun heq => hdiffer (List.cons.inj heq).2⟩

end Stands

/-- A reader when it is constructed. -/
theorem stands_new (_buffer source : Bytes) (delimiter : UInt8) (keepDelimiter : Bool) :
    Stands delimiter keepDelimiter _buffer.length
      ⟨0, (split delimiter true [] source).flatten, -1, false⟩
      (StringLines.new _buffer source delimiter keepDelimiter) := by
  have hflatten : (split delimiter true [] source).flatten = source :=
    flatten_split delimiter [] source
  rw [hflatten]
  exact (At.new _buffer source delimiter keepDelimiter).stands (length_refill _buffer source)

theorem blind_new_iff (_buffer source : Bytes) (delimiter : UInt8) (keepDelimiter : Bool) :
    Blind (StringLines.new _buffer source delimiter keepDelimiter) ↔
      ¬ Exposed delimiter _buffer.length 0 (split delimiter true [] source) := by
  have hrows : RowsOf delimiter (split delimiter true [] source) := rowsOf_split List.not_mem_nil
  have hstands := stands_new _buffer source delimiter keepDelimiter
  constructor
  · intro hblind hexposed
    rw [← hstands.capacity] at hexposed
    obtain ⟨n, seen, seen', hsees, hsees', hdiffer⟩ :=
      hstands.at_spot.exists_differ hrows hexposed
    exact hdiffer (hblind.unique n seen seen' hsees hsees')
  · intro hexposed
    have hsheltered : Sheltered delimiter _buffer.length
        ⟨0, (split delimiter true [] source).flatten, -1, false⟩ :=
      .inl ⟨_, hrows, rfl, hexposed⟩
    refine ⟨fun n seen seen' hsees hsees' => ?_, fun s hcalled => ?_⟩
    · exact hsees.unique (fun spot => leads_of_sheltered) hsheltered hstands hstands hsees'
    · obtain ⟨spot, -, hspot⟩ :=
        hcalled.exists_holds (fun spot => leads_of_sheltered) hsheltered hstands
      have hsize := hspot.at_spot.sizeInUse
      have hle := hspot.at_spot.offset_le
      rw [hspot.at_spot.processed]
      omega

/-- A reader does not look behind the part in use just when it does not get to a
last line without delimiter in front of the end of the array. -/
theorem blind_iff (_buffer source : Bytes) (delimiter : UInt8) (keepDelimiter : Bool) :
    (Blind (StringLines.new _buffer source delimiter keepDelimiter) ∧
      ∃ lines, FileLines.new _buffer (some source) delimiter keepDelimiter = .ok lines ∧
        Blind lines) ↔
      ¬ Exposed delimiter _buffer.length 0 (split delimiter true [] source) := by
  rw [← blind_new_iff _buffer source delimiter keepDelimiter]
  constructor
  · intro h
    exact h.1
  · intro h
    exact ⟨h, _, rfl, h⟩

/-- One line without delimiter. -/
theorem not_blind : ¬ ∀ (_buffer source : Bytes) (delimiter : UInt8) (keepDelimiter : Bool),
    Blind (StringLines.new _buffer source delimiter keepDelimiter) := by
  intro hall
  refine (blind_new_iff _ _ _ _).mp (hall (List.replicate 500000 0) (bytes "ab") 10 false) ?_
  rw [List.length_replicate]
  decide +kernel

end ClientServer.Lines
