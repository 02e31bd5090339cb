import ClientServer.Common.Lines

/-!
# Where a reader stands

A reader stands at a place of its array, in front of what is left of its source.
What a call of `getLine` finds and where it leaves the reader depends on nothing
else, whatever the rest of the array holds.
-/

namespace ClientServer.Lines

/-- The array when what is left of the source is read to its beginning. -/
def refill (content rest : Bytes) : Bytes := rest.take content.length ++ content.drop rest.length

@[simp] theorem length_refill (content rest : Bytes) :
    (refill content rest).length = content.length := by
  rw [refill, List.length_append, List.length_take, List.length_drop]
  omega

theorem take_min (content rest : Bytes) :
    rest.take (min rest.length content.length) = rest.take content.length :=
  List.take_eq_take_iff.mpr (by omega)

theorem drop_min (content rest : Bytes) :
    rest.drop (min rest.length content.length) = rest.drop content.length :=
  List.drop_eq_drop_iff.mpr (by omega)

/-- The bytes that are read, and those of the array behind them. -/
theorem take_min_append_drop (content rest : Bytes) :
    rest.take (min rest.length content.length) ++ content.drop (min rest.length content.length) =
      refill content rest := by
  rw [take_min, refill]
  exact congrArg _ (List.drop_eq_drop_iff.mpr (by omega))

/-- A reader in front of what is left of its source. -/
structure At (delimiter : UInt8) (keepDelimiter : Bool) (s : Lines) (content : Bytes)
    (offset : Nat) (rest : Bytes) : Prop where
  delimiter : s._delimiter = delimiter
  keepDelimiter : s._keepDelimiter = keepDelimiter
  buffer : s._buffer = content
  processed : s._processed = offset
  offset_le : offset ≤ content.length
  sizeInUse : s._sizeInUse = min content.length (offset + rest.length)
  bytes : (content.take s._sizeInUse).drop offset = rest.take (content.length - offset)
  unread : s._source.drop s._inputPosition = rest.drop (content.length - offset)
  inputSize : s._inputSize = s._source.length
  inputPosition : s._inputPosition ≤ s._source.length

namespace At

variable {delimiter : UInt8} {keepDelimiter : Bool} {s : Lines} {content : Bytes} {offset : Nat}
  {row rest : Bytes}

theorem find (h : At delimiter keepDelimiter s content offset rest) :
    s.find = .ok (offset + (rest.take (content.length - offset)).idxOf delimiter) := by
  have hle : ¬ s._sizeInUse < s._processed := by
    have := h.offset_le
    rw [h.sizeInUse, h.processed]
    omega
  rw [Lines.find, if_neg hle, h.buffer, h.processed, h.bytes, h.delimiter]

theorem inputPosition_lt_iff (h : At delimiter keepDelimiter s content offset rest) :
    s._inputPosition < s._inputSize ↔ content.length < offset + rest.length := by
  have hlength := congrArg List.length h.unread
  rw [List.length_drop, List.length_drop] at hlength
  have := h.inputPosition
  have := h.offset_le
  rw [h.inputSize]
  omega

theorem sizeInUse_eq (h : At delimiter keepDelimiter s content offset rest) :
    s._sizeInUse = offset + min (content.length - offset) rest.length := by
  have := h.offset_le
  rw [h.sizeInUse]
  omega

/-- What is read stands in the array. -/
theorem take_content (h : At delimiter keepDelimiter s content offset rest) {n : Nat}
    (hn : offset + n ≤ content.length) (hrest : n ≤ rest.length) : (content.drop offset).take n = rest.take n := by
  have hbytes := congrArg (List.take n) h.bytes
  rw [List.drop_take, List.take_take, List.take_take] at hbytes
  have := h.sizeInUse_eq
  rw [Nat.min_eq_left (by omega), Nat.min_eq_left (by omega)] at hbytes
  exact hbytes

theorem getElem?_content (h : At delimiter keepDelimiter s content offset rest) {n : Nat}
    (hn : offset + n < content.length) (hrest : n < rest.length) : content[offset + n]? = rest[n]? := by
  have htake := congrArg (·[n]?) (h.take_content (n := n + 1) (by omega) hrest)
  simpa using htake

/-- The rest of the array is filled. -/
theorem refillBuffer {k : Nat} (hk : k ≤ content.length) (hrest : k ≤ rest.length)
    (hdelimiter : s._delimiter = delimiter) (hkeepDelimiter : s._keepDelimiter = keepDelimiter)
    (hbuffer : s._buffer = rest.take k ++ content.drop k) (hsizeInUse : s._sizeInUse = k)
    (hprocessed : s._processed = 0) (hunread : s._source.drop s._inputPosition = rest.drop k)
    (hinputSize : s._inputSize = s._source.length)
    (hinputPosition : s._inputPosition ≤ s._source.length) :
    At delimiter keepDelimiter s.refillBuffer (refill content rest) 0 rest := by
  have hlength : s._buffer.length = content.length := by
    rw [hbuffer, List.length_append, List.length_take, List.length_drop]
    omega
  have hleft : s._inputSize - s._inputPosition = rest.length - k := by
    have := congrArg List.length hunread
    rw [List.length_drop, List.length_drop] at this
    rw [hinputSize, this]
  have htake : (rest.take k).length = k := by
    rw [List.length_take]
    omega
  -- the bytes from the front of the array to the end of what is in use
  have hfront : s._buffer.take k ++ (rest.drop k).take (min (rest.length - k) (content.length - k)) =
      rest.take (k + min (rest.length - k) (content.length - k)) := by
    rw [hbuffer, List.take_left' htake, List.take_add]
  have hbehind : s._buffer.drop (k + min (rest.length - k) (content.length - k)) =
      content.drop (k + min (rest.length - k) (content.length - k)) := by
    rw [hbuffer, ← List.drop_drop, List.drop_left' htake, List.drop_drop]
  have hall : k + min (rest.length - k) (content.length - k) = min rest.length content.length := by
    omega
  have hsize : s.refillBuffer._sizeInUse = min rest.length content.length := by
    show s._sizeInUse + min (s._inputSize - s._inputPosition) (s._buffer.length - s._sizeInUse) = _
    rw [hsizeInUse, hleft, hlength, hall]
  have hposition : s.refillBuffer._inputPosition =
      s._inputPosition + min (rest.length - k) (content.length - k) := by
    show s._inputPosition + min (s._inputSize - s._inputPosition)
      (s._buffer.length - s._sizeInUse) = _
    rw [hsizeInUse, hleft, hlength]
  constructor
  case delimiter => exact hdelimiter
  case keepDelimiter => exact hkeepDelimiter
  case buffer =>
    rw [Lines.refillBuffer, hsizeInUse, hleft, hlength, hunread]
    show s._buffer.take k ++ _ ++ s._buffer.drop _ = _
    rw [hfront, hbehind, hall, take_min_append_drop]
  case processed => exact hprocessed
  case offset_le => exact Nat.zero_le _
  case sizeInUse => rw [hsize, length_refill, Nat.zero_add, Nat.min_comm]
  case bytes =>
    rw [hsize, ← take_min_append_drop, List.take_left' (by rw [List.length_take]; omega),
      take_min_append_drop, length_refill]
    exact take_min content rest
  case unread =>
    rw [hposition, ← List.drop_drop]
    show (s._source.drop s._inputPosition).drop _ = _
    rw [hunread, List.drop_drop, hall, drop_min, length_refill]
    rfl
  case inputSize => exact hinputSize
  case inputPosition =>
    rw [hposition]
    show _ ≤ s._source.length
    omega

/-- A reader when it is constructed. -/
theorem new (_buffer source : Bytes) (delimiter : UInt8) (keepDelimiter : Bool) :
    At delimiter keepDelimiter (StringLines.new _buffer source delimiter keepDelimiter)
      (refill _buffer source) 0 source :=
  refillBuffer (k := 0) (Nat.zero_le _) (Nat.zero_le _) rfl rfl rfl rfl rfl rfl rfl (Nat.zero_le _)

/-- What is left of a full array is moved to the front and the rest is filled. -/
theorem removeProcessedLines (h : At delimiter keepDelimiter s content offset rest)
    (hpos : 0 < offset) (hlt : offset < content.length)
    (hfull : content.length ≤ offset + rest.length) :
    ∃ s', s.removeProcessedLines = .ok s' ∧ s'._index = s._index ∧
      At delimiter keepDelimiter s'.refillBuffer (refill content rest) 0 rest := by
  have hsize : s._sizeInUse = content.length := by
    rw [h.sizeInUse]
    omega
  have hsome : ¬ (s._processed = 0 ∨ s._processed ≥ s._sizeInUse) := by
    rw [h.processed, hsize]
    omega
  rw [Lines.removeProcessedLines, if_neg hsome]
  refine ⟨_, rfl, rfl, ?_⟩
  have hbytes := h.bytes
  have hunread := h.unread
  refine refillBuffer (k := content.length - offset) (Nat.sub_le _ _) (by omega) h.delimiter
    h.keepDelimiter ?_ ?_ rfl hunread h.inputSize h.inputPosition
  · show (s._buffer.take s._sizeInUse).drop s._processed ++
      s._buffer.drop (s._sizeInUse - s._processed) = _
    rw [h.buffer, h.processed, hbytes, hsize]
  · show s._sizeInUse - s._processed = _
    rw [hsize, h.processed]

/-- What is handed out is what the array holds up to the delimiter, and whether
there is one is seen at the byte behind. -/
theorem takeLine (h : At delimiter keepDelimiter s content offset rest) {n : Nat} (hn : n ≠ 0)
    {ends : Bool} (hends : content[offset + n]? = some delimiter ↔ ends = true) :
    s.takeLine (offset + n) =
      (true, (content.drop offset).take (n + if ends && keepDelimiter then 1 else 0),
        { s with
          _index := s._index + 1
          _processed := offset + (n + if ends then 1 else 0)
          _last := decide (offset + (n + if ends then 1 else 0) = s._sizeInUse ∧
            s._inputPosition = s._inputSize) }) := by
  have hbehind : (decide (offset + n ≠ s._buffer.length) &&
      s._buffer[offset + n]? == some s._delimiter) = ends := by
    rw [h.buffer, h.delimiter, Bool.eq_iff_iff, Bool.and_eq_true, beq_iff_eq, hends]
    constructor
    · intro hand
      exact hand.2
    · intro hand
      have hlt := (List.getElem?_eq_some_iff.mp (hends.mpr hand)).1
      exact ⟨decide_eq_true (Nat.ne_of_lt hlt), hand⟩
  rw [Lines.takeLine, h.processed, Nat.add_sub_cancel_left]
  simp only [hbehind, if_neg hn]
  rw [h.buffer, h.keepDelimiter]

theorem inputPosition_eq_iff (h : At delimiter keepDelimiter s content offset rest) :
    s._inputPosition = s._inputSize ↔ offset + rest.length ≤ content.length := by
  have hlt := h.inputPosition_lt_iff
  have hle := h.inputPosition
  rw [← h.inputSize] at hle
  omega

/-- The reader behind a line. -/
theorem past (h : At delimiter keepDelimiter s content offset (row ++ rest))
    (hfits : offset + row.length ≤ content.length) (index : Int) (last : Bool) :
    At delimiter keepDelimiter
      { s with _index := index, _processed := offset + row.length, _last := last } content
      (offset + row.length) rest where
  delimiter := h.delimiter
  keepDelimiter := h.keepDelimiter
  buffer := h.buffer
  processed := rfl
  offset_le := hfits
  sizeInUse := by
    show s._sizeInUse = _
    rw [h.sizeInUse, List.length_append, Nat.add_assoc]
  bytes := by
    show (content.take s._sizeInUse).drop _ = _
    rw [← List.drop_drop, h.bytes, List.take_append, List.take_of_length_le (by omega),
      List.drop_left, Nat.sub_add_eq]
  unread := by
    show s._source.drop s._inputPosition = _
    rw [h.unread, List.drop_append, List.drop_of_length_le (by omega), List.nil_append,
      Nat.sub_add_eq]
  inputSize := h.inputSize
  inputPosition := h.inputPosition

theorem take_row (h : At delimiter keepDelimiter s content offset (row ++ rest)) {n : Nat}
    (hn : n ≤ row.length) (hfits : offset + row.length ≤ content.length) :
    (content.drop offset).take n = row.take n := by
  rw [h.take_content (by omega) (by rw [List.length_append]; omega),
    List.take_append_of_le_length hn]

/-! ## One call -/

/-- Where the delimiter is looked for, and where it is found or the search ends. -/
theorem getLineImpl_stays (h : At delimiter keepDelimiter s content offset rest) {n : Nat}
    (hn : (rest.take (content.length - offset)).idxOf delimiter = n)
    (hstays : offset + n = content.length → offset + rest.length ≤ content.length) :
    s.getLineImpl = .ok (s.takeLine (offset + n)) := by
  have hfull : ¬ (offset + n = s._buffer.length ∧ s._inputPosition < s._inputSize) := by
    rw [h.inputPosition_lt_iff, h.buffer]
    intro hand
    exact Nat.not_le.mpr hand.2 (hstays hand.1)
  rw [getLineImpl, h.find, hn]
  show (if _ then _ else _) = _
  rw [if_neg hfull]
  rfl

theorem getLineImpl_refills (h : At delimiter keepDelimiter s content offset rest)
    (hend : offset + (rest.take (content.length - offset)).idxOf delimiter = content.length)
    (hmore : content.length < offset + rest.length) :
    s.getLineImpl = s.removeProcessedLines >>= fun s => s.refillBuffer.find >>= fun itEnd =>
      .ok (s.refillBuffer.takeLine itEnd) := by
  have hfull : s._inputPosition < s._inputSize := h.inputPosition_lt_iff.mpr hmore
  rw [getLineImpl, h.find]
  show (if _ then _ else _) = _
  rw [if_pos ⟨hend.trans (congrArg List.length h.buffer).symm, hfull⟩]
  rfl

/-- Nothing can be moved to the front. -/
theorem getLineImpl_full (h : At delimiter keepDelimiter s content offset rest)
    (hend : offset + (rest.take (content.length - offset)).idxOf delimiter = content.length)
    (hmore : content.length < offset + rest.length)
    (hoffset : offset = 0 ∨ offset = content.length) :
    s.getLineImpl = .error (.runtimeError ": The buffer is too small.") := by
  have hnone : s._processed = 0 ∨ s._processed ≥ s._sizeInUse := by
    rw [h.processed, h.sizeInUse, Nat.min_eq_left (Nat.le_of_lt hmore)]
    omega
  rw [h.getLineImpl_refills hend hmore, Lines.removeProcessedLines, if_pos hnone]
  rfl

theorem getLineImpl_moves (h : At delimiter keepDelimiter s content offset rest)
    (hend : offset + (rest.take (content.length - offset)).idxOf delimiter = content.length)
    (hmore : content.length < offset + rest.length) (hpos : 0 < offset)
    (hlt : offset < content.length) :
    ∃ s', At delimiter keepDelimiter s' (refill content rest) 0 rest ∧ s'._index = s._index ∧
      s.getLineImpl = .ok (s'.takeLine (0 + (rest.take content.length).idxOf delimiter)) := by
  obtain ⟨s', hremove, hindex, hat⟩ := h.removeProcessedLines hpos hlt (Nat.le_of_lt hmore)
  refine ⟨s'.refillBuffer, hat, hindex, ?_⟩
  rw [h.getLineImpl_refills hend hmore, hremove]
  show s'.refillBuffer.find >>= _ = _
  rw [hat.find, length_refill, Nat.sub_zero]
  rfl

/-- At the end there is no line. -/
theorem getLineImpl_nil (h : At delimiter keepDelimiter s content offset []) :
    s.getLineImpl = .ok (false, [], s) := by
  have hmore : ¬ s._inputPosition < s._inputSize := by
    have := h.offset_le
    rw [h.inputPosition_lt_iff, List.length_nil]
    omega
  rw [getLineImpl, h.find, List.take_nil, List.idxOf_nil, Nat.add_zero]
  show (if _ then _ else _) = _
  rw [if_neg fun hend => hmore hend.2, ← h.processed]
  show Except.ok (s.takeLine s._processed) = _
  rw [Lines.takeLine, Nat.sub_self]
  rfl

end At

/-! ## Any source -/

/-- What is not handed out yet. -/
def unread (s : Lines) : Bytes :=
  (s._buffer.take s._sizeInUse).drop s._processed ++ s._source.drop s._inputPosition

/-- There is a next byte and it is no delimiter.  A reader at the end of its array
does not get to look at it. -/
def HasLine (s : Lines) : Prop :=
  s.unread ≠ [] ∧ (s.unread.head? ≠ some s._delimiter ∨ s._processed = s._buffer.length)

instance (s : Lines) : Decidable s.HasLine := inferInstanceAs (Decidable (_ ∧ _))

/-- A reader stands somewhere in its source, or behind the part of its array in
use, from where a search is not defined. -/
inductive Standing (s : Lines) : Prop where
  | inside {delimiter : UInt8} {keepDelimiter : Bool} {content : Bytes} {offset : Nat}
      {rest : Bytes} : At delimiter keepDelimiter s content offset rest → Standing s
  | behind : s._sizeInUse < s._processed → Standing s

section Standing

variable {delimiter : UInt8} {keepDelimiter : Bool} {s : Lines} {content : Bytes} {offset : Nat}
  {rest : Bytes}

theorem At.unread_eq (h : At delimiter keepDelimiter s content offset rest) : s.unread = rest := by
  rw [Lines.unread, h.buffer, h.processed, h.bytes, h.unread, List.take_append_drop]

/-- A line is found in front of a byte that is no delimiter. -/
theorem idxOf_take_ne_zero {c : UInt8} {n : Nat} (hc : c ≠ delimiter) (hn : n ≠ 0) :
    ((c :: rest).take n).idxOf delimiter ≠ 0 := by
  cases n with
  | zero => exact absurd rfl hn
  | succ n =>
      rw [List.take_succ_cons, List.idxOf_cons_ne _ hc]
      exact Nat.succ_ne_zero _

/-- A call throws, or it takes what stands in front of the reader; that is a line
if there is one. -/
theorem At.getLineImpl_cases (h : At delimiter keepDelimiter s content offset rest) :
    s.getLineImpl = .error (.runtimeError ": The buffer is too small.") ∨
    ∃ s' content' offset' n, At delimiter keepDelimiter s' content' offset' rest ∧
      s'._index = s._index ∧ (rest.take (content'.length - offset')).idxOf delimiter = n ∧
      s.getLineImpl = .ok (s'.takeLine (offset' + n)) ∧ (s.HasLine → n ≠ 0) := by
  have hle := h.offset_le
  cases Classical.em (offset + (rest.take (content.length - offset)).idxOf delimiter =
      content.length ∧ content.length < offset + rest.length) with
  | inl hfull =>
      obtain ⟨hend, hmore⟩ := hfull
      cases Classical.em (offset = 0 ∨ offset = content.length) with
      | inl hoffset => exact .inl (h.getLineImpl_full hend hmore hoffset)
      | inr hoffset =>
          have hpos : 0 < offset := by omega
          have hlt : offset < content.length := by omega
          obtain ⟨s', hat, hindex, hread⟩ := h.getLineImpl_moves hend hmore hpos hlt
          refine .inr ⟨s', _, _, _, hat, hindex, rfl, ?_, fun _ => ?_⟩
          · rw [hread, length_refill, Nat.sub_zero]
          · rw [length_refill, Nat.sub_zero]
            cases rest with
            | nil =>
                rw [List.length_nil] at hmore
                omega
            | cons c rest =>
                refine idxOf_take_ne_zero ?_ (by omega)
                rintro rfl
                obtain ⟨m, hm⟩ := Nat.exists_eq_succ_of_ne_zero (Nat.sub_ne_zero_of_lt hlt)
                rw [hm, List.take_succ_cons, List.idxOf_cons_self] at hend
                omega
  | inr hstays =>
      refine .inr ⟨s, content, offset, _, h, rfl, rfl,
        h.getLineImpl_stays rfl fun hend => Nat.not_lt.mp fun hmore => hstays ⟨hend, hmore⟩, ?_⟩
      intro hline
      rw [HasLine, h.unread_eq, h.delimiter, h.processed, h.buffer] at hline
      cases rest with
      | nil => exact absurd rfl hline.1
      | cons c rest =>
          have hoffset : offset ≠ content.length := by
            rintro rfl
            refine hstays ⟨?_, ?_⟩
            · rw [Nat.sub_self]
              rfl
            · rw [List.length_cons]
              omega
          refine idxOf_take_ne_zero ?_ (Nat.sub_ne_zero_of_lt (Nat.lt_of_le_of_ne hle hoffset))
          rintro rfl
          exact (hline.2.resolve_right hoffset) rfl

/-- The reader behind what it handed out. -/
theorem At.takeLine_standing (h : At delimiter keepDelimiter s content offset rest) {n : Nat}
    (hfound : (rest.take (content.length - offset)).idxOf delimiter = n) (hn : n ≠ 0) :
    ∃ view s', s.takeLine (offset + n) = (true, view, s') ∧ s'._index = s._index + 1 ∧
      s'.Standing := by
  have hle := h.offset_le
  have hbound : n ≤ min (content.length - offset) rest.length := by
    rw [← hfound, ← List.length_take]
    exact List.idxOf_le_length
  have hnext : ∀ {m : Nat}, m ≤ rest.length → offset + m ≤ content.length → ∀ last : Bool,
      Standing { s with _index := s._index + 1, _processed := offset + m, _last := last } := by
    intro m hm hfits last
    rw [← List.take_append_drop m rest] at h
    have htake : (rest.take m).length = m := by
      rw [List.length_take, Nat.min_eq_left hm]
    have hpast := h.past (by rw [htake]; exact hfits) (s._index + 1) last
    rw [htake] at hpast
    exact .inside hpast
  cases Classical.em (content[offset + n]? = some delimiter) with
  | inl hends =>
      have hlt := (List.getElem?_eq_some_iff.mp hends).1
      refine ⟨_, _, h.takeLine hn (iff_of_true hends rfl), rfl, ?_⟩
      cases Nat.decLt n rest.length with
      | isTrue hmore => exact hnext hmore hlt _
      | isFalse hend =>
          -- the byte behind the end of the source is taken for a delimiter
          refine .behind ?_
          show s._sizeInUse < offset + (n + 1)
          rw [h.sizeInUse_eq]
          omega
  | inr hends =>
      refine ⟨_, _, h.takeLine hn (iff_of_false hends Bool.false_ne_true), rfl, ?_⟩
      have hfits : offset + n ≤ content.length := by omega
      exact hnext (Nat.le_trans hbound (Nat.min_le_right _ _)) hfits _

/-- What a call does that returns. -/
theorem Standing.getLineImpl (h : s.Standing) {found : Bool} {view : Bytes} {s' : Lines}
    (hread : s.getLineImpl = .ok (found, view, s')) :
    (s.HasLine → found = true) ∧ (found = true → s'._index = s._index + 1 ∧ s'.Standing) := by
  cases h with
  | inside hat =>
      cases hat.getLineImpl_cases with
      | inl hthrows =>
          rw [hthrows] at hread
          cases hread
      | inr htakes =>
          obtain ⟨s₁, content', offset', n, hat', hindex, hfound, htake, hline⟩ := htakes
          rw [htake] at hread
          cases Nat.decEq n 0 with
          | isTrue hn =>
              subst hn
              have hnothing : s₁.takeLine (offset' + 0) = (false, [], s₁) := by
                rw [Lines.takeLine, hat'.processed, Nat.add_zero, Nat.sub_self]
                rfl
              rw [hnothing] at hread
              cases hread
              exact ⟨fun h => absurd rfl (hline h), nofun⟩
          | isFalse hn =>
              obtain ⟨view', s₂, htaken, hindex₂, hstanding⟩ := hat'.takeLine_standing hfound hn
              rw [htaken] at hread
              cases hread
              exact ⟨fun _ => rfl, fun _ => ⟨by rw [hindex₂, hindex], hstanding⟩⟩
  | behind hbehind =>
      rw [Lines.getLineImpl, Lines.find, if_pos hbehind] at hread
      cases hread

end Standing

end ClientServer.Lines
