import ClientServer.Common.HeaderCodec

/-!
# Reading a header off any string

`deserialize` knows no length.  `deserialize_eq` lists what it does on every
string, in the order in which it decides: the offset of the next field is past
the end of the string only if the fields before it were accepted, and a field
that runs into the end stops at the terminating zero byte.  So the only strings
it reads past the end of are short ones that begin like a header
(`HeaderReadable`).  A conversion that finds no digit is an exception, an
enumeration out of range is a false return.
-/

namespace ClientServer

open CharEnum

/-- The byte at a position, or the terminator. -/
def byteAt (buffer : Bytes) (i : Nat) : UInt8 := (buffer[i]?).getD 0

/-- A digit stands at a position of the string. -/
def digitAt (buffer : Bytes) (i : Nat) : Bool := Numeral.isDigit (byteAt buffer i)

/-- The size a reader finds in the ten bytes from an offset on. -/
def sizeAt (buffer : Bytes) (offset : Nat) : Nat :=
  Numeral.value (((buffer.drop offset).take DEFAULT_NUMSTRING_SIZE).takeWhile Numeral.isDigit)

theorem charAt_of_le {buffer : Bytes} {i : Nat} (h : i ≤ buffer.length) :
    charAt buffer i = .ok (byteAt buffer i) := by
  rcases Nat.lt_or_eq_of_le h with hlt | heq
  · simp [charAt_of_lt hlt, byteAt, hlt]
  · subst heq
    simp [charAt_length, byteAt]

theorem byteAt_of_ge {buffer : Bytes} {i : Nat} (h : buffer.length ≤ i) : byteAt buffer i = 0 := by
  simp [byteAt, h]

theorem lt_length_of_digitAt {buffer : Bytes} {i : Nat} (h : digitAt buffer i = true) :
    i < buffer.length := by
  by_contra hge
  rw [digitAt, byteAt_of_ge (Nat.not_lt.mp hge), Numeral.isDigit_zero] at h
  exact Bool.noConfusion h

theorem lt_length_of_between {ε : Type} [CharEnum ε] {buffer : Bytes} {i : Nat}
    (h : Between ε (byteAt buffer i)) : i < buffer.length := by
  by_contra hge
  rw [byteAt_of_ge (Nat.not_lt.mp hge)] at h
  exact not_between_zero h

/-! ## One field -/

/-- From an offset inside the string the reader stops at the terminator. -/
theorem readDigits_of_le {buffer : Bytes} : ∀ {size offset : Nat}, offset ≤ buffer.length →
    readDigits buffer offset size =
      .ok (((buffer.drop offset).take size).takeWhile Numeral.isDigit)
  | 0, _, _ => by simp [readDigits]
  | size + 1, offset, h => by
      rw [readDigits, charAt_of_le h, Outcome.ok_bind]
      rcases Nat.lt_or_eq_of_le h with hlt | heq
      · have hbyte : byteAt buffer offset = buffer[offset] := by simp [byteAt, hlt]
        rw [List.drop_eq_getElem_cons hlt, List.take_succ_cons, hbyte,
          readDigits_of_le (Nat.succ_le_of_lt hlt)]
        cases hd : Numeral.isDigit buffer[offset] <;> simp [hd]
      · subst heq
        simp [byteAt, Numeral.isDigit_zero]

theorem readDigits_of_gt {buffer : Bytes} {size offset : Nat} (h : buffer.length < offset) :
    readDigits buffer offset (size + 1) = .error .outOfBounds := by
  rw [readDigits, charAt_of_gt h, Outcome.error_bind]

theorem takeWhile_isDigit_eq_nil_iff {buffer : Bytes} {offset size : Nat} :
    ((buffer.drop offset).take (size + 1)).takeWhile Numeral.isDigit = [] ↔
      digitAt buffer offset = false := by
  rcases Nat.lt_or_ge offset buffer.length with hlt | hge
  · have hbyte : byteAt buffer offset = buffer[offset] := by simp [byteAt, hlt]
    rw [List.drop_eq_getElem_cons hlt, List.take_succ_cons, digitAt, hbyte]
    cases hd : Numeral.isDigit buffer[offset] <;> simp [hd]
  · simp [List.drop_eq_nil_of_le hge, digitAt, byteAt_of_ge hge, Numeral.isDigit_zero]

/-- Ten digits are never out of range. -/
theorem fromCharsBoost_digits {digits : Bytes} (h : ∀ c ∈ digits, Numeral.isDigit c = true)
    (hlength : digits.length ≤ DEFAULT_NUMSTRING_SIZE) :
    fromCharsBoost SIZE_MAX digits =
      if digits = [] then .error (.runtimeError "conversion failed")
      else .ok (Numeral.value digits) := by
  have hself : digits.takeWhile Numeral.isDigit = digits := List.takeWhile_eq_self_iff.mpr h
  have hmax : ¬ SIZE_MAX < Numeral.value digits := by
    have hvalue := Numeral.value_lt h
    have hpow : 10 ^ digits.length ≤ 10 ^ DEFAULT_NUMSTRING_SIZE :=
      Nat.pow_le_pow_right (by decide) hlength
    have := le_SIZE_MAX (Nat.lt_of_lt_of_le hvalue hpow)
    omega
  by_cases hnil : digits = []
  · simp [fromCharsBoost, fromChars, hnil]
  · simp [fromCharsBoost, fromChars, hself, hnil, hmax]

/-- One size field, at an offset the string reaches. -/
theorem readSize_of_le {buffer : Bytes} {offset : Nat} (h : offset ≤ buffer.length) :
    (readDigits buffer offset 10 >>= fromCharsBoost SIZE_MAX) =
      if digitAt buffer offset = false then .error (.runtimeError "conversion failed")
      else .ok (sizeAt buffer offset) := by
  rw [readDigits_of_le h, Outcome.ok_bind, fromCharsBoost_digits]
  · simp only [takeWhile_isDigit_eq_nil_iff, sizeAt, DEFAULT_NUMSTRING_SIZE]
  · intro c hc
    exact List.mem_takeWhile_imp hc
  · exact Nat.le_trans (List.takeWhile_prefix _).length_le (List.length_take_le _ _)

/-- One size field, at an offset past the end. -/
theorem readSize_of_gt {buffer : Bytes} {offset : Nat} (h : buffer.length < offset) :
    (readDigits buffer offset 10 >>= fromCharsBoost SIZE_MAX) = .error .outOfBounds := by
  rw [readDigits_of_gt h, Outcome.error_bind]

/-! ## All fields -/

theorem deserializeEnumeration_eq {ε : Type} [CharEnum ε] (code : UInt8) :
    deserializeEnumeration ε code = if Between ε code then some (ofUnderlying code) else none := by
  split
  · next h =>
      unfold deserializeEnumeration
      rw [if_neg]
      unfold Between at h
      grind
  · next h => exact deserializeEnumeration_eq_none h

/-- The header `deserialize` fills up to its first enumeration behind the sizes. -/
def headerSizes (header : HEADER) (buffer : Bytes) : HEADER :=
  { header with
    headerType := ofUnderlying (byteAt buffer 0)
    field1Size := sizeAt buffer 1
    field2Size := sizeAt buffer 11 }

/-- The header `deserialize` returns with true. -/
def headerAt (buffer : Bytes) : HEADER :=
  { headerType := ofUnderlying (byteAt buffer 0)
    field1Size := sizeAt buffer 1
    field2Size := sizeAt buffer 11
    compressor := ofUnderlying (byteAt buffer 21)
    diagnostics := ofUnderlying (byteAt buffer 22)
    status := ofUnderlying (byteAt buffer 23)
    field3Size := sizeAt buffer 24
    field4Size := sizeAt buffer 24 }

/-- What `deserialize` does on every string. -/
theorem deserialize_eq (header : HEADER) (buffer : Bytes) :
    deserialize header buffer =
      if ¬ Between HEADERTYPE (byteAt buffer 0) then .ok (false, header)
      else if digitAt buffer 1 = false then .error (.runtimeError "conversion failed")
      else if buffer.length < 11 then .error .outOfBounds
      else if digitAt buffer 11 = false then .error (.runtimeError "conversion failed")
      else if buffer.length < 21 then .error .outOfBounds
      else if ¬ Between COMPRESSORS (byteAt buffer 21) then .ok (false, headerSizes header buffer)
      else if ¬ Between DIAGNOSTICS (byteAt buffer 22) then
        .ok (false, { headerSizes header buffer with compressor := ofUnderlying (byteAt buffer 21) })
      else if ¬ Between STATUS (byteAt buffer 23) then
        .ok (false, { headerSizes header buffer with
          compressor := ofUnderlying (byteAt buffer 21)
          diagnostics := ofUnderlying (byteAt buffer 22) })
      else if digitAt buffer 24 = false then .error (.runtimeError "conversion failed")
      else .ok (true, headerAt buffer) := by
  -- a size is read and converted in two steps; `readSize_of_le` wants them as one
  have hsize : ∀ {β : Type} (offset : Nat) (k : Nat → Call β),
      (readDigits buffer offset 10 >>= fun str => fromCharsBoost SIZE_MAX str >>= k) =
        (readDigits buffer offset 10 >>= fromCharsBoost SIZE_MAX) >>= k := by
    intro β offset k
    cases readDigits buffer offset 10 <;> rfl
  simp only [deserialize, HEADERTYPE_SIZE, FIELD1_SIZE, FIELD2_SIZE, COMPRESSOR_SIZE,
    DIAGNOSTICS_SIZE, STATUS_SIZE, FIELD3_SIZE, Nat.reduceAdd, hsize,
    charAt_of_le (Nat.zero_le buffer.length), Outcome.ok_bind, Outcome.pure_eq_ok,
    deserializeEnumeration_eq]
  -- each field is at hand only once the one before it was accepted
  by_cases ht : Between HEADERTYPE (byteAt buffer 0)
  swap
  · rw [if_neg ht, if_pos ht]
  rw [if_pos ht, if_neg (not_not_intro ht)]
  dsimp only
  rw [readSize_of_le (show 1 ≤ buffer.length from lt_length_of_between ht)]
  by_cases hd1 : digitAt buffer 1 = false
  · rw [if_pos hd1, if_pos hd1, Outcome.error_bind]
  rw [if_neg hd1, if_neg hd1, Outcome.ok_bind]
  by_cases hl1 : buffer.length < 11
  · rw [readSize_of_gt hl1, if_pos hl1, Outcome.error_bind]
  rw [readSize_of_le (Nat.not_lt.mp hl1), if_neg hl1]
  by_cases hd11 : digitAt buffer 11 = false
  · rw [if_pos hd11, if_pos hd11, Outcome.error_bind]
  rw [if_neg hd11, if_neg hd11, Outcome.ok_bind]
  by_cases hl11 : buffer.length < 21
  · rw [charAt_of_gt hl11, if_pos hl11, Outcome.error_bind]
  rw [charAt_of_le (Nat.not_lt.mp hl11), if_neg hl11, Outcome.ok_bind]
  by_cases hc : Between COMPRESSORS (byteAt buffer 21)
  swap
  · rw [if_neg hc, if_pos hc]
    rfl
  rw [if_pos hc, if_neg (not_not_intro hc)]
  dsimp only
  rw [charAt_of_le (show 22 ≤ buffer.length from lt_length_of_between hc), Outcome.ok_bind]
  by_cases hd : Between DIAGNOSTICS (byteAt buffer 22)
  swap
  · rw [if_neg hd, if_pos hd]
    rfl
  rw [if_pos hd, if_neg (not_not_intro hd)]
  dsimp only
  rw [charAt_of_le (show 23 ≤ buffer.length from lt_length_of_between hd), Outcome.ok_bind]
  by_cases hs : Between STATUS (byteAt buffer 23)
  swap
  · rw [if_neg hs, if_pos hs]
    rfl
  rw [if_pos hs, if_neg (not_not_intro hs)]
  dsimp only
  rw [readSize_of_le (show 24 ≤ buffer.length from lt_length_of_between hs)]
  by_cases hd24 : digitAt buffer 24 = false
  · rw [if_pos hd24, if_pos hd24, Outcome.error_bind]
  · rw [if_neg hd24, if_neg hd24, Outcome.ok_bind]
    rfl

/-! ## What ends a reading -/

/-- A string on which `deserialize` stays inside: one that begins like a header
goes on to the next field. -/
def HeaderReadable (buffer : Bytes) : Prop :=
  Between HEADERTYPE (byteAt buffer 0) → digitAt buffer 1 = true →
    11 ≤ buffer.length ∧ (digitAt buffer 11 = true → 21 ≤ buffer.length)

instance (buffer : Bytes) : Decidable (HeaderReadable buffer) :=
  inferInstanceAs (Decidable (_ → _ → _ ∧ (_ → _)))

/-- A string whose front `deserialize` accepts. -/
structure HeaderAccepted (buffer : Bytes) : Prop where
  headerType : Between HEADERTYPE (byteAt buffer 0)
  field1Size : digitAt buffer 1 = true
  field2Size : digitAt buffer 11 = true
  compressor : Between COMPRESSORS (byteAt buffer 21)
  diagnostics : Between DIAGNOSTICS (byteAt buffer 22)
  status : Between STATUS (byteAt buffer 23)
  field3Size : digitAt buffer 24 = true

instance (buffer : Bytes) : Decidable (HeaderAccepted buffer) :=
  decidable_of_iff
    (Between HEADERTYPE (byteAt buffer 0) ∧ digitAt buffer 1 = true ∧ digitAt buffer 11 = true ∧
      Between COMPRESSORS (byteAt buffer 21) ∧ Between DIAGNOSTICS (byteAt buffer 22) ∧
      Between STATUS (byteAt buffer 23) ∧ digitAt buffer 24 = true)
    ⟨fun ⟨h1, h2, h3, h4, h5, h6, h7⟩ => ⟨h1, h2, h3, h4, h5, h6, h7⟩,
      fun ⟨h1, h2, h3, h4, h5, h6, h7⟩ => ⟨h1, h2, h3, h4, h5, h6, h7⟩⟩

/-- A string that begins like a header but has no digit where a size starts. -/
def HeaderMalformed (buffer : Bytes) : Prop :=
  Between HEADERTYPE (byteAt buffer 0) ∧
    (digitAt buffer 1 = false ∨ digitAt buffer 11 = false ∨
      Between COMPRESSORS (byteAt buffer 21) ∧ Between DIAGNOSTICS (byteAt buffer 22) ∧
        Between STATUS (byteAt buffer 23) ∧ digitAt buffer 24 = false)

instance (buffer : Bytes) : Decidable (HeaderMalformed buffer) :=
  inferInstanceAs (Decidable (_ ∧ (_ ∨ _ ∨ _)))

theorem headerReadable_of_length {buffer : Bytes} (h : 21 ≤ buffer.length) :
    HeaderReadable buffer :=
  fun _ _ => ⟨by omega, fun _ => h⟩

theorem HeaderAccepted.length {buffer : Bytes} (h : HeaderAccepted buffer) : 25 ≤ buffer.length :=
  lt_length_of_digitAt h.field3Size

theorem HeaderAccepted.readable {buffer : Bytes} (h : HeaderAccepted buffer) :
    HeaderReadable buffer :=
  headerReadable_of_length (Nat.le_trans (by decide) h.length)

theorem HeaderAccepted.not_malformed {buffer : Bytes} (h : HeaderAccepted buffer) :
    ¬ HeaderMalformed buffer := by
  rintro ⟨-, h1 | h11 | ⟨-, -, -, h24⟩⟩
  · exact Bool.false_ne_true (h1.symm.trans h.field1Size)
  · exact Bool.false_ne_true (h11.symm.trans h.field2Size)
  · exact Bool.false_ne_true (h24.symm.trans h.field3Size)

/-- The four ways a reading can end, each with the strings it ends so on. -/
inductive HeaderReading (buffer : Bytes) : Call (Bool × HEADER) → Prop
  | unreadable : ¬ HeaderReadable buffer → HeaderReading buffer (.error .outOfBounds)
  | malformed : HeaderReadable buffer → HeaderMalformed buffer →
      HeaderReading buffer (.error (.runtimeError "conversion failed"))
  | rejected (filled : HEADER) : HeaderReadable buffer → ¬ HeaderMalformed buffer →
      ¬ HeaderAccepted buffer → HeaderReading buffer (.ok (false, filled))
  | accepted : HeaderAccepted buffer → HeaderReading buffer (.ok (true, headerAt buffer))

theorem deserialize_reading (header : HEADER) (buffer : Bytes) :
    HeaderReading buffer (deserialize header buffer) := by
  rw [deserialize_eq]
  by_cases ht : Between HEADERTYPE (byteAt buffer 0)
  swap
  · rw [if_pos ht]
    exact .rejected _ (fun h => absurd h ht) (fun h => ht h.1) fun h => ht h.headerType
  rw [if_neg (not_not_intro ht)]
  cases hd1 : digitAt buffer 1 with
  | false => exact .malformed (fun _ h => Bool.noConfusion (hd1.symm.trans h)) ⟨ht, .inl hd1⟩
  | true =>
  rw [if_neg Bool.noConfusion]
  by_cases hl1 : buffer.length < 11
  · rw [if_pos hl1]
    exact .unreadable fun h => absurd (h ht hd1).1 (Nat.not_le.mpr hl1)
  rw [if_neg hl1]
  cases hd11 : digitAt buffer 11 with
  | false =>
      exact .malformed (fun _ _ => ⟨Nat.not_lt.mp hl1, fun h => Bool.noConfusion (hd11.symm.trans h)⟩)
        ⟨ht, .inr (.inl hd11)⟩
  | true =>
  rw [if_neg Bool.noConfusion]
  by_cases hl11 : buffer.length < 21
  · rw [if_pos hl11]
    exact .unreadable fun h => absurd ((h ht hd1).2 hd11) (Nat.not_le.mpr hl11)
  rw [if_neg hl11]
  -- from here on nothing is read past the end, and what is malformed is the last size
  have hreadable : HeaderReadable buffer := headerReadable_of_length (Nat.not_lt.mp hl11)
  have hlast : HeaderMalformed buffer → Between COMPRESSORS (byteAt buffer 21) ∧
      Between DIAGNOSTICS (byteAt buffer 22) ∧ Between STATUS (byteAt buffer 23) ∧
        digitAt buffer 24 = false := by
    rintro ⟨-, h1 | h11 | h⟩
    · exact Bool.noConfusion (hd1.symm.trans h1)
    · exact Bool.noConfusion (hd11.symm.trans h11)
    · exact h
  by_cases hc : Between COMPRESSORS (byteAt buffer 21)
  swap
  · rw [if_pos hc]
    exact .rejected _ hreadable (fun h => hc (hlast h).1) fun h => hc h.compressor
  rw [if_neg (not_not_intro hc)]
  by_cases hd : Between DIAGNOSTICS (byteAt buffer 22)
  swap
  · rw [if_pos hd]
    exact .rejected _ hreadable (fun h => hd (hlast h).2.1) fun h => hd h.diagnostics
  rw [if_neg (not_not_intro hd)]
  by_cases hs : Between STATUS (byteAt buffer 23)
  swap
  · rw [if_pos hs]
    exact .rejected _ hreadable (fun h => hs (hlast h).2.2.1) fun h => hs h.status
  rw [if_neg (not_not_intro hs)]
  cases hd24 : digitAt buffer 24 with
  | false => exact .malformed hreadable ⟨ht, .inr (.inr ⟨hc, hd, hs, hd24⟩)⟩
  | true => exact .accepted ⟨ht, hd1, hd11, hc, hd, hs, hd24⟩

/-- `deserialize` reads past the end exactly on the strings that are not
readable. -/
theorem deserialize_outOfBounds_iff (header : HEADER) (buffer : Bytes) :
    deserialize header buffer = .error .outOfBounds ↔ ¬ HeaderReadable buffer := by
  have hreading := deserialize_reading header buffer
  generalize deserialize header buffer = result at hreading
  cases hreading with
  | unreadable h => exact ⟨fun _ => h, fun _ => rfl⟩
  | malformed hreadable => exact ⟨(nomatch ·), fun h => absurd hreadable h⟩
  | rejected _ hreadable => exact ⟨(nomatch ·), fun h => absurd hreadable h⟩
  | accepted h => exact ⟨(nomatch ·), fun hnot => absurd h.readable hnot⟩

/-- Inside the string, a conversion fails exactly on the malformed headers. -/
theorem deserialize_conversionFailed_iff (header : HEADER) (buffer : Bytes) :
    deserialize header buffer = .error (.runtimeError "conversion failed") ↔
      HeaderReadable buffer ∧ HeaderMalformed buffer := by
  have hreading := deserialize_reading header buffer
  generalize deserialize header buffer = result at hreading
  cases hreading with
  | unreadable hnot => exact ⟨(nomatch ·), fun h => absurd h.1 hnot⟩
  | malformed hreadable hmalformed => exact ⟨fun _ => ⟨hreadable, hmalformed⟩, fun _ => rfl⟩
  | rejected _ _ hnot => exact ⟨(nomatch ·), fun h => absurd h.2 hnot⟩
  | accepted haccepted =>
      exact ⟨(nomatch ·), fun h => absurd h.2 haccepted.not_malformed⟩

/-- `deserialize` never fails but by an exception of a conversion or by reading
past the end. -/
theorem deserialize_error (header : HEADER) (buffer : Bytes) {fault : Fault}
    (h : deserialize header buffer = .error fault) :
    fault = .outOfBounds ∨ fault = .runtimeError "conversion failed" := by
  have hreading := deserialize_reading header buffer
  rw [h] at hreading
  cases hreading with
  | unreadable => exact .inl rfl
  | malformed => exact .inr rfl

/-- `deserialize` returns true exactly on the accepted strings, with the header
that stands there. -/
theorem deserialize_true_iff (header filled : HEADER) (buffer : Bytes) :
    deserialize header buffer = .ok (true, filled) ↔
      HeaderAccepted buffer ∧ filled = headerAt buffer := by
  have hreading := deserialize_reading header buffer
  generalize deserialize header buffer = result at hreading
  cases hreading with
  | unreadable hnot => exact ⟨(nomatch ·), fun h => absurd h.1.readable hnot⟩
  | malformed _ hmalformed =>
      exact ⟨(nomatch ·), fun h => absurd hmalformed h.1.not_malformed⟩
  | rejected _ _ _ hnot => exact ⟨(nomatch ·), fun h => absurd h.1 hnot⟩
  | accepted haccepted =>
      constructor
      · intro heq
        exact ⟨haccepted, (Prod.mk.inj (Except.ok.inj heq)).2.symm⟩
      · rintro ⟨-, rfl⟩
        rfl

/-- The return value of `deserialize`, where it returns. -/
theorem deserialize_ok {header filled : HEADER} {buffer : Bytes} {accepted : Bool}
    (h : deserialize header buffer = .ok (accepted, filled)) :
    accepted = true ↔ HeaderAccepted buffer := by
  constructor
  · rintro rfl
    exact ((deserialize_true_iff header filled buffer).mp h).1
  · intro haccepted
    have htrue := (deserialize_true_iff header _ buffer).mpr ⟨haccepted, rfl⟩
    rw [h] at htrue
    exact (Prod.mk.inj (Except.ok.inj htrue)).1

/-- A string that carries a serialized header is accepted. -/
theorem headerAccepted_serialize {header : HEADER} (hvalid : header.Valid)
    (hfit : header.SizesFit) (rest : Bytes) : HeaderAccepted (serialize header ++ rest) :=
  ((deserialize_true_iff default _ _).mp (deserialize_serialize hvalid hfit default rest)).1

end ClientServer
