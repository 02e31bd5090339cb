import ClientServer.Common.MessageBounds

/-!
# The sizes of a message

A message is well-sized for a number of outputs if the bytes behind its header
are as many as the sizes of so many fields announce, and the other sizes are
zero.  `processMessage` never adds the sizes up.  It cuts the fields with
`substr`, which clamps, so a message that is too short or too long is accepted
too, and it throws on a header whose sizes do not convert and on a field that
begins past the end.  `processMessage_exact_iff` says on which messages it
accepts exactly the well-sized ones.
-/

namespace ClientServer

/-- The four sizes in the text of a header. -/
def announcedSizes (payload : Bytes) : List Nat :=
  [sizeAt payload 1, sizeAt payload 11, sizeAt payload 24, sizeAt payload 34]

/-- Slices of the given sizes, one behind the other. -/
def consecutive : Bytes → List Nat → List Bytes
  | _, [] => []
  | view, size :: sizes => view.take size :: consecutive (view.drop size) sizes

structure WellSized (payload : Bytes) (count : Nat) : Prop where
  whole : HEADER_SIZE ≤ payload.length
  accepted : HeaderAccepted payload
  field4Size : digitAt payload 34 = true
  total : (payload.drop HEADER_SIZE).length = ((announcedSizes payload).take count).sum
  others : ∀ size ∈ (announcedSizes payload).drop count, size = 0

/-- A well-sized message is accepted with its slices, any other one refused
without a trace in the outputs. -/
structure AcceptsExactly (payload : Bytes) (header : HEADER) (array : List Bytes) : Prop where
  accepts : WellSized payload array.length →
    ∃ filled, processMessage payload header array =
      .ok (true, filled, consecutive (payload.drop HEADER_SIZE)
        ((announcedSizes payload).take array.length))
  refuses : ¬ WellSized payload array.length →
    ∃ filled, processMessage payload header array = .ok (false, filled, array)

/-- The first three outputs are empty where nothing is assigned to them, and the
third size, which stands in for the fourth, covers the fourth field. -/
structure OutputsFit (payload : Bytes) (array : List Bytes) : Prop where
  untouched : ∀ pair ∈ ((announcedSizes payload).take 3).zip array, pair.1 = 0 → pair.2 = []
  fourth : ∀ target ∈ array[3]?,
    if sizeAt payload 24 = 0 then
      target = (payload.drop HEADER_SIZE).drop (sizeAt payload 1 + sizeAt payload 11)
    else sizeAt payload 34 ≤ sizeAt payload 24

/-! ## The slices of a well-sized message -/

theorem slices_cons_eq_iff {payload target : Bytes} {shift size : Nat} {sizes announced : List Nat}
    {array : List Bytes} :
    slices payload shift (size :: sizes) (target :: array) =
        consecutive (payload.drop shift) (size :: announced) ↔
      (size = 0 → target = []) ∧
        slices payload (shift + size) sizes array =
          consecutive (payload.drop (shift + size)) announced := by
  rw [slices, consecutive, List.cons.injEq, List.drop_drop]
  refine and_congr_left fun _ => ?_
  cases size with
  | zero => simp
  | succ size => simp

theorem slices_nil_eq {payload : Bytes} {shift : Nat} {sizes : List Nat} :
    slices payload shift sizes [] = consecutive (payload.drop shift) [] := by
  cases sizes <;> rfl

/-- In a well-sized message no field begins past the end. -/
theorem WellSized.fieldsIn {payload : Bytes} {count : Nat} (hcount : count ≤ 4)
    (h : WellSized payload count) : FieldsIn payload count := by
  have htotal := h.total
  unfold FieldsIn
  generalize (payload.drop HEADER_SIZE).length = length at htotal ⊢
  subst htotal
  show FieldsReachable _ 0 ([sizeAt payload 1, sizeAt payload 11, sizeAt payload 24,
    sizeAt payload 24].take count)
  simp only [announcedSizes]
  interval_cases count <;> (simp [FieldsReachable]; try omega)

/-- The fourth field is what is left of the message, cut to the third size. -/
theorem slices_fourth_eq_iff {payload target : Bytes} {shift field3Size field4Size : Nat}
    (hrest : (payload.drop shift).length = field4Size) :
    slices payload shift [field3Size] [target] =
        consecutive (payload.drop shift) [field4Size] ↔
      if field3Size = 0 then target = payload.drop shift else field4Size ≤ field3Size := by
  simp only [slices, consecutive, List.cons.injEq, and_true]
  rw [← hrest, List.take_length]
  cases field3Size with
  | zero => simp
  | succ size => simp [List.take_eq_self_iff]

/-- What the loop assigns is the slices of a well-sized message exactly if the
outputs fit. -/
theorem fieldsAt_eq_iff {payload : Bytes} {array : List Bytes} (hcount : array.length ≤ 4)
    (h : WellSized payload array.length) :
    fieldsAt payload array = consecutive (payload.drop HEADER_SIZE)
      ((announcedSizes payload).take array.length) ↔ OutputsFit payload array := by
  have htotal := h.total
  have hfit : OutputsFit payload array ↔
      (∀ pair ∈ ((announcedSizes payload).take 3).zip array, pair.1 = 0 → pair.2 = []) ∧
      ∀ target ∈ array[3]?, if sizeAt payload 24 = 0 then
          target = (payload.drop HEADER_SIZE).drop (sizeAt payload 1 + sizeAt payload 11)
        else sizeAt payload 34 ≤ sizeAt payload 24 :=
    ⟨fun h => ⟨h.untouched, h.fourth⟩, fun h => ⟨h.1, h.2⟩⟩
  rw [hfit, fieldsAt]
  generalize payload.drop HEADER_SIZE = body at htotal ⊢
  match array with
  | [] => simp [slices, consecutive]
  | [t1] =>
      show slices body 0 _ [t1] = consecutive (body.drop 0) [sizeAt payload 1] ↔ _
      rw [show fieldSizes (headerAt payload) = sizeAt payload 1 :: _ from rfl, slices_cons_eq_iff]
      simp [slices_nil_eq, announcedSizes]
  | [t1, t2] =>
      show slices body 0 _ [t1, t2] =
        consecutive (body.drop 0) [sizeAt payload 1, sizeAt payload 11] ↔ _
      rw [show fieldSizes (headerAt payload) = sizeAt payload 1 :: sizeAt payload 11 :: _ from rfl,
        slices_cons_eq_iff, slices_cons_eq_iff]
      simp [slices_nil_eq, announcedSizes]
  | [t1, t2, t3] =>
      show slices body 0 _ [t1, t2, t3] = consecutive (body.drop 0)
        [sizeAt payload 1, sizeAt payload 11, sizeAt payload 24] ↔ _
      rw [show fieldSizes (headerAt payload) =
          sizeAt payload 1 :: sizeAt payload 11 :: sizeAt payload 24 :: _ from rfl,
        slices_cons_eq_iff, slices_cons_eq_iff, slices_cons_eq_iff]
      simp [slices_nil_eq, announcedSizes]
  | [t1, t2, t3, t4] =>
      have hrest : (body.drop (0 + sizeAt payload 1 + sizeAt payload 11 +
          sizeAt payload 24)).length = sizeAt payload 34 := by
        rw [List.length_drop, htotal]
        simp [announcedSizes]
        omega
      show slices body 0 [sizeAt payload 1, sizeAt payload 11, sizeAt payload 24,
          sizeAt payload 24] [t1, t2, t3, t4] = consecutive (body.drop 0)
        [sizeAt payload 1, sizeAt payload 11, sizeAt payload 24, sizeAt payload 34] ↔ _
      rw [slices_cons_eq_iff, slices_cons_eq_iff, slices_cons_eq_iff, slices_fourth_eq_iff hrest]
      by_cases hzero : sizeAt payload 24 = 0
      · simp [announcedSizes, hzero, and_assoc]
      · simp [announcedSizes, hzero, and_assoc]

/-- `processMessage` accepts exactly the well-sized messages where the string is
shorter than a header, or the header is refused before a size in it fails to
convert, or the message is well-sized and the outputs fit. -/
theorem processMessage_exact_iff (payload : Bytes) (header : HEADER) {array : List Bytes}
    (hcount : array.length ≤ 4) :
    AcceptsExactly payload header array ↔
      payload.length < HEADER_SIZE ∨ ¬ HeaderMalformed payload ∧ ¬ HeaderAccepted payload ∨
        WellSized payload array.length ∧ OutputsFit payload array := by
  by_cases hwell : WellSized payload array.length
  · have haccepts : AcceptsExactly payload header array ↔
        fieldsAt payload array = consecutive (payload.drop HEADER_SIZE)
          ((announcedSizes payload).take array.length) := by
      have htrue : processMessage payload header array =
          .ok (true, headerAt payload, fieldsAt payload array) :=
        (processMessage_true_iff hcount).mpr
          ⟨hwell.whole, hwell.accepted, hwell.fieldsIn hcount, rfl, rfl⟩
      constructor
      · intro h
        obtain ⟨filled, hok⟩ := h.accepts hwell
        rw [htrue] at hok
        exact (Prod.ext_iff.mp (Prod.ext_iff.mp (Except.ok.inj hok)).2).2
      · intro heq
        exact ⟨fun _ => ⟨_, heq ▸ htrue⟩, fun hnot => absurd hwell hnot⟩
    rw [haccepts, fieldsAt_eq_iff hcount hwell]
    simp [hwell, hwell.accepted, Nat.not_lt.mpr hwell.whole]
  · have hrefuses : AcceptsExactly payload header array ↔
        ∃ filled, processMessage payload header array = .ok (false, filled, array) :=
      ⟨fun h => h.refuses hwell, fun h => ⟨fun hyes => absurd hyes hwell, fun _ => h⟩⟩
    rw [hrefuses, processMessage_eq payload header hcount]
    by_cases hlength : payload.length < HEADER_SIZE
    · simp [hlength]
    simp only [hlength, if_false, hwell, false_and, or_false, false_or]
    have hreadable : HeaderReadable payload :=
      headerReadable_of_length (by rw [HEADER_SIZE_eq] at hlength; omega)
    have hreading := deserialize_reading header payload
    generalize deserialize header payload = result at hreading
    cases hreading with
    | unreadable hnot => exact absurd hreadable hnot
    | malformed _ hmalformed => simp [hmalformed]
    | rejected _ _ hgood hrefused => simp [hgood, hrefused]
    | accepted haccepted =>
        simp only [haccepted, not_true, and_false, iff_false, Outcome.ok_bind, if_true]
        split <;> simp

/-- A header that announces one byte. -/
def oneByteHeader : Bytes := serialize (sizesHeader 1 0 0 0)

theorem processMessage_exact_sample :
    AcceptsExactly (oneByteHeader ++ [7]) default [[], [9], [9]] ↔
      (oneByteHeader ++ [7]).length < HEADER_SIZE ∨
        ¬ HeaderMalformed (oneByteHeader ++ [7]) ∧ ¬ HeaderAccepted (oneByteHeader ++ [7]) ∨
          WellSized (oneByteHeader ++ [7]) 3 ∧ OutputsFit (oneByteHeader ++ [7]) [[], [9], [9]] :=
  processMessage_exact_iff _ default (by decide)

/-- A message with a byte too many is accepted, and so is one with a byte too
few. -/
theorem processMessage_not_exact :
    (processMessage (oneByteHeader ++ [7, 8]) default [[]] = .ok (true, sizesHeader 1 0 0 0, [[7]]) ∧
      ¬ AcceptsExactly (oneByteHeader ++ [7, 8]) default [[]]) ∧
    (processMessage oneByteHeader default [[9]] = .ok (true, sizesHeader 1 0 0 0, [[]]) ∧
      ¬ AcceptsExactly oneByteHeader default [[9]]) := by
  refine ⟨⟨by decide +kernel, fun h => ?_⟩, ⟨by decide +kernel, fun h => ?_⟩⟩
  · have hnot : ¬ WellSized (oneByteHeader ++ [7, 8]) 1 := fun hwell =>
      absurd hwell.total (by decide +kernel)
    obtain ⟨filled, hrefused⟩ := h.refuses hnot
    exact absurd hrefused (by
      rw [show processMessage (oneByteHeader ++ [7, 8]) default [[]] =
        .ok (true, sizesHeader 1 0 0 0, [[7]]) by decide +kernel]
      simp)
  · have hnot : ¬ WellSized oneByteHeader 1 := fun hwell =>
      absurd hwell.total (by decide +kernel)
    obtain ⟨filled, hrefused⟩ := h.refuses hnot
    exact absurd hrefused (by
      rw [show processMessage oneByteHeader default [[9]] =
        .ok (true, sizesHeader 1 0 0 0, [[]]) by decide +kernel]
      simp)

end ClientServer
