import ClientServer.Common.HeaderBounds
import ClientServer.Common.Message

/-!
# Receiving any message

What `processMessage` does on every string.  The bytes behind the header are
not counted before they are cut: a field that runs over the end is clamped, and
only one that begins past it is an exception.
-/

namespace ClientServer

/-- No field that is read begins past the end. -/
def FieldsReachable (length : Nat) : (shift : Nat) → List Nat → Prop
  | _, [] => True
  | shift, size :: sizes =>
      (0 < size → shift ≤ length) ∧ FieldsReachable length (shift + size) sizes

/-- The consecutive pieces of the given sizes; an empty one leaves its target. -/
def slices (payload : Bytes) : (shift : Nat) → List Nat → List Bytes → List Bytes
  | _, _, [] => []
  | _, [], _ :: _ => []
  | shift, size :: sizes, target :: array =>
      (if 0 < size then (payload.drop shift).take size else target) ::
        slices payload (shift + size) sizes array

instance decidableFieldsReachable (length : Nat) :
    (shift : Nat) → (sizes : List Nat) → Decidable (FieldsReachable length shift sizes)
  | _, [] => inferInstanceAs (Decidable True)
  | shift, size :: sizes =>
      have := decidableFieldsReachable length (shift + size) sizes
      inferInstanceAs (Decidable (_ ∧ _))

theorem substr_eq (view : Bytes) (pos n : Nat) :
    substr view pos n =
      if pos ≤ view.length then .ok ((view.drop pos).take n) else .error .outOfRange := by
  rw [substr]
  split
  · next h => rw [if_neg (Nat.not_le.mpr h)]
  · next h => rw [if_pos (Nat.not_lt.mp h)]

/-- The loop cuts its pieces or meets a field out of range. -/
theorem assignFields_eq (payload : Bytes) (shift : Nat) {sizes : List Nat} {array : List Bytes}
    (h : array.length ≤ sizes.length) :
    assignFields payload shift sizes array =
      if FieldsReachable payload.length shift (sizes.take array.length) then
        .ok (slices payload shift sizes array)
      else .error .outOfRange := by
  induction array generalizing shift sizes with
  | nil => cases sizes <;> simp [assignFields, slices, FieldsReachable]
  | cons target array ih =>
      cases sizes with
      | nil => exact absurd h (Nat.not_succ_le_zero _)
      | cons size sizes =>
          have hrest := ih (shift + size) (Nat.le_of_succ_le_succ h)
          rw [List.length_cons, List.take_succ_cons]
          cases size with
          | zero =>
              simp only [Nat.add_zero] at hrest
              simp only [assignFields, Nat.lt_irrefl, if_false, hrest, FieldsReachable,
                false_implies, true_and, Nat.add_zero, slices]
              split <;> rfl
          | succ size =>
              simp only [assignFields, Nat.zero_lt_succ, if_true, hrest, substr_eq,
                FieldsReachable, true_implies, slices]
              by_cases hshift : shift ≤ payload.length
              · simp only [hshift, if_true, Outcome.ok_bind, true_and]
                split <;> rfl
              · simp only [hshift, if_false, Outcome.error_bind, false_and]

/-- The fields the header of a message announces all begin inside of it. -/
def FieldsIn (payload : Bytes) (count : Nat) : Prop :=
  FieldsReachable (payload.drop HEADER_SIZE).length 0 ((fieldSizes (headerAt payload)).take count)

instance (payload : Bytes) (count : Nat) : Decidable (FieldsIn payload count) :=
  decidableFieldsReachable _ _ _

/-- The fields of a message, into the output strings. -/
def fieldsAt (payload : Bytes) (array : List Bytes) : List Bytes :=
  slices (payload.drop HEADER_SIZE) 0 (fieldSizes (headerAt payload)) array

theorem assignFields_message {payload : Bytes} {array : List Bytes} (h : array.length ≤ 4) :
    assignFields (payload.drop HEADER_SIZE) 0 (fieldSizes (headerAt payload)) array =
      if FieldsIn payload array.length then .ok (fieldsAt payload array)
      else .error .outOfRange :=
  assignFields_eq _ _ h

/-- What `processMessage` does on every string. -/
theorem processMessage_eq (payload : Bytes) (header : HEADER) {array : List Bytes}
    (h : array.length ≤ 4) :
    processMessage payload header array =
      if payload.length < HEADER_SIZE then .ok (false, header, array)
      else deserialize header payload >>= fun result =>
        if result.1 then
          if FieldsIn payload array.length then .ok (true, result.2, fieldsAt payload array)
          else .error .outOfRange
        else .ok (false, result.2, array) := by
  unfold processMessage
  split
  · rfl
  cases hread : deserialize header payload with
  | error fault => rfl
  | ok result =>
      obtain ⟨accepted, filled⟩ := result
      cases accepted with
      | false => rfl
      | true =>
          obtain ⟨-, rfl⟩ := (deserialize_true_iff header filled payload).mp hread
          simp only [Outcome.ok_bind, Bool.not_true, Bool.false_eq_true, if_false, if_true,
            assignFields_message h]
          split <;> rfl

/-- The messages a receiver accepts, with what comes out. -/
theorem processMessage_true_iff {payload : Bytes} {header filled : HEADER}
    {array fields : List Bytes} (h : array.length ≤ 4) :
    processMessage payload header array = .ok (true, filled, fields) ↔
      HEADER_SIZE ≤ payload.length ∧ HeaderAccepted payload ∧ FieldsIn payload array.length ∧
        filled = headerAt payload ∧ fields = fieldsAt payload array := by
  rw [processMessage_eq payload header h]
  by_cases hlength : payload.length < HEADER_SIZE
  · simp [hlength, Nat.not_le.mpr hlength]
  simp only [hlength, if_false, Nat.not_lt.mp hlength, true_and]
  constructor
  · intro hok
    obtain ⟨⟨accepted, read⟩, hread, hrest⟩ := Outcome.bind_eq_ok.mp hok
    cases accepted with
    | false => simp at hrest
    | true =>
        obtain ⟨haccepted, rfl⟩ := (deserialize_true_iff header read payload).mp hread
        simp only [if_true] at hrest
        split at hrest
        · next hfields =>
            simp only [Except.ok.injEq, Prod.mk.injEq, true_and] at hrest
            exact ⟨haccepted, hfields, hrest.1.symm, hrest.2.symm⟩
        · exact absurd hrest (by simp)
  · rintro ⟨haccepted, hfields, rfl, rfl⟩
    rw [(deserialize_true_iff header _ payload).mpr ⟨haccepted, rfl⟩, Outcome.ok_bind]
    simp [hfields]

/-- The messages a receiver throws on. -/
theorem processMessage_throws_iff {payload : Bytes} {header : HEADER} {array : List Bytes}
    (h : array.length ≤ 4) :
    (∃ fault, processMessage payload header array = .error fault) ↔
      HEADER_SIZE ≤ payload.length ∧
        (HeaderMalformed payload ∨ HeaderAccepted payload ∧ ¬ FieldsIn payload array.length) := by
  rw [processMessage_eq payload header h]
  by_cases hlength : payload.length < HEADER_SIZE
  · simp [hlength, Nat.not_le.mpr hlength]
  simp only [hlength, if_false, Nat.not_lt.mp hlength, true_and]
  have hreadable : HeaderReadable payload :=
    headerReadable_of_length (by rw [HEADER_SIZE_eq] at hlength; omega)
  have hreading := deserialize_reading header payload
  generalize deserialize header payload = result at hreading
  cases hreading with
  | unreadable hnot => exact absurd hreadable hnot
  | malformed _ hmalformed => simp [hmalformed]
  | rejected _ _ hwell hrefused => simp [hwell, hrefused]
  | accepted haccepted =>
      have hwell := haccepted.not_malformed
      by_cases hfields : FieldsIn payload array.length
      · simp [hwell, hfields]
      · simp [haccepted, hfields]

end ClientServer
