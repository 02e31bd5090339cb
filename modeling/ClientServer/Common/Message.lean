import ClientServer.Common.HeaderCodec
import ClientServer.Library.Text

/-!
# Messages

A message is a header, up to four payloads whose sizes the header carries, and
the terminator `ENDOFMESSAGE`.  `sendMessage` is what `Tcp::sendMessage` and
`Fifo::sendMessage` put on the wire, `processMessage` is what every receiver
runs on the bytes before the terminator.

The receiver assigns an output string only where its size is not zero, and
takes the size of the fourth from the header as `deserialize` left it.
`processMessage_sendMessage` says what comes out in every case.
-/

namespace ClientServer

def ENDOFMESSAGE : Bytes := bytes "f65438b3bf504ace8483e6642a84d2fd"
def ENDOFMESSAGESZ := ENDOFMESSAGE.length

theorem ENDOFMESSAGE_unbordered : Text.Unbordered ENDOFMESSAGE := by decide +kernel

/-! ## Sending -/

/-- The buffers of one send, in the order in which they are written. -/
def sendBuffers (header : HEADER) (payload1 payload2 payload3 payload4 : Bytes) : List Bytes :=
  [serialize header, payload1, payload2, payload3, payload4, ENDOFMESSAGE]

/-- The bytes a send that meets no error puts on the wire. -/
def sendMessage (header : HEADER) (payload1 payload2 payload3 payload4 : Bytes) : Bytes :=
  (sendBuffers header payload1 payload2 payload3 payload4).flatten

/-! ## Receiving -/

/-- The part of a received string before its terminator. -/
def stripEndOfMessage (payload : Bytes) : Bytes :=
  payload.take (payload.length - ENDOFMESSAGESZ)

/-- `view.substr(pos, n)`: clamped at the end, but not defined past it. -/
def substr (view : Bytes) (pos n : Nat) : Call Bytes :=
  if view.length < pos then .error .outOfRange else .ok ((view.drop pos).take n)

/-- The array `sizes` of `processMessage`. -/
def fieldSizes (header : HEADER) : List Nat :=
  [header.field1Size, header.field2Size, header.field3Size, header.field4Size]

/-- The loop of `processMessage`, over the sizes and the output strings left. -/
def assignFields (payload : Bytes) : (shift : Nat) → List Nat → List Bytes → Call (List Bytes)
  | _, _, [] => .ok []
  | _, [], _ :: _ => .error .outOfBounds
  | shift, size :: sizes, target :: array =>
      if 0 < size then do
        let field ← substr payload shift size
        let array ← assignFields payload (shift + size) sizes array
        return field :: array
      else do
        let array ← assignFields payload shift sizes array
        return target :: array

/-- The result is the return value, the header and the output strings, which
stay as they were where it is false. -/
def processMessage (payload : Bytes) (header : HEADER) (array : List Bytes) :
    Call (Bool × HEADER × List Bytes) := do
  if payload.length < HEADER_SIZE then
    return (false, header, array)
  let (ok, header) ← deserialize header payload
  if !ok then
    return (false, header, array)
  let payload := payload.drop HEADER_SIZE
  let array ← assignFields payload 0 (fieldSizes header) array
  return (true, header, array)

/-! ## What a receiver reads off a sent message -/

theorem stripEndOfMessage_append (message : Bytes) :
    stripEndOfMessage (message ++ ENDOFMESSAGE) = message := by
  simp [stripEndOfMessage, ENDOFMESSAGESZ]

theorem stripEndOfMessage_sendMessage (header : HEADER) (f1 f2 f3 f4 : Bytes) :
    stripEndOfMessage (sendMessage header f1 f2 f3 f4) =
      serialize header ++ (f1 ++ (f2 ++ (f3 ++ f4))) := by
  have h : sendMessage header f1 f2 f3 f4 =
      (serialize header ++ (f1 ++ (f2 ++ (f3 ++ f4)))) ++ ENDOFMESSAGE := by
    simp [sendMessage, sendBuffers]
  rw [h, stripEndOfMessage_append]

theorem substr_of_drop {view rest : Bytes} {pos : Nat} (h : view.drop pos = rest)
    (hpos : pos ≤ view.length) (n : Nat) : substr view pos n = .ok (rest.take n) := by
  rw [substr, if_neg (Nat.not_lt.mpr hpos), h]

/-- A field that stands at the shift with the size the header gives is read
back, except that an empty one leaves its output string alone. -/
theorem assignFields_cons {payload field rest target : Bytes} {shift : Nat} {sizes : List Nat}
    {array : List Bytes} (h : payload.drop shift = field ++ rest) (hshift : shift ≤ payload.length) :
    assignFields payload shift (field.length :: sizes) (target :: array) =
      (assignFields payload (shift + field.length) sizes array).map
        ((if field = [] then target else field) :: ·) := by
  cases field with
  | nil =>
      simp only [assignFields, List.length_nil, Nat.lt_irrefl, if_false, Nat.add_zero, if_true]
      cases assignFields payload shift sizes array <;> rfl
  | cons c field =>
      simp only [assignFields, List.length_cons, Nat.zero_lt_succ, if_true, reduceCtorEq, if_false,
        substr_of_drop h hshift, Outcome.ok_bind]
      rw [← List.length_cons (a := c), List.take_left]
      cases assignFields payload (shift + (c :: field).length) sizes array <;> rfl

theorem assignFields_last {payload rest target : Bytes} {shift size : Nat}
    (h : payload.drop shift = rest) (hshift : shift ≤ payload.length) :
    assignFields payload shift [size] [target] =
      .ok [if size = 0 then target else rest.take size] := by
  cases size with
  | zero => simp [assignFields]
  | succ size => simp [assignFields, substr_of_drop h hshift]

/-- The outputs a receiver ends up with: the third size stands in for the
fourth, and an output whose size is zero is not touched. -/
def receivedFields (f1 f2 f3 f4 t1 t2 t3 t4 : Bytes) : List Bytes :=
  [if f1 = [] then t1 else f1, if f2 = [] then t2 else f2, if f3 = [] then t3 else f3,
    if f3 = [] then t4 else f4.take f3.length]

/-- The four size fields of a header are the lengths of four payloads. -/
structure HEADER.Describes (header : HEADER) (f1 f2 f3 f4 : Bytes) : Prop where
  field1Size : header.field1Size = f1.length
  field2Size : header.field2Size = f2.length
  field3Size : header.field3Size = f3.length
  field4Size : header.field4Size = f4.length

theorem assignFields_body (f1 f2 f3 f4 t1 t2 t3 t4 : Bytes) :
    assignFields (f1 ++ (f2 ++ (f3 ++ f4))) 0 [f1.length, f2.length, f3.length, f3.length]
      [t1, t2, t3, t4] = .ok (receivedFields f1 f2 f3 f4 t1 t2 t3 t4) := by
  generalize hbody : f1 ++ (f2 ++ (f3 ++ f4)) = body
  have hlength : f1.length + f2.length + f3.length ≤ body.length := by
    subst hbody
    simp only [List.length_append]
    omega
  have d0 : body.drop 0 = f1 ++ (f2 ++ (f3 ++ f4)) := by simp [hbody]
  have d1 := drop_add_of_drop d0
  have d2 := drop_add_of_drop d1
  have d3 := drop_add_of_drop d2
  simp only [Nat.zero_add] at d1 d2 d3
  rw [assignFields_cons d0 (by omega), Nat.zero_add, assignFields_cons d1 (by omega),
    assignFields_cons d2 (by omega), assignFields_last d3 (by omega)]
  simp [Except.map, receivedFields]

/-- A receiver of a sent message. -/
theorem processMessage_sendMessage {header : HEADER} {f1 f2 f3 f4 : Bytes}
    (hvalid : header.Valid) (hfit : header.SizesFit) (hsizes : header.Describes f1 f2 f3 f4)
    (target : HEADER) (t1 t2 t3 t4 : Bytes) :
    processMessage (stripEndOfMessage (sendMessage header f1 f2 f3 f4)) target [t1, t2, t3, t4] =
      .ok (true, { header with field4Size := header.field3Size },
        receivedFields f1 f2 f3 f4 t1 t2 t3 t4) := by
  obtain ⟨h1, h2, h3, h4⟩ := hsizes
  have hlength : ¬ (serialize header ++ (f1 ++ (f2 ++ (f3 ++ f4)))).length < HEADER_SIZE := by
    rw [List.length_append, length_serialize]
    omega
  have hdrop : (serialize header ++ (f1 ++ (f2 ++ (f3 ++ f4)))).drop HEADER_SIZE =
      f1 ++ (f2 ++ (f3 ++ f4)) := by
    rw [← length_serialize header, List.drop_left]
  rw [stripEndOfMessage_sendMessage, processMessage, if_neg hlength,
    deserialize_serialize hvalid hfit, Outcome.ok_bind, hdrop]
  simp only [Bool.not_true, Bool.false_eq_true, if_false, fieldSizes, h1, h2, h3,
    assignFields_body, Outcome.ok_bind, Outcome.pure_eq_ok]

/-- A header with an enumeration that is not valid is refused. -/
theorem processMessage_sendMessage_of_not_valid {header : HEADER} (hinvalid : ¬ header.Valid)
    (hfit : header.SizesFit) (f1 f2 f3 f4 : Bytes) (target : HEADER) (array : List Bytes) :
    ∃ partly, processMessage (stripEndOfMessage (sendMessage header f1 f2 f3 f4)) target array =
      .ok (false, partly, array) := by
  obtain ⟨partly, hread⟩ := deserialize_serialize_of_not_valid hinvalid hfit target
    (f1 ++ (f2 ++ (f3 ++ f4)))
  have hlength : ¬ (serialize header ++ (f1 ++ (f2 ++ (f3 ++ f4)))).length < HEADER_SIZE := by
    rw [List.length_append, length_serialize]
    omega
  refine ⟨partly, ?_⟩
  rw [stripEndOfMessage_sendMessage, processMessage, if_neg hlength, hread, Outcome.ok_bind]
  simp

/-- Four payloads reach the outputs of a receiver exactly when the header is
one the codec knows, an empty payload meets an output that was empty already,
and the fourth payload is no longer than the third, whose size it is cut to. -/
theorem message_roundTrip_iff (header target : HEADER) (f1 f2 f3 f4 t1 t2 t3 t4 : Bytes)
    (hfit : header.SizesFit) (hsizes : header.Describes f1 f2 f3 f4) :
    (∃ received, processMessage (stripEndOfMessage (sendMessage header f1 f2 f3 f4)) target
      [t1, t2, t3, t4] = .ok (true, received, [f1, f2, f3, f4])) ↔
    header.Valid ∧ (f1 = [] → t1 = []) ∧ (f2 = [] → t2 = []) ∧
      (if f3 = [] then t3 = [] ∧ t4 = f4 else f4.length ≤ f3.length) := by
  by_cases hvalid : header.Valid
  · rw [processMessage_sendMessage hvalid hfit hsizes]
    simp only [Except.ok.injEq, Prod.mk.injEq, true_and, exists_eq_left', receivedFields,
      List.cons.injEq, and_true, hvalid]
    have hkeep : ∀ f t : Bytes, (if f = [] then t else f) = f ↔ (f = [] → t = []) := by
      intro f t
      split
      · next h => simp [h]
      · next h => simp [h]
    rw [hkeep f1 t1, hkeep f2 t2]
    refine and_congr_right fun _ => and_congr_right fun _ => ?_
    by_cases h3 : f3 = []
    · simp [h3]
    · simp [h3]
  · obtain ⟨partly, h⟩ :=
      processMessage_sendMessage_of_not_valid hvalid hfit f1 f2 f3 f4 target [t1, t2, t3, t4]
    simp [h, hvalid]

/-- A header of four sizes with nothing else to say. -/
def sizesHeader (field1Size field2Size field3Size field4Size : Nat) : HEADER :=
  { headerType := .SESSION, field1Size, field2Size, compressor := .NONE, diagnostics := .NONE,
    status := .NONE, field3Size, field4Size }

theorem message_roundTrip_sample :
    (∃ received, processMessage
      (stripEndOfMessage (sendMessage (sizesHeader 1 0 3 2) [7] [] [1, 2, 3] [4, 5])) default
      [[], [], [9], []] = .ok (true, received, [[7], [], [1, 2, 3], [4, 5]])) ↔
    (sizesHeader 1 0 3 2).Valid ∧ (([7] : Bytes) = [] → ([] : Bytes) = []) ∧
      (([] : Bytes) = [] → ([] : Bytes) = []) ∧
      (if ([1, 2, 3] : Bytes) = [] then ([9] : Bytes) = [] ∧ ([] : Bytes) = [4, 5]
        else ([4, 5] : Bytes).length ≤ ([1, 2, 3] : Bytes).length) :=
  message_roundTrip_iff (sizesHeader 1 0 3 2) default [7] [] [1, 2, 3] [4, 5] [] [] [9] []
    (by decide) ⟨rfl, rfl, rfl, rfl⟩

/-- A fourth payload longer than the third is cut, even into empty outputs. -/
theorem message_roundTrip_fails :
    (sizesHeader 1 1 1 2).Valid ∧ (sizesHeader 1 1 1 2).SizesFit ∧
    (sizesHeader 1 1 1 2).Describes [1] [2] [3] [4, 5] ∧
    processMessage (stripEndOfMessage (sendMessage (sizesHeader 1 1 1 2) [1] [2] [3] [4, 5]))
      default [[], [], [], []] = .ok (true, sizesHeader 1 1 1 1, [[1], [2], [3], [4]]) ∧
    ¬ ∃ received, processMessage
      (stripEndOfMessage (sendMessage (sizesHeader 1 1 1 2) [1] [2] [3] [4, 5]))
      default [[], [], [], []] = .ok (true, received, [[1], [2], [3], [4, 5]]) := by
  have hcut : processMessage
      (stripEndOfMessage (sendMessage (sizesHeader 1 1 1 2) [1] [2] [3] [4, 5]))
      default [[], [], [], []] = .ok (true, sizesHeader 1 1 1 1, [[1], [2], [3], [4]]) := by
    decide +kernel
  refine ⟨by decide, by decide, ⟨rfl, rfl, rfl, rfl⟩, hcut, ?_⟩
  rw [hcut]
  simp

end ClientServer
