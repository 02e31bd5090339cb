import ClientServer.Common.Header

/-!
# The header codec

What `deserialize` makes of the bytes of `serialize`, with anything behind
them.  All fields come back but the fourth size: the code builds a view of it
and then converts the view of the third size once more, so the fourth size
comes back as the third (`deserialize_serialize`).  A header therefore survives
the trip exactly when its last two sizes agree.

The reading side is stated over `List.drop`: what a step of `deserialize` finds
depends only on the bytes from its offset on.
-/

namespace ClientServer

open CharEnum

/-! ## Reading at an offset -/

theorem charAt_of_drop {buffer rest : Bytes} {offset : Nat} {c : UInt8}
    (h : buffer.drop offset = c :: rest) : charAt buffer offset = .ok c := by
  have hc : buffer[offset]? = some c := by
    rw [← List.head?_drop, h]
    rfl
  simp [charAt, hc]

theorem drop_add_of_drop {buffer field rest : Bytes} {offset : Nat}
    (h : buffer.drop offset = field ++ rest) : buffer.drop (offset + field.length) = rest := by
  rw [← List.drop_drop, h, List.drop_left]

theorem drop_succ_of_drop {buffer rest : Bytes} {offset : Nat} {c : UInt8}
    (h : buffer.drop offset = c :: rest) : buffer.drop (offset + 1) = rest := by
  rw [← List.drop_drop, h, List.drop_one, List.tail_cons]

/-- Over bytes that are all there, reading digits is taking the longest prefix
of digits. -/
theorem readDigits_of_drop : ∀ {field buffer rest : Bytes} {offset : Nat},
    buffer.drop offset = field ++ rest →
    readDigits buffer offset field.length = .ok (field.takeWhile Numeral.isDigit)
  | [], _, _, _, _ => rfl
  | c :: field, buffer, rest, offset, h => by
      have hc : charAt buffer offset = .ok c := charAt_of_drop h
      have hrest : buffer.drop (offset + 1) = field ++ rest := drop_succ_of_drop h
      rw [List.length_cons, readDigits, hc, Outcome.ok_bind, readDigits_of_drop hrest]
      cases hd : Numeral.isDigit c <;> simp [hd]

/-! ## Fixed-width sizes -/

theorem length_toCharsBoost_fixed (value : Nat) :
    (toCharsBoost value true).length = DEFAULT_NUMSTRING_SIZE := by
  simp [toCharsBoost, CONV_BUFFER_SIZE, DEFAULT_NUMSTRING_SIZE]
  omega

/-- A size of at most ten digits is written in full and padded with zeros. -/
theorem toCharsBoost_fixed {value : Nat} (h : value < 10 ^ DEFAULT_NUMSTRING_SIZE) :
    toCharsBoost value true = Numeral.encode value ++
      List.replicate (DEFAULT_NUMSTRING_SIZE - (Numeral.encode value).length) 0 := by
  have hlen : (Numeral.encode value).length ≤ DEFAULT_NUMSTRING_SIZE :=
    (Numeral.length_encode_le_iff (by decide)).mpr h
  simp only [toCharsBoost, if_true]
  rw [List.take_append, List.take_of_length_le hlen, List.take_replicate]
  congr 2
  simp only [CONV_BUFFER_SIZE, DEFAULT_NUMSTRING_SIZE] at hlen ⊢
  omega

/-- Without a fixed width the numeral is written as it is. -/
theorem toCharsBoost_variable (value : Nat) : toCharsBoost value false = Numeral.encode value := by
  simp [toCharsBoost]

theorem takeWhile_toCharsBoost {value : Nat} (h : value < 10 ^ DEFAULT_NUMSTRING_SIZE) :
    (toCharsBoost value true).takeWhile Numeral.isDigit = Numeral.encode value := by
  rw [toCharsBoost_fixed h]
  refine Numeral.takeWhile_encode value ?_
  intro c hc
  have : c = 0 := (List.mem_replicate.mp (List.mem_of_mem_head? hc)).2
  rw [this]
  exact Numeral.isDigit_zero

theorem fromCharsBoost_encode {value max : Nat} (h : value ≤ max) :
    fromCharsBoost max (Numeral.encode value) = .ok value := by
  have hdigits : (Numeral.encode value).takeWhile Numeral.isDigit = Numeral.encode value :=
    List.takeWhile_eq_self_iff.mpr fun c hc => Numeral.isDigit_of_mem_encode hc
  simp only [fromCharsBoost, fromChars, hdigits, Numeral.encode_ne_nil, if_false,
    Numeral.value_encode, Nat.not_lt.mpr h]

theorem le_SIZE_MAX {value : Nat} (h : value < 10 ^ DEFAULT_NUMSTRING_SIZE) : value ≤ SIZE_MAX := by
  have : 10 ^ DEFAULT_NUMSTRING_SIZE ≤ SIZE_MAX := by decide
  omega

/-- A padded size is read back from any place it stands at. -/
theorem readDigits_toCharsBoost {value offset : Nat} {buffer rest : Bytes}
    (h : value < 10 ^ DEFAULT_NUMSTRING_SIZE)
    (hdrop : buffer.drop offset = toCharsBoost value true ++ rest) :
    readDigits buffer offset DEFAULT_NUMSTRING_SIZE = .ok (Numeral.encode value) := by
  have := readDigits_of_drop hdrop
  rwa [length_toCharsBoost_fixed, takeWhile_toCharsBoost h] at this

/-! ## The round trip -/

theorem length_serialize (header : HEADER) : (serialize header).length = HEADER_SIZE := by
  simp [serialize, length_toCharsBoost_fixed, HEADER_SIZE_eq, DEFAULT_NUMSTRING_SIZE]

/-- The bytes of a serialized header are all there to be read: `deserialize`
refuses the header where an enumeration is no valid one, and otherwise reads it
back with its third size in place of its fourth, whatever follows it and
whatever the target held. -/
theorem deserialize_serialize_cases {header : HEADER} (hfit : header.SizesFit)
    (target : HEADER) (rest : Bytes) :
    if header.Valid then
      deserialize target (serialize header ++ rest) =
        .ok (true, { header with field4Size := header.field3Size })
    else ∃ partly, deserialize target (serialize header ++ rest) = .ok (false, partly) := by
  obtain ⟨h1, h2, h3, h4⟩ := hfit
  generalize hbuffer : serialize header ++ rest = buffer
  have d0 : buffer.drop 0 = toUnderlying header.headerType :: (toCharsBoost header.field1Size true ++
      (toCharsBoost header.field2Size true ++ (toUnderlying header.compressor ::
      (toUnderlying header.diagnostics :: (toUnderlying header.status ::
      (toCharsBoost header.field3Size true ++ (toCharsBoost header.field4Size true ++ rest))))))) := by
    subst hbuffer
    simp [serialize]
  have d1 := drop_succ_of_drop d0
  have d11 := drop_add_of_drop d1
  rw [length_toCharsBoost_fixed] at d11
  have d21 := drop_add_of_drop d11
  rw [length_toCharsBoost_fixed] at d21
  have d22 := drop_succ_of_drop d21
  have d23 := drop_succ_of_drop d22
  have d24 := drop_succ_of_drop d23
  simp only [DEFAULT_NUMSTRING_SIZE, Nat.reduceAdd] at d1 d11 d21 d22 d23 d24
  have e1 := readDigits_toCharsBoost h1 d1
  have e2 := readDigits_toCharsBoost h2 d11
  have e3 := readDigits_toCharsBoost h3 d24
  simp only [DEFAULT_NUMSTRING_SIZE] at e1 e2 e3
  have hread := deserialize.eq_def target buffer
  simp only [HEADERTYPE_SIZE, FIELD1_SIZE, FIELD2_SIZE, COMPRESSOR_SIZE,
    DIAGNOSTICS_SIZE, STATUS_SIZE, FIELD3_SIZE, Nat.reduceAdd, charAt_of_drop d0,
    charAt_of_drop d21, charAt_of_drop d22, charAt_of_drop d23, e1, e2, e3,
    fromCharsBoost_encode (le_SIZE_MAX h1), fromCharsBoost_encode (le_SIZE_MAX h2),
    fromCharsBoost_encode (le_SIZE_MAX h3), Outcome.ok_bind, Outcome.pure_eq_ok] at hread
  split
  · next hvalid =>
      rw [hread, deserializeEnumeration_toUnderlying hvalid.headerType,
        deserializeEnumeration_toUnderlying hvalid.compressor,
        deserializeEnumeration_toUnderlying hvalid.diagnostics,
        deserializeEnumeration_toUnderlying hvalid.status]
  · next hinvalid =>
      -- the first enumeration that is not valid ends the reading
      by_cases ht : CharEnum.Valid header.headerType
      · rw [deserializeEnumeration_toUnderlying ht] at hread
        by_cases hc : CharEnum.Valid header.compressor
        · rw [deserializeEnumeration_toUnderlying hc] at hread
          by_cases hd : CharEnum.Valid header.diagnostics
          · rw [deserializeEnumeration_toUnderlying hd] at hread
            have hs : ¬ CharEnum.Valid header.status := fun hs => hinvalid ⟨ht, hc, hd, hs⟩
            rw [deserializeEnumeration_eq_none hs] at hread
            exact ⟨_, hread⟩
          · rw [deserializeEnumeration_eq_none hd] at hread
            exact ⟨_, hread⟩
        · rw [deserializeEnumeration_eq_none hc] at hread
          exact ⟨_, hread⟩
      · rw [deserializeEnumeration_eq_none ht] at hread
        exact ⟨_, hread⟩

theorem deserialize_serialize {header : HEADER} (hvalid : header.Valid) (hfit : header.SizesFit)
    (target : HEADER) (rest : Bytes) :
    deserialize target (serialize header ++ rest) =
      .ok (true, { header with field4Size := header.field3Size }) := by
  have h := deserialize_serialize_cases hfit target rest
  rwa [if_pos hvalid] at h

theorem deserialize_serialize_of_not_valid {header : HEADER} (hinvalid : ¬ header.Valid)
    (hfit : header.SizesFit) (target : HEADER) (rest : Bytes) :
    ∃ partly, deserialize target (serialize header ++ rest) = .ok (false, partly) := by
  have h := deserialize_serialize_cases hfit target rest
  rwa [if_neg hinvalid] at h

/-- The header codec is a round trip on a header exactly when its last two
sizes agree. -/
theorem header_roundTrip_iff (header target : HEADER) (hvalid : header.Valid)
    (hfit : header.SizesFit) :
    ((serialize header).length = HEADER_SIZE ∧
      deserialize target (serialize header) = .ok (true, header)) ↔
    header.field3Size = header.field4Size := by
  have hread := deserialize_serialize hvalid hfit target []
  rw [List.append_nil] at hread
  constructor
  · rintro ⟨-, h⟩
    rw [hread] at h
    have heq : { header with field4Size := header.field3Size } = header := by
      simpa using h
    exact congrArg HEADER.field4Size heq
  · intro h
    have heq : { header with field4Size := header.field3Size } = header :=
      congrArg (fun size => { header with field4Size := size }) h
    exact ⟨length_serialize header, by rw [hread, heq]⟩

/-- A request header with a third and a fourth size. -/
def sampleHeader (field3Size field4Size : Nat) : HEADER :=
  { headerType := .AUTHENTICATE, field1Size := 96, field2Size := 44, compressor := .NONE,
    diagnostics := .NONE, status := .NONE, field3Size, field4Size }

theorem header_roundTrip_sample :
    ((serialize (sampleHeader 65 65)).length = HEADER_SIZE ∧
      deserialize default (serialize (sampleHeader 65 65)) = .ok (true, sampleHeader 65 65)) ↔
    65 = 65 :=
  header_roundTrip_iff (sampleHeader 65 65) default (by decide) (by decide)

/-- A header whose last two sizes differ comes back changed. -/
theorem header_roundTrip_fails :
    (sampleHeader 550 65).Valid ∧ (sampleHeader 550 65).SizesFit ∧
    deserialize default (serialize (sampleHeader 550 65)) = .ok (true, sampleHeader 550 550) ∧
    deserialize default (serialize (sampleHeader 550 65)) ≠ .ok (true, sampleHeader 550 65) := by
  decide +kernel

end ClientServer
