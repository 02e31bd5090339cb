import Mathlib.Data.Nat.Digits.Defs
import Mathlib.Data.Nat.Digits.Lemmas
import Mathlib.Data.List.TakeWhile

/-!
# Decimal numerals as byte strings

A numeral is a string of ASCII digits, most significant digit first.  `encode`
writes the numeral of a number without leading zeros, `value` reads any string
of digits back.  The two facts codecs rest on are `value_encode` and
`takeWhile_encode`: a reader that stops at the first byte that is no digit
finds exactly the numeral that was written.
-/

namespace Numeral

/-- The ASCII digits. -/
def isDigit (c : UInt8) : Bool := 48 ≤ c.toNat && c.toNat ≤ 57

/-- The number a digit stands for. -/
def digitValue (c : UInt8) : Nat := c.toNat - 48

/-- The digit that stands for a number below ten. -/
def digitChar (d : Nat) : UInt8 := UInt8.ofNat (48 + d)

/-- The numeral of a number. -/
def encode (n : Nat) : List UInt8 :=
  if n = 0 then [48] else (Nat.digits 10 n).reverse.map digitChar

/-- The number a string of digits stands for. -/
def value (ds : List UInt8) : Nat := ds.foldl (fun acc c => 10 * acc + digitValue c) 0

/-! ## Single digits -/

theorem toNat_digitChar {d : Nat} (hd : d < 10) : (digitChar d).toNat = 48 + d := by
  simp [digitChar, UInt8.toNat_ofNat']
  omega

theorem isDigit_digitChar {d : Nat} (hd : d < 10) : isDigit (digitChar d) = true := by
  simp [isDigit, toNat_digitChar hd]
  omega

theorem digitValue_digitChar {d : Nat} (hd : d < 10) : digitValue (digitChar d) = d := by
  simp [digitValue, toNat_digitChar hd]

theorem digitValue_lt {c : UInt8} (hc : isDigit c = true) : digitValue c < 10 := by
  simp [isDigit] at hc
  simp [digitValue]
  omega

/-- A byte that is no digit starts no numeral. -/
theorem isDigit_zero : isDigit 0 = false := rfl

/-! ## The shape of a numeral -/

theorem encode_ne_nil (n : Nat) : encode n ≠ [] := by
  unfold encode
  split
  · simp
  · simp_all [Nat.digits_ne_nil_iff_ne_zero]

theorem isDigit_of_mem_encode {n : Nat} {c : UInt8} (hc : c ∈ encode n) : isDigit c = true := by
  unfold encode at hc
  split at hc
  · simp at hc
    subst hc
    rfl
  · obtain ⟨d, hd, rfl⟩ := List.mem_map.mp hc
    exact isDigit_digitChar (Nat.digits_lt_base (by norm_num) (List.mem_reverse.mp hd))

theorem length_encode_le_iff {n k : Nat} (hk : 0 < k) : (encode n).length ≤ k ↔ n < 10 ^ k := by
  unfold encode
  split
  · next h => subst h; simp; omega
  · simp only [List.length_map, List.length_reverse]
    exact Nat.digits_length_le_iff (by norm_num) n

section Runs

variable {digits rest : List UInt8}

/-- A reader that stops at the first byte that is no digit reads the run of digits. -/
theorem takeWhile_digits (hdigits : ∀ c ∈ digits, isDigit c = true)
    (hrest : ∀ c ∈ rest.head?, isDigit c = false) :
    (digits ++ rest).takeWhile isDigit = digits := by
  rw [List.takeWhile_append_of_pos hdigits]
  cases rest with
  | nil => simp
  | cons c rest => simp [hrest c (by simp)]

theorem dropWhile_digits (hdigits : ∀ c ∈ digits, isDigit c = true)
    (hrest : ∀ c ∈ rest.head?, isDigit c = false) :
    (digits ++ rest).dropWhile isDigit = rest := by
  rw [List.dropWhile_append_of_pos hdigits]
  cases rest with
  | nil => simp
  | cons c rest => simp [hrest c (by simp)]

end Runs

theorem takeWhile_encode (n : Nat) {rest : List UInt8}
    (hrest : ∀ c ∈ rest.head?, isDigit c = false) :
    (encode n ++ rest).takeWhile isDigit = encode n :=
  takeWhile_digits (fun _ hc => isDigit_of_mem_encode hc) hrest

/-! ## Reading a numeral back -/

theorem value_append_singleton (ds : List UInt8) (c : UInt8) :
    value (ds ++ [c]) = 10 * value ds + digitValue c := by
  simp [value]

theorem value_map_digitChar : ∀ {ds : List Nat}, (∀ d ∈ ds, d < 10) →
    value (ds.reverse.map digitChar) = Nat.ofDigits 10 ds
  | [], _ => rfl
  | d :: ds, h => by
      rw [List.reverse_cons, List.map_append, List.map_singleton, value_append_singleton,
        value_map_digitChar fun e he => h e (List.mem_cons_of_mem d he),
        digitValue_digitChar (h d (by simp)), Nat.ofDigits_cons]
      exact Nat.add_comm _ _

/-- Reading inverts writing. -/
theorem value_encode (n : Nat) : value (encode n) = n := by
  unfold encode
  split
  · next h => subst h; rfl
  · rw [value_map_digitChar fun d hd => Nat.digits_lt_base (by norm_num) hd,
      Nat.ofDigits_digits]

theorem value_lt {ds : List UInt8} (h : ∀ c ∈ ds, isDigit c = true) :
    value ds < 10 ^ ds.length := by
  induction ds using List.reverseRecOn with
  | nil => simp [value]
  | append_singleton ds c ih =>
      have hds := ih fun e he => h e (by simp [he])
      have hc := digitValue_lt (h c (by simp))
      rw [value_append_singleton, List.length_append, List.length_singleton, pow_succ]
      omega

/-! ## Numerals without leading zeros -/

/-- Digits with no zero in front of another digit. -/
def NoLeadingZero (ds : List UInt8) : Prop := ds.head? = some 48 → ds.length = 1

instance (ds : List UInt8) : Decidable (NoLeadingZero ds) := inferInstanceAs (Decidable (_ → _))

theorem digitChar_digitValue {c : UInt8} (hc : isDigit c = true) :
    digitChar (digitValue c) = c := by
  rw [← UInt8.toNat_inj, toNat_digitChar (digitValue_lt hc), digitValue]
  simp only [isDigit, Bool.and_eq_true, decide_eq_true_eq] at hc
  omega

theorem map_digitChar_map_digitValue {ds : List UInt8} (h : ∀ c ∈ ds, isDigit c = true) :
    (ds.map digitValue).map digitChar = ds := by
  rw [List.map_map]
  exact (List.map_congr_left fun c hc => digitChar_digitValue (h c hc)).trans (List.map_id ds)

theorem digitValue_ne_zero {c : UInt8} (hc : isDigit c = true) (hne : c ≠ 48) :
    digitValue c ≠ 0 := by
  intro hzero
  rw [← digitChar_digitValue hc, hzero] at hne
  exact hne rfl

theorem noLeadingZero_encode (n : Nat) : NoLeadingZero (encode n) := by
  intro hhead
  rw [encode] at hhead ⊢
  split at hhead
  · next h => rw [if_pos h]; rfl
  · next h =>
      -- the digit in front is the last of `Nat.digits`
      exfalso
      have hne : Nat.digits 10 n ≠ [] := Nat.digits_ne_nil_iff_ne_zero.mpr h
      rw [List.head?_map, List.head?_reverse, List.getLast?_eq_some_getLast hne,
        Option.map_some, Option.some.injEq] at hhead
      have hlast := Nat.getLast_digit_ne_zero 10 h
      have hlt := Nat.digits_lt_base (show 1 < 10 by norm_num) (List.getLast_mem hne)
      have hvalue := congrArg UInt8.toNat hhead
      rw [toNat_digitChar hlt] at hvalue
      exact hlast (by simpa using hvalue)

theorem value_eq_ofDigits {ds : List UInt8} (h : ∀ c ∈ ds, isDigit c = true) :
    value ds = Nat.ofDigits 10 (ds.map digitValue).reverse := by
  have hlt : ∀ d ∈ (ds.map digitValue).reverse, d < 10 := by
    intro d hd
    obtain ⟨c, hc, rfl⟩ := List.mem_map.mp (List.mem_reverse.mp hd)
    exact digitValue_lt (h c hc)
  rw [← value_map_digitChar hlt, List.reverse_reverse, map_digitChar_map_digitValue h]

/-- Writing inverts reading where there is no leading zero. -/
theorem encode_value {ds : List UInt8} (hne : ds ≠ []) (h : ∀ c ∈ ds, isDigit c = true)
    (hlead : NoLeadingZero ds) : encode (value ds) = ds := by
  obtain ⟨c, rest, rfl⟩ := List.exists_cons_of_ne_nil hne
  by_cases hc : c = 48
  · subst hc
    have hrest : rest = [] := List.length_eq_zero_iff.mp (by simpa using hlead rfl)
    subst hrest
    rfl
  · have hdigits : Nat.digits 10 (value (c :: rest)) = ((c :: rest).map digitValue).reverse := by
      rw [value_eq_ofDigits h]
      refine Nat.digits_ofDigits 10 (by norm_num) _ (fun d hd => ?_) (fun hne => ?_)
      · obtain ⟨e, he, rfl⟩ := List.mem_map.mp (List.mem_reverse.mp hd)
        exact digitValue_lt (h e he)
      · rw [List.getLast_reverse]
        exact digitValue_ne_zero (h c List.mem_cons_self) hc
    have hpos : value (c :: rest) ≠ 0 := by
      intro hzero
      rw [hzero] at hdigits
      simp at hdigits
    rw [encode, if_neg hpos, hdigits, List.reverse_reverse, map_digitChar_map_digitValue h]

end Numeral
