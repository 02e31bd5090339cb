import ClientServer.Common.Header
import ClientServer.Library.Text

/-!
# Size keys

`Transaction::createSizeKey` reads the width and the height of an ad off a
request, behind a marker or, if an option says so, out of the match of a regular
expression.  `sizeKey_isOk_iff` says for which requests it returns: one that has
a marker but no two numbers of 32 bits behind it ends in an exception, and so
does one without a match, since nothing is left to convert then.
-/

namespace ClientServer

/-- `std::tuple<unsigned, unsigned>`: width and height. -/
abbrev SIZETUPLE := Nat × Nat

/-- The largest `unsigned`. -/
def UINT_MAX := 2 ^ 32 - 1

def ZERO_SIZE : SIZETUPLE := (0, 0)

def SIZE_START_REG : Bytes := bytes "size="
def SIZE_START_ALT : Bytes := bytes "ad_width="

/-- `ioutility::removeNonDigits`. -/
def removeNonDigits (view : Bytes) : Bytes := view.dropWhile fun ch => !Numeral.isDigit ch

/-- The two conversions both variants end with. -/
def convertSizes (request : Bytes) : Call SIZETUPLE :=
  let request := removeNonDigits request
  match fromChars UINT_MAX request with
  | .error ec => .error (.errorString ec)
  | .ok (width, request) =>
      let request := removeNonDigits request
      match fromChars UINT_MAX request with
      | .error ec => .error (.errorString ec)
      | .ok (height, _) => .ok (width, height)

/-- `size=\d+x\d+` -/
def regexReg : List (Text.Piece UInt8) :=
  [.literal (bytes "size="), .run Numeral.isDigit, .literal (bytes "x"), .run Numeral.isDigit]

/-- `ad_width=\d+&ad_height=\d+` -/
def regexAlt : List (Text.Piece UInt8) :=
  [.literal (bytes "ad_width="), .run Numeral.isDigit, .literal (bytes "&ad_height="),
    .run Numeral.isDigit]

/-- The match of the first expression, or else of the second. -/
def regexMatch (request : Bytes) : Option Bytes :=
  match Text.searchAny regexReg request with
  | some matched => some matched
  | none => Text.searchAny regexAlt request

def createSizeKeyRegExpr (request : Bytes) : Call SIZETUPLE :=
  -- the string to convert stays empty where nothing matches
  let matched := (regexMatch request).getD []
  convertSizes matched

/-- Where the first marker, or else the second, begins. -/
def sizeStart (request : Bytes) : Option Nat :=
  match Text.find SIZE_START_REG request with
  | some begPos => some begPos
  | none => Text.find SIZE_START_ALT request

def createSizeKey (_useRegex : Bool) (request : Bytes) : Call SIZETUPLE :=
  if _useRegex then createSizeKeyRegExpr request
  else
    match sizeStart request with
    | none => .ok ZERO_SIZE
    | some begPos => convertSizes (request.drop begPos)

/-! ## When there is a key -/

/-- The first longest run of digits. -/
def firstNumber (text : Bytes) : Bytes := (removeNonDigits text).takeWhile Numeral.isDigit

/-- What stands behind the first longest run of digits. -/
def afterNumber (text : Bytes) : Bytes := (removeNonDigits text).dropWhile Numeral.isDigit

/-- A run of digits that is not empty and fits into 32 bits. -/
def FitsUnsigned (digits : Bytes) : Prop := digits ≠ [] ∧ Numeral.value digits ≤ UINT_MAX

instance (digits : Bytes) : Decidable (FitsUnsigned digits) := inferInstanceAs (Decidable (_ ∧ _))

/-- The first two numbers of a text fit into 32 bits. -/
def TwoNumbersFit (text : Bytes) : Prop :=
  FitsUnsigned (firstNumber text) ∧ FitsUnsigned (firstNumber (afterNumber text))

instance (text : Bytes) : Decidable (TwoNumbersFit text) := inferInstanceAs (Decidable (_ ∧ _))

/-- A request that has a size key.  Without the option, a request that has no
marker has one too. -/
def HasSizeKey (_useRegex : Bool) (request : Bytes) : Prop :=
  if _useRegex then ∃ matched ∈ regexMatch request, TwoNumbersFit matched
  else ∀ begPos ∈ sizeStart request, TwoNumbersFit (request.drop begPos)

instance (_useRegex : Bool) (request : Bytes) : Decidable (HasSizeKey _useRegex request) :=
  inferInstanceAs (Decidable (if _useRegex then ∃ matched ∈ regexMatch request, TwoNumbersFit matched
    else ∀ begPos ∈ sizeStart request, TwoNumbersFit (request.drop begPos)))

theorem fromChars_removeNonDigits (text : Bytes) :
    fromChars UINT_MAX (removeNonDigits text) =
      if firstNumber text = [] then .error .invalid_argument
      else if UINT_MAX < Numeral.value (firstNumber text) then .error .result_out_of_range
      else .ok (Numeral.value (firstNumber text), afterNumber text) := rfl

/-- One conversion returns on a run that fits and throws on any other. -/
theorem fromChars_of_fits {text : Bytes} (h : FitsUnsigned (firstNumber text)) :
    fromChars UINT_MAX (removeNonDigits text) =
      .ok (Numeral.value (firstNumber text), afterNumber text) := by
  rw [fromChars_removeNonDigits, if_neg h.1, if_neg (Nat.not_lt.mpr h.2)]

theorem fromChars_of_not_fits {text : Bytes} (h : ¬ FitsUnsigned (firstNumber text)) :
    ∃ ec, fromChars UINT_MAX (removeNonDigits text) = .error ec := by
  rw [fromChars_removeNonDigits]
  split
  · exact ⟨_, rfl⟩
  · next hne =>
      have hlarge : UINT_MAX < Numeral.value (firstNumber text) := by
        by_contra hle
        exact h ⟨hne, Nat.not_lt.mp hle⟩
      exact ⟨.result_out_of_range, if_pos hlarge⟩

theorem convertSizes_of_fit {text : Bytes} (h : TwoNumbersFit text) :
    convertSizes text =
      .ok (Numeral.value (firstNumber text), Numeral.value (firstNumber (afterNumber text))) := by
  simp only [convertSizes, fromChars_of_fits h.1, fromChars_of_fits h.2]

/-- The only failure of the conversions is an exception. -/
theorem convertSizes_of_not_fit {text : Bytes} (h : ¬ TwoNumbersFit text) :
    ∃ ec, convertSizes text = .error (.errorString ec) := by
  by_cases hwidth : FitsUnsigned (firstNumber text)
  · have hheight : ¬ FitsUnsigned (firstNumber (afterNumber text)) := fun hfits =>
      h ⟨hwidth, hfits⟩
    obtain ⟨ec, herror⟩ := fromChars_of_not_fits hheight
    exact ⟨ec, by simp only [convertSizes, fromChars_of_fits hwidth, herror]⟩
  · obtain ⟨ec, herror⟩ := fromChars_of_not_fits hwidth
    exact ⟨ec, by simp only [convertSizes, herror]⟩

theorem not_twoNumbersFit_nil : ¬ TwoNumbersFit [] := by
  decide

/-- `createSizeKey` returns exactly on the requests that have a key. -/
theorem createSizeKey_cases (_useRegex : Bool) (request : Bytes) :
    (HasSizeKey _useRegex request ∧ ∃ key, createSizeKey _useRegex request = .ok key) ∨
    (¬ HasSizeKey _useRegex request ∧
      ∃ ec, createSizeKey _useRegex request = .error (.errorString ec)) := by
  unfold HasSizeKey createSizeKey createSizeKeyRegExpr
  cases _useRegex with
  | true =>
      simp only [if_true]
      cases hmatch : regexMatch request with
      | none =>
          refine .inr ⟨by simp, ?_⟩
          exact convertSizes_of_not_fit not_twoNumbersFit_nil
      | some matched =>
          by_cases hfit : TwoNumbersFit matched
          · exact .inl ⟨⟨matched, rfl, hfit⟩, _, convertSizes_of_fit hfit⟩
          · refine .inr ⟨?_, convertSizes_of_not_fit hfit⟩
            rintro ⟨_, ⟨⟩, h⟩
            exact hfit h
  | false =>
      simp only [Bool.false_eq_true, if_false]
      cases hstart : sizeStart request with
      | none => exact .inl ⟨fun _ h => absurd h (by simp), _, rfl⟩
      | some begPos =>
          by_cases hfit : TwoNumbersFit (request.drop begPos)
          · refine .inl ⟨?_, _, convertSizes_of_fit hfit⟩
            rintro _ ⟨⟩
            exact hfit
          · refine .inr ⟨fun h => hfit (h begPos rfl), ?_⟩
            exact convertSizes_of_not_fit hfit

theorem createSizeKey_isOk_iff {_useRegex : Bool} {request : Bytes} :
    (∃ key, createSizeKey _useRegex request = .ok key) ↔ HasSizeKey _useRegex request := by
  rcases createSizeKey_cases _useRegex request with ⟨hkey, hok⟩ | ⟨hkey, ec, herror⟩
  · exact ⟨fun _ => hkey, fun _ => hok⟩
  · rw [herror]
    refine ⟨?_, fun h => absurd h hkey⟩
    rintro ⟨key, h⟩
    exact absurd h (by simp)

end ClientServer
