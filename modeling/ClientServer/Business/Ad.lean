import ClientServer.Business.Transaction
import ClientServer.Common.Lines
import ClientServer.Common.SplitLoops
import ClientServer.Library.Words
import Mathlib.Data.List.Sort

/-!
# Ads

`Ad::readAds` reads a file of ads line by line.  A line that the constructor or
`parseArray` throws on is left out; any other one is put behind the ads of its
size.  The vectors the parser fills are static and cleared before each use, so
they are local here.

The conversion of a decimal text to hundredths (`from_chars` into a `double`,
times `_scaler`, `lround`) is a parameter, and so is the order in which
`std::sort` leaves bids with the same keyword.
-/

namespace ClientServer

/-- The `split` that takes a set of separators, into an empty vector. -/
def splitAny (separators : Bytes) (input : Bytes) : List Bytes :=
  match utility.splitSeparators separators input input.length [] with
  | some (.ok rows) => rows
  | some (.error _) | none => []

theorem splitAny_eq (separators input : Bytes) :
    splitAny separators input = Words.words (fun c => decide (c ∈ separators)) input := by
  obtain ⟨spans, -, hwords, hsplit⟩ := utility.splitSeparators_eq separators input
  rw [splitAny, hsplit input.length [] (Nat.le_refl _), List.nil_append, ← hwords]
  rfl

/-- `std::sort` by keyword. -/
structure BidSort where
  sort : List AdBid → List AdBid
  perm : ∀ bids, (sort bids).Perm bids
  sorted : ∀ bids, (sort bids).Pairwise fun bid1 bid2 => ¬ bid2._keyword < bid1._keyword

section Parse

variable (toCents : Bytes → Except Errc Int) (bidSort : BidSort)

/-- `fromChars` into a `double`, and the rounding behind it. -/
def fromCharsCents (str : Bytes) : Call Int :=
  match toCents str with
  | .ok cents => .ok cents
  | .error ec => .error (.errorString ec)

namespace Ad

/-- What `parseAttributes` fills in. -/
structure Attributes where
  _id : Bytes
  _sizeKey : SIZETUPLE
  _defaultBid : Int
  _array : Bytes
deriving DecidableEq, Repr

/-- `none` where `parseAttributes` returns false. -/
def parseAttributes (_input : Bytes) : Call (Option Attributes) :=
  match splitAny (bytes "[]") _input with
  | [adPart, _array] =>
      match splitAny (bytes ", ") adPart with
      | [_id, width, height, defaultBid] => do
          let keyWidth ← fromCharsBoost UINT_MAX width
          let keyHeight ← fromCharsBoost UINT_MAX height
          let _defaultBid ← fromCharsCents toCents defaultBid
          return some { _id, _sizeKey := (keyWidth, keyHeight), _defaultBid, _array }
      | _ => return none
  | _ => return none

/-- The loop of `parseArray`; a last token without a partner is left out. -/
def pairBids (_defaultBid : Int) : List Bytes → Call (List AdBid)
  | keyword :: price :: bidVect => do
      let cents ← fromCharsCents toCents price
      let money := if cents = 0 then _defaultBid else cents
      let _bids ← pairBids _defaultBid bidVect
      return ⟨keyword, money⟩ :: _bids
  | _ => return []

/-- `parseArray`; where there are no bids it only prints a warning. -/
def parseArray (attributes : Attributes) : Call (List AdBid) := do
  let _bids ← pairBids toCents attributes._defaultBid (splitAny (bytes "\", ") attributes._array)
  return bidSort.sort _bids

/-- The constructor and `parseArray`.  The text of the error goes on with the line. -/
def parse (line : Bytes) : Call Ad := do
  let some attributes ← parseAttributes toCents line
    | throw (.runtimeError "Wrong entry format:")
  let _bids ← parseArray toCents bidSort attributes
  return {
    _id := attributes._id
    _sizeKey := attributes._sizeKey
    _bids
    _defaultBid := attributes._defaultBid
    _input := line }

end Ad

/-- `_mapBySize.emplace(..)`, and `push_back` at what is found. -/
def SizeMap.push (_mapBySize : SizeMap) (ad : Ad) : SizeMap :=
  match _mapBySize with
  | [] => [(ad._sizeKey, [ad])]
  | (key, ads) :: rest =>
      if key = ad._sizeKey then (key, ads ++ [ad]) :: rest else (key, ads) :: push rest ad

namespace Ad

/-- The body of the loop of `readAds`. -/
def readLine (_mapBySize : SizeMap) (line : Bytes) : Call SizeMap :=
  match parse toCents bidSort line with
  | .ok ad => .ok (_mapBySize.push ad)
  | .error fault => if fault.isRuntimeError then .ok _mapBySize else .error fault

/-- The loop of `readAds`, with a bound on the calls of `getLine`. -/
def readLines : (calls : Nat) → Lines → SizeMap → Option (Call SizeMap)
  | 0, _, _ => none
  | calls + 1, lines, _mapBySize =>
      match lines.getLineImpl with
      | .error fault => some (.error fault)
      | .ok (false, _, _) => some (.ok _mapBySize)
      | .ok (true, line, lines) =>
          match readLine toCents bidSort _mapBySize line with
          | .error fault => some (.error fault)
          | .ok _mapBySize => readLines calls lines _mapBySize

/-- `readAds`, with what the array of the reader holds and the file if it is
there.  A call of `getLine` that returns true has used up a byte of the file. -/
def readAds (_buffer : Bytes) (file : Option Bytes) : Option (Call SizeMap) :=
  match FileLines.new _buffer file 10 false with
  | .error fault => some (.error fault)
  | .ok lines => readLines toCents bidSort (lines._inputSize + 1) lines []

end Ad

end Parse

/-! ## A conversion and a sort -/

/-- Digits, and two more of them behind a point, in hundredths. -/
def decimalCents (str : Bytes) : Except Errc Int := do
  let (units, rest) ← fromChars UINT_MAX str
  let fraction := match rest with
    | 46 :: digits => (digits.takeWhile Numeral.isDigit ++ bytes "00").take 2
    | _ => bytes "00"
  return 100 * units + Numeral.value fraction

/-- Insertion by keyword. -/
def keywordSort : BidSort where
  sort bids := bids.insertionSort fun bid1 bid2 => bid1._keyword ≤ bid2._keyword
  perm bids := List.perm_insertionSort _ bids
  sorted bids := by
    have htotal : Std.Total fun bid1 bid2 : AdBid => bid1._keyword ≤ bid2._keyword :=
      ⟨fun bid1 bid2 => List.le_total bid1._keyword bid2._keyword⟩
    have htrans : IsTrans AdBid fun bid1 bid2 => bid1._keyword ≤ bid2._keyword :=
      ⟨fun _ _ _ h12 h23 => List.le_trans h12 h23⟩
    exact (List.pairwise_insertionSort _ bids).imp List.not_lt.mpr

example : decimalCents (bytes "4.8") = .ok 480 := by decide +kernel

/-! ## One line -/

section Line

variable {toCents : Bytes → Except Errc Int} {bidSort : BidSort}

/-- A fault that a handler of `std::runtime_error` does not see. -/
abbrev Fault.Uncaught (fault : Fault) : Prop := fault.isRuntimeError = false

theorem not_failsWith_fromCharsBoost (max : Nat) (str : Bytes) :
    ¬ Outcome.FailsWith Fault.Uncaught (fromCharsBoost max str) := by
  unfold fromCharsBoost
  split <;> simp [Fault.Uncaught, Fault.isRuntimeError]

theorem not_failsWith_fromCharsCents (str : Bytes) :
    ¬ Outcome.FailsWith Fault.Uncaught (fromCharsCents toCents str) := by
  unfold fromCharsCents
  split <;> simp [Fault.Uncaught, Fault.isRuntimeError]

namespace Ad

theorem not_failsWith_parseAttributes (line : Bytes) :
    ¬ Outcome.FailsWith Fault.Uncaught (parseAttributes toCents line) := by
  unfold parseAttributes
  split
  · split
    · simp [Outcome.failsWith_bind, not_failsWith_fromCharsBoost, not_failsWith_fromCharsCents]
    · simp
  · simp

theorem not_failsWith_pairBids (_defaultBid : Int) (bidVect : List Bytes) :
    ¬ Outcome.FailsWith Fault.Uncaught (pairBids toCents _defaultBid bidVect) := by
  induction bidVect using pairBids.induct with
  | case1 keyword price bidVect ih =>
      simp [pairBids, Outcome.failsWith_bind, not_failsWith_fromCharsCents, ih]
  | case2 bidVect hshort =>
      rw [pairBids]
      · simp
      · exact hshort

/-- All that a line throws is caught. -/
theorem not_failsWith_parse (line : Bytes) :
    ¬ Outcome.FailsWith Fault.Uncaught (parse toCents bidSort line) := by
  simp only [parse, parseArray, Outcome.failsWith_bind, not_or, not_exists, not_and]
  refine ⟨not_failsWith_parseAttributes line, fun attributes _ => ?_⟩
  cases attributes with
  | none => simp [throw, throwThe, MonadExceptOf.throw, Fault.Uncaught, Fault.isRuntimeError]
  | some attributes =>
      simp [Outcome.failsWith_bind, not_failsWith_pairBids]

/-- A line puts its ad into the table or leaves it as it is. -/
theorem readLine_eq (_mapBySize : SizeMap) (line : Bytes) :
    readLine toCents bidSort _mapBySize line =
      .ok ((parse toCents bidSort line).toOption.elim _mapBySize _mapBySize.push) := by
  have hcaught := @not_failsWith_parse toCents bidSort line
  unfold readLine
  cases hparse : parse toCents bidSort line with
  | ok ad => rfl
  | error fault =>
      rw [hparse, Outcome.failsWith_error, Fault.Uncaught, Bool.not_eq_false] at hcaught
      simp [hcaught, Except.toOption]

end Ad

end Line

/-! ## The table -/

theorem getAdsBySize_nil (key : SIZETUPLE) : getAdsBySize [] key = [] := rfl

theorem getAdsBySize_cons (key key' : SIZETUPLE) (ads : List Ad) (rest : SizeMap) :
    getAdsBySize ((key', ads) :: rest) key = if key = key' then ads else getAdsBySize rest key := by
  by_cases h : key = key'
  · simp [getAdsBySize, h]
  · have hbeq : (key == key') = false := by simpa using h
    simp [getAdsBySize, List.lookup_cons, hbeq, h]

/-- An ad goes behind those of its size. -/
theorem getAdsBySize_push (_mapBySize : SizeMap) (ad : Ad) (key : SIZETUPLE) :
    getAdsBySize (_mapBySize.push ad) key =
      getAdsBySize _mapBySize key ++ if ad._sizeKey = key then [ad] else [] := by
  induction _mapBySize with
  | nil =>
      rw [SizeMap.push, getAdsBySize_cons, getAdsBySize_nil]
      by_cases h : ad._sizeKey = key
      · simp [h]
      · simp [h, Ne.symm h]
  | cons entry rest ih =>
      obtain ⟨key', ads⟩ := entry
      rw [SizeMap.push]
      by_cases hkey : key' = ad._sizeKey
      · subst hkey
        rw [if_pos rfl, getAdsBySize_cons, getAdsBySize_cons]
        by_cases h : key = ad._sizeKey
        · simp [h]
        · simp [h, Ne.symm h]
      · rw [if_neg hkey, getAdsBySize_cons, getAdsBySize_cons, ih]
        by_cases h : key = key'
        · subst h
          simp [Ne.symm hkey]
        · simp [h]

section Table

variable (toCents : Bytes → Except Errc Int) (bidSort : BidSort)

/-- The table after some lines. -/
def Ad.table (_mapBySize : SizeMap) (rows : List Bytes) : SizeMap :=
  rows.foldl (fun _mapBySize line =>
    (parse toCents bidSort line).toOption.elim _mapBySize _mapBySize.push) _mapBySize

/-- The ads of the lines the parser accepts. -/
def Ad.accepted (rows : List Bytes) : List Ad :=
  rows.filterMap fun line => (parse toCents bidSort line).toOption

variable {toCents bidSort}

theorem Ad.getAdsBySize_table (_mapBySize : SizeMap) (rows : List Bytes) (key : SIZETUPLE) :
    getAdsBySize (table toCents bidSort _mapBySize rows) key =
      getAdsBySize _mapBySize key ++
        (accepted toCents bidSort rows).filter fun ad => ad._sizeKey = key := by
  induction rows generalizing _mapBySize with
  | nil => simp [table, accepted]
  | cons line rows ih =>
      have hcons := ih ((parse toCents bidSort line).toOption.elim _mapBySize _mapBySize.push)
      rw [show table toCents bidSort _mapBySize (line :: rows) = table toCents bidSort
        ((parse toCents bidSort line).toOption.elim _mapBySize _mapBySize.push) rows from rfl, hcons,
        accepted, accepted, List.filterMap_cons]
      cases (parse toCents bidSort line).toOption with
      | none => rfl
      | some ad =>
          rw [Option.elim_some, getAdsBySize_push, List.filter_cons]
          by_cases h : ad._sizeKey = key
          · simp [h]
          · simp [h]

end Table

end ClientServer
