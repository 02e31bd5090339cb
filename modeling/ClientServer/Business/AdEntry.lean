import ClientServer.Business.Ad
import ClientServer.Common.HeaderCodec

/-!
# The text of an ad

An entry of the file of ads is printed as the id, the width, the height, the
default bid and the bids in brackets, a keyword in quotes and its price for each
bid.  The parser splits it three times, at the brackets, at the commas and at the
quotes.  No part has one of these separators, so each split finds its parts
(`parse_entryText`).  An entry without bids has nothing between the brackets and
is refused (`parse_entryText_nil`).
-/

namespace ClientServer

/-- The separators of the three splits. -/
def Ad.isSeparator (c : UInt8) : Bool := decide (c ∈ bytes "[]\", ")

/-- An id or a keyword. -/
structure Name where
  text : Bytes
  isWord : Words.IsWord Ad.isSeparator text

/-- A decimal text of a price and the cents the conversion gives for it. -/
structure Price (toCents : Bytes → Except Errc Int) where
  text : Bytes
  cents : Int
  isWord : Words.IsWord Ad.isSeparator text
  exact : toCents text = .ok cents

variable {toCents : Bytes → Except Errc Int} {bidSort : BidSort}

namespace Ad

/-! ## Printing -/

/-- A keyword and its price. -/
def pairText (pair : Name × Price toCents) : Bytes :=
  bytes "\"" ++ (pair.1.text ++ (bytes "\", " ++ pair.2.text))

/-- What stands between the brackets. -/
def pairsText : List (Name × Price toCents) → Bytes
  | [] => []
  | [pair] => pairText pair
  | pair :: pairs => pairText pair ++ (bytes ", " ++ pairsText pairs)

/-- What stands in front of the brackets. -/
def fieldsText (_id : Name) (width height : Nat) (defaultBid : Price toCents) : Bytes :=
  _id.text ++ (bytes ", " ++ (Numeral.encode width ++ (bytes ", " ++
    (Numeral.encode height ++ (bytes ", " ++ (defaultBid.text ++ bytes ", "))))))

/-- A line of the file. -/
def entryText (_id : Name) (width height : Nat) (defaultBid : Price toCents)
    (pairs : List (Name × Price toCents)) : Bytes :=
  fieldsText _id width height defaultBid ++ (bytes "[" ++ (pairsText pairs ++ bytes "]"))

/-- The bid of a pair: the default bid stands for a price of zero. -/
def bidOf (defaultBid : Price toCents) (pair : Name × Price toCents) : AdBid where
  _keyword := pair.1.text
  _money := if pair.2.cents = 0 then defaultBid.cents else pair.2.cents

/-! ## The three splits -/

theorem isSeparator_of_mem {separators : Bytes} (h : separators ⊆ bytes "[]\", ") {c : UInt8}
    (hc : decide (c ∈ separators) = true) : isSeparator c = true :=
  decide_eq_true (h (of_decide_eq_true hc))

/-- A part of an entry is a word for each of the splits. -/
theorem isWord_of_subset {separators text : Bytes} (hword : Words.IsWord isSeparator text)
    (h : separators ⊆ bytes "[]\", ") : Words.IsWord (fun c => decide (c ∈ separators)) text :=
  hword.mono fun _ hc => isSeparator_of_mem h hc

theorem isDigit_separator : ∀ c ∈ bytes "[]\", ", Numeral.isDigit c = false := by decide +kernel

theorem isWord_encode (value : Nat) : Words.IsWord isSeparator (Numeral.encode value) where
  ne_nil := Numeral.encode_ne_nil value
  noSep c hc := by
    rw [isSeparator, decide_eq_false_iff_not]
    intro hmem
    have hdigit := Numeral.isDigit_of_mem_encode hc
    rw [isDigit_separator c hmem] at hdigit
    exact Bool.false_ne_true hdigit

theorem quote_subset : bytes "\", " ⊆ bytes "[]\", " := by decide +kernel

/-- A pair is its keyword, and its price with what stands behind it. -/
theorem words_pairText (pair : Name × Price toCents) (rest : Bytes) :
    Words.words (fun c => decide (c ∈ bytes "\", ")) (pairText pair ++ rest) =
      pair.1.text :: Words.words (fun c => decide (c ∈ bytes "\", ")) (pair.2.text ++ rest) := by
  have hopen : ∀ c ∈ bytes "\"", decide (c ∈ bytes "\", ") = true := by decide +kernel
  have hclose : ∀ c ∈ bytes "\", ", decide (c ∈ bytes "\", ") = true := by decide +kernel
  have hne : bytes "\", " ≠ [] := by decide +kernel
  rw [pairText, List.append_assoc, List.append_assoc, List.append_assoc,
    Words.words_append_seps hopen,
    Words.words_append (isWord_of_subset pair.1.isWord quote_subset) hclose hne]

/-- The bids, at the quotes and the commas. -/
theorem splitAny_pairsText (pairs : List (Name × Price toCents)) :
    splitAny (bytes "\", ") (pairsText pairs) =
      pairs.flatMap fun pair => [pair.1.text, pair.2.text] := by
  induction pairs using pairsText.induct with
  | case1 => rfl
  | case2 pair =>
      rw [pairsText, splitAny_eq, ← List.append_nil (pairText pair), words_pairText, List.append_nil,
        Words.words_of_isWord (isWord_of_subset pair.2.isWord quote_subset)]
      rfl
  | case3 pair pairs hne ih =>
      have hcomma : ∀ c ∈ bytes ", ", decide (c ∈ bytes "\", ") = true := by decide +kernel
      have hcomma' : bytes ", " ≠ [] := by decide +kernel
      rw [splitAny_eq] at ih
      rw [pairsText, splitAny_eq, words_pairText,
        Words.words_append (isWord_of_subset pair.2.isWord quote_subset) hcomma hcomma', ih]
      · rfl
      · exact hne

/-- The fields, at the commas. -/
theorem splitAny_fieldsText (_id : Name) (width height : Nat) (defaultBid : Price toCents) :
    splitAny (bytes ", ") (fieldsText _id width height defaultBid) =
      [_id.text, Numeral.encode width, Numeral.encode height, defaultBid.text] := by
  have hsub : bytes ", " ⊆ bytes "[]\", " := by decide +kernel
  have hseps : ∀ c ∈ bytes ", ", decide (c ∈ bytes ", ") = true := by decide +kernel
  have hne : bytes ", " ≠ [] := by decide +kernel
  rw [fieldsText, splitAny_eq, Words.words_append (isWord_of_subset _id.isWord hsub) hseps hne,
    Words.words_append (isWord_of_subset (isWord_encode width) hsub) hseps hne,
    Words.words_append (isWord_of_subset (isWord_encode height) hsub) hseps hne,
    Words.words_append_last (isWord_of_subset defaultBid.isWord hsub) hseps]

/-- No bracket is in the fields. -/
theorem isWord_fieldsText (_id : Name) (width height : Nat) (defaultBid : Price toCents) :
    Words.IsWord (fun c => decide (c ∈ bytes "[]")) (fieldsText _id width height defaultBid) where
  ne_nil := by
    rw [fieldsText, ne_eq, List.append_eq_nil_iff, not_and_or]
    exact .inl _id.isWord.ne_nil
  noSep := by
    have hsub : bytes "[]" ⊆ bytes "[]\", " := by decide +kernel
    have hcomma : ∀ c ∈ bytes ", ", decide (c ∈ bytes "[]") = false := by decide +kernel
    simp only [fieldsText, List.forall_mem_append]
    exact ⟨(isWord_of_subset _id.isWord hsub).noSep, hcomma,
      (isWord_of_subset (isWord_encode width) hsub).noSep, hcomma,
      (isWord_of_subset (isWord_encode height) hsub).noSep, hcomma,
      (isWord_of_subset defaultBid.isWord hsub).noSep, hcomma⟩

/-- No bracket is in the bids. -/
theorem noBracket_pairsText (pairs : List (Name × Price toCents)) :
    ∀ c ∈ pairsText pairs, decide (c ∈ bytes "[]") = false := by
  have hsub : bytes "[]" ⊆ bytes "[]\", " := by decide +kernel
  have hopen : ∀ c ∈ bytes "\"", decide (c ∈ bytes "[]") = false := by decide +kernel
  have hclose : ∀ c ∈ bytes "\", ", decide (c ∈ bytes "[]") = false := by decide +kernel
  have hcomma : ∀ c ∈ bytes ", ", decide (c ∈ bytes "[]") = false := by decide +kernel
  have hpair (pair : Name × Price toCents) :
      ∀ c ∈ pairText pair, decide (c ∈ bytes "[]") = false := by
    simp only [pairText, List.forall_mem_append]
    exact ⟨hopen, (isWord_of_subset pair.1.isWord hsub).noSep, hclose,
      (isWord_of_subset pair.2.isWord hsub).noSep⟩
  induction pairs using pairsText.induct with
  | case1 => simp [pairsText]
  | case2 pair => exact hpair pair
  | case3 pair pairs hne ih =>
      rw [pairsText]
      · simp only [List.forall_mem_append]
        exact ⟨hpair pair, hcomma, ih⟩
      · exact hne

theorem pairsText_ne_nil {pairs : List (Name × Price toCents)} (hne : pairs ≠ []) :
    pairsText pairs ≠ [] := by
  cases pairs using pairsText.fun_cases with
  | case1 => exact absurd rfl hne
  | case2 pair => simp [pairsText, pairText, bytes]
  | case3 pair pairs hne' =>
      rw [pairsText]
      · simp [pairText, bytes]
      · exact hne'

/-- The parts, at the brackets. -/
theorem splitAny_entryText (_id : Name) (width height : Nat) (defaultBid : Price toCents)
    {pairs : List (Name × Price toCents)} (hne : pairs ≠ []) :
    splitAny (bytes "[]") (entryText _id width height defaultBid pairs) =
      [fieldsText _id width height defaultBid, pairsText pairs] := by
  have hopen : ∀ c ∈ bytes "[", decide (c ∈ bytes "[]") = true := by decide +kernel
  have hopen' : bytes "[" ≠ [] := by decide +kernel
  have hclose : ∀ c ∈ bytes "]", decide (c ∈ bytes "[]") = true := by decide +kernel
  rw [splitAny_eq, entryText,
    Words.words_append (isWord_fieldsText _id width height defaultBid) hopen hopen',
    Words.words_append_last ⟨pairsText_ne_nil hne, noBracket_pairsText pairs⟩ hclose]

theorem splitAny_entryText_nil (_id : Name) (width height : Nat) (defaultBid : Price toCents) :
    splitAny (bytes "[]") (entryText _id width height defaultBid []) =
      [fieldsText _id width height defaultBid] := by
  rw [splitAny_eq, entryText, pairsText, List.nil_append,
    Words.words_append_last (isWord_fieldsText _id width height defaultBid) (by decide +kernel)]

/-! ## The round trip -/

/-- The bids of the pairs, in their order. -/
theorem pairBids_texts (defaultBid : Price toCents) (pairs : List (Name × Price toCents)) :
    pairBids toCents defaultBid.cents (pairs.flatMap fun pair => [pair.1.text, pair.2.text]) =
      .ok (pairs.map (bidOf defaultBid)) := by
  induction pairs with
  | nil => rfl
  | cons pair pairs ih =>
      rw [List.flatMap_cons, List.cons_append, List.cons_append, List.nil_append, pairBids, ih,
        fromCharsCents, pair.2.exact]
      rfl

/-- An entry without bids is refused. -/
theorem parse_entryText_nil (_id : Name) (width height : Nat) (defaultBid : Price toCents) :
    parse toCents bidSort (entryText _id width height defaultBid []) =
      .error (.runtimeError "Wrong entry format:") := by
  rw [parse, parseAttributes, splitAny_entryText_nil]
  rfl

/-- Parsing inverts printing, up to the order of the bids. -/
theorem parse_entryText (_id : Name) {width height : Nat} (hwidth : width ≤ UINT_MAX)
    (hheight : height ≤ UINT_MAX) (defaultBid : Price toCents)
    {pairs : List (Name × Price toCents)} (hne : pairs ≠ []) :
    ∃ ad, parse toCents bidSort (entryText _id width height defaultBid pairs) = .ok ad ∧
      ad._id = _id.text ∧ ad._sizeKey = (width, height) ∧ ad._defaultBid = defaultBid.cents ∧
      ad._bids.Pairwise (fun bid1 bid2 => ¬ bid2._keyword < bid1._keyword) ∧
      ad._bids.Perm (pairs.map (bidOf defaultBid)) := by
  have hattributes : parseAttributes toCents (entryText _id width height defaultBid pairs) =
      .ok (some ⟨_id.text, (width, height), defaultBid.cents, pairsText pairs⟩) := by
    simp only [parseAttributes, splitAny_entryText _id width height defaultBid hne,
      splitAny_fieldsText, fromCharsBoost_encode hwidth, fromCharsBoost_encode hheight,
      fromCharsCents, defaultBid.exact, Outcome.ok_bind, Outcome.pure_eq_ok]
  refine ⟨⟨_id.text, (width, height), bidSort.sort (pairs.map (bidOf defaultBid)),
    defaultBid.cents, entryText _id width height defaultBid pairs⟩, ?_, rfl, rfl, rfl,
    bidSort.sorted _, bidSort.perm _⟩
  simp only [parse, hattributes, parseArray, splitAny_pairsText, pairBids_texts, Outcome.ok_bind,
    Outcome.pure_eq_ok]

end Ad

/- An entry of the file. -/
namespace AdEntry

def entryId : Name where
  text := bytes "1001"
  isWord := ⟨by decide +kernel, by decide +kernel⟩

def sigsauer : Name where
  text := bytes "sigsauer"
  isWord := ⟨by decide +kernel, by decide +kernel⟩

def abnks : Name where
  text := bytes "abnks"
  isWord := ⟨by decide +kernel, by decide +kernel⟩

def defaultBid : Price decimalCents where
  text := bytes "4.8"
  cents := 480
  isWord := ⟨by decide +kernel, by decide +kernel⟩
  exact := by decide +kernel

def price : Price decimalCents where
  text := bytes "2.8"
  cents := 280
  isWord := ⟨by decide +kernel, by decide +kernel⟩
  exact := by decide +kernel

def noPrice : Price decimalCents where
  text := bytes "0.0"
  cents := 0
  isWord := ⟨by decide +kernel, by decide +kernel⟩
  exact := by decide +kernel

example : Ad.entryText entryId 234 60 defaultBid [(sigsauer, price), (abnks, noPrice)] =
    bytes "1001, 234, 60, 4.8, [\"sigsauer\", 2.8, \"abnks\", 0.0]" := by decide +kernel

end AdEntry

open AdEntry in
theorem Ad.parse_entryText_two :
    ∃ ad, parse decimalCents keywordSort
        (entryText entryId 234 60 defaultBid [(sigsauer, price), (abnks, noPrice)]) = .ok ad ∧
      ad._id = bytes "1001" ∧ ad._sizeKey = (234, 60) ∧ ad._defaultBid = 480 ∧
      ad._bids.Pairwise (fun bid1 bid2 => ¬ bid2._keyword < bid1._keyword) ∧
      ad._bids.Perm [⟨bytes "sigsauer", 280⟩, ⟨bytes "abnks", 480⟩] :=
  parse_entryText entryId (by decide) (by decide) defaultBid (List.cons_ne_nil _ _)

open AdEntry in
theorem Ad.entryText_refused :
    ¬ ∃ ad, parse decimalCents keywordSort (entryText entryId 234 60 defaultBid []) = .ok ad := by
  rw [parse_entryText_nil]
  simp

end ClientServer
