import ClientServer.Business.SizeKey
import ClientServer.Common.Utility

/-!
# Transactions

One request against the table of ads: the keywords of the request are
intersected with the bids of every ad of its size, and the highest bid wins.
The two entry points `processRequestSort` and `processRequestNoSort` keep the
ads of the last size in a cache of their own.  They, the matches, the keywords
and the output are static members of a thread and stand in `ThreadLocals`.

The text of a sum of money, a `double` printed with one decimal, is a parameter.
Logging is left out.
-/

namespace ClientServer

/-! ## Ads -/

structure AdBid where
  _keyword : Bytes
  _money : Int
deriving DecidableEq, Repr

structure Ad where
  _id : Bytes
  _sizeKey : SIZETUPLE
  _bids : List AdBid
  _defaultBid : Int
  _input : Bytes
deriving DecidableEq, Repr

/-- `SizeMap`: the ads of each size, in the order of the file. -/
abbrev SizeMap := List (SIZETUPLE × List Ad)

/-- `Ad::getAdsBySize`. -/
def getAdsBySize (_mapBySize : SizeMap) (key : SIZETUPLE) : List Ad :=
  (_mapBySize.lookup key).getD []

/-! ## Printing -/

/-- `operator<<` for integers. -/
def intText (value : Int) : Bytes :=
  if value < 0 then bytes "-" ++ toCharsBoost value.natAbs false
  else toCharsBoost value.natAbs false

/-- `operator<<` for size keys. -/
def sizeText (sizeKey : SIZETUPLE) : Bytes :=
  toCharsBoost sizeKey.1 false ++ bytes "x" ++ toCharsBoost sizeKey.2 false

/-- `Ad::print`, with `printBids`. -/
def Ad.print (ad : Ad) : Bytes :=
  bytes "Ad" ++ ad._id ++ bytes " size=" ++ sizeText ad._sizeKey ++ bytes " defaultBid=" ++
    intText ad._defaultBid ++ bytes "\n " ++ ad._input ++ bytes "\n" ++
    ad._bids.flatMap fun adBid =>
      bytes "  " ++ adBid._keyword ++ bytes " " ++ intText adBid._money ++ bytes "\n"

/-! ## The transaction -/

def INVALID_REQUEST : Bytes := bytes " Invalid request\n"
def EMPTY_REPLY : Bytes := bytes "0, 0.0\n"
def START_KEYWORDS1 : Bytes := bytes "kw="
def START_KEYWORDS2 : Bytes := bytes "keywords="
def KEYWORD_SEP : UInt8 := 43
def KEYWORDS_END : Bytes := bytes "&"

/-- A row of a batch. -/
structure Request where
  _sizeKey : SIZETUPLE
  _input : Bytes
deriving DecidableEq, Repr

/-- A bid in the result, with the ad its weak pointer leads to. -/
abbrev Match := Ad × AdBid

/-- The static members of a thread that every transaction clears. -/
structure Statics where
  _bids : List Match
  _keywords : List Bytes
  _output : Bytes

structure Transaction where
  _sizeKey : SIZETUPLE
  _id : Bytes := []
  _request : Bytes := []
  _winningBid : Option Match := none
  _noMatch : Bool := false
  _invalid : Bool := false

namespace Transaction

def clear (statics : Statics) : Statics :=
  { statics with _bids := [], _keywords := [], _output := [] }

/-- `breakKeywords`: strings that compare equal are equal, so the order is the
only one `std::sort` can leave. -/
def breakKeywords (_keywords : List Bytes) (kwStr : Bytes) : List Bytes :=
  (_keywords ++ split KEYWORD_SEP false [] kwStr).mergeSort fun a b => decide (a ≤ b)

/-- `parseKeywords`: `none` where it returns false. -/
def parseKeywords (_keywords : List Bytes) (_request start : Bytes) : Option (List Bytes) :=
  match Text.find start _request with
  | none => none
  | some beg =>
      let keyWordsbeg := beg + start.length
      let keyWordsEnd := match Text.find KEYWORDS_END (_request.drop beg) with
        | none => _request.length
        | some distance => beg + distance
      some (breakKeywords _keywords ((_request.take keyWordsEnd).drop keyWordsbeg))

/-- The constructors end in `init`. -/
def init (sizeKey : SIZETUPLE) (input : Bytes) (statics : Statics) : Transaction × Statics :=
  let statics := clear statics
  let transaction : Transaction := { _sizeKey := sizeKey }
  if sizeKey = ZERO_SIZE then
    ({ transaction with _invalid := true }, statics)
  else
    match Text.find (bytes "]") input, input with
    | some pos, 91 :: _ =>
        let _id := input.take (pos + 1)
        let _request := input.drop _id.length
        let _keywords := match parseKeywords statics._keywords _request START_KEYWORDS1 with
          | some keywords => keywords
          | none => (parseKeywords statics._keywords _request START_KEYWORDS2).getD
              statics._keywords
        ({ transaction with _id, _request }, { statics with _keywords })
    | _, _ => (transaction, statics)

/-- `std::set_intersection` with `Comparator`: the bids whose keyword stands in
the other range as well. -/
def set_intersection : List AdBid → List Bytes → List AdBid
  | [], _ => []
  | _, [] => []
  | bid :: bids, keyword :: keywords =>
      if bid._keyword < keyword then set_intersection bids (keyword :: keywords)
      else if keyword < bid._keyword then set_intersection (bid :: bids) keywords
      else bid :: set_intersection bids keywords
termination_by bids keywords => bids.length + keywords.length

/-- A `long` assigned to an `int`. -/
def intOfLong (value : Int) : Int := Int.bmod value (2 ^ 32)

/-- The loop of `findWinningBid`: the first of the largest. -/
def findWinningBid (first : Match) (rest : List Match) : Match :=
  (rest.foldl (fun (max, winning) bid =>
    let money := intOfLong bid.2._money
    if max < money then (money, bid) else (max, winning))
    (intOfLong first.2._money, first)).2

def matchAds (adVector : List Ad) (transaction : Transaction) (statics : Statics) :
    Transaction × Statics :=
  let _bids := statics._bids ++ adVector.flatMap fun ad =>
    (set_intersection ad._bids statics._keywords).map fun bid => (ad, bid)
  let statics := { statics with _bids }
  match _bids with
  | [] => ({ transaction with _noMatch := true }, statics)
  | first :: rest => ({ transaction with _winningBid := some (findWinningBid first rest) }, statics)

/-! ### Replies -/

section Replies

/- The text of a sum of money, in hundredths. -/
variable (moneyText : Int → Bytes)

def printRequestData (transaction : Transaction) (statics : Statics) : Bytes :=
  transaction._id ++ bytes " Transaction size=" ++ sizeText transaction._sizeKey ++
    bytes " #matches=" ++ toCharsBoost statics._bids.length false ++ bytes "\n" ++
    transaction._request ++ bytes "\nrequest keywords:\n" ++
    statics._keywords.flatMap fun keyword => bytes " " ++ keyword ++ bytes "\n"

def printMatchingAds (statics : Statics) : Bytes :=
  bytes "matching ads:\n" ++ statics._bids.flatMap fun (ad, adBid) =>
    ad.print ++ bytes " match:" ++ adBid._keyword ++ bytes " " ++ intText adBid._money ++
      bytes "\n"

def printWinningAd (winning : Match) : Bytes :=
  winning.1._id ++ bytes ", " ++ winning.2._keyword ++ bytes ", " ++
    moneyText winning.2._money ++ bytes "\n*****\n"

def printDiagnostics (transaction : Transaction) (statics : Statics) : Bytes :=
  printRequestData transaction statics ++ printMatchingAds statics ++ bytes "summary:" ++
    if transaction._noMatch then EMPTY_REPLY ++ bytes "*****\n"
    else if transaction._invalid then INVALID_REQUEST ++ bytes "*****\n"
    else transaction._winningBid.elim [] (printWinningAd moneyText)

def printSummary (transaction : Transaction) : Bytes :=
  transaction._id ++ bytes " " ++ transaction._winningBid.elim [] fun winning =>
    winning.1._id ++ bytes ", " ++ moneyText winning.2._money ++ bytes "\n"

/-- What both entry points do once the ads are at hand. -/
def reply (adVector : List Ad) (diagnostics : Bool) (transaction : Transaction)
    (statics : Statics) : Bytes × Statics :=
  let (transaction, statics) := matchAds adVector transaction statics
  let _output := statics._output ++
    if diagnostics then printDiagnostics moneyText transaction statics
    else if transaction._noMatch then transaction._id ++ bytes " " ++ EMPTY_REPLY
    else printSummary moneyText transaction
  (_output, { statics with _output })

/-- What both entry points do with an empty request. -/
def replyEmpty (statics : Statics) : Bytes × Statics :=
  let _output := statics._output ++ bytes "[unknown]" ++ INVALID_REQUEST
  (_output, { statics with _output })

end Replies

end Transaction

/-! ## The caches of the entry points -/

/-- The static pair of an entry point: the ads of the last size. -/
structure AdCache where
  prevKey : SIZETUPLE
  adVector : List Ad

/-- The static members of a thread. -/
structure ThreadLocals where
  statics : Statics
  /-- The cache of `processRequestSort`. -/
  sort : AdCache
  /-- The cache of `processRequestNoSort`. -/
  noSort : AdCache
  /-- The buffer of `EchoPolicy`. -/
  _buffer : Bytes

/-- A thread that has processed nothing. -/
def ThreadLocals.initial : ThreadLocals where
  statics := { _bids := [], _keywords := [], _output := [] }
  sort := { prevKey := ZERO_SIZE, adVector := [] }
  noSort := { prevKey := ZERO_SIZE, adVector := [] }
  _buffer := []

/-- The cache is looked up once more where the size has changed. -/
def AdCache.update (_mapBySize : SizeMap) (cache : AdCache) (sizeKey : SIZETUPLE) : AdCache :=
  if sizeKey ≠ cache.prevKey then
    { prevKey := sizeKey, adVector := getAdsBySize _mapBySize sizeKey }
  else cache

namespace Transaction

variable (moneyText : Int → Bytes) (_mapBySize : SizeMap)

def processRequestSort (sizeKey : SIZETUPLE) (request : Request) (diagnostics : Bool)
    (locals : ThreadLocals) : Bytes × ThreadLocals :=
  let (transaction, statics) := init sizeKey request._input locals.statics
  if request._input = [] then
    let (_output, statics) := replyEmpty statics
    (_output, { locals with statics })
  else
    let sort := locals.sort.update _mapBySize sizeKey
    let (_output, statics) := reply moneyText sort.adVector diagnostics transaction statics
    (_output, { locals with statics, sort })

/-- The constructor of this transaction computes the size key once more; the
cache goes by the one of the request. -/
def processRequestNoSort (_useRegex : Bool) (request : Request) (diagnostics : Bool)
    (locals : ThreadLocals) : Call (Bytes × ThreadLocals) :=
  noexcept do
    let sizeKey ← createSizeKey _useRegex request._input
    let (transaction, statics) := init sizeKey request._input locals.statics
    if request._input = [] then
      let (_output, statics) := replyEmpty statics
      return (_output, { locals with statics })
    let noSort := locals.noSort.update _mapBySize request._sizeKey
    let (_output, statics) := reply moneyText noSort.adVector diagnostics transaction statics
    return (_output, { locals with statics, noSort })

end Transaction

end ClientServer
