import ClientServer.Business.AdCache

/-!
# Policies

A policy answers one request with the static members of the thread that runs
it.  `EchoPolicy` sends the request back without its id; the other two run a
transaction.  `FunctionalPolicy` is a policy whose answer is a function of the
request alone, with an invariant of the thread behind it, and all three are.
-/

namespace ClientServer

inductive POLICYENUM where
  | SORTINPUT | NOSORTINPUT | ECHOPOLICY | NONE
deriving DecidableEq, Repr

/-- The options of the server the batch engine looks at. -/
structure ServerOptions where
  _useRegex : Bool
  _policyEnum : POLICYENUM

/-- `Policy::operator()`, over the static members of a thread. -/
abbrev Policy (Λ : Type) := Request → (diagnostics : Bool) → Λ → Call (Bytes × Λ)

/-! ## EchoPolicy -/

/-- `is_separator` of the regular expressions, for `char`. -/
def isSeparator (c : UInt8) : Bool := c == 10 || c == 13 || c == 12

/-- `^` also holds behind a line separator. -/
def startOfLine (before : Option UInt8) (text : Bytes) : Bool :=
  match before with
  | none => true
  | some c => isSeparator c && !(c == 13 && text.head? == some 10)

/-- `^\[\d+\]` -/
def idPattern : List (Text.Piece UInt8) :=
  [.literal (bytes "["), .run Numeral.isDigit, .literal (bytes "]")]

/-- The prefix removed has the length of the match, wherever that was found. -/
def EchoPolicy : Policy ThreadLocals := fun request _ locals =>
  let _buffer := request._input ++ bytes "\n"
  let result := match Text.search startOfLine idPattern none _buffer with
    | some matched => _buffer.drop matched.length
    | none => _buffer
  .ok (result, { locals with _buffer })

/-! ## The policies over ads -/

section Ads

variable (moneyText : Int → Bytes) (_mapBySize : SizeMap)

def SortInputPolicy : Policy ThreadLocals := fun request diagnostics locals =>
  .ok (Transaction.processRequestSort moneyText _mapBySize request._sizeKey request diagnostics
    locals)

def NoSortInputPolicy (_useRegex : Bool) : Policy ThreadLocals :=
  fun request diagnostics locals =>
    Transaction.processRequestNoSort moneyText _mapBySize _useRegex request diagnostics locals

/-- `Server::setPolicy`. -/
def setPolicy (options : ServerOptions) : Call (Policy ThreadLocals) :=
  match options._policyEnum with
  | .NOSORTINPUT => .ok (NoSortInputPolicy moneyText _mapBySize options._useRegex)
  | .SORTINPUT => .ok (SortInputPolicy moneyText _mapBySize)
  | .ECHOPOLICY => .ok EchoPolicy
  | .NONE => .error (.runtimeError "non-existent policy")

end Ads

/-! ## Policies that are functions -/

/-- The size key of a request is the one of its text. -/
def Request.Keyed (_useRegex : Bool) (request : Request) : Prop :=
  createSizeKey _useRegex request._input = .ok request._sizeKey

/-- A policy that answers a request with its size key by a function of the text,
the size key and the diagnostics flag.  The threads keep an invariant for it. -/
structure FunctionalPolicy (_useRegex : Bool) {Λ : Type} (policy : Policy Λ) where
  answer : Bytes → SIZETUPLE → Bool → Bytes
  Inv : Λ → Prop
  answers : ∀ (request : Request) (diagnostics : Bool) {locals : Λ},
    request.Keyed _useRegex → Inv locals →
      ∃ locals', policy request diagnostics locals =
          .ok (answer request._input request._sizeKey diagnostics, locals') ∧ Inv locals'

/-- A pure function is a policy of this kind. -/
def FunctionalPolicy.ofFunction (_useRegex : Bool) (answer : Bytes → SIZETUPLE → Bool → Bytes) :
    FunctionalPolicy _useRegex (Λ := Unit)
      fun request diagnostics _ => .ok (answer request._input request._sizeKey diagnostics, ()) where
  answer := answer
  Inv _ := True
  answers _ _ _ _ _ := ⟨(), rfl, trivial⟩

/-- The echo of a request. -/
def echo (input : Bytes) : Bytes :=
  match Text.search startOfLine idPattern none (input ++ bytes "\n") with
  | some matched => (input ++ bytes "\n").drop matched.length
  | none => input ++ bytes "\n"

def EchoPolicy.functional (_useRegex : Bool) : FunctionalPolicy _useRegex EchoPolicy where
  answer input _ _ := echo input
  Inv _ := True
  answers request _ locals _ _ :=
    ⟨{ locals with _buffer := request._input ++ bytes "\n" }, rfl, trivial⟩

variable (moneyText : Int → Bytes) (_mapBySize : SizeMap)

def SortInputPolicy.functional (_useRegex : Bool) :
    FunctionalPolicy _useRegex (SortInputPolicy moneyText _mapBySize) where
  answer input sizeKey diagnostics := uncachedReply moneyText _mapBySize sizeKey input diagnostics
  Inv := ThreadLocals.Coherent _mapBySize
  answers request diagnostics locals _ hcoherent := by
    obtain ⟨hreply, hkept⟩ := processRequestSort_eq moneyText hcoherent request._sizeKey request
      diagnostics
    exact ⟨_, congrArg Except.ok (Prod.ext hreply rfl), hkept⟩

def NoSortInputPolicy.functional (_useRegex : Bool) :
    FunctionalPolicy _useRegex (NoSortInputPolicy moneyText _mapBySize _useRegex) where
  answer input sizeKey diagnostics := uncachedReply moneyText _mapBySize sizeKey input diagnostics
  Inv := ThreadLocals.Coherent _mapBySize
  answers request diagnostics locals hkeyed hcoherent := by
    obtain ⟨locals', hkept, hreply⟩ :=
      processRequestNoSort_eq moneyText hcoherent hkeyed diagnostics
    exact ⟨locals', hreply, hkept⟩

end ClientServer
