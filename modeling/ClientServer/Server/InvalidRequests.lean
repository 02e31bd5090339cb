import ClientServer.Server.Policy

/-!
# Requests without a size

`init` marks a transaction without a size as invalid and leaves its id and its
keywords empty.  Without keywords nothing matches, and both print paths ask
`_noMatch` in front of `_invalid`.  So the reply to a request without a size is
the one to a request that matches nothing, without an id, under both policies
over ads.
-/

namespace ClientServer

/-- The id of a request, up to its bracket. -/
def requestId (input : Bytes) : Option Bytes :=
  (Text.find (bytes "]") input).map fun pos => input.take (pos + 1)

/-- A reply that begins with the id of the request and says that the request is
invalid, not that nothing matches. -/
structure ReportedInvalid (input reply : Bytes) : Prop where
  id : ∃ _id ∈ requestId input, _id <+: reply
  marker : INVALID_REQUEST <:+: reply
  noAnswer : ¬ EMPTY_REPLY <:+: reply

/-- A request with an id and without a size. -/
structure WithoutSize (_useRegex : Bool) (input : Bytes) : Prop where
  bracket : input.head? = some 91
  closed : bytes "]" <:+: input
  sizeKey : createSizeKey _useRegex input = .ok ZERO_SIZE

theorem WithoutSize.ne_nil {_useRegex : Bool} {input : Bytes} (h : WithoutSize _useRegex input) :
    input ≠ [] := by
  intro hnil
  have hbracket := h.bracket
  rw [hnil] at hbracket
  exact absurd hbracket (by simp)

namespace Transaction

theorem init_zero_size (input : Bytes) (statics : Statics) :
    init ZERO_SIZE input statics =
      ({ _sizeKey := ZERO_SIZE, _invalid := true }, clear statics) := by
  simp [init]

/-- Nothing matches a request without keywords. -/
theorem matchAds_clear (adVector : List Ad) (transaction : Transaction) (statics : Statics) :
    matchAds adVector transaction (clear statics) =
      ({ transaction with _noMatch := true }, clear statics) := by
  rw [matchAds_of_no_keywords adVector transaction rfl]
  rfl

/-- The reply to a request without a size, whatever the ads are. -/
def zeroSizeReply (diagnostics : Bool) : Bytes :=
  if diagnostics then
    bytes " Transaction size=0x0 #matches=0\n\nrequest keywords:\nmatching ads:\nsummary:" ++
      EMPTY_REPLY ++ bytes "*****\n"
  else bytes " " ++ EMPTY_REPLY

theorem reply_zero_size (moneyText : Int → Bytes) (adVector : List Ad) (diagnostics : Bool)
    (statics : Statics) :
    (reply moneyText adVector diagnostics { _sizeKey := ZERO_SIZE, _invalid := true }
      (clear statics)).1 = zeroSizeReply diagnostics := by
  rw [reply, matchAds_clear]
  cases diagnostics with
  | true =>
      simp only [clear, printDiagnostics, printRequestData, printMatchingAds, if_true]
      decide +kernel
  | false => simp [clear, zeroSizeReply]

end Transaction

/-- The reply begins with a blank, and an id with a bracket. -/
theorem not_reportedInvalid_zeroSizeReply {_useRegex : Bool} {input : Bytes}
    (h : WithoutSize _useRegex input) (diagnostics : Bool) :
    ¬ ReportedInvalid input (Transaction.zeroSizeReply diagnostics) := by
  rintro ⟨⟨_id, hid, tail, htail⟩, -, -⟩
  obtain ⟨pos, -, rfl⟩ := Option.map_eq_some_iff.mp hid
  obtain ⟨rest, hinput⟩ := List.head?_eq_some_iff.mp h.bracket
  have hhead := congrArg List.head? htail
  rw [hinput, List.take_succ_cons, List.cons_append, List.head?_cons] at hhead
  cases diagnostics <;> exact absurd hhead (by decide)

/-- A request without a size is never reported as invalid: under both policies
the reply is the same fixed text, without an id and without the marker. -/
theorem never_reportedInvalid (moneyText : Int → Bytes) (_mapBySize : SizeMap) (_useRegex : Bool)
    {input : Bytes} (h : WithoutSize _useRegex input) (diagnostics : Bool)
    (locals : ThreadLocals) {policy : Policy ThreadLocals}
    (hpolicy : policy = SortInputPolicy moneyText _mapBySize ∨
      policy = NoSortInputPolicy moneyText _mapBySize _useRegex) :
    ∃ locals', policy { _sizeKey := ZERO_SIZE, _input := input } diagnostics locals =
        .ok (Transaction.zeroSizeReply diagnostics, locals') ∧
      ¬ INVALID_REQUEST <:+: Transaction.zeroSizeReply diagnostics ∧
      ¬ ReportedInvalid input (Transaction.zeroSizeReply diagnostics) := by
  have hmarker : ¬ INVALID_REQUEST <:+: Transaction.zeroSizeReply diagnostics := by
    cases diagnostics <;> decide +kernel
  have hnot := not_reportedInvalid_zeroSizeReply h diagnostics
  rcases hpolicy with rfl | rfl
  · refine ⟨_, congrArg Except.ok (Prod.ext ?_ rfl), hmarker, hnot⟩
    simp only [Transaction.processRequestSort, Transaction.init_zero_size, h.ne_nil, if_false]
    exact Transaction.reply_zero_size moneyText _ diagnostics locals.statics
  · have hreply : ∃ locals', NoSortInputPolicy moneyText _mapBySize _useRegex
        { _sizeKey := ZERO_SIZE, _input := input } diagnostics locals =
          .ok (Transaction.zeroSizeReply diagnostics, locals') := by
      rw [← Transaction.reply_zero_size moneyText _ diagnostics locals.statics]
      simp only [NoSortInputPolicy, Transaction.processRequestNoSort, h.sizeKey,
        Outcome.ok_bind, Transaction.init_zero_size, h.ne_nil, if_false]
      exact ⟨_, rfl⟩
    obtain ⟨locals', hreply⟩ := hreply
    exact ⟨locals', hreply, hmarker, hnot⟩

theorem never_reportedInvalid_kippa :
    ∃ locals', NoSortInputPolicy intText [] false
        { _sizeKey := ZERO_SIZE, _input := bytes "[0]kw=kippa" } true .initial =
        .ok (Transaction.zeroSizeReply true, locals') ∧
      ¬ INVALID_REQUEST <:+: Transaction.zeroSizeReply true ∧
      ¬ ReportedInvalid (bytes "[0]kw=kippa") (Transaction.zeroSizeReply true) :=
  never_reportedInvalid intText [] false ⟨by decide, by decide, by decide⟩ true .initial (.inr rfl)

/-- A request without a size gets the answer of one that matches nothing. -/
theorem kippa_not_reportedInvalid :
    WithoutSize false (bytes "[0]kw=kippa") ∧
      ∃ reply locals', NoSortInputPolicy intText [] false
        { _sizeKey := ZERO_SIZE, _input := bytes "[0]kw=kippa" } false .initial =
          .ok (reply, locals') ∧
        reply = bytes " 0, 0.0\n" ∧ ¬ ReportedInvalid (bytes "[0]kw=kippa") reply := by
  refine ⟨⟨by decide, by decide, by decide⟩, _, _, rfl, by decide +kernel, ?_⟩
  rintro ⟨-, hmarker, -⟩
  exact absurd hmarker (by decide +kernel)

end ClientServer
