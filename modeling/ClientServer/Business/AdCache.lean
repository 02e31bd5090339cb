import ClientServer.Business.Transaction

/-!
# The caches do not show

A thread starts with no ads under the size zero, which may not be what the table
says about that size.  So a cache is *coherent* where it agrees with the table or
still stands under the size zero.  That is enough: a request of size zero is
invalid, keeps no keywords and matches no ads whatever the cache holds.
-/

namespace ClientServer

open Transaction

variable {moneyText : Int → Bytes} {_mapBySize : SizeMap}

/-- The reply to a request when the ads are looked up for it. -/
def uncachedReply (moneyText : Int → Bytes) (_mapBySize : SizeMap) (sizeKey : SIZETUPLE)
    (input : Bytes) (diagnostics : Bool) : Bytes :=
  let (transaction, statics) := init sizeKey input ThreadLocals.initial.statics
  if input = [] then (replyEmpty statics).1
  else (reply moneyText (getAdsBySize _mapBySize sizeKey) diagnostics transaction statics).1

/-! ## One transaction -/

/-- What earlier transactions left in the static members is cleared. -/
theorem init_eq_init (sizeKey : SIZETUPLE) (input : Bytes) (statics statics' : Statics) :
    init sizeKey input statics = init sizeKey input statics' := rfl

theorem set_intersection_nil (bids : List AdBid) : set_intersection bids [] = [] := by
  cases bids <;> simp [set_intersection]

/-- Without keywords no ad matches. -/
theorem matchAds_of_no_keywords (adVector : List Ad) (transaction : Transaction)
    {statics : Statics} (h : statics._keywords = []) :
    matchAds adVector transaction statics = matchAds [] transaction statics := by
  have hnone : (adVector.flatMap fun ad =>
      (set_intersection ad._bids statics._keywords).map fun bid => (ad, bid)) = [] := by
    simp [h, set_intersection_nil]
  simp only [matchAds, hnone, List.flatMap_nil]

/-- A request of size zero is answered without any ads. -/
theorem reply_zero (adVector : List Ad) (input : Bytes) (diagnostics : Bool) (statics : Statics) :
    reply moneyText adVector diagnostics (init ZERO_SIZE input statics).1
        (init ZERO_SIZE input statics).2 =
      reply moneyText [] diagnostics (init ZERO_SIZE input statics).1
        (init ZERO_SIZE input statics).2 := by
  have hkeywords : (init ZERO_SIZE input statics).2._keywords = [] := rfl
  simp only [reply, matchAds_of_no_keywords adVector _ hkeywords]

/-! ## Coherent caches -/

/-- The cache holds the ads of its size, or has not left the size zero. -/
def AdCache.Coherent (_mapBySize : SizeMap) (cache : AdCache) : Prop :=
  cache.prevKey = ZERO_SIZE ∨ cache.adVector = getAdsBySize _mapBySize cache.prevKey

theorem AdCache.coherent_update {cache : AdCache} (h : cache.Coherent _mapBySize)
    (sizeKey : SIZETUPLE) : (cache.update _mapBySize sizeKey).Coherent _mapBySize := by
  unfold AdCache.update
  split
  · exact .inr rfl
  · exact h

/-- A coherent cache holds the ads of the size it was updated to, up to ads that
nobody looks at. -/
theorem AdCache.adVector_update {cache : AdCache} (h : cache.Coherent _mapBySize)
    (sizeKey : SIZETUPLE) :
    sizeKey = ZERO_SIZE ∨
      (cache.update _mapBySize sizeKey).adVector = getAdsBySize _mapBySize sizeKey := by
  unfold AdCache.update
  split
  · exact .inr rfl
  · next hsame =>
      rw [ne_eq, not_not] at hsame
      subst hsame
      exact h

/-- The reply from a coherent cache is the reply without one. -/
theorem reply_of_coherent {cache : AdCache} (h : cache.Coherent _mapBySize) (sizeKey : SIZETUPLE)
    {input : Bytes} (hne : input ≠ []) (diagnostics : Bool) (statics : Statics) :
    (reply moneyText (cache.update _mapBySize sizeKey).adVector diagnostics
        (init sizeKey input statics).1 (init sizeKey input statics).2).1 =
      uncachedReply moneyText _mapBySize sizeKey input diagnostics := by
  simp only [uncachedReply, if_neg hne]
  rw [init_eq_init sizeKey input statics ThreadLocals.initial.statics]
  rcases AdCache.adVector_update h sizeKey with rfl | hads
  · rw [reply_zero, reply_zero (getAdsBySize _mapBySize ZERO_SIZE)]
  · rw [hads]

/-! ## The entry points -/

section EntryPoints

variable (moneyText)

/-- Both caches of a thread are coherent. -/
structure ThreadLocals.Coherent (_mapBySize : SizeMap) (locals : ThreadLocals) : Prop where
  sort : locals.sort.Coherent _mapBySize
  noSort : locals.noSort.Coherent _mapBySize

theorem ThreadLocals.coherent_initial : ThreadLocals.initial.Coherent _mapBySize :=
  ⟨.inl rfl, .inl rfl⟩

theorem processRequestSort_eq {locals : ThreadLocals} (h : locals.Coherent _mapBySize)
    (sizeKey : SIZETUPLE) (request : Request) (diagnostics : Bool) :
    (processRequestSort moneyText _mapBySize sizeKey request diagnostics locals).1 =
      uncachedReply moneyText _mapBySize sizeKey request._input diagnostics ∧
    (processRequestSort moneyText _mapBySize sizeKey request diagnostics locals).2.Coherent
      _mapBySize := by
  by_cases hempty : request._input = []
  · simp only [processRequestSort, uncachedReply, hempty, if_true]
    exact ⟨rfl, h.sort, h.noSort⟩
  · simp only [processRequestSort, hempty, if_false]
    exact ⟨reply_of_coherent h.sort sizeKey hempty diagnostics locals.statics,
      AdCache.coherent_update h.sort sizeKey, h.noSort⟩

/-- An unsorted request whose text has a key: the transaction goes by that key,
the cache by the key of the request. -/
theorem processRequestNoSort_of_key {_useRegex : Bool} {request : Request} {sizeKey : SIZETUPLE}
    (hkey : createSizeKey _useRegex request._input = .ok sizeKey) (diagnostics : Bool)
    (locals : ThreadLocals) :
    processRequestNoSort moneyText _mapBySize _useRegex request diagnostics locals =
      .ok (if request._input = [] then
        ((replyEmpty (init sizeKey request._input locals.statics).2).1,
          { locals with statics := (replyEmpty (init sizeKey request._input locals.statics).2).2 })
      else
        ((reply moneyText (locals.noSort.update _mapBySize request._sizeKey).adVector diagnostics
            (init sizeKey request._input locals.statics).1
            (init sizeKey request._input locals.statics).2).1,
          { locals with
            statics := (reply moneyText (locals.noSort.update _mapBySize request._sizeKey).adVector
              diagnostics (init sizeKey request._input locals.statics).1
              (init sizeKey request._input locals.statics).2).2
            noSort := locals.noSort.update _mapBySize request._sizeKey })) := by
  by_cases hempty : request._input = []
  · simp only [processRequestNoSort, hkey, Outcome.ok_bind, if_pos hempty]
    rfl
  · simp only [processRequestNoSort, hkey, Outcome.ok_bind, if_neg hempty]
    rfl

/-- Where the key of the request is the one of its text, computing it once more
changes nothing. -/
theorem processRequestNoSort_eq {locals : ThreadLocals} (h : locals.Coherent _mapBySize)
    {_useRegex : Bool} {request : Request}
    (hkey : createSizeKey _useRegex request._input = .ok request._sizeKey) (diagnostics : Bool) :
    ∃ locals', locals'.Coherent _mapBySize ∧
      processRequestNoSort moneyText _mapBySize _useRegex request diagnostics locals =
        .ok (uncachedReply moneyText _mapBySize request._sizeKey request._input diagnostics,
          locals') := by
  rw [processRequestNoSort_of_key moneyText hkey diagnostics locals]
  by_cases hempty : request._input = []
  · have hreply : (replyEmpty (init request._sizeKey request._input locals.statics).2).1 =
        uncachedReply moneyText _mapBySize request._sizeKey request._input diagnostics := by
      simp only [uncachedReply, if_pos hempty]
      rfl
    rw [if_pos hempty, hreply]
    refine ⟨_, ?_, rfl⟩
    exact ⟨h.sort, h.noSort⟩
  · rw [if_neg hempty,
      reply_of_coherent h.noSort request._sizeKey hempty diagnostics locals.statics]
    refine ⟨_, ?_, rfl⟩
    exact ⟨h.sort, AdCache.coherent_update h.noSort request._sizeKey⟩

/-- The request that has no key of its own ends the process. -/
theorem processRequestNoSort_of_error {_useRegex : Bool} {request : Request} {ec : Errc}
    (hkey : createSizeKey _useRegex request._input = .error (.errorString ec))
    (diagnostics : Bool) (locals : ThreadLocals) :
    processRequestNoSort moneyText _mapBySize _useRegex request diagnostics locals =
      .error .terminate := by
  simp only [processRequestNoSort, hkey, Outcome.error_bind]
  rfl

end EntryPoints

/-! ## Threads that have worked before -/

section Reachable

variable (moneyText : Int → Bytes) (_mapBySize : SizeMap) (_useRegex : Bool)

/-- The static members of a thread after any number of requests. -/
inductive ThreadLocals.Reachable : ThreadLocals → Prop where
  | initial : Reachable .initial
  | sort {locals : ThreadLocals} (request : Request) (diagnostics : Bool) :
      Reachable locals → Reachable
        (processRequestSort moneyText _mapBySize request._sizeKey request diagnostics locals).2
  | noSort {locals locals' : ThreadLocals} {request : Request} {diagnostics : Bool}
      {reply : Bytes} :
      Reachable locals →
      processRequestNoSort moneyText _mapBySize _useRegex request diagnostics locals =
        .ok (reply, locals') →
      Reachable locals'
  | echo {locals : ThreadLocals} (_buffer : Bytes) :
      Reachable locals → Reachable { locals with _buffer }

variable {moneyText _mapBySize _useRegex}

/-- An unsorted request keeps both caches coherent, also under a key that is not
the one of its text. -/
theorem coherent_processRequestNoSort {locals locals' : ThreadLocals}
    (h : locals.Coherent _mapBySize) {request : Request} {diagnostics : Bool} {reply : Bytes}
    (hreply : processRequestNoSort moneyText _mapBySize _useRegex request diagnostics locals =
      .ok (reply, locals')) : locals'.Coherent _mapBySize := by
  rcases createSizeKey_cases _useRegex request._input with ⟨-, sizeKey, hkey⟩ | ⟨-, ec, herror⟩
  · rw [processRequestNoSort_of_key moneyText hkey] at hreply
    have hpair := Except.ok.inj hreply
    split at hpair
    · obtain rfl : _ = locals' := congrArg Prod.snd hpair
      exact ⟨h.sort, h.noSort⟩
    · obtain rfl : _ = locals' := congrArg Prod.snd hpair
      exact ⟨h.sort, AdCache.coherent_update h.noSort request._sizeKey⟩
  · rw [processRequestNoSort_of_error moneyText herror] at hreply
    exact absurd hreply (by simp)

theorem ThreadLocals.Reachable.coherent {locals : ThreadLocals}
    (h : locals.Reachable moneyText _mapBySize _useRegex) : locals.Coherent _mapBySize := by
  induction h with
  | initial => exact ThreadLocals.coherent_initial
  | sort request diagnostics _ ih =>
      exact (processRequestSort_eq moneyText ih request._sizeKey request diagnostics).2
  | noSort _ hreply ih => exact coherent_processRequestNoSort ih hreply
  | echo _ _ ih => exact ⟨ih.sort, ih.noSort⟩

end Reachable

end ClientServer
