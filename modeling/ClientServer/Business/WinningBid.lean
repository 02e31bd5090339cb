import ClientServer.Business.AdsFile
import ClientServer.Business.AdCache
import ClientServer.Business.Keywords
import ClientServer.Library.FirstMax

/-!
# The winning bid

A request wins the highest of the bids, over all ads of its size, whose keyword is
one of its own.  The code copies the bids of each ad with `std::set_intersection`
and takes the first of the largest copies, in amounts narrowed to `int`.  Two
things can get lost: a request that names a keyword once copies only the first bid
of an ad with this keyword, and an amount from 2^31 on changes when it is narrowed.
`winningBid_iff` says for the lines of a file and the text of a request when the
winner is the rightful one.
-/

namespace ClientServer

/-! ## The rightful winner -/

/-- The ads of a size, in the order of their lines. -/
def Ad.ofSize (toCents : Bytes → Except Errc Int) (bidSort : BidSort) (file : Bytes)
    (key : SIZETUPLE) : List Ad :=
  (accepted toCents bidSort (linesInFront file)).filter fun ad => ad._sizeKey = key

/-- The bids of an ad that a request asks for. -/
def eligible (keywords : List Bytes) (ad : Ad) : List AdBid :=
  ad._bids.filter fun bid => bid._keyword ∈ keywords

/-- A largest bid, of the earliest ad that has one. -/
def IsWinner (ads : List Ad) (keywords : List Bytes) (winner : Match) : Prop :=
  (∃ front, front ++ [winner.1] <+: ads ∧ winner.2 ∈ eligible keywords winner.1 ∧
    ∀ ad ∈ front, ∀ bid ∈ eligible keywords ad, bid._money < winner.2._money) ∧
  ∀ ad ∈ ads, ∀ bid ∈ eligible keywords ad, bid._money ≤ winner.2._money

/-- There is a winner exactly if there is an eligible bid, and it is a rightful one. -/
def WonRightly (ads : List Ad) (keywords : List Bytes) (winner : Option Match) : Prop :=
  (winner = none ↔ ∀ ad ∈ ads, eligible keywords ad = []) ∧
    ∀ best, winner = some best → IsWinner ads keywords best

/-! ## What can get lost -/

/-- Of the bids with one keyword the code considers the first as many as the request
names it. -/
def Considered (keywords : List Bytes) (bids : List AdBid) (bid : AdBid) : Prop :=
  ∃ before, before ++ [bid] <+: bids ∧
    before.countP (fun bid' => bid'._keyword = bid._keyword) < keywords.count bid._keyword

/-- An amount that an `int` holds. -/
def FitsInt (money : Int) : Prop := -2 ^ 31 ≤ money ∧ money < 2 ^ 31

instance (money : Int) : Decidable (FitsInt money) := inferInstanceAs (Decidable (_ ∧ _))

/-- A largest bid of the earliest ad that has one, at a place where the code considers
it, and no amount that changes when it is narrowed takes the win away. -/
structure Prevails (ads : List Ad) (keywords : List Bytes) (front : List Ad) (ad : Ad)
    (before : List AdBid) (bid : AdBid) : Prop where
  ad_at : front ++ [ad] <+: ads
  bid_at : before ++ [bid] <+: ad._bids
  named : before.countP (fun bid' => bid'._keyword = bid._keyword) < keywords.count bid._keyword
  largest : ∀ ad' ∈ ads, ∀ bid' ∈ eligible keywords ad', bid'._money ≤ bid._money
  earliest : ∀ ad' ∈ front, ∀ bid' ∈ eligible keywords ad', bid'._money < bid._money
  narrowed : ∀ ad' ∈ ads, ∀ bid', Considered keywords ad'._bids bid' →
    ¬ (FitsInt bid'._money ∧ FitsInt bid._money) →
    Transaction.intOfLong bid'._money ≤ Transaction.intOfLong bid._money
  narrowedFront : ∀ ad' ∈ front, ∀ bid', Considered keywords ad'._bids bid' →
    ¬ (FitsInt bid'._money ∧ FitsInt bid._money) →
    Transaction.intOfLong bid'._money < Transaction.intOfLong bid._money
  narrowedBefore : ∀ bid', Considered keywords before bid' →
    ¬ (FitsInt bid'._money ∧ FitsInt bid._money) →
    Transaction.intOfLong bid'._money < Transaction.intOfLong bid._money

/-! ## What is copied -/

/-- Of the bids with a keyword, the first as many as the request names it. -/
def copied : (bids : List AdBid) → (keywords : List Bytes) → List AdBid
  | [], _ => []
  | bid :: bids, keywords =>
      if bid._keyword ∈ keywords then bid :: copied bids (keywords.erase bid._keyword)
      else copied bids keywords

/-- The copies of all ads. -/
def copies (ads : List Ad) (keywords : List Bytes) : List Match :=
  ads.flatMap fun ad => (copied ad._bids keywords).map fun bid => (ad, bid)

theorem copied_cons_of_ne {bids : List AdBid} {keyword : Bytes}
    (h : ∀ bid ∈ bids, bid._keyword ≠ keyword) (keywords : List Bytes) :
    copied bids (keyword :: keywords) = copied bids keywords := by
  induction bids generalizing keywords with
  | nil => rfl
  | cons bid bids ih =>
      rw [List.forall_mem_cons] at h
      have hne : (keyword == bid._keyword) = false := by simpa using Ne.symm h.1
      rw [copied, copied, List.erase_cons, hne, if_neg Bool.false_ne_true, ih h.2, ih h.2]
      simp only [List.mem_cons, h.1, false_or]

theorem copied_nil (bids : List AdBid) : copied bids [] = [] := by
  induction bids with
  | nil => rfl
  | cons bid bids ih => rw [copied, if_neg List.not_mem_nil, ih]

/-- The first bid a request asks for is copied. -/
theorem copied_eq_nil_iff {bids : List AdBid} {keywords : List Bytes} :
    copied bids keywords = [] ↔ ∀ bid ∈ bids, bid._keyword ∉ keywords := by
  induction bids with
  | nil => simp [copied]
  | cons bid bids ih =>
      rw [copied, List.forall_mem_cons]
      by_cases hmem : bid._keyword ∈ keywords
      · simp [hmem]
      · simp [hmem, ih]

/-- The order of the keywords does not count. -/
theorem copied_perm (bids : List AdBid) {keywords keywords' : List Bytes}
    (h : keywords.Perm keywords') : copied bids keywords = copied bids keywords' := by
  induction bids generalizing keywords keywords' with
  | nil => rfl
  | cons bid bids ih => simp only [copied, h.mem_iff, ih h, ih (h.erase bid._keyword)]

/-- A copy uses up one of its keywords. -/
theorem countP_cons_lt_iff {keywords : List Bytes} {first bid : AdBid}
    (hmem : first._keyword ∈ keywords) (before : List AdBid) :
    (first :: before).countP (fun bid' => bid'._keyword = bid._keyword) <
        keywords.count bid._keyword ↔
      before.countP (fun bid' => bid'._keyword = bid._keyword) <
        (keywords.erase first._keyword).count bid._keyword := by
  have hpos : 0 < keywords.count first._keyword := List.count_pos_iff.mpr hmem
  rw [List.countP_cons, List.count_erase]
  by_cases hsame : first._keyword = bid._keyword
  · rw [hsame] at hpos
    simp only [hsame, beq_self_eq_true, if_true, decide_true]
    omega
  · have hbeq : (first._keyword == bid._keyword) = false := by simpa using hsame
    simp only [hsame, hbeq, decide_false, Bool.false_eq_true, if_false]
    omega

/-- A copy is a bid that the code considers, and in front of it are the copies of the
bids in front. -/
theorem copied_eq_append_cons {bids front behind : List AdBid} {bid : AdBid}
    {keywords : List Bytes} (h : copied bids keywords = front ++ bid :: behind) :
    ∃ before, before ++ [bid] <+: bids ∧ copied before keywords = front ∧
      before.countP (fun bid' => bid'._keyword = bid._keyword) < keywords.count bid._keyword := by
  induction bids generalizing keywords front with
  | nil => simp [copied] at h
  | cons first bids ih =>
      rw [copied] at h
      split at h
      next hmem =>
        cases front with
        | nil =>
            obtain ⟨rfl, -⟩ := List.cons.inj h
            exact ⟨[], List.prefix_append [first] bids, rfl, List.count_pos_iff.mpr hmem⟩
        | cons copy front =>
            obtain ⟨rfl, hrest⟩ := List.cons.inj h
            obtain ⟨before, hbefore, hcopied, hcount⟩ := ih hrest
            refine ⟨first :: before, (List.prefix_cons_inj first).mpr hbefore, ?_,
              (countP_cons_lt_iff hmem before).mpr hcount⟩
            rw [copied, if_pos hmem, hcopied]
      next hmem =>
        obtain ⟨before, hbefore, hcopied, hcount⟩ := ih h
        refine ⟨first :: before, (List.prefix_cons_inj first).mpr hbefore, ?_, ?_⟩
        · rw [copied, if_neg hmem, hcopied]
        · have hother : first._keyword ≠ bid._keyword := by
            intro hsame
            rw [← hsame, List.count_eq_zero.mpr hmem] at hcount
            exact Nat.not_lt_zero _ hcount
          rw [List.countP_cons]
          simpa [hother] using hcount

/-- The copies are the bids that the code considers. -/
theorem mem_copied_iff {bids : List AdBid} {keywords : List Bytes} {bid : AdBid} :
    bid ∈ copied bids keywords ↔ Considered keywords bids bid := by
  constructor
  · intro hmem
    obtain ⟨front, behind, heq⟩ := List.append_of_mem hmem
    obtain ⟨before, hbefore, -, hcount⟩ := copied_eq_append_cons heq
    exact ⟨before, hbefore, hcount⟩
  · rintro ⟨before, ⟨after, rfl⟩, hcount⟩
    induction before generalizing keywords with
    | nil =>
        have hmem : bid._keyword ∈ keywords := List.count_pos_iff.mp hcount
        rw [List.nil_append, List.singleton_append, copied, if_pos hmem]
        exact List.mem_cons_self
    | cons first before ih =>
        rw [List.cons_append, List.cons_append, copied]
        split
        next hmem => exact List.mem_cons_of_mem _ (ih ((countP_cons_lt_iff hmem before).mp hcount))
        next =>
          rw [List.countP_cons] at hcount
          exact ih (Nat.lt_of_le_of_lt (Nat.le_add_right _ _) hcount)

theorem mem_copies_iff {ads : List Ad} {keywords : List Bytes} {m : Match} :
    m ∈ copies ads keywords ↔ m.1 ∈ ads ∧ Considered keywords m.1._bids m.2 := by
  obtain ⟨ad, bid⟩ := m
  rw [copies, List.mem_flatMap, ← mem_copied_iff]
  constructor
  · rintro ⟨ad', had', hbid⟩
    obtain ⟨bid', hbid', heq⟩ := List.mem_map.mp hbid
    obtain ⟨rfl, rfl⟩ := Prod.mk.inj heq
    exact ⟨had', hbid'⟩
  · rintro ⟨had, hbid⟩
    exact ⟨ad, had, List.mem_map.mpr ⟨bid, hbid, rfl⟩⟩

theorem Considered.eligible {keywords : List Bytes} {ad : Ad} {bid : AdBid}
    (h : Considered keywords ad._bids bid) : bid ∈ eligible keywords ad := by
  obtain ⟨before, hbefore, hcount⟩ := h
  have hmem : bid ∈ ad._bids := hbefore.subset (by simp)
  exact List.mem_filter.mpr
    ⟨hmem, decide_eq_true (List.count_pos_iff.mp (Nat.zero_lt_of_lt hcount))⟩

/-! ## Sorted ranges -/

/-- The order the bids of an ad stand in. -/
def SortedBids (bids : List AdBid) : Prop :=
  bids.Pairwise fun bid1 bid2 => ¬ bid2._keyword < bid1._keyword

/-- For sorted ranges `std::set_intersection` copies what it is meant to. -/
theorem Transaction.set_intersection_eq {bids : List AdBid} {keywords : List Bytes}
    (hbids : SortedBids bids) (hkeywords : keywords.Pairwise (· ≤ ·)) :
    set_intersection bids keywords = copied bids keywords := by
  induction bids, keywords using set_intersection.induct with
  | case1 keywords => simp [set_intersection, copied]
  | case2 bids => simp [set_intersection_nil, copied_nil]
  | case3 bid bids keyword keywords hlt ih =>
      have hnot : bid._keyword ∉ keyword :: keywords := by
        intro hmem
        rcases List.mem_cons.mp hmem with heq | hmem
        · exact List.lt_irrefl _ (heq ▸ hlt)
        · exact List.rel_of_pairwise_cons hkeywords hmem hlt
      rw [set_intersection, if_pos hlt, ih (List.Pairwise.of_cons hbids) hkeywords, copied,
        if_neg hnot]
  | case4 bid bids keyword keywords hnlt hlt ih =>
      have hne : ∀ bid' ∈ bid :: bids, bid'._keyword ≠ keyword := by
        intro bid' hbid' heq
        rcases List.mem_cons.mp hbid' with rfl | hbid'
        · exact List.lt_irrefl _ (heq ▸ hlt)
        · exact List.rel_of_pairwise_cons hbids hbid' (heq ▸ hlt)
      rw [set_intersection, if_neg hnlt, if_pos hlt, ih hbids hkeywords.of_cons,
        copied_cons_of_ne hne]
  | case5 bid bids keyword keywords hnlt hnlt' ih =>
      obtain rfl : bid._keyword = keyword :=
        List.le_antisymm (List.not_lt.mp hnlt') (List.not_lt.mp hnlt)
      rw [set_intersection, if_neg hnlt, if_neg hnlt', ih (List.Pairwise.of_cons hbids)
        hkeywords.of_cons, copied, if_pos List.mem_cons_self, List.erase_cons_head]

theorem Transaction.sorted_breakKeywords (kwStr : Bytes) :
    (breakKeywords [] kwStr).Pairwise (· ≤ ·) := by
  refine (List.pairwise_mergeSort (fun a b c hab hbc => ?_) (fun a b => ?_) _).imp
    of_decide_eq_true
  · rw [decide_eq_true_eq] at hab hbc ⊢
    exact List.le_trans hab hbc
  · rw [Bool.or_eq_true, decide_eq_true_eq, decide_eq_true_eq]
    exact List.le_total a b

theorem Transaction.sorted_parseKeywords {_request start : Bytes} {keywords : List Bytes}
    (h : parseKeywords [] _request start = some keywords) : keywords.Pairwise (· ≤ ·) := by
  unfold parseKeywords at h
  split at h
  · simp at h
  · obtain rfl := Option.some.inj h
    exact sorted_breakKeywords _

/-- The keywords of a request are sorted. -/
theorem Transaction.sorted_keywords (sizeKey : SIZETUPLE) (input : Bytes) (statics : Statics) :
    (init sizeKey input statics).2._keywords.Pairwise (· ≤ ·) := by
  unfold init
  split
  · exact .nil
  · split
    · dsimp only [clear]
      split
      · next hfirst => exact sorted_parseKeywords hfirst
      · next pos rest _ _ _ =>
          cases hsecond : parseKeywords []
            ((91 :: rest).drop ((91 :: rest).take (pos + 1)).length) START_KEYWORDS2 with
          | none => exact .nil
          | some keywords => exact sorted_parseKeywords hsecond
    · exact .nil

section Table

variable {toCents : Bytes → Except Errc Int} {bidSort : BidSort}

theorem Ad.sortedBids_of_parse {line : Bytes} {ad : Ad} (h : parse toCents bidSort line = .ok ad) :
    SortedBids ad._bids := by
  unfold parse at h
  obtain ⟨attributes, -, h⟩ := Outcome.bind_eq_ok.mp h
  cases attributes with
  | none => exact absurd h (by simp [throw, throwThe, MonadExceptOf.throw])
  | some attributes =>
      obtain ⟨_bids, hbids, h⟩ := Outcome.bind_eq_ok.mp h
      obtain ⟨pairs, -, hsort⟩ := Outcome.bind_eq_ok.mp hbids
      obtain rfl := Except.ok.inj h
      obtain rfl := Except.ok.inj hsort
      exact bidSort.sorted pairs

/-- The bids of every ad of a file are sorted. -/
theorem Ad.sortedBids_ofSize (file : Bytes) (key : SIZETUPLE) :
    ∀ ad ∈ ofSize toCents bidSort file key, SortedBids ad._bids := by
  intro ad had
  obtain ⟨line, -, hline⟩ := List.mem_filterMap.mp (List.mem_filter.mp had).1
  cases hparse : parse toCents bidSort line with
  | ok ad' =>
      rw [hparse] at hline
      obtain rfl : ad' = ad := Option.some.inj hline
      exact sortedBids_of_parse hparse
  | error fault =>
      rw [hparse] at hline
      simp [Except.toOption] at hline

/-- The table has the ads of the lines. -/
theorem Ad.getAdsBySize_of_readAds {_buffer file : Bytes} {map : SizeMap}
    (h : readAds toCents bidSort _buffer (some file) = some (.ok map)) (key : SIZETUPLE) :
    getAdsBySize map key = ofSize toCents bidSort file key := by
  rw [eq_table_of_readAds h, getAdsBySize_table, getAdsBySize_nil, List.nil_append, ofSize]

end Table

/-! ## The winner of the code -/

/-- `_winningBid` after `matchAds`. -/
def winningBid (_mapBySize : SizeMap) (sizeKey : SIZETUPLE) (input : Bytes) : Option Match :=
  let (transaction, statics) := Transaction.init sizeKey input ThreadLocals.initial.statics
  (Transaction.matchAds (getAdsBySize _mapBySize sizeKey) transaction statics).1._winningBid

/-- The amount of a bid as `findWinningBid` compares it. -/
def intMoney (bid : Match) : Int := Transaction.intOfLong bid.2._money

/-- The reply that names a winner. -/
def winnerText (moneyText : Int → Bytes) (_id : Bytes) (winner : Option Match) : Bytes :=
  _id ++ bytes " " ++ winner.elim EMPTY_REPLY fun winning =>
    winning.1._id ++ bytes ", " ++ moneyText winning.2._money ++ bytes "\n"

namespace Transaction

/-- The constructors leave no match behind. -/
theorem init_fresh (sizeKey : SIZETUPLE) (input : Bytes) (statics : Statics) :
    (init sizeKey input statics).1._winningBid = none ∧
      (init sizeKey input statics).1._noMatch = false ∧
      (init sizeKey input statics).2._bids = [] ∧
      (init sizeKey input statics).2._output = [] := by
  unfold init
  split
  · exact ⟨rfl, rfl, rfl, rfl⟩
  · split <;> exact ⟨rfl, rfl, rfl, rfl⟩

/-- Without diagnostics a reply names the winner. -/
theorem reply_winnerText (moneyText : Int → Bytes) (adVector : List Ad) {transaction : Transaction}
    {statics : Statics} (hwinning : transaction._winningBid = none)
    (hnoMatch : transaction._noMatch = false) (houtput : statics._output = []) :
    (reply moneyText adVector false transaction statics).1 = winnerText moneyText transaction._id
      (matchAds adVector transaction statics).1._winningBid := by
  cases hcopies : statics._bids ++ adVector.flatMap fun ad =>
      (set_intersection ad._bids statics._keywords).map fun bid => (ad, bid) with
  | nil =>
      simp only [reply, matchAds, hcopies]
      simp [houtput, hwinning, winnerText]
  | cons first rest =>
      simp only [reply, matchAds, hcopies]
      simp [houtput, hnoMatch, printSummary, winnerText]

/-- The loop of `findWinningBid` finds the first of the largest, as ints. -/
theorem findWinningBid_eq (first : Match) (rest : List Match) :
    findWinningBid first rest = FirstMax.firstMax intMoney first rest := by
  unfold findWinningBid FirstMax.firstMax
  induction rest generalizing first with
  | nil => rfl
  | cons bid rest ih =>
      rw [List.foldl_cons, List.foldl_cons]
      unfold intMoney at ih ⊢
      by_cases hlt : intOfLong first.2._money < intOfLong bid.2._money
      · simp only [hlt, if_true]
        exact ih bid
      · simp only [hlt, if_false]
        exact ih first

end Transaction

/-- The winner is the first of the largest copies. -/
theorem isFirstMax_winningBid {_mapBySize : SizeMap} {sizeKey : SIZETUPLE}
    (hsorted : ∀ ad ∈ getAdsBySize _mapBySize sizeKey, SortedBids ad._bids) {input : Bytes}
    {keywords : List Bytes}
    (hkeywords : (Transaction.init sizeKey input
      ThreadLocals.initial.statics).2._keywords.Perm keywords) :
    (winningBid _mapBySize sizeKey input = none ↔
        copies (getAdsBySize _mapBySize sizeKey) keywords = []) ∧
      ∀ best, winningBid _mapBySize sizeKey input = some best →
        FirstMax.IsFirstMax intMoney (copies (getAdsBySize _mapBySize sizeKey) keywords) best := by
  obtain ⟨hwinning, -, hbids, -⟩ :=
    Transaction.init_fresh sizeKey input ThreadLocals.initial.statics
  have hcopies : ((getAdsBySize _mapBySize sizeKey).flatMap fun ad =>
      (Transaction.set_intersection ad._bids (Transaction.init sizeKey input
        ThreadLocals.initial.statics).2._keywords).map fun bid => (ad, bid)) =
      copies (getAdsBySize _mapBySize sizeKey) keywords := by
    refine List.flatMap_congr fun ad had => ?_
    rw [Transaction.set_intersection_eq (hsorted ad had)
      (Transaction.sorted_keywords sizeKey input _), copied_perm _ hkeywords]
  simp only [winningBid, Transaction.matchAds, hbids, List.nil_append, hcopies]
  cases copies (getAdsBySize _mapBySize sizeKey) keywords with
  | nil => simp [hwinning]
  | cons first rest =>
      refine ⟨by simp, fun best hbest => ?_⟩
      rw [← Option.some.inj hbest, Transaction.findWinningBid_eq]
      exact FirstMax.isFirstMax_firstMax intMoney first rest

theorem eligible_eq_nil_iff {keywords : List Bytes} {ad : Ad} :
    eligible keywords ad = [] ↔ copied ad._bids keywords = [] := by
  rw [copied_eq_nil_iff, eligible, List.filter_eq_nil_iff]
  simp

/-- There are copies exactly if there are eligible bids. -/
theorem copies_eq_nil_iff {ads : List Ad} {keywords : List Bytes} :
    copies ads keywords = [] ↔ ∀ ad ∈ ads, eligible keywords ad = [] := by
  simp [copies, eligible_eq_nil_iff]

/-! ## Where the first of the largest copies stands -/

/-- Of two places in a list one is in front of the other, or they are the same. -/
theorem two_places {α : Type _} {list front front' : List α} {a a' : α}
    (h : front ++ [a] <+: list) (h' : front' ++ [a'] <+: list) :
    (front = front' ∧ a = a') ∨ front ++ [a] <+: front' ∨ front' ++ [a'] <+: front := by
  rcases List.prefix_or_prefix_of_prefix h h' with hle | hle
  · rcases List.prefix_concat_iff.mp hle with heq | hfront
    · exact .inl (List.append_inj' heq rfl |>.imp id List.singleton_inj.mp)
    · exact .inr (.inl hfront)
  · rcases List.prefix_concat_iff.mp hle with heq | hfront
    · exact .inl (List.append_inj' heq.symm rfl |>.imp id List.singleton_inj.mp)
    · exact .inr (.inr hfront)

/-- A first of the largest copies at its place. -/
structure CopiedFirst (ads : List Ad) (keywords : List Bytes) (front : List Ad)
    (before : List AdBid) (best : Match) : Prop where
  ad_at : front ++ [best.1] <+: ads
  bid_at : before ++ [best.2] <+: best.1._bids
  named : before.countP (fun bid' => bid'._keyword = best.2._keyword) <
    keywords.count best.2._keyword
  le : ∀ ad ∈ ads, ∀ bid, Considered keywords ad._bids bid →
    Transaction.intOfLong bid._money ≤ intMoney best
  front_lt : ∀ ad ∈ front, ∀ bid, Considered keywords ad._bids bid →
    Transaction.intOfLong bid._money < intMoney best
  before_lt : ∀ bid, Considered keywords before bid →
    Transaction.intOfLong bid._money < intMoney best

/-- By induction on the ads, up to the one it stands in. -/
theorem exists_copiedFirst {ads : List Ad} {keywords : List Bytes} {best : Match}
    (h : FirstMax.IsFirstMax intMoney (copies ads keywords) best) :
    ∃ front before, CopiedFirst ads keywords front before best := by
  have hle : ∀ ad ∈ ads, ∀ bid, Considered keywords ad._bids bid →
      Transaction.intOfLong bid._money ≤ intMoney best :=
    fun ad had bid hbid => h.le (ad, bid) (mem_copies_iff.mpr ⟨had, hbid⟩)
  induction ads with
  | nil => exact absurd h.mem List.not_mem_nil
  | cons ad ads ih =>
      rw [copies, List.flatMap_cons] at h
      rcases h.append_cases with hhere | ⟨hrest, hfront⟩
      · obtain ⟨bid, rfl, front, behind, heq, hlt, -⟩ := hhere.of_map
        obtain ⟨before, hbefore, rfl, hcount⟩ := copied_eq_append_cons heq
        exact ⟨[], before, List.prefix_append [ad] ads, hbefore, hcount, hle,
          fun _ hmem => absurd hmem List.not_mem_nil,
          fun bid' hbid' => hlt bid' (mem_copied_iff.mpr hbid')⟩
      · rw [List.forall_mem_cons] at hle
        obtain ⟨front, before, hplace⟩ := ih hrest hle.2
        refine ⟨ad :: front, before, (List.prefix_cons_inj ad).mpr hplace.ad_at, hplace.bid_at,
          hplace.named, List.forall_mem_cons.mpr hle, ?_, hplace.before_lt⟩
        rw [List.forall_mem_cons]
        refine ⟨fun bid hbid => ?_, hplace.front_lt⟩
        exact hfront (ad, bid) (List.mem_map.mpr ⟨bid, mem_copied_iff.mpr hbid, rfl⟩)

theorem intOfLong_of_fits {money : Int} (h : FitsInt money) :
    Transaction.intOfLong money = money := by
  obtain ⟨hlow, hhigh⟩ := h
  rw [Transaction.intOfLong, Int.bmod_eq_of_le]
  all_goals omega

section Winner

variable {ads front front' : List Ad} {keywords : List Bytes} {before before' : List AdBid}
  {ad : Ad} {bid : AdBid} {best : Match}

/-- What is first among the copies prevails if it is a rightful winner. -/
theorem CopiedFirst.prevails (h : CopiedFirst ads keywords front before best)
    (hwinner : IsWinner ads keywords best) :
    Prevails ads keywords front best.1 before best.2 := by
  obtain ⟨⟨front', hat', hbest, hearlier⟩, hlargest⟩ := hwinner
  have hconsidered : Considered keywords best.1._bids best.2 := ⟨before, h.bid_at, h.named⟩
  -- the two places are the same, as its ad is in front of neither
  obtain rfl : front = front' := by
    rcases two_places h.ad_at hat' with ⟨heq, -⟩ | hfront | hfront
    · exact heq
    · exact absurd (hearlier best.1 (hfront.subset (by simp)) best.2 hbest) (Int.lt_irrefl _)
    · exact absurd (h.front_lt best.1 (hfront.subset (by simp)) best.2 hconsidered)
        (Int.lt_irrefl _)
  exact {
    ad_at := h.ad_at
    bid_at := h.bid_at
    named := h.named
    largest := hlargest
    earliest := hearlier
    narrowed := fun ad' had' bid' hbid' _ => h.le ad' had' bid' hbid'
    narrowedFront := fun ad' had' bid' hbid' _ => h.front_lt ad' had' bid' hbid'
    narrowedBefore := fun bid' hbid' _ => h.before_lt bid' hbid' }

/-- Where a bid prevails, what is first among the copies is a rightful winner. -/
theorem Prevails.isWinner (h : Prevails ads keywords front ad before bid)
    (hfirst : CopiedFirst ads keywords front' before' best) : IsWinner ads keywords best := by
  have hbest : Considered keywords best.1._bids best.2 := ⟨before', hfirst.bid_at, hfirst.named⟩
  have hbid : Considered keywords ad._bids bid := ⟨before, h.bid_at, h.named⟩
  have hbestAd : best.1 ∈ ads := hfirst.ad_at.subset (by simp)
  have hle := hfirst.le ad (h.ad_at.subset (by simp)) bid hbid
  have hlargest := h.largest best.1 hbestAd best.2 hbest.eligible
  by_cases hfits : FitsInt best.2._money ∧ FitsInt bid._money
  · -- nothing changes: it has the same amount and is of the same ad
    rw [intMoney, intOfLong_of_fits hfits.1, intOfLong_of_fits hfits.2] at hle
    have hmoney : best.2._money = bid._money := Int.le_antisymm hlargest hle
    rcases two_places h.ad_at hfirst.ad_at with ⟨rfl, rfl⟩ | hfront | hfront
    · refine ⟨⟨front, h.ad_at, hbest.eligible, ?_⟩, ?_⟩
      · rw [hmoney]
        exact h.earliest
      · rw [hmoney]
        exact h.largest
    · have hlt := hfirst.front_lt ad (hfront.subset (by simp)) bid hbid
      rw [intMoney, intOfLong_of_fits hfits.1, intOfLong_of_fits hfits.2, hmoney] at hlt
      exact absurd hlt (Int.lt_irrefl _)
    · have hlt := h.earliest best.1 (hfront.subset (by simp)) best.2 hbest.eligible
      rw [hmoney] at hlt
      exact absurd hlt (Int.lt_irrefl _)
  · -- the bid itself is first, as neither takes the win from the other
    rcases two_places h.ad_at hfirst.ad_at with ⟨rfl, rfl⟩ | hfront | hfront
    · rcases two_places h.bid_at hfirst.bid_at with ⟨-, rfl⟩ | hbefore | hbefore
      · exact ⟨⟨front, h.ad_at, hbest.eligible, h.earliest⟩, h.largest⟩
      · exact absurd (hfirst.before_lt bid ⟨before, hbefore, h.named⟩)
          (Int.not_lt.mpr (h.narrowed best.1 hbestAd best.2 hbest hfits))
      · exact absurd (h.narrowedBefore best.2 ⟨before', hbefore, hfirst.named⟩ hfits)
          (Int.not_lt.mpr hle)
    · exact absurd (hfirst.front_lt ad (hfront.subset (by simp)) bid hbid)
        (Int.not_lt.mpr (h.narrowed best.1 hbestAd best.2 hbest hfits))
    · exact absurd (h.narrowedFront best.1 (hfront.subset (by simp)) best.2 hbest hfits)
        (Int.not_lt.mpr hle)

/-- A winner is right exactly if nothing is eligible or a bid prevails. -/
theorem wonRightly_iff {winner : Option Match} (hnone : winner = none ↔ copies ads keywords = [])
    (hsome : ∀ best, winner = some best →
      FirstMax.IsFirstMax intMoney (copies ads keywords) best) :
    WonRightly ads keywords winner ↔
      (∀ ad ∈ ads, eligible keywords ad = []) ∨
        ∃ front ad before bid, Prevails ads keywords front ad before bid := by
  rw [copies_eq_nil_iff] at hnone
  cases winner with
  | none => exact iff_of_true ⟨hnone, by simp⟩ (.inl (hnone.mp rfl))
  | some best =>
      obtain ⟨front, before, hfirst⟩ := exists_copiedFirst (hsome best rfl)
      have hsomewhere : ¬ ∀ ad ∈ ads, eligible keywords ad = [] := mt hnone.mpr (by simp)
      constructor
      · rintro ⟨-, hright⟩
        exact .inr ⟨front, _, before, _, hfirst.prevails (hright best rfl)⟩
      · rintro (hnothing | ⟨front', ad, before', bid, hprevails⟩)
        · exact absurd hnothing hsomewhere
        · refine ⟨hnone, fun best' hbest => ?_⟩
          obtain rfl := Option.some.inj hbest
          exact hprevails.isWinner hfirst

end Winner

/-! ## The replies -/

theorem uncachedReply_winnerText (moneyText : Int → Bytes) (_mapBySize : SizeMap)
    (sizeKey : SIZETUPLE) {input : Bytes} (hne : input ≠ []) :
    uncachedReply moneyText _mapBySize sizeKey input false =
      winnerText moneyText (Transaction.init sizeKey input ThreadLocals.initial.statics).1._id
        (winningBid _mapBySize sizeKey input) := by
  obtain ⟨hwinning, hnoMatch, -, houtput⟩ :=
    Transaction.init_fresh sizeKey input ThreadLocals.initial.statics
  simp only [uncachedReply, if_neg hne]
  exact Transaction.reply_winnerText moneyText _ hwinning hnoMatch houtput

/-- An empty text has no size. -/
theorem ne_nil_of_createSizeKey {_useRegex : Bool} {input : Bytes} {sizeKey : SIZETUPLE}
    (hkey : createSizeKey _useRegex input = .ok sizeKey) (hsize : sizeKey ≠ ZERO_SIZE) :
    input ≠ [] := by
  rintro rfl
  cases _useRegex with
  | false => exact hsize (Except.ok.inj hkey).symm
  | true =>
      have hthrows : createSizeKey true [] = .error (.errorString .invalid_argument) := by
        decide +kernel
      rw [hthrows] at hkey
      simp at hkey

/-- In a table read from a file, both entry points name the same winner in their
replies without diagnostics, and none exactly if there is no eligible bid in the lines
of the file.  The winner is a largest of the eligible bids, of the earliest ad, exactly
if there is none or such a bid stands where it is considered and is not beaten by
amounts that do not fit into an `int`. -/
theorem winningBid_iff {toCents : Bytes → Except Errc Int} {bidSort : BidSort}
    {_buffer file : Bytes} {_mapBySize : SizeMap}
    (hread : Ad.readAds toCents bidSort _buffer (some file) = some (.ok _mapBySize))
    {moneyText : Int → Bytes} {_useRegex : Bool} {locals : ThreadLocals}
    (hlocals : locals.Reachable moneyText _mapBySize _useRegex) {request : Request}
    (hkey : createSizeKey _useRegex request._input = .ok request._sizeKey)
    (hsize : request._sizeKey ≠ ZERO_SIZE) :
    (∃ _id keywords, Transaction.Names request._input _id keywords) ∧
    ∀ _id keywords, Transaction.Names request._input _id keywords →
      (Transaction.processRequestSort moneyText _mapBySize request._sizeKey request false locals).1 =
        winnerText moneyText _id (winningBid _mapBySize request._sizeKey request._input) ∧
      (∃ locals', Transaction.processRequestNoSort moneyText _mapBySize _useRegex request false
        locals = .ok (winnerText moneyText _id
          (winningBid _mapBySize request._sizeKey request._input), locals')) ∧
      (winningBid _mapBySize request._sizeKey request._input = none ↔
        ∀ ad ∈ Ad.ofSize toCents bidSort file request._sizeKey, eligible keywords ad = []) ∧
      (WonRightly (Ad.ofSize toCents bidSort file request._sizeKey) keywords
          (winningBid _mapBySize request._sizeKey request._input) ↔
        (∀ ad ∈ Ad.ofSize toCents bidSort file request._sizeKey, eligible keywords ad = []) ∨
          ∃ front ad before bid, Prevails (Ad.ofSize toCents bidSort file request._sizeKey)
            keywords front ad before bid) := by
  refine ⟨Transaction.exists_names request._input, fun _id keywords hnames => ?_⟩
  have htext := uncachedReply_winnerText moneyText _mapBySize request._sizeKey
    (ne_nil_of_createSizeKey hkey hsize)
  obtain ⟨hid, hperm⟩ := hnames.perm_init hsize ThreadLocals.initial.statics
  have hsort := (processRequestSort_eq moneyText hlocals.coherent request._sizeKey request false).1
  obtain ⟨locals', -, hnoSort⟩ := processRequestNoSort_eq moneyText hlocals.coherent hkey false
  have hads := Ad.getAdsBySize_of_readAds hread request._sizeKey
  rw [htext, hid] at hsort hnoSort
  obtain ⟨hnone, hfirst⟩ := isFirstMax_winningBid
    (hads ▸ Ad.sortedBids_ofSize file request._sizeKey) hperm
  rw [hads] at hnone hfirst
  exact ⟨hsort, ⟨locals', hnoSort⟩, hnone.trans copies_eq_nil_iff, wonRightly_iff hnone hfirst⟩

/- Files of ads and a request for one keyword. -/
namespace WinningBid

def request : Request where
  _sizeKey := (10, 10)
  _input := bytes "[0]size=10x10&kw=disk"

/-- Two bids that fit. -/
def twoAds : Bytes := bytes "1, 10, 10, 1.0, [\"disk\", 2.0]\n2, 10, 10, 1.0, [\"disk\", 3.0]\n"

/-- The keyword twice in one ad. -/
def twice : Bytes := bytes "1, 10, 10, 1.0, [\"disk\", 1.0, \"disk\", 2.0]\n"

/-- An amount of 2^31 in front of a small one. -/
def large : Bytes :=
  bytes "1, 10, 10, 1.0, [\"disk\", 21474836.48]\n2, 10, 10, 1.0, [\"disk\", 1.0]\n"

def mapOf (file : Bytes) : SizeMap := Ad.table decimalCents keywordSort [] (Ad.linesInFront file)

/-- What `readAds` makes of them. -/
theorem readAds_mapOf {file : Bytes} (hfits : file.length < 1000 ∧
      (∀ line ∈ split 10 false [] file, line.length < 1000) ∧
      ∀ row ∈ split 10 true [] file, row.getLast? = some 10) :
    Ad.readAds decimalCents keywordSort AdsFile._buffer (some file) = some (.ok (mapOf file)) := by
  obtain ⟨hlength, hlines, hlast⟩ := hfits
  refine Ad.readAds_of_fits (AdsFile.lt_length_buffer hlines) ?_ hlast
  rw [AdsFile._buffer, List.length_replicate]
  exact Nat.le_of_lt (Nat.lt_of_lt_of_le hlength (by decide))

/-- One decimal of an amount of full tenths. -/
def moneyText (money : Int) : Bytes :=
  intText (money / 100) ++ bytes "." ++ intText (money % 100 / 10)

theorem names_request :
    Transaction.Names request._input (bytes "[0]") [bytes "disk"] :=
  @Transaction.Names.kw _ _ (bytes "size=10x10&kw=disk") (bytes "disk") _
    ⟨bytes "0", by decide +kernel, by decide +kernel, by decide +kernel⟩
    ⟨bytes "size=10x10&", [], by decide +kernel, Text.find_eq_some_iff.mp (by decide +kernel),
      by decide +kernel, by simp⟩
    (.inr ⟨by decide +kernel, by decide +kernel⟩)

/-- The ad with the larger bid of the two. -/
def ad : Ad :=
  ⟨bytes "2", (10, 10), [⟨bytes "disk", 300⟩], 100, bytes "2, 10, 10, 1.0, [\"disk\", 3.0]"⟩

theorem prevails_twoAds : ∃ front, Prevails (Ad.ofSize decimalCents keywordSort twoAds (10, 10))
    [bytes "disk"] front ad [] ⟨bytes "disk", 300⟩ := by
  have hfits : ∀ ad' ∈ Ad.ofSize decimalCents keywordSort twoAds (10, 10),
      ∀ bid' ∈ ad'._bids, FitsInt bid'._money := by decide +kernel
  have hconsidered {ad' : Ad} {bid' : AdBid} (h : Considered [bytes "disk"] ad'._bids bid') :
      bid' ∈ ad'._bids := (List.mem_filter.mp h.eligible).1
  have hfront : (Ad.ofSize decimalCents keywordSort twoAds (10, 10)).take 1 <+:
      Ad.ofSize decimalCents keywordSort twoAds (10, 10) := List.take_prefix 1 _
  refine ⟨(Ad.ofSize decimalCents keywordSort twoAds (10, 10)).take 1, ?_, ?_, ?_, ?_, ?_, ?_,
    ?_, ?_⟩
  · exact ⟨[], by decide +kernel⟩
  · exact ⟨[], rfl⟩
  · decide +kernel
  · decide +kernel
  · decide +kernel
  · intro ad' had' bid' hbid' hnot
    exact absurd ⟨hfits ad' had' bid' (hconsidered hbid'), by decide⟩ hnot
  · intro ad' had' bid' hbid' hnot
    exact absurd ⟨hfits ad' (hfront.subset had') bid' (hconsidered hbid'), by decide⟩ hnot
  · rintro bid' ⟨before, hbefore, -⟩
    simp at hbefore

end WinningBid

open WinningBid in
theorem winningBid_twoAds :
    (Transaction.processRequestSort moneyText (mapOf twoAds) (10, 10) request false .initial).1 =
      winnerText moneyText (bytes "[0]") (winningBid (mapOf twoAds) (10, 10) request._input) ∧
    (∃ locals', Transaction.processRequestNoSort moneyText (mapOf twoAds) false request false
      .initial = .ok (winnerText moneyText (bytes "[0]")
        (winningBid (mapOf twoAds) (10, 10) request._input), locals')) ∧
    (winningBid (mapOf twoAds) (10, 10) request._input = none ↔
      ∀ ad ∈ Ad.ofSize decimalCents keywordSort twoAds (10, 10),
        eligible [bytes "disk"] ad = []) ∧
    WonRightly (Ad.ofSize decimalCents keywordSort twoAds (10, 10)) [bytes "disk"]
      (winningBid (mapOf twoAds) (10, 10) request._input) := by
  obtain ⟨hsort, hnoSort, hnone, hright⟩ := (@winningBid_iff decimalCents keywordSort
    AdsFile._buffer twoAds (mapOf twoAds) (readAds_mapOf (by decide +kernel)) moneyText false
    .initial .initial request (by decide +kernel) (by decide)).2 (bytes "[0]") [bytes "disk"]
      names_request
  obtain ⟨front, hprevails⟩ := prevails_twoAds
  exact ⟨hsort, hnoSort, hnone, hright.mpr (.inr ⟨front, _, _, _, hprevails⟩)⟩

open WinningBid in
/-- The second bid of an ad with the keyword, and an amount of 2^31, lose to a smaller
bid. -/
theorem winningBid_wrong :
    Ad.readAds decimalCents keywordSort AdsFile._buffer (some twice) = some (.ok (mapOf twice)) ∧
      Ad.readAds decimalCents keywordSort AdsFile._buffer (some large) = some (.ok (mapOf large)) ∧
      createSizeKey false request._input = .ok (10, 10) ∧
      Transaction.Names request._input (bytes "[0]") [bytes "disk"] ∧
      ¬ WonRightly (Ad.ofSize decimalCents keywordSort twice (10, 10)) [bytes "disk"]
        (winningBid (mapOf twice) (10, 10) request._input) ∧
      ¬ WonRightly (Ad.ofSize decimalCents keywordSort large (10, 10)) [bytes "disk"]
        (winningBid (mapOf large) (10, 10) request._input) := by
  refine ⟨readAds_mapOf (by decide +kernel), readAds_mapOf (by decide +kernel),
    by decide +kernel, names_request, ?_, ?_⟩
  · rintro ⟨-, hright⟩
    have hwinner := hright (⟨bytes "1", (10, 10), [⟨bytes "disk", 100⟩, ⟨bytes "disk", 200⟩], 100,
      bytes "1, 10, 10, 1.0, [\"disk\", 1.0, \"disk\", 2.0]"⟩, ⟨bytes "disk", 100⟩)
      (by decide +kernel)
    exact absurd hwinner.2 (by decide +kernel)
  · rintro ⟨-, hright⟩
    have hwinner := hright (⟨bytes "2", (10, 10), [⟨bytes "disk", 100⟩], 100,
      bytes "2, 10, 10, 1.0, [\"disk\", 1.0]"⟩, ⟨bytes "disk", 100⟩) (by decide +kernel)
    exact absurd hwinner.2 (by decide +kernel)

end ClientServer
