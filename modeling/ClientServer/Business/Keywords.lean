import ClientServer.Business.Transaction

/-!
# The keywords of a request

A request begins with its id in brackets.  Behind it the keywords stand after the
first `kw=`, or after the first `keywords=` where there is no `kw=`, with a `+`
between two of them and up to the next `&`.  `Names` says this of the text;
`Names.perm_init` says that `init` reads it.
-/

namespace ClientServer.Transaction

/-! ## The text -/

/-- A text that begins with an id in brackets. -/
def Headed (input _id _request : Bytes) : Prop :=
  ∃ number, 93 ∉ number ∧ _id = 91 :: (number ++ [93]) ∧ input = _id ++ _request

/-- What stands behind the first place of a label, up to the next `&`. -/
def Behind (start _request kwStr : Bytes) : Prop :=
  ∃ front rest, _request = front ++ (start ++ (kwStr ++ rest)) ∧
    Text.FirstAt start _request front.length ∧ 38 ∉ kwStr ∧ ∀ c ∈ rest.head?, c = 38

/-- The pieces between the `+`; where nothing stands behind the last `+`, there is no
piece. -/
def Pieces (kwStr : Bytes) (keywords : List Bytes) : Prop :=
  kwStr.splitOn 43 = keywords ++ [[]] ∨
    kwStr.splitOn 43 = keywords ∧ keywords.getLast? ≠ some []

/-- The id of a request, and its keywords in the order of the text. -/
inductive Names (input : Bytes) : (_id : Bytes) → (keywords : List Bytes) → Prop where
  | kw {_id _request kwStr : Bytes} {keywords : List Bytes} : Headed input _id _request →
      Behind (bytes "kw=") _request kwStr → Pieces kwStr keywords → Names input _id keywords
  | keywords {_id _request kwStr : Bytes} {keywords : List Bytes} : Headed input _id _request →
      ¬ bytes "kw=" <:+: _request → Behind (bytes "keywords=") _request kwStr →
      Pieces kwStr keywords → Names input _id keywords
  | none {_id _request : Bytes} : Headed input _id _request → ¬ bytes "kw=" <:+: _request →
      ¬ bytes "keywords=" <:+: _request → Names input _id []
  | noId : (∀ _id _request, ¬ Headed input _id _request) → Names input [] []

/-! ## The pieces -/

/-- What `split` hands out. -/
theorem pieces_split (kwStr : Bytes) : Pieces kwStr (split 43 false [] kwStr) := by
  suffices hrow : ∀ row : Bytes, 43 ∉ row → Pieces (row ++ kwStr) (split 43 false row kwStr) from
    hrow [] List.not_mem_nil
  induction kwStr with
  | nil =>
      intro row hrow
      rw [Pieces, List.append_nil, List.splitOn_eq_singleton hrow, split]
      by_cases hnil : row = []
      · simp [hnil]
      · simp [hnil]
  | cons c kwStr ih =>
      intro row hrow
      rw [split]
      by_cases hc : c = 43
      · subst hc
        have hrest := ih [] List.not_mem_nil
        rw [List.nil_append] at hrest
        rw [if_pos rfl, Pieces, List.splitOn_append_cons_self_of_not_mem hrow]
        simp only [Bool.false_eq_true, if_false]
        rcases hrest with hrest | ⟨hrest, hlast⟩
        · exact .inl (by rw [hrest, List.cons_append])
        · refine .inr ⟨by rw [hrest], ?_⟩
          have hne : split 43 false [] kwStr ≠ [] := hrest ▸ List.splitOn_ne_nil 43 kwStr
          rwa [List.getLast?_cons_of_ne_nil hne]
      · rw [if_neg hc]
        have hmem : 43 ∉ row ++ [c] := by
          rw [List.mem_append, List.mem_singleton, not_or]
          exact ⟨hrow, Ne.symm hc⟩
        have hrest := ih (row ++ [c]) hmem
        rwa [List.append_assoc, List.singleton_append] at hrest

theorem Pieces.unique {kwStr : Bytes} {keywords keywords' : List Bytes} (h : Pieces kwStr keywords)
    (h' : Pieces kwStr keywords') : keywords = keywords' := by
  rcases h with h | ⟨h, hlast⟩
  · rcases h' with h' | ⟨h', hlast'⟩
    · exact List.append_cancel_right (h.symm.trans h')
    · rw [← h', h] at hlast'
      simp at hlast'
  · rcases h' with h' | ⟨h', -⟩
    · rw [← h, h'] at hlast
      simp at hlast
    · exact h.symm.trans h'

/-! ## Behind a label -/

section Label

variable {start _request kwStr kwStr' : Bytes}

/-- The first byte of a kind ends the text in front of it. -/
theorem find_singleton {c : UInt8} {text rest : Bytes} (hmem : c ∉ text)
    (hrest : ∀ d ∈ rest.head?, d = c) :
    Text.find [c] (text ++ rest) = if rest = [] then none else some text.length := by
  rw [Text.find_append_of_not_mem hmem]
  cases rest with
  | nil => simp [Text.find_nil]
  | cons d rest =>
      obtain rfl : d = c := hrest d rfl
      simp [Text.find_cons, List.isPrefixOf]

/-- What stands behind a label without a `&` is what `parseKeywords` splits. -/
theorem Behind.parseKeywords_eq (h : Behind start _request kwStr) (hstart : 38 ∉ start)
    (_keywords : List Bytes) :
    parseKeywords _keywords _request start =
      some (breakKeywords _keywords kwStr) := by
  obtain ⟨front, rest, rfl, hfirst, hkwStr, hrest⟩ := h
  have hmem : (38 : UInt8) ∉ start ++ kwStr := by
    rw [List.mem_append, not_or]
    exact ⟨hstart, hkwStr⟩
  have hend := find_singleton hmem hrest
  rw [List.append_assoc] at hend
  have htake : (front ++ (start ++ (kwStr ++ rest))).take
      (front.length + (start.length + kwStr.length)) = front ++ (start ++ kwStr) := by
    rw [← List.append_assoc start, ← List.append_assoc front, List.take_left' (by simp)]
  have hdrop : (front ++ (start ++ kwStr)).drop (front.length + start.length) = kwStr := by
    rw [← List.append_assoc, List.drop_left' (by simp)]
  rw [parseKeywords, Text.find_eq_some_iff.mpr hfirst]
  simp only [List.drop_left, show KEYWORDS_END = [38] from rfl, hend]
  by_cases hnil : rest = []
  · subst hnil
    rw [List.append_nil, if_pos rfl]
    simp only [List.take_length, hdrop]
  · simp only [if_neg hnil, List.length_append, htake, hdrop]

theorem exists_behind (h : start <:+: _request) : ∃ kwStr, Behind start _request kwStr := by
  obtain ⟨pos, hpos⟩ := Option.isSome_iff_exists.mp (Text.find_isSome_iff.mpr h)
  have hfirst := Text.find_eq_some_iff.mp hpos
  have hle : pos ≤ _request.length := by
    by_contra hlt
    have hstart := hfirst.1
    rw [List.drop_of_length_le (by omega), ← List.drop_length (l := _request)] at hstart
    exact hfirst.2 _ (by omega) hstart
  obtain ⟨behind, hbehind⟩ := hfirst.1
  refine ⟨behind.takeWhile (· ≠ 38), _request.take pos, behind.dropWhile (· ≠ 38), ?_, ?_, ?_, ?_⟩
  · rw [List.takeWhile_append_dropWhile, hbehind, List.take_append_drop]
  · rwa [List.length_take, Nat.min_eq_left hle]
  · intro hmem
    simpa using List.mem_takeWhile_imp hmem
  · intro c hc
    have hnot := List.head?_dropWhile_not (· ≠ 38) behind
    rw [Option.mem_def.mp hc] at hnot
    simpa using hnot

theorem parseKeywords_eq_none (h : ¬ start <:+: _request) (_keywords : List Bytes) :
    parseKeywords _keywords _request start = none := by
  rw [parseKeywords, Text.find_eq_none_iff.mpr h]

theorem Pieces.perm {keywords : List Bytes} (h : Pieces kwStr keywords) :
    (breakKeywords [] kwStr).Perm keywords := by
  rw [h.unique (pieces_split kwStr)]
  exact List.mergeSort_perm _ _

end Label

/-! ## What `init` reads -/

section Init

variable {input _id _request : Bytes} {sizeKey : SIZETUPLE}

theorem Headed.find (h : Headed input _id _request) :
    ∃ tail, input = 91 :: tail ∧ Text.find (bytes "]") (91 :: tail) = some (_id.length - 1) ∧
      input.take (_id.length - 1 + 1) = _id ∧ input.drop _id.length = _request := by
  obtain ⟨number, hnumber, rfl, rfl⟩ := h
  have hmem : (93 : UInt8) ∉ 91 :: number := by simpa using hnumber
  have hends : ∀ c ∈ (93 :: _request).head?, c = 93 := by simp
  have hfind := find_singleton hmem hends
  refine ⟨number ++ 93 :: _request, by simp, ?_, ?_, List.drop_left⟩
  · rw [← List.cons_append, show bytes "]" = [93] from rfl, hfind]
    simp
  · exact List.take_left' (by simp)

theorem Headed.init_eq (h : Headed input _id _request) (hsize : sizeKey ≠ ZERO_SIZE)
    (statics : Statics) :
    (init sizeKey input statics).1._id = _id ∧
      (init sizeKey input statics).2._keywords =
        (match parseKeywords [] _request START_KEYWORDS1 with
          | some keywords => keywords
          | none => (parseKeywords [] _request START_KEYWORDS2).getD []) := by
  obtain ⟨tail, rfl, hfind, htake, hdrop⟩ := h.find
  unfold init
  simp only [if_neg hsize, hfind, htake, hdrop, true_and]
  rfl

theorem init_of_not_headed (h : ∀ _id _request, ¬ Headed input _id _request)
    (statics : Statics) :
    (init sizeKey input statics).1._id = [] ∧
      (init sizeKey input statics).2._keywords = [] := by
  unfold init
  split
  · exact ⟨rfl, rfl⟩
  · split
    · next pos tail hfind =>
        have hinfix : bytes "]" <:+: 91 :: tail :=
          Text.find_isSome_iff.mp (Option.isSome_iff_exists.mpr ⟨pos, hfind⟩)
        have hmem : (93 : UInt8) ∈ 91 :: tail := hinfix.subset List.mem_cons_self
        obtain ⟨number, behind, htext, hnumber⟩ :=
          List.eq_append_cons_of_mem (List.mem_of_ne_of_mem (by decide) hmem)
        refine absurd ⟨number, hnumber, rfl, ?_⟩ (h (91 :: (number ++ [93])) behind)
        simp [htext]
    · exact ⟨rfl, rfl⟩

/-- Every text names something, be it nothing. -/
theorem exists_names (input : Bytes) : ∃ _id keywords, Names input _id keywords := by
  by_cases h : ∃ _id _request, Headed input _id _request
  · obtain ⟨_id, _request, hheaded⟩ := h
    by_cases hkw : bytes "kw=" <:+: _request
    · obtain ⟨kwStr, hbehind⟩ := exists_behind hkw
      exact ⟨_id, _, .kw hheaded hbehind (pieces_split kwStr)⟩
    · by_cases hkeywords : bytes "keywords=" <:+: _request
      · obtain ⟨kwStr, hbehind⟩ := exists_behind hkeywords
        exact ⟨_id, _, .keywords hheaded hkw hbehind (pieces_split kwStr)⟩
      · exact ⟨_id, [], .none hheaded hkw hkeywords⟩
  · exact ⟨[], [], .noId fun _id _request hheaded => h ⟨_id, _request, hheaded⟩⟩

/-- `init` reads the id and the keywords of the text, which it sorts. -/
theorem Names.perm_init {keywords : List Bytes} (h : Names input _id keywords)
    (hsize : sizeKey ≠ ZERO_SIZE) (statics : Statics) :
    (init sizeKey input statics).1._id = _id ∧
      ((init sizeKey input statics).2._keywords).Perm keywords := by
  cases h with
  | kw hheaded hbehind hpieces =>
      obtain ⟨hid, hkeywords⟩ := hheaded.init_eq hsize statics
      rw [hkeywords, START_KEYWORDS1, hbehind.parseKeywords_eq (by decide) []]
      exact ⟨hid, hpieces.perm⟩
  | keywords hheaded hkw hbehind hpieces =>
      obtain ⟨hid, hkeywords⟩ := hheaded.init_eq hsize statics
      rw [hkeywords, START_KEYWORDS1, parseKeywords_eq_none hkw, START_KEYWORDS2,
        hbehind.parseKeywords_eq (by decide) []]
      exact ⟨hid, hpieces.perm⟩
  | none hheaded hkw hkeywords =>
      obtain ⟨hid, hread⟩ := hheaded.init_eq hsize statics
      rw [hread, START_KEYWORDS1, parseKeywords_eq_none hkw, START_KEYWORDS2,
        parseKeywords_eq_none hkeywords]
      exact ⟨hid, .refl _⟩
  | noId hnone =>
      obtain ⟨hid, hread⟩ := @init_of_not_headed input sizeKey hnone statics
      rw [hread]
      exact ⟨hid, .refl _⟩

end Init

end ClientServer.Transaction
