import ClientServer.Business.Ad
import ClientServer.Common.LinesCount

/-!
# The file of ads

`readAds` keeps what the lines in front of the first empty one give.  A line that
does not parse is left out alone.  A line whose list of bids comes out empty is
not left out, although the warning says so.  `lineLocal_iff` says for which files
the table holds the ads of the well-formed lines and nothing else.
-/

namespace ClientServer

section Loading

variable (toCents : Bytes → Except Errc Int) (bidSort : BidSort)

namespace Ad

/-- The ad of a line without a fault in its format: the parser accepts it and
finds a bid. -/
def wellFormed (line : Bytes) : Option Ad :=
  (parse toCents bidSort line).toOption.filter fun ad => ad._bids ≠ []

/-- The ads of each size after `readAds` are those of the well-formed lines, in
their order. -/
def LineLocal (_buffer file : Bytes) : Prop :=
  ∃ _mapBySize, readAds toCents bidSort _buffer (some file) = some (.ok _mapBySize) ∧
    ∀ key, getAdsBySize _mapBySize key =
      ((split 10 false [] file).filterMap (wellFormed toCents bidSort)).filter
        fun ad => ad._sizeKey = key

/-- The lines in front of the first empty line. -/
def linesInFront (file : Bytes) : List Bytes := (split 10 false [] file).takeWhile (· ≠ [])

/-- The first empty line and the lines behind it. -/
def linesBehind (file : Bytes) : List Bytes := (split 10 false [] file).dropWhile (· ≠ [])

end Ad

/-! ## The loop -/

variable {toCents bidSort}

namespace Ad

/-- What the reader hands out goes into the table. -/
theorem readLines_of_reads {s : Lines} {rows : List Bytes} {ending : Option Fault}
    (h : s.Reads rows ending) {calls : Nat} (hcalls : rows.length < calls)
    (_mapBySize : SizeMap) :
    readLines toCents bidSort calls s _mapBySize =
      some (ending.elim (.ok (table toCents bidSort _mapBySize rows)) .error) := by
  induction rows generalizing s calls _mapBySize with
  | nil =>
      obtain ⟨calls, rfl⟩ := Nat.exists_eq_succ_of_ne_zero (Nat.ne_of_gt hcalls)
      cases ending with
      | none =>
          obtain ⟨view, s', hread⟩ := h
          simp only [readLines, hread]
          rfl
      | some fault =>
          have hread : s.getLineImpl = .error fault := h
          simp only [readLines, hread]
          rfl
  | cons row rows ih =>
      obtain ⟨calls, rfl⟩ := Nat.exists_eq_succ_of_ne_zero (Nat.ne_of_gt (Nat.zero_lt_of_lt hcalls))
      obtain ⟨s', hread, hreads⟩ := h
      simp only [readLines, hread, readLine_eq]
      exact ih hreads (Nat.lt_of_succ_lt_succ hcalls) _

/-- A loop that returns has put what the reader handed out into the table. -/
theorem reads_of_readLines {calls : Nat} {s : Lines} {_mapBySize map : SizeMap}
    (h : readLines toCents bidSort calls s _mapBySize = some (.ok map)) :
    ∃ rows, s.Reads rows none ∧ map = table toCents bidSort _mapBySize rows := by
  induction calls generalizing s _mapBySize with
  | zero => simp [readLines] at h
  | succ calls ih =>
      rw [readLines] at h
      split at h
      · simp at h
      · next view s' hread => exact ⟨[], ⟨view, s', hread⟩, by simpa [table] using h.symm⟩
      · next line s' hread =>
          rw [readLine_eq] at h
          obtain ⟨rows, hrows, rfl⟩ := ih h
          exact ⟨line :: rows, ⟨s', hread, hrows⟩, rfl⟩

end Ad

/-- Where `readAds` returns, the table is that of the lines in front of the first
empty line. -/
theorem Ad.eq_table_of_readAds {_buffer file : Bytes} {map : SizeMap}
    (h : readAds toCents bidSort _buffer (some file) = some (.ok map)) :
    map = table toCents bidSort [] (linesInFront file) := by
  obtain ⟨rows, hreads, rfl⟩ := reads_of_readLines h
  have hrows : Lines.RowsOf 10 (split 10 true [] file) := Lines.rowsOf_split List.not_mem_nil
  rw [(Lines.stands_new _buffer file 10 false).eq_of_reads hrows hreads,
    Lines.takeWhile_ne_shown hrows, ← Lines.split_eq_map_shown List.not_mem_nil false]
  rfl

/-- `readAds` returns with the table of the lines in front of the first empty
line, or it throws. -/
theorem Ad.readAds_cases {_buffer file : Bytes}
    (hlength : ∀ line ∈ split 10 false [] file, line.length < _buffer.length) :
    (Lines.UndisturbedTo 10 (Lines.refill _buffer file) 0 (split 10 true [] file) ∧
      readAds toCents bidSort _buffer (some file) =
        some (.ok (table toCents bidSort [] (linesInFront file)))) ∨
    (¬ Lines.UndisturbedTo 10 (Lines.refill _buffer file) 0 (split 10 true [] file) ∧
      ∃ fault, readAds toCents bidSort _buffer (some file) = some (.error fault)) := by
  have hsplit : split 10 false [] file = (split 10 true [] file).map (Lines.shown 10 false) :=
    Lines.split_eq_map_shown List.not_mem_nil false
  have hrows : Lines.RowsOf 10 (split 10 true [] file) := Lines.rowsOf_split List.not_mem_nil
  have hflatten : (split 10 true [] file).flatten = file := flatten_split 10 [] file
  have hat : Lines.At 10 false (StringLines.new _buffer file 10 false) (Lines.refill _buffer file) 0
      (split 10 true [] file).flatten := by
    rw [hflatten]
    exact Lines.At.new _buffer file 10 false
  have hfits : ∀ row ∈ split 10 true [] file, row.length ≤ (Lines.refill _buffer file).length := by
    rw [Lines.length_refill]
    rw [hsplit] at hlength
    exact hrows.length_row_le hlength
  have hcount : (split 10 true [] file).length < file.length + 1 := by
    have := hrows.length_le
    rw [hflatten] at this
    omega
  rcases hat.reads hrows hfits with ⟨hundisturbed, hreads⟩ | ⟨hdisturbed, front, fault, hle, hreads⟩
  · rw [Lines.takeWhile_ne_shown hrows, ← hsplit] at hreads
    have hshort : (linesInFront file).length < file.length + 1 := by
      have hle : (linesInFront file).length ≤ (split 10 false [] file).length :=
        (List.takeWhile_prefix _).length_le
      rw [hsplit, List.length_map] at hle
      omega
    exact .inl ⟨hundisturbed, readLines_of_reads hreads hshort []⟩
  · exact .inr ⟨hdisturbed, fault, readLines_of_reads hreads (Nat.lt_of_le_of_lt hle hcount) []⟩

/-- A file that fits into the array and ends every line is read up to its first empty
line. -/
theorem Ad.readAds_of_fits {_buffer file : Bytes}
    (hlength : ∀ line ∈ split 10 false [] file, line.length < _buffer.length)
    (hfits : file.length ≤ _buffer.length)
    (hlast : ∀ row ∈ split 10 true [] file, row.getLast? = some 10) :
    readAds toCents bidSort _buffer (some file) =
      some (.ok (table toCents bidSort [] (linesInFront file))) := by
  have hflatten : (split 10 true [] file).flatten = file := flatten_split 10 [] file
  rcases @readAds_cases toCents bidSort _buffer file hlength with
    ⟨-, hread⟩ | ⟨hdisturbed, -⟩
  · exact hread
  · refine absurd (Lines.undisturbedTo_of_fits ?_ hlast) hdisturbed
    rwa [hflatten, Nat.zero_add, Lines.length_refill]

theorem Ad.mem_wellFormed {rows : List Bytes} {ad : Ad}
    (h : ad ∈ rows.filterMap (wellFormed toCents bidSort)) : ad._bids ≠ [] := by
  obtain ⟨line, -, hline⟩ := List.mem_filterMap.mp h
  simpa using (Option.filter_eq_some_iff.mp hline).2

/-- Where every line that parses gives a bid, all accepted lines are well-formed. -/
theorem Ad.filterMap_wellFormed {rows : List Bytes}
    (h : ∀ line ∈ rows, ∀ ad, parse toCents bidSort line = .ok ad → ad._bids ≠ []) :
    rows.filterMap (wellFormed toCents bidSort) = accepted toCents bidSort rows := by
  refine List.filterMap_congr fun line hline => ?_
  cases hparse : parse toCents bidSort line with
  | error fault => simp [wellFormed, hparse, Except.toOption]
  | ok ad => simp [wellFormed, hparse, Except.toOption, h line hline ad hparse]

/-- The table of the lines in front has the well-formed ads of all lines. -/
theorem Ad.front_eq_iff (front behind : List Bytes) :
    (∀ key, (accepted toCents bidSort front).filter (fun ad => ad._sizeKey = key) =
      ((front ++ behind).filterMap (wellFormed toCents bidSort)).filter
        fun ad => ad._sizeKey = key) ↔
      (∀ line ∈ front, ∀ ad, parse toCents bidSort line = .ok ad → ad._bids ≠ []) ∧
        ∀ line ∈ behind, wellFormed toCents bidSort line = none := by
  constructor
  · intro hsame
    have hfront : ∀ line ∈ front, ∀ ad, parse toCents bidSort line = .ok ad → ad._bids ≠ [] := by
      intro line hline ad hparse
      have haccepted : ad ∈ accepted toCents bidSort front :=
        List.mem_filterMap.mpr ⟨line, hline, by rw [hparse]; rfl⟩
      have hmem : ad ∈ (accepted toCents bidSort front).filter
          fun ad' => ad'._sizeKey = ad._sizeKey :=
        List.mem_filter.mpr ⟨haccepted, by simp⟩
      rw [hsame] at hmem
      exact mem_wellFormed (List.mem_filter.mp hmem).1
    refine ⟨hfront, fun line hline => ?_⟩
    by_contra hsome
    obtain ⟨ad, had⟩ := Option.ne_none_iff_exists'.mp hsome
    have hkey := hsame ad._sizeKey
    rw [List.filterMap_append, filterMap_wellFormed hfront, List.filter_append,
      List.self_eq_append_right, List.filter_eq_nil_iff] at hkey
    exact hkey ad (List.mem_filterMap.mpr ⟨line, hline, had⟩) (by simp)
  · rintro ⟨hfront, hbehind⟩ key
    rw [List.filterMap_append, filterMap_wellFormed hfront,
      List.filterMap_eq_nil_iff.mpr hbehind, List.append_nil]

/-- The table holds the ads of the well-formed lines and nothing else exactly if
the reader does not throw in front of the first empty line, no line there parses
without giving a bid, and no line behind is well-formed. -/
theorem Ad.lineLocal_iff {_buffer file : Bytes}
    (hlength : ∀ line ∈ split 10 false [] file, line.length < _buffer.length) :
    LineLocal toCents bidSort _buffer file ↔
      Lines.UndisturbedTo 10 (Lines.refill _buffer file) 0 (split 10 true [] file) ∧
        (∀ line ∈ linesInFront file, ∀ ad, parse toCents bidSort line = .ok ad → ad._bids ≠ []) ∧
        ∀ line ∈ linesBehind file, wellFormed toCents bidSort line = none := by
  rw [← front_eq_iff]
  rcases @readAds_cases toCents bidSort _buffer file hlength with
    ⟨hundisturbed, hread⟩ | ⟨hdisturbed, fault, hread⟩
  · rw [LineLocal, hread]
    simp [hundisturbed, getAdsBySize_table, getAdsBySize_nil, linesInFront, linesBehind]
  · rw [LineLocal, hread]
    simp [hdisturbed]

end Loading

/- An ad, and files with it. -/
namespace AdsFile

def line : Bytes := bytes "1000, 450, 50, 1.0, [\"disk\", 0.5, \"cb750\", 0.0]"

def ad : Ad where
  _id := bytes "1000"
  _sizeKey := (450, 50)
  _bids := [⟨bytes "cb750", 100⟩, ⟨bytes "disk", 50⟩]
  _defaultBid := 100
  _input := line

/-- The array of the code, which is not initialised. -/
def _buffer : Bytes := List.replicate 500000 0

theorem lt_length_buffer {rows : List Bytes} (h : ∀ row ∈ rows, row.length < 1000) :
    ∀ row ∈ rows, row.length < _buffer.length := by
  intro row hrow
  rw [_buffer, List.length_replicate]
  exact Nat.lt_of_lt_of_le (h row hrow) (by decide)

/-- A malformed line in front of the ad. -/
def twoLines : Bytes := bytes "1000 lines\n" ++ line ++ bytes "\n"

/-- An empty line in front of the ad. -/
def emptyLine : Bytes := bytes "\n" ++ line ++ bytes "\n"

/-- A line without bids. -/
def noBids : Bytes := bytes "1000, 450, 50, 1.0, [disk]\n"

end AdsFile

open AdsFile in
theorem Ad.lineLocal_twoLines :
    LineLocal decimalCents keywordSort _buffer twoLines ↔
      Lines.UndisturbedTo 10 (Lines.refill _buffer twoLines) 0 (split 10 true [] twoLines) ∧
        (∀ line ∈ linesInFront twoLines, ∀ ad, parse decimalCents keywordSort line = .ok ad →
          ad._bids ≠ []) ∧
        ∀ line ∈ linesBehind twoLines, wellFormed decimalCents keywordSort line = none :=
  lineLocal_iff (lt_length_buffer (by decide +kernel))

open AdsFile in
/-- An empty line hides the ads behind it, and a line without bids leaves an ad. -/
theorem Ad.not_lineLocal :
    ¬ LineLocal decimalCents keywordSort _buffer emptyLine ∧
      ¬ LineLocal decimalCents keywordSort _buffer noBids := by
  constructor
  · intro h
    have hbehind := ((lineLocal_iff (lt_length_buffer (by decide +kernel))).mp h).2.2
    exact absurd (hbehind line (by decide +kernel)) (by decide +kernel)
  · intro h
    have hfront := ((lineLocal_iff (lt_length_buffer (by decide +kernel))).mp h).2.1
    refine hfront (bytes "1000, 450, 50, 1.0, [disk]") (by decide +kernel) ⟨bytes "1000", (450, 50),
      [], 100, bytes "1000, 450, 50, 1.0, [disk]"⟩ (by decide +kernel) rfl

end ClientServer
