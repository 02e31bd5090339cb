import ClientServer.Common.Utility
import ClientServer.Library.Spans
import ClientServer.Library.Words

/-!
# The loops of the splits

`utility::split` over one delimiter and over a set of separators, and
`utility::splitReversedOrder`, position by position: a search returns the next
place or `npos`, and a row is made of the range between two iterators.  A search
may begin past the end, where it finds nothing.  A range may not leave the input.

A loop is given a number of turns, and has no result where they do not suffice.
-/

namespace ClientServer.utility

/-- The row `emplace_back` makes of `[input.cbegin() + first, input.cbegin() + last)`. -/
def range (input : Bytes) (first last : Nat) : Call Bytes :=
  if first ≤ last ∧ last ≤ input.length then .ok (Spans.slice input first last)
  else .error .outOfBounds

/-- A character of the separators. -/
def isSeparator (separators : Bytes) (c : UInt8) : Bool := decide (c ∈ separators)

def find (input : Bytes) (delim : UInt8) (pos : Nat) : Option Nat :=
  Spans.findFrom (fun c => decide (c = delim)) input pos

def find_first_of (input separators : Bytes) (pos : Nat) : Option Nat :=
  Spans.findFrom (isSeparator separators) input pos

def find_first_not_of (input separators : Bytes) (pos : Nat) : Option Nat :=
  Spans.findFrom (fun c => !isSeparator separators c) input pos

/-! ## One delimiter -/

/-- `while (start < input.size())` of `split` and `splitReversedOrder`, which put
their rows at different ends. -/
def splitLoop (emplace : List Bytes → Bytes → List Bytes) (delim : UInt8) (keepDelim : Bool)
    (input : Bytes) : (turns start : Nat) → (rows : List Bytes) → Option (Call (List Bytes))
  | 0, start, rows => if start < input.length then none else some (.ok rows)
  | turns + 1, start, rows =>
      if start < input.length then
        match find input delim start with
        | none =>
            match range input start input.length with
            | .error fault => some (.error fault)
            | .ok row => some (.ok (emplace rows row))
        | some next =>
            match range input start (if keepDelim then next + 1 else next) with
            | .error fault => some (.error fault)
            | .ok row => splitLoop emplace delim keepDelim input turns (next + 1) (emplace rows row)
      else some (.ok rows)

/-- `split` over a delimiter, with `emplace_back`. -/
def split (delim : UInt8) (keepDelim : Bool) (input : Bytes) (turns : Nat) (rows : List Bytes) :
    Option (Call (List Bytes)) :=
  splitLoop (fun rows row => rows ++ [row]) delim keepDelim input turns 0 rows

/-- `splitReversedOrder`, with `emplace_front`. -/
def splitReversedOrder (delim : UInt8) (keepDelim : Bool) (input : Bytes) (turns : Nat)
    (rows : List Bytes) : Option (Call (List Bytes)) :=
  splitLoop (fun rows row => row :: rows) delim keepDelim input turns 0 rows

theorem range_eq_ok {input : Bytes} {first last : Nat} (hle : first ≤ last)
    (hlast : last ≤ input.length) : range input first last = .ok (Spans.slice input first last) :=
  if_pos ⟨hle, hlast⟩

/-- The walk goes on through bytes that are no delimiter. -/
theorem split_append {delim : UInt8} {keepDelim : Bool} {part : Bytes}
    (h : ∀ c ∈ part, decide (c = delim) = false) (row input : Bytes) :
    ClientServer.split delim keepDelim row (part ++ input) =
      ClientServer.split delim keepDelim (row ++ part) input := by
  induction part generalizing row with
  | nil => rw [List.nil_append, List.append_nil]
  | cons c part ih =>
      have hc : c ≠ delim := of_decide_eq_false (h c List.mem_cons_self)
      rw [List.cons_append, ClientServer.split, if_neg hc,
        ih (fun c' hc' => h c' (.tail _ hc')), List.append_assoc]
      rfl

/-- What stands in front of the next delimiter is a row. -/
theorem split_of_find {input : Bytes} {delim : UInt8} {start next : Nat} (keepDelim : Bool)
    (h : find input delim start = some next) :
    start ≤ next ∧ next < input.length ∧
    ClientServer.split delim keepDelim [] (input.drop start) =
      Spans.slice input start (if keepDelim then next + 1 else next) ::
        ClientServer.split delim keepDelim [] (input.drop (next + 1)) := by
  obtain ⟨c, hc, hpart, hle, hlt, hdrop⟩ := Spans.drop_of_findFrom h
  obtain rfl : c = delim := of_decide_eq_true hc
  refine ⟨hle, hlt, ?_⟩
  have hkeep : Spans.slice input start next ++ [c] = Spans.slice input start (next + 1) := by
    have hlong := Spans.slice_append_drop (hle.trans (Nat.le_succ next)) hlt
    rw [← Spans.slice_append_drop hle hlt.le, hdrop, List.append_cons] at hlong
    exact (List.append_cancel_right hlong).symm
  rw [← Spans.slice_append_drop hle hlt.le, split_append hpart, hdrop, List.nil_append,
    ClientServer.split, if_pos rfl]
  cases keepDelim with
  | false => rfl
  | true => exact congrArg (· :: _) hkeep

/-- The last row ends with the input. -/
theorem split_of_find_none {input : Bytes} {delim : UInt8} {start : Nat} (keepDelim : Bool)
    (hlt : start < input.length) (h : find input delim start = none) :
    ClientServer.split delim keepDelim [] (input.drop start) = [input.drop start] := by
  have hne : input.drop start ≠ [] := List.drop_eq_nil_iff.not.mpr (Nat.not_le.mpr hlt)
  have hwalk : ClientServer.split delim keepDelim [] (input.drop start ++ []) =
      ClientServer.split delim keepDelim ([] ++ input.drop start) [] :=
    split_append (Spans.forall_mem_drop h) [] []
  rwa [List.append_nil, List.nil_append, ClientServer.split, if_neg hne] at hwalk

/-- The loop puts the rows in, one after the other, in as many turns as there are
bytes. -/
theorem splitLoop_eq (emplace : List Bytes → Bytes → List Bytes) (delim : UInt8)
    (keepDelim : Bool) (input : Bytes) {turns start : Nat} (rows : List Bytes)
    (h : input.length ≤ start + turns) :
    splitLoop emplace delim keepDelim input turns start rows =
      some (.ok ((ClientServer.split delim keepDelim [] (input.drop start)).foldl emplace rows)) := by
  have hdone : input.length ≤ start →
      (ClientServer.split delim keepDelim [] (input.drop start)).foldl emplace rows = rows := by
    intro hle
    rw [List.drop_eq_nil_of_le hle, ClientServer.split, if_pos rfl]
    rfl
  induction turns generalizing start rows with
  | zero =>
      have hle : input.length ≤ start := by rwa [Nat.add_zero] at h
      rw [splitLoop, if_neg (Nat.not_lt.mpr hle), hdone hle]
  | succ turns ih =>
      rw [splitLoop]
      split
      next hlt =>
        cases hfind : find input delim start with
        | none =>
            simp only [range_eq_ok hlt.le (Nat.le_refl _), Spans.slice_length,
              split_of_find_none keepDelim hlt hfind]
            rfl
        | some next =>
            obtain ⟨hle, hnext, hsplit⟩ := split_of_find keepDelim hfind
            have hrange : range input start (if keepDelim then next + 1 else next) =
                .ok (Spans.slice input start (if keepDelim then next + 1 else next)) := by
              refine range_eq_ok ?_ ?_ <;> split <;> omega
            simp only [hrange, hsplit, List.foldl_cons]
            refine ih _ (by omega) fun hge => ?_
            rw [List.drop_eq_nil_of_le hge, ClientServer.split, if_pos rfl]
            rfl
      next hge => rw [hdone (Nat.not_lt.mp hge)]

theorem split_eq (delim : UInt8) (keepDelim : Bool) (input : Bytes) {turns : Nat}
    (rows : List Bytes) (h : input.length ≤ turns) :
    split delim keepDelim input turns rows =
      some (.ok (rows ++ ClientServer.split delim keepDelim [] input)) := by
  have happend (lines rows : List Bytes) :
      lines.foldl (fun rows row => rows ++ [row]) rows = rows ++ lines := by
    induction lines generalizing rows with
    | nil => exact (List.append_nil rows).symm
    | cons line lines ih => rw [List.foldl_cons, ih, List.append_assoc, List.singleton_append]
  rw [split, splitLoop_eq _ _ _ _ _ (by rwa [Nat.zero_add]), happend, List.drop_zero]

theorem splitReversedOrder_eq (delim : UInt8) (keepDelim : Bool) (input : Bytes) {turns : Nat}
    (rows : List Bytes) (h : input.length ≤ turns) :
    splitReversedOrder delim keepDelim input turns rows =
      some (.ok ((ClientServer.split delim keepDelim [] input).reverse ++ rows)) := by
  rw [splitReversedOrder, splitLoop_eq _ _ _ _ _ (by rwa [Nat.zero_add]), List.drop_zero,
    List.foldl_flip_cons_eq_append, List.map_id']

/-! ## A set of separators -/

/-- `while (beg != INPUT::npos)` of `split` over separators. -/
def splitSeparatorsLoop (separators input : Bytes) :
    (turns : Nat) → (beg : Option Nat) → (rows : List Bytes) → Option (Call (List Bytes))
  | _, none, rows => some (.ok rows)
  | 0, some _, _ => none
  | turns + 1, some beg, rows =>
      let «end» := (find_first_of input separators (beg + 1)).getD input.length
      match range input beg «end» with
      | .error fault => some (.error fault)
      | .ok row =>
          splitSeparatorsLoop separators input turns
            (find_first_not_of input separators («end» + 1)) (rows ++ [row])

/-- `split` over a set of separators. -/
def splitSeparators (separators input : Bytes) (turns : Nat) (rows : List Bytes) :
    Option (Call (List Bytes)) :=
  splitSeparatorsLoop separators input turns (find_first_not_of input separators 0) rows

/-- The piece of the input that a pair of positions stands for. -/
def rowOf (input : Bytes) (span : Nat × Nat) : Bytes := Spans.slice input span.1 span.2

section Separators

variable {separators input : Bytes}

theorem rowOf_ne_nil {first last : Nat} {sep : UInt8 → Bool}
    (h : Spans.IsSpan sep input first last) : rowOf input (first, last) ≠ [] := by
  intro hrow
  have hlength : (Spans.slice input first last).length = last - first :=
    Spans.length_slice h.le
  rw [show Spans.slice input first last = [] from hrow, List.length_nil] at hlength
  have hlt := h.lt
  omega

/-- No words stand before the next character that is no separator. -/
theorem words_of_find_first_not_of (separators input : Bytes) (pos : Nat) :
    Words.words (isSeparator separators) (input.drop pos) =
      match find_first_not_of input separators pos with
      | none => []
      | some beg => Words.words (isSeparator separators) (input.drop beg) := by
  cases hfind : find_first_not_of input separators pos with
  | none =>
      have hseps : ∀ c ∈ input.drop pos, isSeparator separators c = true := by
        intro c hc
        simpa using Spans.forall_mem_drop hfind c hc
      have hwords := Words.words_append_seps hseps []
      rwa [List.append_nil] at hwords
  | some beg =>
      obtain ⟨-, -, hseps, hle, hlt, -⟩ := Spans.drop_of_findFrom hfind
      rw [← Spans.slice_append_drop hle hlt.le, Words.words_append_seps]
      intro c hc
      simpa using hseps c hc

/-- The first word where a part begins. -/
theorem words_of_starts {beg : Nat} (h : Spans.Starts (isSeparator separators) input beg) :
    let last := Spans.endOf (isSeparator separators) input beg
    Words.words (isSeparator separators) (input.drop beg) =
      rowOf input (beg, last) ::
        Words.words (isSeparator separators) (input.drop (last + 1)) := by
  intro last
  have hspan := h.isSpan
  have hword : Words.IsWord (isSeparator separators) (rowOf input (beg, last)) :=
    ⟨rowOf_ne_nil hspan, Spans.forall_mem_slice hspan.inside⟩
  rw [← Spans.slice_append_drop hspan.lt.le hspan.le]
  rcases hspan.behind with hend | hsep
  · rw [List.drop_eq_nil_of_le hend.ge, List.drop_eq_nil_of_le (hend.ge.trans (Nat.le_succ _)),
      List.append_nil, Words.words_nil]
    exact Words.words_of_isWord hword
  · obtain ⟨hlt, hsep⟩ := Spans.holdsAt_eq_true_iff.mp hsep
    have hone : ∀ c ∈ [input[last]], isSeparator separators c = true := by
      intro c hc
      rwa [List.mem_singleton.mp hc]
    rw [List.drop_eq_getElem_cons hlt]
    exact Words.words_append hword hone (List.cons_ne_nil _ _) (input.drop (last + 1))

/-- A turn that begins where a part begins puts that part in. -/
theorem splitSeparatorsLoop_turn {beg : Nat}
    (hstarts : Spans.Starts (isSeparator separators) input beg) (turns : Nat)
    (rows : List Bytes) :
    let last := Spans.endOf (isSeparator separators) input beg
    splitSeparatorsLoop separators input (turns + 1) (some beg) rows =
      splitSeparatorsLoop separators input turns (find_first_not_of input separators (last + 1))
        (rows ++ [rowOf input (beg, last)]) := by
  intro last
  have hspan := hstarts.isSpan
  have hrange : range input beg last = .ok (rowOf input (beg, last)) :=
    range_eq_ok hspan.lt.le hspan.le
  rw [splitSeparatorsLoop]
  simp only [show (find_first_of input separators (beg + 1)).getD input.length = last from rfl,
    hrange]

/-- The rows of the parts that begin at `beg` or behind it, if there are turns for
the bytes from `beg` on. -/
theorem splitSeparatorsLoop_eq {beg bytesLeft : Nat} {spans : List (Nat × Nat)}
    (hstarts : Spans.Starts (isSeparator separators) input beg)
    (hcollected : Spans.Collected (isSeparator separators) input beg spans)
    (h : input.length ≤ beg + bytesLeft) :
    ∃ spans', Spans.All (isSeparator separators) input (spans ++ spans') ∧
      Words.words (isSeparator separators) (input.drop beg) = spans'.map (rowOf input) ∧
      ∀ (turns : Nat) (rows : List Bytes), input.length ≤ beg + turns →
        splitSeparatorsLoop separators input turns (some beg) rows =
          some (.ok (rows ++ spans'.map (rowOf input))) := by
  induction bytesLeft generalizing beg spans with
  | zero =>
      have hlt := Spans.lt_of_holdsAt hstarts.noSep
      omega
  | succ bytesLeft ih =>
      have hlt := Spans.lt_of_holdsAt hstarts.noSep
      have hspan := hstarts.isSpan.lt
      have hstep := hcollected.step hstarts
      have hwords := (words_of_starts hstarts).trans
        (congrArg (_ :: ·) (words_of_find_first_not_of separators input _))
      cases hfind : find_first_not_of input separators
          (Spans.endOf (isSeparator separators) input beg + 1) with
      | none =>
          rw [show Spans.findFrom (fun c => !isSeparator separators c) input _ = none from hfind]
            at hstep
          rw [hfind] at hwords
          refine ⟨_, hstep, hwords, fun turns rows hturns => ?_⟩
          obtain ⟨turns, rfl⟩ : ∃ n, turns = n + 1 := ⟨turns - 1, by omega⟩
          rw [splitSeparatorsLoop_turn hstarts, hfind, splitSeparatorsLoop]
          rfl
      | some beg' =>
          rw [show Spans.findFrom (fun c => !isSeparator separators c) input _ = some beg'
            from hfind] at hstep
          obtain ⟨hstarts', hcollected'⟩ := hstep
          have hpos := (Spans.findFrom_eq_some_iff.mp hfind).1
          obtain ⟨spans', hall, hwords', hloop⟩ := ih hstarts' hcollected' (by omega)
          rw [hfind] at hwords
          refine ⟨(beg, _) :: spans', by rwa [List.append_cons], ?_, fun turns rows hturns => ?_⟩
          · rw [hwords, List.map_cons]
            exact congrArg (_ :: ·) hwords'
          obtain ⟨turns, rfl⟩ : ∃ n, turns = n + 1 := ⟨turns - 1, by omega⟩
          rw [splitSeparatorsLoop_turn hstarts, hfind, hloop _ _ (by omega), List.map_cons,
            ← List.append_cons]

/-- The rows are the longest parts without a separator. -/
theorem splitSeparators_eq (separators input : Bytes) :
    ∃ spans, Spans.All (isSeparator separators) input spans ∧
      Words.words (isSeparator separators) input = spans.map (rowOf input) ∧
      ∀ (turns : Nat) (rows : List Bytes), input.length ≤ turns →
        splitSeparators separators input turns rows =
          some (.ok (rows ++ spans.map (rowOf input))) := by
  have hempty : Spans.Collected (isSeparator separators) input 0 [] := .start
  have hstart := hempty.skip (.inl rfl)
  have hwords := words_of_find_first_not_of separators input 0
  rw [List.drop_zero] at hwords
  cases hfind : find_first_not_of input separators 0 with
  | none =>
      rw [show Spans.findFrom (fun c => !isSeparator separators c) input 0 = none from hfind]
        at hstart
      rw [hfind] at hwords
      refine ⟨[], hstart, hwords, fun turns rows _ => ?_⟩
      rw [splitSeparators, hfind, splitSeparatorsLoop, List.map_nil, List.append_nil]
  | some beg =>
      rw [show Spans.findFrom (fun c => !isSeparator separators c) input 0 = some beg from hfind]
        at hstart
      obtain ⟨hstarts, hcollected⟩ := hstart
      obtain ⟨spans, hall, hwords', hloop⟩ := splitSeparatorsLoop_eq hstarts hcollected
        (Nat.le_add_left input.length beg)
      rw [hfind] at hwords
      refine ⟨spans, hall, hwords.trans hwords', fun turns rows hturns => ?_⟩
      rw [splitSeparators, hfind, hloop turns rows (hturns.trans (Nat.le_add_left turns beg))]

end Separators

/-- The separators' `split` puts in the longest parts without a separator, and
the rows of the delimiter's `split` with the delimiters kept are the input. -/
theorem split_tokens (input : Bytes) (rows : List Bytes) :
    (∀ separators : Bytes, ∃ spans,
      Spans.All (isSeparator separators) input spans ∧
      (∀ span ∈ spans, rowOf input span ≠ []) ∧
      ∀ turns, input.length ≤ turns →
        splitSeparators separators input turns rows =
          some (.ok (rows ++ spans.map (rowOf input)))) ∧
    ∀ delim : UInt8, ∃ lines, lines.flatten = input ∧
      ∀ turns, input.length ≤ turns →
        split delim true input turns rows = some (.ok (rows ++ lines)) := by
  refine ⟨fun separators => ?_, fun delim => ?_⟩
  · obtain ⟨spans, hall, -, hsplit⟩ := splitSeparators_eq separators input
    exact ⟨spans, hall, fun span hspan => rowOf_ne_nil ((hall.mem_iff _ _).mp hspan),
      fun turns => hsplit turns rows⟩
  · exact ⟨ClientServer.split delim true [] input, flatten_split delim [] input,
      fun turns hturns => split_eq delim true input rows hturns⟩

end ClientServer.utility
