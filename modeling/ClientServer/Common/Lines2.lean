import ClientServer.Common.SplitLoops
import ClientServer.Library.Runs
import ClientServer.Library.Slots

/-!
# Line readers that share a store

The second family of line readers, `StringLines2` and `FileLines2`.  A constructor
splits its source into the thread's deque `_lines`, the last line in front, and
`getLine` takes the line at the back.  The deque belongs to the thread, not to a
reader.

A state is that of one thread.  Each reader has, beside its fields, a record of
its source and of what its calls of `getLine` returned; the code has neither.
-/

namespace ClientServer.Lines2

/-- What a reader is constructed from. -/
inductive Source where
  /-- `StringLines2`: a text. -/
  | text (source : Bytes)
  /-- `FileLines2`: what `readFile` puts into the buffer, nothing where it throws. -/
  | file (contents : Option Bytes)
deriving DecidableEq, Repr

/-- The bytes the constructor splits; the exception of `readFile` is caught. -/
def Source.bytes : Source → Option Bytes
  | .text source => some source
  | .file contents => contents

structure Reader where
  _index : Int := -1
  _delimiter : UInt8
  _keepDelimiter : Bool
  destroyed : Bool := false
  source : Source
  /-- What `getLine` returned, call by call, nothing for `false`. -/
  returned : List (Option Bytes) := []
deriving DecidableEq, Repr

structure State where
  /-- The thread's deque, front to back. -/
  _lines : List Bytes := []
  /-- In the order of their construction. -/
  readers : List Reader := []
deriving DecidableEq, Repr

/-- The deque after the constructor. -/
def store (source : Source) (_delimiter : UInt8) (_keepDelimiter : Bool) (_lines : List Bytes) :
    List Bytes :=
  match source.bytes with
  | none => _lines
  | some input =>
      match utility.splitReversedOrder _delimiter _keepDelimiter input input.length _lines with
      | some (.ok rows) => rows
      | _ => _lines

def State.construct (s : State) (source : Source) (_delimiter : UInt8) (_keepDelimiter : Bool) :
    State where
  _lines := store source _delimiter _keepDelimiter s._lines
  readers := s.readers ++ [{ _delimiter, _keepDelimiter, source }]

/-- `getLine` of the reader at this place: the line, or nothing for `false`. -/
def State.getLine (s : State) (i : Nat) (reader : Reader) : Option Bytes × State :=
  match s._lines.getLast? with
  | none =>
      (none, { s with
        readers := s.readers.set i { reader with returned := reader.returned ++ [none] } })
  | some line =>
      (some line, {
        _lines := s._lines.dropLast
        readers := s.readers.set i
          { reader with _index := reader._index + 1, returned := reader.returned ++ [some line] } })

inductive Action where
  | construct (source : Source) (_delimiter : UInt8) (_keepDelimiter : Bool)
  | getLine (i : Nat)
  | destroy (i : Nat)
deriving DecidableEq, Repr

/-- A reader that can still be used. -/
def State.alive (s : State) (i : Nat) : Option Reader :=
  (s.readers[i]?).filter fun reader => !reader.destroyed

/-- What the thread does next. -/
def step : Action → State → Option State
  | .construct source _delimiter _keepDelimiter, s =>
      some (s.construct source _delimiter _keepDelimiter)
  | .getLine i, s => (s.alive i).map fun reader => (s.getLine i reader).2
  | .destroy i, s => (s.alive i).map fun reader =>
      { s with readers := s.readers.set i { reader with destroyed := true } }

/-! ## Independence -/

/-- The lines of a reader's own source. -/
def Reader.rows (reader : Reader) : List Bytes :=
  match reader.source.bytes with
  | none => []
  | some input => split reader._delimiter reader._keepDelimiter [] input

/-- The lines of its own source that a reader has not counted. -/
def Reader.remaining (reader : Reader) : List Bytes := reader.rows.drop (reader._index + 1).toNat

/-- Each call returned the next line of the own source, and `false` exactly
behind the last. -/
def Reader.Own (reader : Reader) : Prop :=
  reader.returned = (List.range reader.returned.length).map fun n => reader.rows[n]?

instance (reader : Reader) : Decidable reader.Own :=
  inferInstanceAs (Decidable (_ = _))

def State.Independent (s : State) : Prop := ∀ reader ∈ s.readers, reader.Own

/-- The reader at this place has lines left. -/
def State.hasMore (s : State) (i : Nat) : Bool :=
  (s.readers[i]?).any fun reader => !reader.remaining.isEmpty

/-- The readers constructed before this one are read to the end, the destroyed
ones too, and all readers are if this one is. -/
def State.InTurn (s : State) (i : Nat) : Prop :=
  ∀ j < s.readers.length, s.hasMore j = true → i ≤ j ∧ s.hasMore i = true

instance (s : State) (i : Nat) : Decidable (s.InTurn i) :=
  inferInstanceAs (Decidable (∀ j < s.readers.length, _ → _))

/-- Every `getLine` is in turn. -/
def inTurn : Action → State → Prop
  | .getLine i, s => s.InTurn i
  | _, _ => True

instance : ∀ (a : Action) (s : State), Decidable (inTurn a s)
  | .construct .., _ => .isTrue trivial
  | .getLine i, s => inferInstanceAs (Decidable (s.InTurn i))
  | .destroy _, _ => .isTrue trivial

theorem getLine_fst (s : State) (i : Nat) (reader : Reader) :
    (s.getLine i reader).1 = s._lines.getLast? := by
  rw [State.getLine]
  cases s._lines.getLast? <;> rfl

/-! ## One reader -/

/-- A reader that counts the lines it returned and returned its own. -/
structure Reader.Right (reader : Reader) : Prop where
  own : reader.Own
  index : (reader._index + 1).toNat = min reader.returned.length reader.rows.length
  neg_one_le : -1 ≤ reader._index

theorem Reader.Right.remaining_eq {reader : Reader} (h : reader.Right) :
    reader.remaining = reader.rows.drop reader.returned.length := by
  rw [Reader.remaining, h.index]
  rcases Nat.le_total reader.returned.length reader.rows.length with hle | hle
  · rw [Nat.min_eq_left hle]
  · rw [Nat.min_eq_right hle, List.drop_length, List.drop_eq_nil_of_le hle]

/-- The next call returns what the own source has next. -/
theorem Reader.Right.own_concat_iff {reader : Reader} (h : reader.Right) {line : Option Bytes} :
    reader.returned ++ [line] =
      (List.range (reader.returned ++ [line]).length).map (fun n => reader.rows[n]?) ↔
      line = reader.remaining.head? := by
  rw [List.length_append, List.length_singleton, List.range_succ, List.map_append, ← h.own,
    List.append_cancel_left_eq, h.remaining_eq, List.head?_drop]
  exact ⟨fun heq => List.head_eq_of_cons_eq heq, congrArg ([·])⟩

/-- `false` behind the last line. -/
theorem Reader.Right.none {reader : Reader} (h : reader.Right) (hnil : reader.remaining = []) :
    ({ reader with returned := reader.returned ++ [none] } : Reader).Right where
  own := h.own_concat_iff.mpr (by rw [hnil, List.head?_nil])
  index := by
    rw [h.remaining_eq, List.drop_eq_nil_iff] at hnil
    have hindex := h.index
    simp only [Reader.rows, List.length_append, List.length_singleton] at hindex hnil ⊢
    omega
  neg_one_le := h.neg_one_le

/-- A line, and what remains behind it. -/
theorem Reader.Right.some {reader : Reader} (h : reader.Right) {line : Bytes} {lines : List Bytes}
    (hcons : reader.remaining = line :: lines) :
    let reader' : Reader :=
      { reader with _index := reader._index + 1, returned := reader.returned ++ [some line] }
    reader'.Right ∧ reader'.remaining = lines := by
  intro reader'
  have hrows := h.remaining_eq
  rw [hcons] at hrows
  have hlt : reader.returned.length < reader.rows.length := by
    by_contra hge
    rw [List.drop_eq_nil_of_le (Nat.not_lt.mp hge)] at hrows
    cases hrows
  have hindex := h.index
  have hge := h.neg_one_le
  have hright : reader'.Right := by
    refine ⟨h.own_concat_iff.mpr (by rw [hcons, List.head?_cons]), ?_, Int.le_add_one hge⟩
    · have hlength : reader'.returned.length = reader.returned.length + 1 := by
        rw [List.length_append, List.length_singleton]
      have hadd : reader'._index = reader._index + 1 := rfl
      have hsame : reader'.rows = reader.rows := rfl
      rw [hlength, hadd, hsame]
      omega
  refine ⟨hright, ?_⟩
  rw [hright.remaining_eq, List.length_append, List.length_singleton, ← List.tail_drop]
  exact congrArg List.tail hrows.symm

/-! ## The store -/

theorem store_eq (source : Source) (_delimiter : UInt8) (_keepDelimiter : Bool)
    (_lines : List Bytes) :
    store source _delimiter _keepDelimiter _lines =
      ({ _delimiter, _keepDelimiter, source } : Reader).rows.reverse ++ _lines := by
  rw [store, Reader.rows]
  cases source.bytes with
  | none => rfl
  | some input =>
      simp only [utility.splitReversedOrder_eq _delimiter _keepDelimiter input _lines
        (Nat.le_refl _)]

/-- The store holds, from the back, what the readers have not counted, in the
order of their construction. -/
structure State.Accounted (s : State) : Prop where
  stored : s._lines.reverse = s.readers.flatMap Reader.remaining
  right : ∀ reader ∈ s.readers, reader.Right

theorem accounted_start : ({} : State).Accounted where
  stored := rfl
  right _ hreader := (List.not_mem_nil hreader).elim

theorem right_new (source : Source) (_delimiter : UInt8) (_keepDelimiter : Bool) :
    ({ _delimiter, _keepDelimiter, source } : Reader).Right where
  own := rfl
  index := (Nat.zero_min _).symm
  neg_one_le := Int.le_refl _

theorem State.Accounted.construct {s : State} (h : s.Accounted) (source : Source)
    (_delimiter : UInt8) (_keepDelimiter : Bool) :
    (s.construct source _delimiter _keepDelimiter).Accounted where
  stored := by
    rw [State.construct, List.flatMap_append, List.flatMap_singleton, ← h.stored, store_eq,
      List.reverse_append, List.reverse_reverse]
    rfl
  right reader hreader := by
    rcases List.mem_append.mp hreader with hmem | hmem
    · exact h.right reader hmem
    · rw [List.mem_singleton.mp hmem]
      exact right_new source _delimiter _keepDelimiter

/-- One reader is exchanged. -/
theorem right_set {readers : List Reader} (h : ∀ reader ∈ readers, reader.Right) (i : Nat)
    {reader : Reader} (hreader : reader.Right) : ∀ r ∈ readers.set i reader, r.Right := by
  intro r hr
  rcases List.mem_or_eq_of_mem_set hr with hmem | rfl
  · exact h r hmem
  · exact hreader

/-- The readers in front of the one in turn have nothing left. -/
theorem State.InTurn.front {s : State} {i : Nat} (h : s.InTurn i) :
    (s.readers.take i).flatMap Reader.remaining = [] := by
  rw [List.flatMap_eq_nil_iff]
  intro reader hreader
  obtain ⟨j, hj, hget⟩ := List.mem_take_iff_getElem.mp hreader
  by_contra hne
  have hmore : s.hasMore j = true := by
    rw [State.hasMore, List.getElem?_eq_getElem (by omega), hget]
    simpa using hne
  have hle := (h j (by omega) hmore).1
  omega

/-- No reader has anything left where the one in turn has nothing. -/
theorem State.InTurn.all {s : State} {i : Nat} (h : s.InTurn i) {reader : Reader}
    (hreader : s.readers[i]? = some reader) (hnil : reader.remaining = []) :
    s.readers.flatMap Reader.remaining = [] := by
  rw [List.flatMap_eq_nil_iff]
  intro r hr
  obtain ⟨j, hj, rfl⟩ := List.getElem_of_mem hr
  by_contra hne
  have hmore : s.hasMore j = true := by
    rw [State.hasMore, List.getElem?_eq_getElem hj]
    simpa using hne
  have hown := (h j hj hmore).2
  rw [State.hasMore, hreader] at hown
  simp [hnil] at hown

theorem State.Accounted.getLine {s : State} (h : s.Accounted) {i : Nat} (hturn : s.InTurn i)
    {reader : Reader} (hreader : s.readers[i]? = some reader) :
    (s.getLine i reader).2.Accounted := by
  have hright := h.right reader (List.mem_of_getElem? hreader)
  have hlt := (List.getElem?_eq_some_iff.mp hreader).1
  have hstored := h.stored
  rw [Slots.flatMap_around _ hreader, hturn.front, List.nil_append] at hstored
  cases hremaining : reader.remaining with
  | nil =>
      have hempty : s._lines.getLast? = none := by
        rw [← List.head?_reverse, h.stored, hturn.all hreader hremaining, List.head?_nil]
      rw [State.getLine, hempty]
      refine ⟨?_, right_set h.right i (hright.none hremaining)⟩
      rw [hstored, Slots.flatMap_set _ hlt, hturn.front, List.nil_append]
      rfl
  | cons line lines =>
      rw [hremaining, List.cons_append] at hstored
      have hlast : s._lines.getLast? = some line := by
        rw [← List.head?_reverse, hstored, List.head?_cons]
      obtain ⟨hright', hremaining'⟩ := hright.some hremaining
      rw [State.getLine, hlast]
      refine ⟨?_, right_set h.right i hright'⟩
      rw [← List.tail_reverse, hstored, List.tail_cons, Slots.flatMap_set _ hlt, hturn.front,
        List.nil_append, hremaining']

/-- What one call does in a state in which no other line was taken: it returns the
first line left by any reader, which has to be the own next one. -/
theorem State.Accounted.independent_getLine_iff {s : State} (h : s.Accounted) {i : Nat}
    {reader : Reader} (hreader : s.readers[i]? = some reader) :
    (s.getLine i reader).2.Independent ↔
      (s.readers.flatMap Reader.remaining).head? = reader.remaining.head? := by
  have hright := h.right reader (List.mem_of_getElem? hreader)
  have hlt := (List.getElem?_eq_some_iff.mp hreader).1
  have hothers (reader' : Reader) :
      (∀ r ∈ s.readers.set i reader', r.Own) ↔ reader'.Own := by
    refine ⟨fun hall => hall reader' (List.mem_set hlt reader'), fun hown r hr => ?_⟩
    rcases List.mem_or_eq_of_mem_set hr with hmem | rfl
    · exact (h.right r hmem).own
    · exact hown
  rw [← h.stored, List.head?_reverse, ← hright.own_concat_iff]
  cases hlast : s._lines.getLast? with
  | none =>
      rw [State.getLine, hlast]
      exact hothers _
  | some line =>
      rw [State.getLine, hlast]
      exact hothers _

/-- A reader that is destroyed leaves its lines where they are. -/
theorem State.Accounted.destroy {s : State} (h : s.Accounted) {i : Nat} {reader : Reader}
    (hreader : s.readers[i]? = some reader) :
    ({ s with readers := s.readers.set i { reader with destroyed := true } } : State).Accounted where
  stored := by
    have hlt := (List.getElem?_eq_some_iff.mp hreader).1
    rw [h.stored, Slots.flatMap_around _ hreader, Slots.flatMap_set _ hlt]
    rfl
  right := by
    have hright := h.right reader (List.mem_of_getElem? hreader)
    exact right_set h.right i ⟨hright.own, hright.index, hright.neg_one_le⟩

theorem getElem?_of_alive {s : State} {i : Nat} {reader : Reader}
    (h : s.alive i = some reader) : s.readers[i]? = some reader :=
  (Option.filter_eq_some_iff.mp h).1

theorem State.Accounted.step {s s' : State} {a : Action} (h : s.Accounted) (hturn : inTurn a s)
    (hs : step a s = some s') : s'.Accounted := by
  cases a with
  | construct source _delimiter _keepDelimiter =>
      obtain rfl := Option.some.inj hs
      exact h.construct source _delimiter _keepDelimiter
  | getLine i =>
      obtain ⟨reader, halive, rfl⟩ := Option.map_eq_some_iff.mp hs
      exact h.getLine hturn (getElem?_of_alive halive)
  | destroy i =>
      obtain ⟨reader, halive, rfl⟩ := Option.map_eq_some_iff.mp hs
      exact h.destroy (getElem?_of_alive halive)

/-- The calls of `getLine` of the reader at this place return these lines one by one,
and then false. -/
def Reads (i : Nat) : State → List Bytes → Prop
  | s, [] => ∃ reader s', s.alive i = some reader ∧ s.getLine i reader = (none, s')
  | s, line :: lines => ∃ reader s', s.alive i = some reader ∧
      s.getLine i reader = (some line, s') ∧ Reads i s' lines

/-- The only reader of a thread is always in turn. -/
theorem State.Accounted.only {s : State} (h : s.Accounted) {reader : Reader}
    (hreaders : s.readers = [reader]) (halive : reader.destroyed = false) :
    s.alive 0 = some reader ∧ s._lines.getLast? = reader.remaining.head? ∧
      (s.getLine 0 reader).2.Accounted := by
  have hget : s.readers[0]? = some reader := by rw [hreaders]; rfl
  have hturn : s.InTurn 0 := by
    intro j hj hmore
    rw [hreaders, List.length_singleton] at hj
    obtain rfl := Nat.lt_one_iff.mp hj
    exact ⟨Nat.le_refl 0, hmore⟩
  refine ⟨?_, ?_, h.getLine hturn hget⟩
  · rw [State.alive, hget, Option.filter_some, halive]
    rfl
  · rw [← List.head?_reverse, h.stored, hreaders, List.flatMap_singleton]

/-- It reads what it has left. -/
theorem State.Accounted.reads {s : State} (h : s.Accounted) {reader : Reader}
    (hreaders : s.readers = [reader]) (halive : reader.destroyed = false) {lines : List Bytes}
    (hremaining : reader.remaining = lines) : Reads 0 s lines := by
  induction lines generalizing s reader with
  | nil =>
      obtain ⟨halive', hlast, -⟩ := h.only hreaders halive
      rw [hremaining] at hlast
      exact ⟨reader, _, halive', Prod.ext ((getLine_fst s 0 reader).trans hlast) rfl⟩
  | cons line lines ih =>
      obtain ⟨halive', hlast, hnext⟩ := h.only hreaders halive
      rw [hremaining] at hlast
      obtain ⟨-, hremaining'⟩ := (h.right reader (by simp [hreaders])).some hremaining
      have hreaders' : (s.getLine 0 reader).2.readers =
          [{ reader with
            _index := reader._index + 1, returned := reader.returned ++ [some line] }] := by
        rw [State.getLine, hlast, hreaders]
        rfl
      exact ⟨reader, _, halive', Prod.ext ((getLine_fst s 0 reader).trans hlast) rfl,
        ih hnext hreaders' halive hremaining'⟩

/-- A reader on a thread without others. -/
theorem reads_fresh (source : Bytes) (_delimiter : UInt8) (_keepDelimiter : Bool) :
    Reads 0 (({} : State).construct (.text source) _delimiter _keepDelimiter)
      (split _delimiter _keepDelimiter [] source) :=
  (accounted_start.construct (.text source) _delimiter _keepDelimiter).reads rfl rfl rfl

theorem accounted_of_reached {s : State} (h : Runs.Reached step inTurn {} s) : s.Accounted :=
  h.invariant accounted_start fun haccounted hturn hs => haccounted.step hturn hs

/-- Where every call is in turn, every reader returns the lines of its own source,
and `false` exactly behind the last. -/
theorem independent_of_inTurn {s : State} (h : Runs.Reached step inTurn {} s) :
    s.Independent :=
  fun reader hreader => ((accounted_of_reached h).right reader hreader).own

/-- The first reader is read to its end and destroyed before the second is read. -/
theorem independent_of_inTurn_two : ∃ s : State,
    s.readers.map Reader.returned =
      [[some (bytes "a"), some (bytes "b")], [some (bytes "c"), none]] ∧
    s.Independent := by
  have hrun : ∃ s, Runs.Reached step inTurn {} s ∧ s.readers.map Reader.returned =
      [[some (bytes "a"), some (bytes "b")], [some (bytes "c"), none]] :=
    Runs.exists_reached
      [.construct (.text (bytes "a\nb\n")) 10 false, .construct (.file (some (bytes "c"))) 10 false,
        .getLine 0, .getLine 0, .destroy 0, .getLine 1, .getLine 1] (by decide +kernel)
  obtain ⟨s, hs, hreturned⟩ := hrun
  exact ⟨s, hreturned, independent_of_inTurn hs⟩

/-- Two readers are constructed. -/
def twoReaders : State :=
  (({} : State).construct (.text (bytes "a\n")) 10 false).construct (.text (bytes "b\n")) 10 false

/-- The second is read, and gets the line of the first. -/
theorem not_independent : ¬ ∀ s : State, Runs.Reached step (fun _ _ => True) {} s →
    s.Independent := by
  intro hall
  let reader : Reader := { _delimiter := 10, _keepDelimiter := false, source := .text (bytes "b\n") }
  have haccounted : twoReaders.Accounted :=
    (accounted_start.construct (.text (bytes "a\n")) 10 false).construct (.text (bytes "b\n")) 10
      false
  have hreached : Runs.Reached step (fun _ _ => True) {} (twoReaders.getLine 1 reader).2 :=
    .step (a := .getLine 1) (.step (a := .construct (.text (bytes "b\n")) 10 false)
      (.step (a := .construct (.text (bytes "a\n")) 10 false) .start trivial rfl) trivial rfl)
      trivial rfl
  have hreader : twoReaders.readers[1]? = some reader := rfl
  have hfirst := (haccounted.independent_getLine_iff hreader).mp (hall _ hreached)
  exact absurd hfirst (by decide +kernel)

end ClientServer.Lines2
