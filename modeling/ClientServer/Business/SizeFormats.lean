import ClientServer.Business.SizeKey

/-!
# The formats of a size

A size is written `size=WxH` or `ad_width=W&ad_height=H`.  `createSizeKey` reads
both, and it reads the first two numbers behind a marker in any other text too.
The regular expressions ask for the whole format and look for it anywhere.
`OneSize` lists the texts on which the two variants come to the same.
-/

namespace ClientServer

/-! ## The first two numbers of a text -/

section Runs

variable {skipped digits rest : Bytes}

theorem removeNonDigits_append (hskipped : ∀ c ∈ skipped, Numeral.isDigit c = false)
    (hdigits : ∀ c ∈ digits, Numeral.isDigit c = true) (hne : digits ≠ []) :
    removeNonDigits (skipped ++ (digits ++ rest)) = digits ++ rest := by
  obtain ⟨c, digits, rfl⟩ := List.exists_cons_of_ne_nil hne
  rw [removeNonDigits, List.dropWhile_append_of_pos fun d hd => by simp [hskipped d hd],
    List.cons_append, List.dropWhile_cons_of_neg (by simp [hdigits c (by simp)])]

/-- The first number is the first run of digits. -/
theorem firstNumber_append (hskipped : ∀ c ∈ skipped, Numeral.isDigit c = false)
    (hdigits : ∀ c ∈ digits, Numeral.isDigit c = true) (hne : digits ≠ [])
    (hrest : ∀ c ∈ rest.head?, Numeral.isDigit c = false) :
    firstNumber (skipped ++ (digits ++ rest)) = digits ∧
      afterNumber (skipped ++ (digits ++ rest)) = rest := by
  rw [firstNumber, afterNumber, removeNonDigits_append hskipped hdigits hne]
  exact ⟨Numeral.takeWhile_digits hdigits hrest, Numeral.dropWhile_digits hdigits hrest⟩

end Runs

/-- A text that begins with two runs of digits behind two labels. -/
structure TwoRuns (first second text : Bytes) where
  width : Bytes
  height : Bytes
  rest : Bytes
  text_eq : text = first ++ (width ++ (second ++ (height ++ rest)))
  width_digits : ∀ c ∈ width, Numeral.isDigit c = true
  width_ne : width ≠ []
  height_digits : ∀ c ∈ height, Numeral.isDigit c = true
  height_ne : height ≠ []
  rest_head : ∀ c ∈ rest.head?, Numeral.isDigit c = false

namespace TwoRuns

/-- Labels without digits, the second of them not empty. -/
structure Labels (first second : Bytes) : Prop where
  first_digits : ∀ c ∈ first, Numeral.isDigit c = false
  second_digits : ∀ c ∈ second, Numeral.isDigit c = false
  second_ne : second ≠ []

theorem labels_reg : Labels (bytes "size=") (bytes "x") where
  first_digits := by decide +kernel
  second_digits := by decide +kernel
  second_ne := by decide +kernel

theorem labels_alt : Labels (bytes "ad_width=") (bytes "&ad_height=") where
  first_digits := by decide +kernel
  second_digits := by decide +kernel
  second_ne := by decide +kernel

/-- A run of digits ends in front of the second label. -/
theorem Labels.head_eq_false {first second : Bytes} (h : Labels first second) (rest : Bytes) :
    ∀ c ∈ (second ++ rest).head?, Numeral.isDigit c = false := by
  obtain ⟨c, second, rfl⟩ := List.exists_cons_of_ne_nil h.second_ne
  intro d hd
  obtain rfl : c = d := by simpa using hd
  exact h.second_digits c (by simp)

variable {first second text : Bytes} (runs : TwoRuns first second text)

/-- The two numbers of the text are the two runs. -/
theorem numbers (hlabels : Labels first second) :
    firstNumber text = runs.width ∧ firstNumber (afterNumber text) = runs.height := by
  obtain ⟨hwidth, hafter⟩ := firstNumber_append hlabels.first_digits runs.width_digits
    runs.width_ne (hlabels.head_eq_false (runs.height ++ runs.rest))
  obtain ⟨hheight, -⟩ := firstNumber_append hlabels.second_digits runs.height_digits runs.height_ne
    runs.rest_head
  rw [← runs.text_eq] at hwidth hafter
  exact ⟨hwidth, by rw [hafter, hheight]⟩

/-- The pattern of a format strips the two runs. -/
theorem strip (hlabels : Labels first second) :
    Text.strip [.literal first, .run Numeral.isDigit, .literal second, .run Numeral.isDigit]
      text = some runs.rest := by
  obtain ⟨width, height, rest, rfl, hwidth, hwidth_ne, hheight, hheight_ne, hrest⟩ := runs
  have hhead := hlabels.head_eq_false (height ++ rest)
  rw [Text.strip_cons_literal, if_pos (List.isPrefixOf_iff_prefix.mpr ⟨_, rfl⟩),
    List.drop_left, Text.strip_cons_run, Numeral.takeWhile_digits hwidth hhead, if_neg hwidth_ne,
    Numeral.dropWhile_digits hwidth hhead, Text.strip_cons_literal,
    if_pos (List.isPrefixOf_iff_prefix.mpr ⟨_, rfl⟩), List.drop_left, Text.strip_cons_run,
    Numeral.takeWhile_digits hheight hrest, if_neg hheight_ne, Numeral.dropWhile_digits hheight hrest,
    Text.strip_nil]

/-- What the pattern of a format strips. -/
theorem exists_of_strip {rest : Bytes}
    (h : Text.strip [.literal first, .run Numeral.isDigit, .literal second, .run Numeral.isDigit]
      text = some rest) :
    ∃ runs : TwoRuns first second text, runs.rest = rest := by
  rw [Text.strip_cons_literal] at h
  split at h
  · next hfirst =>
      obtain ⟨tail, rfl⟩ := List.isPrefixOf_iff_prefix.mp hfirst
      rw [List.drop_left, Text.strip_cons_run] at h
      split at h
      · exact absurd h (by simp)
      · next hwidth =>
          rw [Text.strip_cons_literal] at h
          split at h
          · next hsecond =>
              obtain ⟨tail', htail'⟩ := List.isPrefixOf_iff_prefix.mp hsecond
              rw [← htail', List.drop_left, Text.strip_cons_run] at h
              split at h
              · exact absurd h (by simp)
              · next hheight =>
                  rw [Text.strip_nil] at h
                  obtain rfl := Option.some.inj h
                  refine ⟨⟨tail.takeWhile Numeral.isDigit, tail'.takeWhile Numeral.isDigit,
                    tail'.dropWhile Numeral.isDigit, ?_, fun c hc => List.mem_takeWhile_imp hc,
                    hwidth, fun c hc => List.mem_takeWhile_imp hc, hheight, fun c hc => ?_⟩, rfl⟩
                  · rw [List.takeWhile_append_dropWhile, htail', List.takeWhile_append_dropWhile]
                  · obtain ⟨rest, hrest⟩ := List.head?_eq_some_iff.mp hc
                    have := List.head_dropWhile_not Numeral.isDigit
                      (l := tail') (w := by rw [hrest]; simp)
                    simpa [hrest] using this
          · exact absurd h (by simp)
  · exact absurd h (by simp)

end TwoRuns

/-! ## Both formats -/

/-- A text whose first two numbers are the numerals of two numbers of 32 bits. -/
theorem convertSizes_numerals {first second rest : Bytes} (hlabels : TwoRuns.Labels first second)
    {width height : Nat} (hwidth : width ≤ UINT_MAX) (hheight : height ≤ UINT_MAX)
    (hrest : ∀ c ∈ rest.head?, Numeral.isDigit c = false) :
    convertSizes (first ++ (Numeral.encode width ++ (second ++ (Numeral.encode height ++ rest)))) =
      .ok (width, height) := by
  let runs : TwoRuns first second _ := {
    width := Numeral.encode width
    height := Numeral.encode height
    rest := rest
    text_eq := rfl
    width_digits := fun _ => Numeral.isDigit_of_mem_encode
    width_ne := Numeral.encode_ne_nil width
    height_digits := fun _ => Numeral.isDigit_of_mem_encode
    height_ne := Numeral.encode_ne_nil height
    rest_head := hrest }
  obtain ⟨hfirst, hsecond⟩ := runs.numbers hlabels
  have hfit : TwoNumbersFit
      (first ++ (Numeral.encode width ++ (second ++ (Numeral.encode height ++ rest)))) := by
    rw [TwoNumbersFit, hfirst, hsecond]
    exact ⟨⟨runs.width_ne, (Numeral.value_encode width).trans_le hwidth⟩,
      ⟨runs.height_ne, (Numeral.value_encode height).trans_le hheight⟩⟩
  rw [convertSizes_of_fit hfit, hfirst, hsecond, Numeral.value_encode, Numeral.value_encode]

/-- The size of both formats is read off, whatever stands around it, and a text
without a marker has the size zero. -/
theorem createSizeKey_formats (request : Bytes) :
    (∀ (pos width height : Nat) (rest : Bytes), Text.FirstAt SIZE_START_REG request pos →
      request.drop pos = SIZE_START_REG ++ (Numeral.encode width ++ (bytes "x" ++
        (Numeral.encode height ++ rest))) →
      width < 2 ^ 32 → height < 2 ^ 32 → (∀ c ∈ rest.head?, Numeral.isDigit c = false) →
      createSizeKey false request = .ok (width, height)) ∧
    (∀ (pos width height : Nat) (rest : Bytes), ¬ SIZE_START_REG <:+: request →
      Text.FirstAt SIZE_START_ALT request pos →
      request.drop pos = SIZE_START_ALT ++ (Numeral.encode width ++ (bytes "&ad_height=" ++
        (Numeral.encode height ++ rest))) →
      width < 2 ^ 32 → height < 2 ^ 32 → (∀ c ∈ rest.head?, Numeral.isDigit c = false) →
      createSizeKey false request = .ok (width, height)) ∧
    (¬ SIZE_START_REG <:+: request → ¬ SIZE_START_ALT <:+: request →
      createSizeKey false request = .ok ZERO_SIZE) := by
  refine ⟨?_, ?_, ?_⟩
  · intro pos width height rest hfirst htext hwidth hheight hrest
    have hstart : sizeStart request = some pos := by
      rw [sizeStart, Text.find_eq_some_iff.mpr hfirst]
    simp only [createSizeKey, Bool.false_eq_true, if_false, hstart, htext]
    exact convertSizes_numerals TwoRuns.labels_reg (Nat.le_pred_of_lt hwidth)
      (Nat.le_pred_of_lt hheight) hrest
  · intro pos width height rest hreg hfirst htext hwidth hheight hrest
    have hstart : sizeStart request = some pos := by
      rw [sizeStart, Text.find_eq_none_iff.mpr hreg]
      exact Text.find_eq_some_iff.mpr hfirst
    simp only [createSizeKey, Bool.false_eq_true, if_false, hstart, htext]
    exact convertSizes_numerals TwoRuns.labels_alt (Nat.le_pred_of_lt hwidth)
      (Nat.le_pred_of_lt hheight) hrest
  · intro hreg halt
    have hstart : sizeStart request = none := by
      rw [sizeStart, Text.find_eq_none_iff.mpr hreg]
      exact Text.find_eq_none_iff.mpr halt
    simp only [createSizeKey, Bool.false_eq_true, if_false, hstart]

theorem createSizeKey_formats_three :
    createSizeKey false (bytes "[2]?size=300x600&kw=a") = .ok (300, 600) ∧
    createSizeKey false (bytes "[0]ad_width=160&ad_height=0") = .ok (160, 0) ∧
    createSizeKey false (bytes "[1]kw=a") = .ok ZERO_SIZE := by
  refine ⟨?_, ?_, ?_⟩
  · exact (createSizeKey_formats _).1 4 300 600 (bytes "&kw=a")
      (Text.find_eq_some_iff.mp (by decide +kernel)) (by decide +kernel) (by decide +kernel)
      (by decide +kernel) (by decide +kernel)
  · exact (createSizeKey_formats _).2.1 3 160 0 [] (Text.find_eq_none_iff.mp (by decide +kernel))
      (Text.find_eq_some_iff.mp (by decide +kernel)) (by decide +kernel) (by decide +kernel)
      (by decide +kernel) (by decide +kernel)
  · exact (createSizeKey_formats _).2.2 (Text.find_eq_none_iff.mp (by decide +kernel))
      (Text.find_eq_none_iff.mp (by decide +kernel))

/-! ## Against the regular expressions -/

/-- The same key, or a failure of both. -/
def SameOutcome : Call SIZETUPLE → Call SIZETUPLE → Prop
  | .ok key, .ok key' => key = key'
  | .error _, .error _ => True
  | _, _ => False

instance : ∀ a b : Call SIZETUPLE, Decidable (SameOutcome a b)
  | .ok key, .ok key' => inferInstanceAs (Decidable (key = key'))
  | .error _, .error _ => inferInstanceAs (Decidable True)
  | .ok _, .error _ | .error _, .ok _ => inferInstanceAs (Decidable False)

/-- Two texts begin with the same two numbers of 32 bits, or neither has two. -/
def SameNumbers (text text' : Bytes) : Prop :=
  (TwoNumbersFit text ↔ TwoNumbersFit text') ∧
    (TwoNumbersFit text → Numeral.value (firstNumber text) = Numeral.value (firstNumber text') ∧
      Numeral.value (firstNumber (afterNumber text)) =
        Numeral.value (firstNumber (afterNumber text')))

theorem sameOutcome_convertSizes_iff {text text' : Bytes} :
    SameOutcome (convertSizes text) (convertSizes text') ↔ SameNumbers text text' := by
  by_cases hfit : TwoNumbersFit text
  · by_cases hfit' : TwoNumbersFit text'
    · rw [convertSizes_of_fit hfit, convertSizes_of_fit hfit']
      simp [SameOutcome, SameNumbers, hfit, hfit']
    · obtain ⟨ec, herror⟩ := convertSizes_of_not_fit hfit'
      rw [convertSizes_of_fit hfit, herror]
      simp [SameOutcome, SameNumbers, hfit, hfit']
  · obtain ⟨ec, herror⟩ := convertSizes_of_not_fit hfit
    by_cases hfit' : TwoNumbersFit text'
    · rw [convertSizes_of_fit hfit', herror]
      simp [SameOutcome, SameNumbers, hfit, hfit']
    · obtain ⟨ec', herror'⟩ := convertSizes_of_not_fit hfit'
      rw [herror, herror']
      simp [SameOutcome, SameNumbers, hfit, hfit']

/-! ### Texts with one size -/

/-- A text begins with two runs of digits, each behind its label. -/
def Labelled (first second text width height : Bytes) : Prop :=
  ∃ runs : TwoRuns first second text, runs.width = width ∧ runs.height = height

/-- The first two runs of digits of a text. -/
def FirstRuns (text width height : Bytes) : Prop :=
  ∃ first second, TwoRuns.Labels first second ∧ Labelled first second text width height

/-- Two runs of digits that are numbers of 32 bits. -/
def Representable (width height : Bytes) : Prop :=
  Numeral.value width < 2 ^ 32 ∧ Numeral.value height < 2 ^ 32

/-- The first place where a format stands in full. -/
structure FirstLabelled (first second request : Bytes) (pos : Nat) (width height : Bytes) :
    Prop where
  here : Labelled first second (request.drop pos) width height
  before : ∀ q < pos, ∀ width height, ¬ Labelled first second (request.drop q) width height

/-- The first size in full: of the first format if there is one, or else of the
second. -/
inductive Sized (request : Bytes) (pos : Nat) (width height : Bytes) : Prop where
  | reg : FirstLabelled (bytes "size=") (bytes "x") request pos width height →
      Sized request pos width height
  | alt : (∀ q width height, ¬ Labelled (bytes "size=") (bytes "x") (request.drop q) width height) →
      FirstLabelled (bytes "ad_width=") (bytes "&ad_height=") request pos width height →
      Sized request pos width height

/-- The first marker, or else the second. -/
inductive Marked (request : Bytes) (pos : Nat) : Prop where
  | reg : Text.FirstAt (bytes "size=") request pos → Marked request pos
  | alt : ¬ bytes "size=" <:+: request → Text.FirstAt (bytes "ad_width=") request pos →
      Marked request pos

/-- Neither in front of the marker nor separated from it by a digit. -/
def Ahead (request : Bytes) (pos q : Nat) : Prop :=
  pos ≤ q ∧ ∀ c ∈ (request.drop pos).take (q - pos), Numeral.isDigit c = false

/-- The texts that have one size, or none that can be read. -/
inductive OneSize (request : Bytes) : Prop where
  /-- The first size in full is at the marker, or the next digit behind it is in it. -/
  | ahead {pos q : Nat} {width height : Bytes} : Marked request pos →
      Sized request q width height → Ahead request pos q → OneSize request
  /-- It is elsewhere, and the numbers behind the marker happen to be the same. -/
  | elsewhere {pos q : Nat} {width height width' height' : Bytes} : Marked request pos →
      Sized request q width height → ¬ Ahead request pos q →
      FirstRuns (request.drop pos) width' height' →
      Representable width height → Representable width' height' →
      Numeral.value width = Numeral.value width' → Numeral.value height = Numeral.value height' →
      OneSize request
  /-- It is elsewhere and too large, and behind the marker are no two numbers either. -/
  | tooLarge {pos q : Nat} {width height : Bytes} : Marked request pos →
      Sized request q width height → ¬ Ahead request pos q → ¬ Representable width height →
      (∀ width height, FirstRuns (request.drop pos) width height → ¬ Representable width height) →
      OneSize request
  /-- No size stands in full, and behind the marker are no two numbers. -/
  | nowhere {pos : Nat} : Marked request pos → (∀ q width height, ¬ Sized request q width height) →
      (∀ width height, FirstRuns (request.drop pos) width height → ¬ Representable width height) →
      OneSize request

theorem marked_iff {request : Bytes} {pos : Nat} :
    Marked request pos ↔ sizeStart request = some pos := by
  rw [sizeStart]
  cases hreg : Text.find SIZE_START_REG request with
  | some begPos =>
      have hfirst := Text.find_eq_some_iff.mp hreg
      constructor
      · rintro (hmarked | ⟨hnone, -⟩)
        · exact hreg.symm.trans (Text.find_eq_some_iff.mpr hmarked)
        · exact absurd (Text.find_isSome_iff.mp (Option.isSome_iff_exists.mpr ⟨_, hreg⟩)) hnone
      · intro hpos
        obtain rfl := Option.some.inj hpos
        exact .reg hfirst
  | none =>
      have hnone := Text.find_eq_none_iff.mp hreg
      constructor
      · rintro (hmarked | ⟨-, hmarked⟩)
        · exact nomatch hreg.symm.trans (Text.find_eq_some_iff.mpr hmarked)
        · exact Text.find_eq_some_iff.mpr hmarked
      · exact fun hpos => .alt hnone (Text.find_eq_some_iff.mp hpos)

theorem FirstRuns.numbers {text width height : Bytes} (h : FirstRuns text width height) :
    firstNumber text = width ∧ firstNumber (afterNumber text) = height ∧
      width ≠ [] ∧ height ≠ [] := by
  obtain ⟨first, second, hlabels, runs, rfl, rfl⟩ := h
  obtain ⟨hwidth, hheight⟩ := runs.numbers hlabels
  exact ⟨hwidth, hheight, runs.width_ne, runs.height_ne⟩

/-- A text with two numbers has two first runs. -/
theorem firstRuns_of_ne_nil {text : Bytes} (hwidth : firstNumber text ≠ [])
    (hheight : firstNumber (afterNumber text) ≠ []) :
    FirstRuns text (firstNumber text) (firstNumber (afterNumber text)) := by
  have hskips (text : Bytes) : ∀ c ∈ text.takeWhile fun c => !Numeral.isDigit c,
      Numeral.isDigit c = false := by
    intro c hc
    simpa using List.mem_takeWhile_imp hc
  have hsplit (text : Bytes) : text =
      (text.takeWhile fun c => !Numeral.isDigit c) ++ (firstNumber text ++ afterNumber text) := by
    rw [firstNumber, afterNumber, List.takeWhile_append_dropWhile, removeNonDigits,
      List.takeWhile_append_dropWhile]
  have hends (text : Bytes) : ∀ c ∈ (afterNumber text).head?, Numeral.isDigit c = false := by
    intro c hc
    have hnot := List.head?_dropWhile_not Numeral.isDigit (removeNonDigits text)
    rw [← afterNumber, Option.mem_def.mp hc] at hnot
    simpa using hnot
  refine ⟨_, (afterNumber text).takeWhile fun c => !Numeral.isDigit c, ⟨hskips text,
    hskips (afterNumber text), ?_⟩, ⟨firstNumber text, firstNumber (afterNumber text),
      afterNumber (afterNumber text), ?_, fun c hc => List.mem_takeWhile_imp hc, hwidth,
      fun c hc => List.mem_takeWhile_imp hc, hheight, hends _⟩, rfl, rfl⟩
  · -- the first run is as long as it can be
    intro hnil
    have hafter := hsplit (afterNumber text)
    rw [hnil, List.nil_append] at hafter
    obtain ⟨c, digits, hc⟩ := List.exists_cons_of_ne_nil hheight
    have hdigit : Numeral.isDigit c = true :=
      List.mem_takeWhile_imp (show c ∈ firstNumber (afterNumber text) by rw [hc]; simp)
    have hnot := hends text c (by rw [hafter, hc]; rfl)
    rw [hdigit] at hnot
    cases hnot
  · rw [← hsplit (afterNumber text), ← hsplit text]

theorem twoNumbersFit_iff {text : Bytes} :
    TwoNumbersFit text ↔ ∃ width height, FirstRuns text width height ∧ Representable width height := by
  have hmax {n : Nat} : n ≤ UINT_MAX ↔ n < 2 ^ 32 := by
    rw [UINT_MAX]
    omega
  constructor
  · rintro ⟨⟨hwidth, hfit⟩, hheight, hfit'⟩
    exact ⟨_, _, firstRuns_of_ne_nil hwidth hheight, hmax.mp hfit, hmax.mp hfit'⟩
  · rintro ⟨width, height, hruns, hfit, hfit'⟩
    obtain ⟨hwidth, hheight, hne, hne'⟩ := hruns.numbers
    rw [TwoNumbersFit, hwidth, hheight]
    exact ⟨⟨hne, hmax.mpr hfit⟩, hne', hmax.mpr hfit'⟩

/-! ### What the expressions match -/

theorem take_length_sub {text consumed rest : Bytes} (h : text = consumed ++ rest) :
    text.take (text.length - rest.length) = consumed := by
  rw [h, List.length_append, Nat.add_sub_cancel, List.take_left]

section Match

variable {first second request width height : Bytes} {pos : Nat}

theorem labelled_iff (hlabels : TwoRuns.Labels first second) {text : Bytes} :
    (∃ width height, Labelled first second text width height) ↔
      Text.strip [.literal first, .run Numeral.isDigit, .literal second, .run Numeral.isDigit]
        text ≠ none := by
  constructor
  · rintro ⟨-, -, runs, -, -⟩
    rw [runs.strip hlabels]
    nofun
  · intro hstrip
    obtain ⟨rest, hstrip⟩ := Option.ne_none_iff_exists'.mp hstrip
    obtain ⟨runs, -⟩ := TwoRuns.exists_of_strip hstrip
    exact ⟨_, _, runs, rfl, rfl⟩

/-- The match has the runs of the first format and nothing behind them. -/
theorem FirstLabelled.searchAny (hlabels : TwoRuns.Labels first second)
    (h : FirstLabelled first second request pos width height) :
    ∃ matched, Text.searchAny
        [.literal first, .run Numeral.isDigit, .literal second, .run Numeral.isDigit] request =
          some matched ∧ FirstRuns matched width height := by
  obtain ⟨runs, rfl, rfl⟩ := h.here
  have hmatch := Text.searchAny_of_first (runs.strip hlabels) fun q hq => by
    by_contra hstrip
    obtain ⟨width, height, hlabelled⟩ := (labelled_iff hlabels).mpr hstrip
    exact h.before q hq width height hlabelled
  refine ⟨_, hmatch, first, second, hlabels, ⟨runs.width, runs.height, [], ?_, runs.width_digits,
    runs.width_ne, runs.height_digits, runs.height_ne, by simp⟩, rfl, rfl⟩
  refine take_length_sub (runs.text_eq.trans ?_)
  simp only [List.append_assoc, List.nil_append]

/-- Nothing matches where the format stands nowhere, and if it stands somewhere,
there is a first place. -/
theorem firstLabelled_or (hlabels : TwoRuns.Labels first second) (request : Bytes) :
    (∃ pos width height, FirstLabelled first second request pos width height) ∨
      (∀ q width height, ¬ Labelled first second (request.drop q) width height) ∧
        Text.searchAny
          [.literal first, .run Numeral.isDigit, .literal second, .run Numeral.isDigit] request =
            none := by
  by_cases hsome : ∃ pos, Text.strip [.literal first, .run Numeral.isDigit, .literal second,
      .run Numeral.isDigit] (request.drop pos) ≠ none
  · obtain ⟨pos, hpos⟩ := hsome
    obtain ⟨pos, rest, hstrip, hfirst⟩ := Text.exists_first hpos
    obtain ⟨runs, -⟩ := TwoRuns.exists_of_strip hstrip
    refine .inl ⟨pos, runs.width, runs.height, ⟨runs, rfl, rfl⟩, fun q hq width height h => ?_⟩
    exact (labelled_iff hlabels).mp ⟨width, height, h⟩ (hfirst q hq)
  · rw [not_exists] at hsome
    refine .inr ⟨fun q width height h => hsome q ((labelled_iff hlabels).mp ⟨width, height, h⟩), ?_⟩
    exact Text.searchAny_eq_none fun pos => not_not.mp (hsome pos)

theorem Sized.regexMatch (h : Sized request pos width height) :
    ∃ matched, regexMatch request = some matched ∧ FirstRuns matched width height := by
  rw [ClientServer.regexMatch, regexReg, regexAlt]
  cases h with
  | reg h =>
      obtain ⟨matched, hmatch, hruns⟩ := h.searchAny TwoRuns.labels_reg
      exact ⟨matched, by rw [hmatch], hruns⟩
  | alt hnone h =>
      obtain ⟨matched, hmatch, hruns⟩ := h.searchAny TwoRuns.labels_alt
      obtain ⟨pos, width, height, hsome⟩ | ⟨-, hreg⟩ :=
        firstLabelled_or TwoRuns.labels_reg request
      · exact absurd hsome.here (hnone pos width height)
      · exact ⟨matched, by rw [hreg, hmatch], hruns⟩

theorem sized_or (request : Bytes) :
    (∃ pos width height, Sized request pos width height) ∨
      (∀ pos width height, ¬ Sized request pos width height) ∧ regexMatch request = none := by
  obtain ⟨pos, width, height, h⟩ | ⟨hreg, hnone⟩ := firstLabelled_or TwoRuns.labels_reg request
  · exact .inl ⟨pos, width, height, .reg h⟩
  obtain ⟨pos, width, height, h⟩ | ⟨halt, hnone'⟩ := firstLabelled_or TwoRuns.labels_alt request
  · exact .inl ⟨pos, width, height, .alt hreg h⟩
  refine .inr ⟨fun pos width height h => ?_, ?_⟩
  · cases h with
    | reg h => exact hreg pos width height h.here
    | alt _ h => exact halt pos width height h.here
  · rw [regexMatch, regexReg, regexAlt, hnone, hnone']

end Match

/-- Without a digit in between the first runs behind the marker are those of the
size. -/
theorem Sized.firstRuns {request width height : Bytes} {pos q : Nat}
    (h : Sized request q width height) (hahead : Ahead request pos q) :
    FirstRuns (request.drop pos) width height := by
  obtain ⟨hle, hbetween⟩ := hahead
  have hsplit : request.drop pos = (request.drop pos).take (q - pos) ++ request.drop q := by
    conv_lhs => rw [← List.take_append_drop (q - pos) (request.drop pos)]
    rw [List.drop_drop, Nat.add_sub_cancel' hle]
  have hextend {first second : Bytes} (hlabels : TwoRuns.Labels first second)
      (hlabelled : Labelled first second (request.drop q) width height) :
      FirstRuns (request.drop pos) width height := by
    obtain ⟨runs, rfl, rfl⟩ := hlabelled
    refine ⟨(request.drop pos).take (q - pos) ++ first, second, ⟨?_, hlabels.second_digits,
      hlabels.second_ne⟩, { runs with text_eq := ?_ }, rfl, rfl⟩
    · intro c hc
      exact (List.mem_append.mp hc).elim (hbetween c) (hlabels.first_digits c)
    · rw [List.append_assoc, ← runs.text_eq]
      exact hsplit
  cases h with
  | reg h => exact hextend TwoRuns.labels_reg h.here
  | alt _ h => exact hextend TwoRuns.labels_alt h.here

/-! ### The two variants -/

theorem FirstRuns.fit_iff {text width height : Bytes} (h : FirstRuns text width height) :
    TwoNumbersFit text ↔ Representable width height := by
  rw [twoNumbersFit_iff]
  constructor
  · rintro ⟨width', height', hruns, hrepresentable⟩
    obtain ⟨rfl, rfl, -⟩ := h.numbers
    obtain ⟨rfl, rfl, -⟩ := hruns.numbers
    exact hrepresentable
  · exact fun hrepresentable => ⟨width, height, h, hrepresentable⟩

/-- Texts with the same two runs have the same numbers, readable or not. -/
theorem FirstRuns.sameNumbers {text text' width height : Bytes} (h : FirstRuns text width height)
    (h' : FirstRuns text' width height) : SameNumbers text text' := by
  obtain ⟨hwidth, hheight, -⟩ := h.numbers
  obtain ⟨hwidth', hheight', -⟩ := h'.numbers
  refine ⟨h.fit_iff.trans h'.fit_iff.symm, fun _ => ⟨?_, ?_⟩⟩
  · rw [hwidth, hwidth']
  · rw [hheight, hheight']

/-- Where one text has no two numbers, the other must have none. -/
theorem sameNumbers_iff_of_not_fit {text text' : Bytes} (hnot : ¬ TwoNumbersFit text') :
    SameNumbers text text' ↔
      ∀ width height, FirstRuns text width height → ¬ Representable width height := by
  rw [SameNumbers, iff_false_right hnot, twoNumbersFit_iff]
  constructor
  · rintro ⟨hnone, -⟩ width height hruns hfit
    exact hnone ⟨width, height, hruns, hfit⟩
  · intro hall
    have hnone : ¬ ∃ width height, FirstRuns text width height ∧ Representable width height :=
      fun ⟨width, height, hruns, hfit⟩ => hall width height hruns hfit
    exact ⟨hnone, fun hsome => absurd hsome hnone⟩

/-- Where there is a marker, the numbers behind it are those of the match on the texts
with one size. -/
theorem oneSize_iff_sameNumbers {request : Bytes} {pos : Nat} (hmarked : Marked request pos) :
    OneSize request ↔ SameNumbers (request.drop pos) ((regexMatch request).getD []) := by
  have hunique {pos' : Nat} (h : Marked request pos') : pos' = pos :=
    Option.some.inj ((marked_iff.mp h).symm.trans (marked_iff.mp hmarked))
  constructor
  · intro h
    cases h with
    | ahead hmarked' hsized hahead =>
        obtain rfl := hunique hmarked'
        obtain ⟨matched, hmatch, hruns⟩ := hsized.regexMatch
        rw [hmatch]
        exact (hsized.firstRuns hahead).sameNumbers hruns
    | elsewhere hmarked' hsized _ hbehind hfit hfit' hwidth hheight =>
        obtain rfl := hunique hmarked'
        obtain ⟨matched, hmatch, hruns⟩ := hsized.regexMatch
        obtain ⟨rfl, rfl, -⟩ := hbehind.numbers
        obtain ⟨rfl, rfl, -⟩ := hruns.numbers
        rw [hmatch]
        exact ⟨iff_of_true (hbehind.fit_iff.mpr hfit') (hruns.fit_iff.mpr hfit),
          fun _ => ⟨hwidth.symm, hheight.symm⟩⟩
    | tooLarge hmarked' hsized _ hlarge hbehind =>
        obtain rfl := hunique hmarked'
        obtain ⟨matched, hmatch, hruns⟩ := hsized.regexMatch
        rw [hmatch]
        exact (sameNumbers_iff_of_not_fit fun hfit => hlarge (hruns.fit_iff.mp hfit)).mpr hbehind
    | nowhere hmarked' hnone hbehind =>
        obtain rfl := hunique hmarked'
        obtain ⟨q, width, height, hsized⟩ | ⟨-, hmatch⟩ := sized_or request
        · exact absurd hsized (hnone q width height)
        · rw [hmatch]
          exact (sameNumbers_iff_of_not_fit not_twoNumbersFit_nil).mpr hbehind
  · intro hsame
    obtain ⟨q, width, height, hsized⟩ | ⟨hnone, hmatch⟩ := sized_or request
    · obtain ⟨matched, hmatch, hruns⟩ := hsized.regexMatch
      rw [hmatch] at hsame
      change SameNumbers (request.drop pos) matched at hsame
      by_cases hahead : Ahead request pos q
      · exact .ahead hmarked hsized hahead
      by_cases hfit : TwoNumbersFit matched
      · obtain ⟨width', height', hbehind, hfit'⟩ := twoNumbersFit_iff.mp (hsame.1.mpr hfit)
        have hvalues := hsame.2 (hsame.1.mpr hfit)
        obtain ⟨rfl, rfl, -⟩ := hbehind.numbers
        obtain ⟨rfl, rfl, -⟩ := hruns.numbers
        exact .elsewhere hmarked hsized hahead hbehind (hruns.fit_iff.mp hfit) hfit'
          hvalues.1.symm hvalues.2.symm
      · exact .tooLarge hmarked hsized hahead (fun h => hfit (hruns.fit_iff.mpr h))
          ((sameNumbers_iff_of_not_fit hfit).mp hsame)
    · rw [hmatch] at hsame
      exact .nowhere hmarked hnone ((sameNumbers_iff_of_not_fit not_twoNumbersFit_nil).mp hsame)

/-- No expression matches where there is no marker. -/
theorem regexMatch_of_sizeStart {request : Bytes} (hstart : sizeStart request = none) :
    regexMatch request = none := by
  have hnone : ∀ {marker : Bytes} {pattern : List (Text.Piece UInt8)},
      Text.find marker request = none →
        Text.searchAny (.literal marker :: pattern) request = none := by
    intro marker pattern hfind
    cases hmatch : Text.searchAny (.literal marker :: pattern) request with
    | none => rfl
    | some matched =>
        exact absurd (Text.infix_of_search hmatch) (Text.find_eq_none_iff.mp hfind)
  unfold sizeStart at hstart
  cases hreg : Text.find SIZE_START_REG request with
  | some begPos =>
      rw [hreg] at hstart
      exact absurd hstart (by simp)
  | none =>
      rw [hreg] at hstart
      rw [regexMatch, regexReg, show bytes "size=" = SIZE_START_REG from rfl, hnone hreg, regexAlt]
      exact hnone hstart

/-- Without a marker there is no size. -/
theorem not_oneSize_of_sizeStart {request : Bytes} (h : sizeStart request = none) :
    ¬ OneSize request := by
  have hnot {pos : Nat} : ¬ Marked request pos := by
    rw [marked_iff, h]
    nofun
  rintro (hmarked | hmarked | hmarked | hmarked)
  all_goals exact hnot hmarked

/-- The two variants have the same outcome exactly on the texts with one size. -/
theorem createSizeKey_sameOutcome_iff (request : Bytes) :
    SameOutcome (createSizeKey false request) (createSizeKey true request) ↔ OneSize request := by
  have htrue : createSizeKey true request = convertSizes ((regexMatch request).getD []) := by
    simp only [createSizeKey, if_true, createSizeKeyRegExpr]
  cases hstart : sizeStart request with
  | none =>
      obtain ⟨ec, herror⟩ := convertSizes_of_not_fit not_twoNumbersFit_nil
      have hfalse : createSizeKey false request = .ok ZERO_SIZE := by
        simp only [createSizeKey, Bool.false_eq_true, if_false, hstart]
      rw [htrue, hfalse, regexMatch_of_sizeStart hstart, Option.getD_none, herror]
      exact iff_of_false id (not_oneSize_of_sizeStart hstart)
  | some pos =>
      have hfalse : createSizeKey false request = convertSizes (request.drop pos) := by
        simp only [createSizeKey, Bool.false_eq_true, if_false, hstart]
      rw [htrue, hfalse, sameOutcome_convertSizes_iff]
      exact (oneSize_iff_sameNumbers (marked_iff.mpr hstart)).symm

/-- Without a marker one variant returns the size zero and the other throws. -/
theorem createSizeKey_outcomes_differ :
    createSizeKey false (bytes "[0]kw=kippa") = .ok ZERO_SIZE ∧
      ¬ SameOutcome (createSizeKey false (bytes "[0]kw=kippa"))
        (createSizeKey true (bytes "[0]kw=kippa")) := by
  decide +kernel

end ClientServer
