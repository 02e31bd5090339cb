import Mathlib.Data.List.Basic

/-!
# Loops around a read

A loop reads again and again and gathers what it reads.  The environment decides
what each read brings: first a list of outcomes, and then the same one for ever.
What the loop does with an outcome is its turn.  If every outcome either lets it
go on or ends it, the loop ends just when the environment brings one that ends it.
-/

namespace ReadLoop

variable {α β ε : Type _}

/-- What a loop does with one outcome: it goes on with what it has gathered, or it
leaves that to its caller and returns or throws. -/
inductive Turn (β ε : Type _) where
  | goesOn (payload : List β)
  | returns (ok : Bool) (payload : List β)
  | throws (fault : ε) (payload : List β)

def Turn.payload : Turn β ε → List β
  | goesOn payload | returns _ payload | throws _ payload => payload

def Turn.running : Turn β ε → Bool
  | goesOn _ => true
  | returns _ _ | throws _ _ => false

/-- The outcome of a read, behind the list always the last one. -/
def outcome (outcomes : List α) (last : α) (n : Nat) : α := (outcomes[n]?).getD last

variable (turn : List β → α → Turn β ε)

/-- The loop after a number of reads, or at its end if it ended before. -/
def after (payload : List β) (outcomes : List α) (last : α) : Nat → Turn β ε
  | 0 => .goesOn payload
  | n + 1 =>
      match after payload outcomes last n with
      | .goesOn payload => turn payload (outcome outcomes last n)
      | ended => ended

variable (brings : α → List β)

/-- What the first outcomes bring. -/
def brought (outcomes : List α) (n : Nat) : List β := (outcomes.take n).flatMap brings

/-- The loop ends without a message, and what it has at each read up to then is what
the reads brought. -/
structure Ends (payload : List β) (outcomes : List α) (last : α) : Prop where
  ends : ∃ n final, after turn payload outcomes last n = .returns false final ∨
    ∃ fault, after turn payload outcomes last n = .throws fault final
  noMessage : ∀ n final, after turn payload outcomes last n ≠ .returns true final
  gathered : ∀ n, (∀ m < n, (after turn payload outcomes last m).running = true) →
    (after turn payload outcomes last n).payload = payload ++ brought brings outcomes n

/-- What a loop does with an outcome: it gathers what the outcome brings, gives out a
message only if that completes one, and ends at an outcome that stops it. -/
structure Lawful (complete : List β → Prop) (stops : α → Prop) : Prop where
  gathers : ∀ payload o, (∀ final, turn payload o ≠ .returns true final) →
    (turn payload o).payload = payload ++ brings o
  message : ∀ payload o final, turn payload o = .returns true final →
    complete (payload ++ brings o)
  halts : ∀ payload o, stops o → (turn payload o).running = false
  goesOn : ∀ payload o, ¬ stops o → (turn payload o).running = false →
    ∃ final, turn payload o = .returns true final

variable {turn brings} {complete : List β → Prop} {stops : α → Prop} {payload : List β}
  {outcomes : List α} {last : α}

theorem brought_succ (hlast : brings last = []) (outcomes : List α) (n : Nat) :
    brought brings outcomes (n + 1) =
      brought brings outcomes n ++ brings (outcome outcomes last n) := by
  rw [brought, List.take_add_one, List.flatMap_append, brought, outcome]
  cases outcomes[n]? with
  | none => rw [Option.toList_none, List.flatMap_nil, Option.getD_none, hlast]
  | some o => rw [Option.toList_some, List.flatMap_singleton, Option.getD_some]

theorem Turn.eq_of_running {result : Turn β ε} (h : result.running = true) :
    result = .goesOn result.payload := by
  cases result with
  | goesOn => rfl
  | returns | throws => cases h

theorem after_succ_of_goesOn {n : Nat} {payload' : List β}
    (h : after turn payload outcomes last n = .goesOn payload') :
    after turn payload outcomes last (n + 1) = turn payload' (outcome outcomes last n) := by
  rw [after, h]

theorem after_succ_of_not_running {n : Nat}
    (h : (after turn payload outcomes last n).running = false) :
    after turn payload outcomes last (n + 1) = after turn payload outcomes last n := by
  rw [after]
  cases hafter : after turn payload outcomes last n with
  | goesOn =>
      rw [hafter] at h
      cases h
  | returns | throws => rfl

/-- The first outcome, and then the rest. -/
theorem after_cons (payload : List β) (o : α) (outcomes : List α) (last : α) (n : Nat) :
    after turn payload (o :: outcomes) last (n + 1) =
      match turn payload o with
      | .goesOn payload => after turn payload outcomes last n
      | ended => ended := by
  induction n with
  | zero =>
      show turn payload o = _
      cases turn payload o with
      | goesOn | returns | throws => rfl
  | succ n ih =>
      rw [after, ih]
      cases turn payload o with
      | goesOn payload' =>
          dsimp only
          rw [after]
          rfl
      | returns | throws => rfl

variable (hlawful : Lawful turn brings complete stops) (hlast : brings last = [])
  (hnone : ∀ n, ¬ complete (payload ++ brought brings outcomes n))
include hlawful hlast hnone

/-- By induction on the reads: no message is given out, and a loop that still runs
has gathered what they brought. -/
theorem Lawful.not_message (n : Nat) :
    (∀ final, after turn payload outcomes last n ≠ .returns true final) ∧
    ∀ payload', after turn payload outcomes last n = .goesOn payload' →
      payload' = payload ++ brought brings outcomes n := by
  induction n with
  | zero =>
      refine ⟨fun final h => (by cases h), fun payload' h => ?_⟩
      cases h
      rw [brought, List.take_zero, List.flatMap_nil, List.append_nil]
  | succ n ih =>
      obtain ⟨hmessage, hgoesOn⟩ := ih
      cases hafter : after turn payload outcomes last n with
      | goesOn payload' =>
          obtain rfl := hgoesOn payload' hafter
          rw [after_succ_of_goesOn hafter]
          have hnot : ∀ final, turn (payload ++ brought brings outcomes n)
              (outcome outcomes last n) ≠ .returns true final := by
            intro final hfinal
            have hcomplete := hlawful.message _ _ _ hfinal
            rw [List.append_assoc, ← brought_succ hlast] at hcomplete
            exact hnone (n + 1) hcomplete
          refine ⟨hnot, fun payload' hpayload' => ?_⟩
          have hgathers := hlawful.gathers _ _ hnot
          rw [hpayload', List.append_assoc, ← brought_succ hlast] at hgathers
          exact hgathers
      | returns | throws =>
          rw [after_succ_of_not_running (by rw [hafter]; rfl)]
          refine ⟨hmessage, fun payload' h => ?_⟩
          rw [hafter] at h
          cases h

/-- As long as no outcome has stopped it the loop goes on. -/
theorem Lawful.running_iff (n : Nat) : (after turn payload outcomes last n).running = true ↔
    ∀ m < n, ¬ stops (outcome outcomes last m) := by
  induction n with
  | zero => exact iff_of_true rfl fun m hm => absurd hm (Nat.not_lt_zero m)
  | succ n ih =>
      rw [Nat.forall_lt_succ_right, ← ih]
      constructor
      · intro hrunning
        have hbefore : (after turn payload outcomes last n).running = true := by
          by_contra hended
          rw [after_succ_of_not_running (Bool.not_eq_true _ ▸ hended)] at hrunning
          exact hended hrunning
        refine ⟨hbefore, fun hstops => ?_⟩
        rw [after_succ_of_goesOn (Turn.eq_of_running hbefore), hlawful.halts _ _ hstops] at hrunning
        cases hrunning
      · rintro ⟨hbefore, hstops⟩
        have hsucc := after_succ_of_goesOn (Turn.eq_of_running hbefore)
        by_contra hended
        rw [Bool.not_eq_true, hsucc] at hended
        obtain ⟨final, hfinal⟩ := hlawful.goesOn _ _ hstops hended
        exact (hlawful.not_message hlast hnone (n + 1)).1 final (hsucc.trans hfinal)

/-- Where one does, it has ended behind that. -/
theorem Lawful.ended {n : Nat} (hstops : stops (outcome outcomes last n)) :
    ∃ final, after turn payload outcomes last (n + 1) = .returns false final ∨
      ∃ fault, after turn payload outcomes last (n + 1) = .throws fault final := by
  have hended : (after turn payload outcomes last (n + 1)).running = false := by
    rw [← Bool.not_eq_true, hlawful.running_iff hlast hnone]
    exact fun hruns => hruns n (Nat.lt_succ_self n) hstops
  cases hafter : after turn payload outcomes last (n + 1) with
  | goesOn payload' =>
      rw [hafter] at hended
      cases hended
  | returns ok final =>
      cases ok with
      | true => exact absurd hafter ((hlawful.not_message hlast hnone _).1 _)
      | false => exact ⟨final, .inl rfl⟩
  | throws fault final => exact ⟨final, .inr ⟨fault, rfl⟩⟩

/-- Up to its last read it has what the reads brought. -/
theorem Lawful.payload_eq {n : Nat}
    (hrunning : ∀ m < n, (after turn payload outcomes last m).running = true) :
    (after turn payload outcomes last n).payload = payload ++ brought brings outcomes n := by
  cases n with
  | zero =>
      rw [brought, List.take_zero, List.flatMap_nil, List.append_nil]
      rfl
  | succ n =>
      have hafter := Turn.eq_of_running (hrunning n (Nat.lt_succ_self n))
      have hnot := (hlawful.not_message hlast hnone (n + 1)).1
      rw [after_succ_of_goesOn hafter] at hnot ⊢
      rw [hlawful.gathers _ _ hnot, (hlawful.not_message hlast hnone n).2 _ hafter,
        List.append_assoc, ← brought_succ hlast]

/-- The loop ends just when an outcome stops it. -/
theorem Lawful.ends_iff : Ends turn brings payload outcomes last ↔
    ∃ n, stops (outcome outcomes last n) := by
  constructor
  · intro h
    by_contra hstops
    obtain ⟨n, final, hend⟩ := h.ends
    have hrun := (hlawful.running_iff hlast hnone n).mpr fun m _ hm => hstops ⟨m, hm⟩
    rcases hend with hend | ⟨fault, hend⟩
    · rw [hend] at hrun
      cases hrun
    · rw [hend] at hrun
      cases hrun
  · rintro ⟨n, hn⟩
    exact ⟨⟨n + 1, hlawful.ended hlast hnone hn⟩, fun n => (hlawful.not_message hlast hnone n).1,
      fun n => hlawful.payload_eq hlast hnone⟩

end ReadLoop
