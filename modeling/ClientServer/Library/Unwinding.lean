/-!
# Calls that always answer the same

An object is called again and again.  What a call answers and where it leaves the
object may depend on something that should not count, so a call is a relation
between a state and its results.  If the states fall into classes such that the
calls from one class answer the same and lead into one class, nothing an outside
observer sees depends on it.
-/

namespace Unwinding

variable {S O ι ε : Type _}

/- A call from a state, with its answer and the state behind it, or a fault. -/
variable (gets : S → Except ε (O × S) → Prop)

/-- What is seen of a number of calls; a fault ends them. -/
inductive Sees : Nat → S → List (Except ε O) → Prop where
  | zero (s : S) : Sees 0 s []
  | throws {n : Nat} {s : S} {fault : ε} : gets s (.error fault) → Sees (n + 1) s [.error fault]
  | answer {n : Nat} {s s' : S} {o : O} {seen : List (Except ε O)} :
      gets s (.ok (o, s')) → Sees n s' seen → Sees (n + 1) s (.ok o :: seen)

/-- The states that calls lead to. -/
inductive Called (start : S) : S → Prop where
  | start : Called start start
  | call {s s' : S} {o : O} : Called start s → gets s (.ok (o, s')) → Called start s'

/-- The calls from a class of states fail alike, or answer alike and lead into one
class. -/
def Leads (holds : ι → S → Prop) (sheltered : ι → Prop) (i : ι) : Prop :=
  (∃ fault, ∀ s, holds i s → ∀ result, gets s result → result = .error fault) ∨
  ∃ o j, sheltered j ∧
    ∀ s, holds i s → ∀ result, gets s result → ∃ s', result = .ok (o, s') ∧ holds j s'

variable {gets} {holds : ι → S → Prop} {sheltered : ι → Prop}

/-- The unwinding rule. -/
theorem Sees.unique (hleads : ∀ i, sheltered i → Leads gets holds sheltered i) {i : ι}
    (hi : sheltered i) {n : Nat} {s t : S} (hs : holds i s) (ht : holds i t)
    {seen seen' : List (Except ε O)} (h : Sees gets n s seen) (h' : Sees gets n t seen') :
    seen = seen' := by
  induction h generalizing i t seen' with
  | zero s =>
      cases h'
      rfl
  | throws hthrows =>
      rcases hleads i hi with ⟨fault, hfault⟩ | ⟨o, j, -, hanswer⟩
      · cases hfault _ hs _ hthrows
        cases h' with
        | throws hthrows' =>
            cases hfault _ ht _ hthrows'
            rfl
        | answer hanswer' => cases hfault _ ht _ hanswer'
      · obtain ⟨s', heq, -⟩ := hanswer _ hs _ hthrows
        cases heq
  | answer hcall _ ih =>
      rcases hleads i hi with ⟨fault, hfault⟩ | ⟨o, j, hj, hanswer⟩
      · cases hfault _ hs _ hcall
      · obtain ⟨s', heq, hs'⟩ := hanswer _ hs _ hcall
        cases heq
        cases h' with
        | throws hthrows' =>
            obtain ⟨t', heq, -⟩ := hanswer _ ht _ hthrows'
            cases heq
        | answer hcall' hrest' =>
            obtain ⟨t', heq, ht'⟩ := hanswer _ ht _ hcall'
            cases heq
            rw [ih hj hs' ht' hrest']

/-- What calls lead to is in a class. -/
theorem Called.exists_holds (hleads : ∀ i, sheltered i → Leads gets holds sheltered i) {i : ι}
    (hi : sheltered i) {start s : S} (hstart : holds i start) (h : Called gets start s) :
    ∃ j, sheltered j ∧ holds j s := by
  induction h with
  | start => exact ⟨i, hi, hstart⟩
  | call _ hcall ih =>
      obtain ⟨j, hj, hs⟩ := ih
      rcases hleads j hj with ⟨fault, hfault⟩ | ⟨o, k, hk, hanswer⟩
      · cases hfault _ hs _ hcall
      · obtain ⟨s', heq, hs'⟩ := hanswer _ hs _ hcall
        cases heq
        exact ⟨k, hk, hs'⟩

end Unwinding
