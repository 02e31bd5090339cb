import Mathlib.Logic.Relation
import Mathlib.Order.WellFounded

/-!
# Runs

A run of a labelled transition system collects the labels of its steps; a silent
step leaves no label.  What one step preserves, together with the labels it
appends, holds along every run.
-/

namespace Runs

variable {S E : Type _}

/-- The runs from a state, with the labels in the order of the steps. -/
inductive Run (step : S → Option E → S → Prop) (start : S) : List E → S → Prop where
  | start : Run step start [] start
  | step {events : List E} {s s' : S} {label : Option E} :
      Run step start events s → step s label s' → Run step start (events ++ label.toList) s'

variable {step : S → Option E → S → Prop} {start : S}

/-- The invariant rule. -/
theorem Run.invariant {P : List E → S → Prop} (hstart : P [] start)
    (hstep : ∀ {events : List E} {s s' : S} {label : Option E},
      P events s → step s label s' → P (events ++ label.toList) s')
    {events : List E} {s : S} (hrun : Run step start events s) : P events s := by
  induction hrun with
  | start => exact hstart
  | step _ hs ih => exact hstep ih hs

section Traces

variable {A : Type _}

/-- The actions one after the other, with the labels of their steps. -/
def trace (act : A → S → Option (Option E × S)) : List A → List E → S → Option (List E × S)
  | [], events, s => some (events, s)
  | a :: actions, events, s =>
      match act a s with
      | none => none
      | some (label, s') => trace act actions (events ++ label.toList) s'

theorem Run.trace {act : A → S → Option (Option E × S)} {actions : List A}
    {events events' : List E} {s s' : S} (hrun : Run step start events s)
    (hact : ∀ {a : A} {s s' : S} {label : Option E}, act a s = some (label, s') → step s label s')
    (h : Runs.trace act actions events s = some (events', s')) : Run step start events' s' := by
  induction actions generalizing events s with
  | nil =>
      cases h
      exact hrun
  | cons a actions ih =>
      rw [Runs.trace] at h
      split at h
      next => cases h
      next hs => exact ih (hrun.step (hact hs)) h

end Traces

/-! ## Progress -/

/-- What is not yet reached is reached, if it is always approached. -/
theorem exists_reflTransGen_of_lt {S α : Type*} [LT α] [WellFoundedLT α] {r : S → S → Prop}
    {P Q : S → Prop} (measure : S → α)
    (h : ∀ s, P s → Q s ∨ ∃ s', r s s' ∧ P s' ∧ measure s' < measure s) :
    ∀ s, P s → ∃ s', Relation.ReflTransGen r s s' ∧ Q s' := by
  intro s
  induction hm : measure s using WellFoundedLT.induction generalizing s with
  | ind m ih =>
      subst hm
      intro hs
      rcases h s hs with hQ | ⟨s', hr, hs', hlt⟩
      · exact ⟨s, .refl, hQ⟩
      · obtain ⟨t, hsteps, hQ⟩ := ih _ hlt s' rfl hs'
        exact ⟨t, .head hr hsteps, hQ⟩

/-! ## Machines

A machine takes an action if it can.  What it reaches when every action is
allowed in the state in which it is taken.
-/

section Reached

variable {A : Type _}

inductive Reached (step : A → S → Option S) (allowed : A → S → Prop) (start : S) : S → Prop where
  | start : Reached step allowed start start
  | step {s s' : S} {a : A} :
      Reached step allowed start s → allowed a s → step a s = some s' →
      Reached step allowed start s'

variable {step : A → S → Option S} {allowed allowed' : A → S → Prop} {start s : S}

/-- The invariant rule. -/
theorem Reached.invariant {P : S → Prop} (hstart : P start)
    (hstep : ∀ {a : A} {s s' : S}, P s → allowed a s → step a s = some s' → P s')
    (hrun : Reached step allowed start s) : P s := by
  induction hrun with
  | start => exact hstart
  | step _ ha hs ih => exact hstep ih ha hs

theorem Reached.mono (h : ∀ a s, allowed a s → allowed' a s)
    (hrun : Reached step allowed start s) : Reached step allowed' start s := by
  induction hrun with
  | start => exact .start
  | step _ ha hs ih => exact .step ih (h _ _ ha) hs

/-- An invariant of all runs is at hand for one that needs it. -/
theorem Reached.invariant_of {P Q : S → Prop}
    (hQ : ∀ {s : S}, Reached step (fun _ _ => True) start s → Q s) (hstart : P start)
    (hstep : ∀ {a : A} {s s' : S}, Q s → P s → allowed a s → step a s = some s' → P s')
    (hrun : Reached step allowed start s) : P s := by
  induction hrun with
  | start => exact hstart
  | step hr ha hs ih => exact hstep (hQ (hr.mono fun _ _ _ => trivial)) ih ha hs

/-- A list of actions that can be taken one after the other. -/
theorem reached_of_foldlM [∀ a s, Decidable (allowed a s)] (actions : List A)
    (h : actions.foldlM (fun s a => if allowed a s then step a s else none) start = some s) :
    Reached step allowed start s := by
  have hfrom : ∀ (actions : List A) (s₀ : S), Reached step allowed start s₀ →
      actions.foldlM (fun s a => if allowed a s then step a s else none) s₀ = some s →
      Reached step allowed start s := by
    intro actions
    induction actions with
    | nil =>
        intro s₀ hr h
        obtain rfl := Option.some.inj h
        exact hr
    | cons a actions ih =>
        intro s₀ hr h
        rw [List.foldlM_cons] at h
        obtain ⟨s₁, hs, h⟩ := Option.bind_eq_some_iff.mp h
        by_cases ha : allowed a s₀
        · rw [if_pos ha] at hs
          exact ih s₁ (.step hr ha hs) h
        · rw [if_neg ha] at hs
          cases hs
  exact hfrom actions start .start h

/-- A run, by what is seen of the state it ends in. -/
theorem exists_reached [∀ a s, Decidable (allowed a s)] (actions : List A) {B : Type _} {f : S → B}
    {b : B} (h : (actions.foldlM (fun s a => if allowed a s then step a s else none) start).map f =
      some b) : ∃ s, Reached step allowed start s ∧ f s = b := by
  obtain ⟨s, hs, hf⟩ := Option.map_eq_some_iff.mp h
  exact ⟨s, reached_of_foldlM actions hs, hf⟩

/-- The same where a test tells which actions are allowed. -/
theorem exists_reached_of_check {check : A → S → Bool}
    (hcheck : ∀ a s, check a s = true → allowed a s) (actions : List A) {B : Type _} {f : S → B}
    {b : B} (h : (actions.foldlM (fun s a => if check a s = true then step a s else none)
      start).map f = some b) : ∃ s, Reached step allowed start s ∧ f s = b := by
  obtain ⟨s, hs, hf⟩ := @exists_reached _ _ step (fun a s => check a s = true) start _ actions _ f b h
  exact ⟨s, hs.mono hcheck, hf⟩

end Reached

/-! ## Machines with an output

What the actions of a run put out is no part of the state.
-/

section Emitted

variable {A B : Type _}

inductive Emitted (step : A → S → Option S) (allowed : A → S → Prop) (emits : A → S → List B)
    (start : S) : List B → S → Prop where
  | start : Emitted step allowed emits start [] start
  | step {out : List B} {s s' : S} {a : A} :
      Emitted step allowed emits start out s → allowed a s → step a s = some s' →
      Emitted step allowed emits start (out ++ emits a s) s'

variable {step : A → S → Option S} {allowed allowed' : A → S → Prop} {emits : A → S → List B}
  {start s : S} {out : List B}

theorem Emitted.reached (h : ∀ a s, allowed a s → allowed' a s)
    (hrun : Emitted step allowed emits start out s) : Reached step allowed' start s := by
  induction hrun with
  | start => exact .start
  | step _ ha hs ih => exact .step ih (h _ _ ha) hs

/-- Every run puts out something. -/
theorem Reached.exists_emitted (emits : A → S → List B) (hrun : Reached step allowed start s) :
    ∃ out, Emitted step allowed emits start out s := by
  induction hrun with
  | start => exact ⟨[], .start⟩
  | step _ ha hs ih =>
      obtain ⟨out, hout⟩ := ih
      exact ⟨_, hout.step ha hs⟩

/-- The invariant rule, with an invariant of the states at hand. -/
theorem Emitted.invariant {P : List B → S → Prop} {Q : S → Prop}
    (hQ : ∀ {s : S}, Reached step allowed start s → Q s) (hstart : P [] start)
    (hstep : ∀ {out : List B} {a : A} {s s' : S}, Q s → P out s → allowed a s →
      step a s = some s' → P (out ++ emits a s) s')
    (hrun : Emitted step allowed emits start out s) : P out s := by
  induction hrun with
  | start => exact hstart
  | step hr ha hs ih => exact hstep (hQ (hr.reached fun _ _ h => h)) ih ha hs

end Emitted

end Runs
