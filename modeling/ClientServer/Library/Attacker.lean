import Mathlib.Data.Multiset.AddSub

/-!
# Messages and an attacker on the wire

Messages are terms: constants, exchange keys, signatures, hashes and pairs.  A
point of a curve is the product of scalars with its base point, in any order.
An attacker derives what can be computed from what it has seen and from scalars
and signing keys of its own; a hash and a signature are only made from their
parts.

Terms in which no two secret scalars meet in a point are harmless: nothing else
can be derived from them.
-/

namespace Attacker

/-- Terms over constants, scalars, signing keys and curves. -/
inductive Term (C S K E : Type) where
  | const (c : C)
  | scalar (a : S)
  | point (curve : E) (scalars : Multiset S)
  | signKey (k : K)
  | verifyKey (k : K)
  | sign (k : K) (message : Term C S K E)
  | hash (message : Term C S K E)
  | pair (first second : Term C S K E)
deriving DecidableEq

/-- The scalars and signing keys of the attacker. -/
structure Own (S K : Type) where
  scalar : S → Prop
  signKey : K → Prop

variable {C S K E : Type}

inductive Derives (own : Own S K) (known : Term C S K E → Prop) : Term C S K E → Prop where
  | known {t : Term C S K E} : known t → Derives own known t
  | const (c : C) : Derives own known (.const c)
  | scalar {a : S} : own.scalar a → Derives own known (.scalar a)
  | base (curve : E) : Derives own known (.point curve 0)
  | multiply {a : S} {curve : E} {scalars : Multiset S} : Derives own known (.scalar a) →
      Derives own known (.point curve scalars) → Derives own known (.point curve (a ::ₘ scalars))
  | signKey {k : K} : own.signKey k → Derives own known (.signKey k)
  | verifyKey {k : K} : Derives own known (.signKey k) → Derives own known (.verifyKey k)
  | sign {k : K} {t : Term C S K E} : Derives own known (.signKey k) → Derives own known t →
      Derives own known (.sign k t)
  | signed {k : K} {t : Term C S K E} : Derives own known (.sign k t) → Derives own known t
  | hash {t : Term C S K E} : Derives own known t → Derives own known (.hash t)
  | pair {t u : Term C S K E} : Derives own known t → Derives own known u →
      Derives own known (.pair t u)
  | first {t u : Term C S K E} : Derives own known (.pair t u) → Derives own known t
  | second {t u : Term C S K E} : Derives own known (.pair t u) → Derives own known u

variable {own : Own S K} {known : Term C S K E → Prop} {t : Term C S K E}

/-! ## Signatures -/

/-- A signature is verified with the key it was not made from. -/
def verify [DecidableEq C] [DecidableEq S] [DecidableEq K] [DecidableEq E] (signature message key :
    Term C S K E) : Bool :=
  match signature, key with
  | .sign k signed, .verifyKey k' => decide (k = k' ∧ signed = message)
  | _, _ => false

/-! ## Secrets -/

/-- No two scalars of a product are secret. -/
def AtMostOneSecret (own : Own S K) (scalars : Multiset S) : Prop :=
  ∀ a b, a ::ₘ {b} ≤ scalars → own.scalar a ∨ own.scalar b

def Term.Harmless (own : Own S K) : Term C S K E → Prop
  | const _ => True
  | scalar a => own.scalar a
  | point _ scalars => AtMostOneSecret own scalars
  | signKey k => own.signKey k
  | verifyKey _ => True
  | sign _ message => message.Harmless own
  | hash message => message.Harmless own
  | pair first second => first.Harmless own ∧ second.Harmless own

theorem atMostOneSecret_zero : AtMostOneSecret own 0 := by
  intro a b h
  exact absurd (Multiset.mem_of_le h (Multiset.mem_cons_self a {b})) (Multiset.notMem_zero a)

theorem atMostOneSecret_singleton (a : S) : AtMostOneSecret own {a} := by
  intro b c h
  have := Multiset.card_le_card h
  simp at this

theorem AtMostOneSecret.cons {a : S} {scalars : Multiset S} (ha : own.scalar a)
    (h : AtMostOneSecret own scalars) : AtMostOneSecret own (a ::ₘ scalars) := by
  intro b c hle
  cases Classical.em (a ∈ b ::ₘ {c}) with
  | inl hmem =>
      rw [Multiset.mem_cons, Multiset.mem_singleton] at hmem
      cases hmem with
      | inl heq => exact .inl (heq ▸ ha)
      | inr heq => exact .inr (heq ▸ ha)
  | inr hmem => exact h b c ((Multiset.le_cons_of_notMem hmem).mp hle)

/-- Two secrets meet in the product of a secret and a point with another. -/
theorem not_atMostOneSecret {a b : S} {scalars : Multiset S} (ha : ¬ own.scalar a)
    (hb : ¬ own.scalar b) : ¬ AtMostOneSecret own (a ::ₘ b ::ₘ scalars) := by
  intro h
  have hle : a ::ₘ {b} ≤ a ::ₘ b ::ₘ scalars :=
    Multiset.cons_le_cons a (Multiset.singleton_le.mpr (Multiset.mem_cons_self b scalars))
  exact (h a b hle).elim ha hb

/-- What is derived from harmless terms is harmless. -/
theorem Derives.harmless (hknown : ∀ t, known t → t.Harmless own) (h : Derives own known t) :
    t.Harmless own := by
  induction h with
  | known h => exact hknown _ h
  | const _ => trivial
  | scalar h => exact h
  | base _ => exact atMostOneSecret_zero
  | multiply _ _ iha ihp => exact .cons iha ihp
  | signKey h => exact h
  | verifyKey _ _ => trivial
  | sign _ _ _ iht => exact iht
  | signed _ ih => exact ih
  | hash _ ih => exact ih
  | pair _ _ iht ihu => exact ⟨iht, ihu⟩
  | first _ ih => exact ih.1
  | second _ ih => exact ih.2

/-- A term that is not harmless stays unknown. -/
theorem not_derives (hknown : ∀ t, known t → t.Harmless own) (h : ¬ t.Harmless own) :
    ¬ Derives own known t :=
  fun hderives => h (hderives.harmless hknown)

end Attacker
