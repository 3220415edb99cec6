-- SUMMARY: Computations that may fail, and when a chain of them succeeds.
import Mathlib.Init

/-!
# Computations that may fail

For `Except`: what a chain that succeeded has computed on the way, and the
condition under which it succeeds.
-/

namespace Outcome

universe u w

variable {ε : Type u} {α β : Type w} {x : Except ε α} {f : α → Except ε β} {a : α} {b : β}

/-- The computation ends without a fault. -/
def Succeeds (x : Except ε α) : Prop := ∃ a, x = .ok a

theorem bind_eq_ok (h : (x >>= f) = .ok b) : ∃ a, x = .ok a ∧ f a = .ok b := by
  cases x with
  | error e => cases h
  | ok a => exact ⟨a, rfl, h⟩

@[simp] theorem succeeds_ok (a : α) : Succeeds (.ok a : Except ε α) := ⟨a, rfl⟩

@[simp] theorem succeeds_pure (a : α) : Succeeds (pure a : Except ε α) := ⟨a, rfl⟩

theorem not_succeeds_error (e : ε) : ¬ Succeeds (.error e : Except ε α) := fun ⟨_, h⟩ => by cases h

/-- The second part matters on the result of the first only. -/
theorem bind_congr_ok {g : α → Except ε β} (h : ∀ a, x = .ok a → f a = g a) :
    (x >>= f) = (x >>= g) := by
  cases x with
  | error e => rfl
  | ok a => exact h a rfl

/-- What every part of a loop keeps, the loop keeps. -/
theorem foldlM_invariant {γ : Type*} {P : α → Prop} {step : α → γ → Except ε α}
    (hstep : ∀ a c a', P a → step a c = .ok a' → P a') {l : List γ} {a a' : α}
    (h : l.foldlM step a = .ok a') (ha : P a) : P a' := by
  induction l generalizing a with
  | nil =>
      cases h
      exact ha
  | cons c l ih =>
      rw [List.foldlM_cons] at h
      obtain ⟨a₁, hfirst, hrest⟩ := bind_eq_ok h
      exact ih hrest (hstep a c a₁ ha hfirst)

/-- A chain succeeds where its first part does, and the second on its result. -/
theorem succeeds_bind : Succeeds (x >>= f) ↔ ∃ a, x = .ok a ∧ Succeeds (f a) := by
  constructor
  · rintro ⟨b, h⟩
    obtain ⟨a, hx, hf⟩ := bind_eq_ok h
    exact ⟨a, hx, b, hf⟩
  · rintro ⟨a, rfl, b, hf⟩
    exact ⟨b, hf⟩

/-- Where the condition of the second part does not depend on the result of the first, it
is one of two. -/
theorem succeeds_bind_iff {P : Prop} (h : ∀ a, x = .ok a → (Succeeds (f a) ↔ P)) :
    Succeeds (x >>= f) ↔ Succeeds x ∧ P := by
  rw [succeeds_bind]
  constructor
  · rintro ⟨a, hx, hf⟩
    exact ⟨⟨a, hx⟩, (h a hx).mp hf⟩
  · rintro ⟨⟨a, hx⟩, hP⟩
    exact ⟨a, hx, (h a hx).mpr hP⟩

/-- Where the second part always succeeds, the first decides. -/
theorem succeeds_bind_of_succeeds (h : ∀ a, x = .ok a → Succeeds (f a)) :
    Succeeds (x >>= f) ↔ Succeeds x := by
  rw [succeeds_bind]
  exact exists_congr fun a => and_iff_left_of_imp (h a)

end Outcome
