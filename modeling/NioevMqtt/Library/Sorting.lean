-- SUMMARY: Sorting with a comparison function: strict weak orderings on the elements of a list, and sorting functions that are defined on these only.
import Mathlib.Order.Basic
import Mathlib.Order.Lattice

/-!
# Sorting with a comparison function

A sorting function in the manner of the C++ standard library gets a comparison that says
which of two elements comes strictly before the other. Nothing is said of what it does
where the comparison is not a strict weak ordering on the elements.
-/

namespace Sorting

variable {α : Type*}

/-- The comparison is a strict weak ordering on the elements of the list. -/
structure StrictWeakOn (lt : α → α → Bool) (l : List α) : Prop where
  irrefl : ∀ a ∈ l, lt a a = false
  asymm : ∀ a ∈ l, ∀ b ∈ l, lt a b = true → lt b a = false
  trans : ∀ a ∈ l, ∀ b ∈ l, ∀ c ∈ l, lt a b = true → lt b c = true → lt a c = true
  incomparable_trans : ∀ a ∈ l, ∀ b ∈ l, ∀ c ∈ l, (lt a b = false ∧ lt b a = false) →
    (lt b c = false ∧ lt c b = false) → lt a c = false ∧ lt c a = false

/-- What is promised of `std::sort`. -/
def IsStdSort (sort : (α → α → Bool) → List α → List α) : Prop :=
  ∀ lt l, StrictWeakOn lt l →
    (sort lt l).Perm l ∧ (sort lt l).Pairwise fun a b => lt b a = false

theorem strictWeakOn_nil (lt : α → α → Bool) : StrictWeakOn lt [] :=
  ⟨by simp, by simp, by simp, by simp⟩

/-- Comparing by a key in a linear order. -/
theorem strictWeakOn_of_key {κ : Type*} [LinearOrder κ] (key : α → κ) (l : List α) :
    StrictWeakOn (fun a b => decide (key a < key b)) l where
  irrefl := by simp
  asymm := by
    intro a _ b _ hlt
    simp only [decide_eq_true_eq, decide_eq_false_iff_not] at hlt ⊢
    exact hlt.asymm
  trans := by
    intro a _ b _ c _ hab hbc
    simp only [decide_eq_true_eq] at hab hbc ⊢
    exact hab.trans hbc
  incomparable_trans := by
    intro a _ b _ c _ hab hbc
    simp only [decide_eq_false_iff_not, not_lt] at hab hbc ⊢
    exact ⟨hbc.1.trans hab.1, hab.2.trans hbc.2⟩

end Sorting
