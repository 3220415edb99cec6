-- SUMMARY: Progress by a measure: a goal that can be approached from every state of an invariant can be reached, and what one of many parties adds to a measure when it moves.
import Mathlib.Algebra.BigOperators.Group.Finset.Basic
import Mathlib.Logic.Relation

/-!
# Progress

Where every state that is not a goal leads to one that is nearer, a goal is reached. The
measure is often a sum over many parties, of which a step moves one.
-/

namespace Progress

open Relation

/-- If it can always come nearer, it can get there. -/
theorem exists_goal {σ : Type*} {Steps : σ → σ → Prop} {I goal : σ → Prop} (measure : σ → Nat)
    (hnearer : ∀ s, I s → ¬ goal s → ∃ t, ReflTransGen Steps s t ∧ I t ∧ measure t < measure s)
    {s : σ} (hs : I s) : ∃ t, ReflTransGen Steps s t ∧ I t ∧ goal t := by
  induction hn : measure s using Nat.strong_induction_on generalizing s with
  | _ n ih =>
      by_cases hgoal : goal s
      · exact ⟨s, .refl, hs, hgoal⟩
      · obtain ⟨t, hst, ht, hlt⟩ := hnearer s hs hgoal
        obtain ⟨u, htu, hu⟩ := ih (measure t) (hn ▸ hlt) ht rfl
        exact ⟨u, hst.trans htu, hu⟩

/-- One party moves. -/
theorem sum_update {ι β : Type*} [Fintype ι] [DecidableEq ι] (weight : β → Nat) (f : ι → β) (i : ι)
    (b : β) :
    ∑ j, weight (Function.update f i b j) + weight (f i) = ∑ j, weight (f j) + weight b := by
  have hothers : ∑ j ∈ Finset.univ.erase i, weight (Function.update f i b j) =
      ∑ j ∈ Finset.univ.erase i, weight (f j) := by
    refine Finset.sum_congr rfl fun j hj => ?_
    rw [Function.update_of_ne (Finset.ne_of_mem_erase hj)]
  rw [← Finset.add_sum_erase _ _ (Finset.mem_univ i), hothers, Function.update_self,
    ← Finset.add_sum_erase _ (fun j => weight (f j)) (Finset.mem_univ i)]
  omega

end Progress
