-- SUMMARY: Lists in which every element stands some number of times, and when that is once for those that are kept.
import Mathlib.Data.List.Perm.Basic
import Mathlib.Data.List.Nodup

/-!
# Copies

Something is done once for each of several reasons, and should have been done once
for each of the elements that have one. Counting tells whether it was.
-/

namespace Copies

variable {α β γ : Type*} {l : List α} {p : α → Bool} {copies : α → List γ} {d : α → β}

/-- Copies of everything, and at least one of what is kept: no more than that are there
exactly if their number says so. -/
theorem length_copies (hcopies : ∀ a ∈ l, p a = true → copies a ≠ []) :
    (l.filter p).length ≤ (l.flatMap fun a => (copies a).map fun _ => d a).length ∧
      ((l.flatMap fun a => (copies a).map fun _ => d a).length = (l.filter p).length →
        ∀ a ∈ l, (copies a).length = if p a then 1 else 0) := by
  induction l with
  | nil => exact ⟨Nat.le_refl 0, fun _ a h => by cases h⟩
  | cons a l ih =>
      obtain ⟨hle, heq⟩ := ih fun b hb => hcopies b (List.mem_cons_of_mem a hb)
      have hfirst : (if p a then 1 else 0) ≤ (copies a).length := by
        split
        · next hp => exact List.length_pos_of_ne_nil (hcopies a List.mem_cons_self hp)
        · exact Nat.zero_le _
      have hfilter : ((a :: l).filter p).length = (if p a then 1 else 0) + (l.filter p).length := by
        rw [List.filter_cons]
        split
        · rw [List.length_cons, Nat.add_comm]
        · rw [Nat.zero_add]
      rw [hfilter, List.flatMap_cons, List.length_append, List.length_map]
      refine ⟨Nat.add_le_add hfirst hle, fun hlength b hb => ?_⟩
      rcases List.mem_cons.mp hb with rfl | hb
      · omega
      · exact heq (by omega) b hb

theorem copies_perm_iff (hcopies : ∀ a ∈ l, p a = true → copies a ≠ []) :
    (l.flatMap fun a => (copies a).map fun _ => d a).Perm ((l.filter p).map d) ↔
      ∀ a ∈ l, (copies a).length = if p a then 1 else 0 := by
  constructor
  · intro hperm
    apply (length_copies (d := d) hcopies).2
    rw [hperm.length_eq, List.length_map]
  · intro h
    clear hcopies
    induction l with
    | nil => exact List.Perm.refl _
    | cons a l ih =>
        have hfirst := h a List.mem_cons_self
        have hrest := ih fun b hb => h b (List.mem_cons_of_mem a hb)
        rw [List.flatMap_cons, List.filter_cons]
        split at hfirst
        · next hp =>
            obtain ⟨c, hc⟩ := List.length_eq_one_iff.mp hfirst
            rw [if_pos hp, hc]
            exact hrest.cons (d a)
        · next hp =>
            rw [if_neg hp, List.eq_nil_of_length_eq_zero hfirst]
            exact hrest

/-- A list without duplicates that has nothing but `a`. -/
theorem length_eq_ite_iff (hnodup : l.Nodup) (a : α) [Decidable (a ∈ l)] :
    l.length = (if a ∈ l then 1 else 0) ↔ ∀ b ∈ l, b = a := by
  constructor
  · intro h b hb
    split at h
    · next ha =>
        obtain ⟨c, rfl⟩ := List.length_eq_one_iff.mp h
        rw [List.mem_singleton.mp hb, List.mem_singleton.mp ha]
    · rw [List.eq_nil_of_length_eq_zero h] at hb
      cases hb
  · intro h
    cases l with
    | nil => rw [if_neg List.not_mem_nil]; rfl
    | cons b l =>
        cases h b List.mem_cons_self
        cases l with
        | nil => rw [if_pos List.mem_cons_self]; rfl
        | cons c l =>
            cases h c (List.mem_cons_of_mem _ List.mem_cons_self)
            exact absurd List.mem_cons_self (List.nodup_cons.mp hnodup).1

end Copies
