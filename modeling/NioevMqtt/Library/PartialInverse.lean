-- SUMMARY: Two partial functions that are each other's inverse, kept as two tables of links, and how links are made and cut.
import Mathlib.Logic.Function.Basic

/-!
# Links in both directions

Objects of two kinds that point at each other: each has at most one partner, and
each is its partner's partner. The two tables are updated one after the other;
these are the updates that leave them inverse.
-/

namespace Links

variable {α β : Type*}

/-- Each is its partner's partner. -/
def Inverse (f : α → Option β) (g : β → Option α) : Prop :=
  ∀ a b, f a = some b ↔ g b = some a

variable {f : α → Option β} {g : β → Option α} {a : α} {b : β}

theorem inverse_none : Inverse (fun _ : α => (none : Option β)) (fun _ => none) :=
  fun _ _ => by simp only [reduceCtorEq]

/-- No two have the same partner. -/
theorem Inverse.injective (h : Inverse f g) {a' : α} (ha : f a = some b) (ha' : f a' = some b) :
    a = a' :=
  Option.some.inj (((h a b).mp ha).symm.trans ((h a' b).mp ha'))

/-- One that has no partner is nobody's. -/
theorem Inverse.ne (h : Inverse f g) (ha : f a = none) {a' : α} (hb : g b = some a') : a' ≠ a := by
  rintro rfl
  have hlink := (h a' b).mpr hb
  rw [ha] at hlink
  cases hlink

variable [DecidableEq α] [DecidableEq β]

/-- A link is cut at both ends. -/
theorem Inverse.cut (h : Inverse f g) (hlink : f a = some b) :
    Inverse (Function.update f a none) (Function.update g b none) := by
  intro x y
  by_cases hx : x = a
  · subst hx
    rw [Function.update_self]
    by_cases hy : y = b
    · rw [hy, Function.update_self]
      simp only [reduceCtorEq]
    · rw [Function.update_of_ne hy]
      refine iff_of_false (by simp only [reduceCtorEq, not_false_eq_true]) fun hyx => hy ?_
      exact Option.some.inj (((h x y).mpr hyx).symm.trans hlink)
  · rw [Function.update_of_ne hx]
    by_cases hy : y = b
    · subst hy
      rw [Function.update_self]
      refine iff_of_false (fun hxy => hx (h.injective hxy hlink)) ?_
      simp only [reduceCtorEq, not_false_eq_true]
    · rw [Function.update_of_ne hy]
      exact h x y

/-- Two that have no partner are linked. -/
theorem Inverse.join (h : Inverse f g) (ha : f a = none) (hb : g b = none) :
    Inverse (Function.update f a (some b)) (Function.update g b (some a)) := by
  intro x y
  by_cases hx : x = a
  · subst hx
    rw [Function.update_self]
    by_cases hy : y = b
    · rw [hy, Function.update_self]
      exact iff_of_true rfl rfl
    · rw [Function.update_of_ne hy]
      refine iff_of_false (fun heq => hy (Option.some.inj heq).symm) fun hyx => ?_
      rw [← h, ha] at hyx
      cases hyx
  · rw [Function.update_of_ne hx]
    by_cases hy : y = b
    · subst hy
      rw [Function.update_self]
      refine iff_of_false (fun hxy => ?_) fun heq => hx (Option.some.inj heq).symm
      rw [h, hb] at hxy
      cases hxy
    · rw [Function.update_of_ne hy]
      exact h x y

/-- Whoever is named loses the partner. -/
def unlink (f : α → Option β) : Option α → α → Option β
  | none => f
  | some a => Function.update f a none

omit [DecidableEq β] in
theorem unlink_eq_some {o : Option α} (h : unlink f o a = some b) : f a = some b := by
  cases o with
  | none => exact h
  | some old =>
      by_cases heq : a = old
      · rw [heq, unlink, Function.update_self] at h
        cases h
      · rwa [unlink, Function.update_of_ne heq] at h

/-- One that has no partner takes the place of another's. -/
theorem Inverse.replace (h : Inverse f g) (ha : f a = none) :
    Inverse (Function.update (unlink f (g b)) a (some b)) (Function.update g b (some a)) := by
  cases hold : g b with
  | none => exact h.join ha hold
  | some old =>
      have hlink := (h old b).mpr hold
      have hne : a ≠ old := (h.ne ha hold).symm
      have hjoin := (h.cut hlink).join ((Function.update_of_ne hne _ _).trans ha)
        (Function.update_self _ _ _)
      rwa [Function.update_idem] at hjoin

end Links
