-- SUMMARY: Scatter/gather over a list of segments: dropping an element count that may end inside any segment.
import Mathlib.Data.List.Basic

/-!
# Segments

A buffer kept as a list of segments stands for their concatenation. A consumer
that takes `n` elements off the front finishes some segments and stops inside
the next one.
-/

namespace Segments

variable {α : Type*}

/-- What is left of the segments after `n` elements. Finished segments stay, as
empty ones. -/
def drop : Nat → List (List α) → List (List α)
  | _, [] => []
  | n, s :: ss => s.drop n :: drop (n - s.length) ss

@[simp] theorem drop_nil (n : Nat) : drop n ([] : List (List α)) = [] := rfl

@[simp] theorem drop_cons (n : Nat) (s : List α) (ss : List (List α)) :
    drop n (s :: ss) = s.drop n :: drop (n - s.length) ss := rfl

@[simp] theorem drop_zero (ss : List (List α)) : drop 0 ss = ss := by
  induction ss with
  | nil => rfl
  | cons s ss ih => rw [drop_cons, Nat.zero_sub, ih, List.drop_zero]

/-- Dropping segment by segment is dropping from the concatenation. -/
theorem flatten_drop (n : Nat) (ss : List (List α)) :
    (drop n ss).flatten = ss.flatten.drop n := by
  induction ss generalizing n with
  | nil => simp
  | cons s ss ih => rw [drop_cons, List.flatten_cons, List.flatten_cons, List.drop_append, ih]

end Segments
