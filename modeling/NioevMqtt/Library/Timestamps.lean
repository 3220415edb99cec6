-- SUMMARY: The last of the times at which something has happened, told by a clock that does not go back.
import Mathlib.Order.Monotone.Defs

/-!
# Timestamps

Times are noted in their order, and only the last of them is kept. What is true of times that
are long past is true of all of them if it is of the last.
-/

namespace Timestamps

variable {α : Type*} [Preorder α]

/-- The timestamp is the last of the times. -/
structure Stamped (times : List α) (timestamp clock : α) : Prop where
  mem : timestamp ∈ times
  le : ∀ time ∈ times, time ≤ timestamp
  clock : timestamp ≤ clock

variable {times : List α} {timestamp clock now : α}

theorem stamped_singleton (now : α) : Stamped [now] now now where
  mem := List.mem_singleton.mpr rfl
  le := fun _ hmem => (List.mem_singleton.mp hmem).le
  clock := le_rfl

namespace Stamped

theorem mono (h : Stamped times timestamp clock) (hle : clock ≤ now) : Stamped times timestamp now :=
  ⟨h.mem, h.le, h.clock.trans hle⟩

theorem append (h : Stamped times timestamp clock) (hle : clock ≤ now) :
    Stamped (times ++ [now]) now now where
  mem := List.mem_append_right _ (List.mem_singleton.mpr rfl)
  le := by
    intro time hmem
    rcases List.mem_append.mp hmem with hold | hnew
    · exact ((h.le time hold).trans h.clock).trans hle
    · exact (List.mem_singleton.mp hnew).le
  clock := le_rfl

theorem first_le (h : Stamped times timestamp clock) (hle : clock ≤ now) :
    ∃ first ∈ times.head?, first ≤ now := by
  cases times with
  | nil => exact absurd h.mem List.not_mem_nil
  | cons first times =>
      exact ⟨first, rfl, ((h.le first List.mem_cons_self).trans h.clock).trans hle⟩

theorem forall_le_iff {β : Type*} [Preorder β] {f : α → β} (h : Stamped times timestamp clock)
    (hf : Monotone f) (limit : β) : (∀ time ∈ times, f time ≤ limit) ↔ f timestamp ≤ limit := by
  constructor
  · exact fun hall => hall timestamp h.mem
  · exact fun hle time hmem => (hf (h.le time hmem)).trans hle

end Stamped

end Timestamps
