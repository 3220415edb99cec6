-- SUMMARY: Runs of a system seen through a projection: when every visible step is a step of another system, and every other one leaves what is seen alone.
import NioevMqtt.Library.Runs

/-!
# Projections of runs

A system with more detail simulates one with less: what the second can see of a run of
the first is a run of its own.
-/

namespace Runs

variable {σ α ρ β : Type*} (label : α → Option β) (view : σ → ρ)

/-- What is seen of a run. -/
def projection (run : List (α × σ)) : List (β × ρ) :=
  run.filterMap fun x => (label x.1).map fun b => (b, view x.2)

variable {label view}

theorem projection_cons_visible {a : α} {b : β} (h : label a = some b) (t : σ)
    (run : List (α × σ)) :
    projection label view ((a, t) :: run) = (b, view t) :: projection label view run := by
  simp [projection, h]

theorem projection_cons_internal {a : α} (h : label a = none) (t : σ) (run : List (α × σ)) :
    projection label view ((a, t) :: run) = projection label view run := by
  simp [projection, h]

/-- A step of the system, seen as one of the other or not at all. -/
structure Simulates (Step : σ → α → σ → Prop) (Step' : ρ → β → ρ → Prop) (I : σ → Prop)
    (label : α → Option β) (view : σ → ρ) : Prop where
  preserves : ∀ s a t, I s → Step s a t → I t
  visible : ∀ s a t b, I s → Step s a t → label a = some b → Step' (view s) b (view t)
  internal : ∀ s a t, I s → Step s a t → label a = none → view t = view s

variable {Step : σ → α → σ → Prop} {Step' : ρ → β → ρ → Prop} {I : σ → Prop}

/-- What is seen of a run is a run. -/
theorem Simulates.isRun_projection (h : Simulates Step Step' I label view) {s : σ} (hs : I s)
    {run : List (α × σ)} (hrun : IsRun Step s run) :
    IsRun Step' (view s) (projection label view run) := by
  induction run generalizing s with
  | nil => exact isRun_nil _
  | cons x run ih =>
      obtain ⟨a, t⟩ := x
      obtain ⟨hstep, hrun⟩ := hrun
      have hrest := ih (h.preserves s a t hs hstep) hrun
      cases hlabel : label a with
      | none =>
          rw [projection_cons_internal hlabel, ← h.internal s a t hs hstep hlabel]
          exact hrest
      | some b =>
          rw [projection_cons_visible hlabel]
          exact ⟨h.visible s a t b hs hstep hlabel, hrest⟩

/-- They end in the same state. -/
theorem Simulates.last_projection (h : Simulates Step Step' I label view) {s : σ} (hs : I s)
    {run : List (α × σ)} (hrun : IsRun Step s run) :
    last (view s) (projection label view run) = view (last s run) := by
  induction run generalizing s with
  | nil => rfl
  | cons x run ih =>
      obtain ⟨a, t⟩ := x
      obtain ⟨hstep, hrun⟩ := hrun
      have hrest := ih (h.preserves s a t hs hstep) hrun
      cases hlabel : label a with
      | none =>
          rw [projection_cons_internal hlabel, ← h.internal s a t hs hstep hlabel]
          exact hrest
      | some b =>
          rw [projection_cons_visible hlabel]
          exact hrest

end Runs
