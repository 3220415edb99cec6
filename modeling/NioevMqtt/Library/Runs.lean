-- SUMMARY: Runs of a labelled transition system: invariants, conditions on the steps, and when a safety property is equivalent to such a condition.
import Mathlib.Data.List.Basic

/-!
# Runs

A run from a state is the list of its steps, each with the label taken and the
state reached. Safety properties speak about all states of a run, conditions on
the environment about all its steps.
-/

namespace Runs

variable {σ α : Type*}

/-- The steps of `run` are steps of the system, one after another from `s`. -/
def IsRun (Step : σ → α → σ → Prop) : σ → List (α × σ) → Prop
  | _, [] => True
  | s, (a, t) :: run => Step s a t ∧ IsRun Step t run

/-- The state a run ends in. -/
def last : σ → List (α × σ) → σ
  | s, [] => s
  | _, (_, t) :: run => last t run

/-- Every state reached in the run has the property. -/
def AllStates (P : σ → Prop) (run : List (α × σ)) : Prop :=
  ∀ x ∈ run, P x.2

/-- Every step of the run is taken with a label that suits the state before it. -/
def AllSteps (C : σ → α → Prop) : σ → List (α × σ) → Prop
  | _, [] => True
  | s, (a, t) :: run => C s a ∧ AllSteps C t run

variable {Step : σ → α → σ → Prop} {P I : σ → Prop} {C : σ → α → Prop}

@[simp] theorem isRun_nil (s : σ) : IsRun Step s [] := trivial

@[simp] theorem isRun_cons (s t : σ) (a : α) (run : List (α × σ)) :
    IsRun Step s ((a, t) :: run) ↔ Step s a t ∧ IsRun Step t run := Iff.rfl

@[simp] theorem allStates_nil : AllStates P ([] : List (α × σ)) := by simp [AllStates]

@[simp] theorem allStates_cons (t : σ) (a : α) (run : List (α × σ)) :
    AllStates P ((a, t) :: run) ↔ P t ∧ AllStates P run := by simp [AllStates]

@[simp] theorem allSteps_nil (s : σ) : AllSteps C s [] := trivial

@[simp] theorem allSteps_cons (s t : σ) (a : α) (run : List (α × σ)) :
    AllSteps C s ((a, t) :: run) ↔ C s a ∧ AllSteps C t run := Iff.rfl

theorem AllSteps.mono {D : σ → α → Prop} {s : σ} {run : List (α × σ)} (h : AllSteps C s run)
    (hle : ∀ s a, C s a → D s a) : AllSteps D s run := by
  induction run generalizing s with
  | nil => exact allSteps_nil s
  | cons x run ih =>
      obtain ⟨a, t⟩ := x
      exact ⟨hle s a h.1, ih h.2⟩

theorem allSteps_append {s : σ} {run rest : List (α × σ)} :
    AllSteps C s (run ++ rest) ↔ AllSteps C s run ∧ AllSteps C (last s run) rest := by
  induction run generalizing s with
  | nil => simp [last]
  | cons x run ih =>
      obtain ⟨a, t⟩ := x
      rw [List.cons_append, allSteps_cons, allSteps_cons, ih, and_assoc]
      rfl

/-! ## Invariants -/

/-- An invariant that steps meeting a condition preserve holds throughout a run
of such steps. -/
theorem IsRun.invariant_of_allSteps {s : σ} {run : List (α × σ)} (hrun : IsRun Step s run)
    (hstep : ∀ s a t, I s → C s a → Step s a t → I t) (hs : I s) (hsteps : AllSteps C s run) :
    AllStates I run := by
  induction run generalizing s with
  | nil => exact allStates_nil
  | cons x run ih =>
      obtain ⟨a, t⟩ := x
      obtain ⟨hst, hrun⟩ := hrun
      obtain ⟨hc, hsteps⟩ := hsteps
      have ht := hstep s a t hs hc hst
      rw [allStates_cons]
      exact ⟨ht, ih hrun ht hsteps⟩

/-- An invariant of the steps is an invariant of the runs. -/
theorem IsRun.invariant {s : σ} {run : List (α × σ)} (hrun : IsRun Step s run)
    (hstep : ∀ s a t, I s → Step s a t → I t) (hs : I s) : AllStates I run := by
  induction run generalizing s with
  | nil => exact allStates_nil
  | cons x run ih =>
      obtain ⟨a, t⟩ := x
      obtain ⟨hst, hrun⟩ := hrun
      have ht := hstep s a t hs hst
      rw [allStates_cons]
      exact ⟨ht, ih hrun ht⟩

/-- It holds where the run ends, too. -/
theorem IsRun.invariant_last {s : σ} {run : List (α × σ)} (hrun : IsRun Step s run)
    (hstep : ∀ s a t, I s → Step s a t → I t) (hs : I s) : I (last s run) := by
  induction run generalizing s with
  | nil => exact hs
  | cons x run ih =>
      obtain ⟨a, t⟩ := x
      obtain ⟨hst, hrun⟩ := hrun
      exact ih hrun (hstep s a t hs hst)

/-! ## Exact conditions -/

/-- What an invariant promises of each step. -/
theorem IsRun.allSteps_of_invariant {s : σ} {run : List (α × σ)} (hrun : IsRun Step s run)
    (hinv : ∀ s a t, I s → Step s a t → I t) (hC : ∀ s a, I s → C s a) (hs : I s) :
    AllSteps C s run := by
  induction run generalizing s with
  | nil => exact allSteps_nil s
  | cons x run ih =>
      obtain ⟨a, t⟩ := x
      obtain ⟨hstep, hrest⟩ := hrun
      exact ⟨hC s a hs, ih hrest (hinv s a t hs hstep)⟩

/-- A run whose steps all meet a condition is one of the system that takes no others. -/
theorem IsRun.guarded {s : σ} {run : List (α × σ)} (hrun : IsRun Step s run)
    (hsteps : AllSteps C s run) : IsRun (fun s a t => C s a ∧ Step s a t) s run := by
  induction run generalizing s with
  | nil => exact isRun_nil s
  | cons x run ih =>
      obtain ⟨a, t⟩ := x
      obtain ⟨hst, hrun⟩ := hrun
      obtain ⟨hc, hsteps⟩ := hsteps
      exact ⟨⟨hc, hst⟩, ih hrun hsteps⟩

/-- Conditions that are the same on the states of an invariant are the same on its runs. -/
theorem IsRun.allSteps_congr {D : σ → α → Prop} {s : σ} {run : List (α × σ)}
    (hrun : IsRun Step s run) (hinv : ∀ s a t, I s → Step s a t → I t)
    (hiff : ∀ s a, I s → (C s a ↔ D s a)) (hs : I s) : AllSteps C s run ↔ AllSteps D s run := by
  induction run generalizing s with
  | nil => exact Iff.rfl
  | cons x run ih =>
      obtain ⟨a, t⟩ := x
      obtain ⟨hst, hrun⟩ := hrun
      rw [allSteps_cons, allSteps_cons, hiff s a hs]
      exact and_congr_right fun _ => ih hrun (hinv s a t hs hst)

/-- Where, on the states of an invariant, a step leads to a state with the
property exactly when it meets the condition, a run keeps the property exactly
when all its steps meet the condition. -/
theorem IsRun.allStates_iff_allSteps {s : σ} {run : List (α × σ)} (hrun : IsRun Step s run)
    (hinv : ∀ s a t, I s → P s → C s a → Step s a t → I t)
    (hexact : ∀ s a t, I s → P s → Step s a t → (P t ↔ C s a)) (hI : I s) (hP : P s) :
    AllStates P run ↔ AllSteps C s run := by
  induction run generalizing s with
  | nil => simp
  | cons x run ih =>
      obtain ⟨a, t⟩ := x
      obtain ⟨hst, hrun⟩ := hrun
      rw [allStates_cons, allSteps_cons, hexact s a t hI hP hst]
      refine and_congr_right fun hc => ?_
      exact ih hrun (hinv s a t hI hP hc hst) ((hexact s a t hI hP hst).mpr hc)

/-! ## Systems given by a function -/

/-- The steps of a system that is a partial function. -/
def StepOf (step : σ → α → Option σ) (s : σ) (a : α) (t : σ) : Prop := step s a = some t

/-- The run along a list of labels, as far as its steps are possible. -/
def runOf (step : σ → α → Option σ) : σ → List α → List (α × σ)
  | _, [] => []
  | s, a :: labels =>
    match step s a with
    | none => []
    | some t => (a, t) :: runOf step t labels

theorem isRun_runOf (step : σ → α → Option σ) (s : σ) (labels : List α) :
    IsRun (StepOf step) s (runOf step s labels) := by
  induction labels generalizing s with
  | nil => exact isRun_nil s
  | cons a labels ih =>
      unfold runOf
      cases hstep : step s a with
      | none => exact isRun_nil s
      | some t => exact ⟨hstep, ih t⟩

instance decidableAllSteps [∀ s a, Decidable (C s a)] :
    (s : σ) → (run : List (α × σ)) → Decidable (AllSteps C s run)
  | _, [] => isTrue trivial
  | s, (a, t) :: run =>
    have := decidableAllSteps t run
    inferInstanceAs (Decidable (C s a ∧ AllSteps C t run))

instance [DecidablePred P] (run : List (α × σ)) : Decidable (AllStates P run) :=
  inferInstanceAs (Decidable (∀ x ∈ run, P x.2))

end Runs
