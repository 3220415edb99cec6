-- SUMMARY: Deactivated scripts: over every run nothing is started while a script is deactivated, exactly as long as its thread looks into an empty queue and calls no timeout that it has taken before.
import NioevMqtt.Scripting.ScriptThread

/-!
# Deactivation

`deactivate` takes no lock: it may come while a publisher or a caller has found the script
running and has not queued its task yet, and while the thread has taken a timeout and has
not called it yet.
-/

namespace NioevMqtt

namespace ScriptContainerJS

/-- The thread takes a task from the queue. The state is not looked at. -/
def Takes (s : ScriptContainerJS) : Action → Prop
  | .poll _ => s.mTasks ≠ []
  | .wake _ => s.mTasks ≠ [] ∧ s.mState ≠ .stopping
  | _ => False

instance (s : ScriptContainerJS) (action : Action) : Decidable (s.Takes action) :=
  match action with
  | .poll _ => inferInstanceAs (Decidable (s.mTasks ≠ []))
  | .wake _ => inferInstanceAs (Decidable (s.mTasks ≠ [] ∧ s.mState ≠ .stopping))
  | .run _ | .initialised _ _ | .initFailed | .test | .timeoutEnds _ _ | .taskEnds _ _ | .activate
  | .deactivate | .forceQuit => isFalse id

end ScriptContainerJS

/-- A script with its callers. The last two fields are remembered here only. -/
structure ScriptActivity where
  script : ScriptContainerJS := .initial
  /-- The publishes and calls that have found the script running, and have yet to queue
  their task. -/
  calling : List ScriptInput := []
  /-- The timeout the thread has taken has been called. -/
  called : Bool := false
  /-- The running script has been deactivated, and not activated since. -/
  deactivated : Bool := false
  /-- A task has been taken, or a timeout function called, during such a time. -/
  hasRun : Bool := false
deriving DecidableEq

namespace ScriptActivity

inductive Action where
  /-- The test in `publish` and in `runScript`. -/
  | call (input : ScriptInput)
  | run (input : ScriptInput)
  | thread (action : ScriptContainerJS.Action)
  | callTimeout
  | activate
  | deactivate
  | forceQuit

def step (s : ScriptActivity) : Action → Option ScriptActivity
  | .call input =>
    if s.script.mState = .running then some { s with calling := s.calling ++ [input] } else some s
  | .run input =>
    if input ∈ s.calling then
      some { s with script := s.script.run input, calling := s.calling.erase input }
    else none
  | .thread action =>
    if action.ofThread ∧ (s.script.phase = .inTimeout → s.called = true) then
      (s.script.step action).map fun script =>
        { s with
          script
          called := false
          hasRun := s.hasRun || s.deactivated && script.phase.task?.isSome }
    else none
  | .callTimeout =>
    if s.script.phase = .inTimeout ∧ s.called = false then
      some { s with called := true, hasRun := s.hasRun || s.deactivated }
    else none
  | .activate => some { s with script := s.script.activate, deactivated := false }
  | .deactivate =>
    some { s with
      script := s.script.deactivate
      deactivated := s.deactivated || s.script.mState = .running }
  | .forceQuit => some { s with script := s.script.forceQuit }

def initial : ScriptActivity := {}

/-! ## What is claimed -/

/-- Nothing has been started while the script was deactivated. -/
def Still (s : ScriptActivity) : Prop := s.hasRun = false

instance : DecidablePred Still := fun s => inferInstanceAs (Decidable (s.hasRun = false))

/-- While the script is deactivated its thread finds no task, and has no timeout left to
call. -/
def FindsNothing (s : ScriptActivity) : Action → Prop
  | .thread action => s.deactivated = true → ¬ s.script.Takes action
  | .callTimeout => s.deactivated = false
  | _ => True

instance (s : ScriptActivity) (action : Action) : Decidable (s.FindsNothing action) :=
  match action with
  | .thread action => inferInstanceAs (Decidable (s.deactivated = true → ¬ s.script.Takes action))
  | .callTimeout => inferInstanceAs (Decidable (s.deactivated = false))
  | .call _ | .run _ | .activate | .deactivate | .forceQuit => isTrue trivial

/-- The script is deactivated when nothing waits, and is not deleted before it is activated
again. -/
def DeactivatesIdle (s : ScriptActivity) : Action → Prop
  | .deactivate =>
    s.script.mState = .running →
      s.script.mTasks = [] ∧ s.calling = [] ∧ (s.script.phase = .inTimeout → s.called = true)
  | .forceQuit => s.deactivated = false
  | _ => True

/-! ## A step -/

variable {s t : ScriptActivity} {action : Action}

/-- After a step of the thread it has a task, if it has taken one. -/
theorem task_iff_takes {s t : ScriptContainerJS} {action : ScriptContainerJS.Action}
    (hthread : action.ofThread = true) (hstep : s.step action = some t) :
    t.phase.task?.isSome = true ↔ s.Takes action := by
  have hpoll : ∀ timeoutDue, (s.poll timeoutDue).phase.task?.isSome = true ↔ s.mTasks ≠ [] := by
    intro timeoutDue
    unfold ScriptContainerJS.poll
    split
    · next task mTasks htasks =>
        rw [htasks]
        exact iff_of_true rfl (List.cons_ne_nil _ _)
    · next htasks =>
        refine iff_of_false ?_ (not_not.mpr htasks)
        split
        · rintro ⟨⟩
        · split
          · rintro ⟨⟩
          · rintro ⟨⟩
  cases action with
  | poll timeoutDue =>
      obtain ⟨-, hstep⟩ := Option.ite_none_right_eq_some.mp hstep
      cases hstep
      exact hpoll timeoutDue
  | wake timeoutDue =>
      obtain ⟨-, hstep⟩ := Option.ite_none_right_eq_some.mp hstep
      split at hstep
      · next hstopping =>
          cases hstep
          exact iff_of_false (by rintro ⟨⟩) fun h => h.2 hstopping
      · next hgoes =>
          cases hstep
          exact (hpoll timeoutDue).trans (and_iff_left hgoes).symm
  | initialised result timeouts =>
      obtain ⟨-, hstep⟩ := Option.ite_none_right_eq_some.mp hstep
      split at hstep
      · cases hstep
        exact iff_of_false (by rintro ⟨⟩) id
      · cases hstep
        exact iff_of_false (by rintro ⟨⟩) id
  | initFailed =>
      obtain ⟨-, hstep⟩ := Option.ite_none_right_eq_some.mp hstep
      cases hstep
      exact iff_of_false (by rintro ⟨⟩) id
  | test =>
      obtain ⟨-, hstep⟩ := Option.ite_none_right_eq_some.mp hstep
      split at hstep
      · cases hstep
        exact iff_of_false (by rintro ⟨⟩) id
      · cases hstep
        exact iff_of_false (by rintro ⟨⟩) id
  | timeoutEnds throws timeouts =>
      obtain ⟨-, hstep⟩ := Option.ite_none_right_eq_some.mp hstep
      split at hstep
      · cases hstep
        exact iff_of_false (by rintro ⟨⟩) id
      · cases hstep
        exact iff_of_false (by rintro ⟨⟩) id
  | taskEnds result timeouts =>
      simp only [ScriptContainerJS.step] at hstep
      split at hstep
      · cases hstep
        exact iff_of_false (by rintro ⟨⟩) id
      · cases hstep
  | run input => cases hthread
  | activate => cases hthread
  | deactivate => cases hthread
  | forceQuit => cases hthread

/-- A step starts nothing, exactly if it finds nothing. -/
theorem still_iff_of_step (h : s.Still) (hstep : s.step action = some t) :
    t.Still ↔ s.FindsNothing action := by
  unfold Still at h ⊢
  cases action with
  | call input =>
      simp only [step] at hstep
      split at hstep
      · cases hstep
        exact iff_of_true h trivial
      · cases hstep
        exact iff_of_true h trivial
  | run input =>
      obtain ⟨-, hstep⟩ := Option.ite_none_right_eq_some.mp hstep
      cases hstep
      exact iff_of_true h trivial
  | thread action =>
      obtain ⟨⟨hthread, -⟩, hstep⟩ := Option.ite_none_right_eq_some.mp hstep
      obtain ⟨script, hscript, rfl⟩ := Option.map_eq_some_iff.mp hstep
      have htakes := (task_iff_takes hthread hscript).not
      simp only [h, Bool.false_or, Bool.and_eq_false_imp, FindsNothing]
      exact imp_congr_right fun _ => Bool.eq_false_iff.trans htakes
  | callTimeout =>
      obtain ⟨-, hstep⟩ := Option.ite_none_right_eq_some.mp hstep
      cases hstep
      simp only [h, Bool.false_or, FindsNothing]
  | activate =>
      cases hstep
      exact iff_of_true h trivial
  | deactivate =>
      cases hstep
      exact iff_of_true h trivial
  | forceQuit =>
      cases hstep
      exact iff_of_true h trivial

/-! ## Idle scripts -/

/-- What holds of a script that is deactivated. One that has failed to start has no thread. -/
def Inactive (s : ScriptContainerJS) : Prop :=
  s.mState = .deactivated ∨ s.mState = .initFailed ∧ s.phase = .ended

/-- Nothing waits while the script is deactivated. -/
def Idle (s : ScriptActivity) : Prop :=
  s.deactivated = true → s.script.mTasks = [] ∧ s.calling = [] ∧
    (s.script.phase = .inTimeout → s.called = true) ∧ Inactive s.script

theorem Inactive.not_running {s : ScriptContainerJS} (h : Inactive s) : s.mState ≠ .running := by
  rcases h with h | ⟨h, -⟩
  · rw [h]
    rintro ⟨⟩
  · rw [h]
    rintro ⟨⟩

/-- The thread of an inactive script finds nothing and goes on to wait. -/
theorem inactive_of_step {s t : ScriptContainerJS} {action : ScriptContainerJS.Action}
    (hthread : action.ofThread = true) (htasks : s.mTasks = []) (hinactive : Inactive s)
    (hstep : s.step action = some t) :
    t.mTasks = [] ∧ t.phase ≠ .inTimeout ∧ Inactive t := by
  have hstate : s.phase ≠ .ended → s.mState = .deactivated := fun hphase =>
    hinactive.resolve_right fun h => hphase h.2
  have hpoll : ∀ timeoutDue, s.mState = .deactivated →
      (s.poll timeoutDue).mTasks = [] ∧ (s.poll timeoutDue).phase ≠ .inTimeout ∧
        Inactive (s.poll timeoutDue) := by
    intro timeoutDue hdeactivated
    have hwaits : s.poll timeoutDue = { s with phase := .waiting } := by
      unfold ScriptContainerJS.poll
      rw [htasks]
      exact if_pos hdeactivated
    rw [hwaits]
    exact ⟨htasks, by rintro ⟨⟩, .inl hdeactivated⟩
  cases action with
  | poll timeoutDue =>
      obtain ⟨hphase, hstep⟩ := Option.ite_none_right_eq_some.mp hstep
      cases hstep
      exact hpoll timeoutDue (hstate (by rw [hphase]; rintro ⟨⟩))
  | wake timeoutDue =>
      obtain ⟨hphase, hstep⟩ := Option.ite_none_right_eq_some.mp hstep
      have hdeactivated := hstate (by rw [hphase]; rintro ⟨⟩)
      rw [if_neg (by rw [hdeactivated]; rintro ⟨⟩)] at hstep
      cases hstep
      exact hpoll timeoutDue hdeactivated
  | initialised result timeouts =>
      obtain ⟨hphase, hstep⟩ := Option.ite_none_right_eq_some.mp hstep
      have hdeactivated := hstate (by rw [hphase]; rintro ⟨⟩)
      split at hstep
      · cases hstep
        exact ⟨htasks, by rintro ⟨⟩, .inl hdeactivated⟩
      · cases hstep
        exact ⟨htasks, by rintro ⟨⟩, .inl hdeactivated⟩
  | initFailed =>
      obtain ⟨hphase, hstep⟩ := Option.ite_none_right_eq_some.mp hstep
      cases hstep
      exact ⟨htasks, by rintro ⟨⟩, .inr ⟨rfl, rfl⟩⟩
  | test =>
      obtain ⟨hphase, hstep⟩ := Option.ite_none_right_eq_some.mp hstep
      have hdeactivated := hstate (by rw [hphase]; rintro ⟨⟩)
      rw [if_neg (by rw [hdeactivated]; rintro ⟨⟩)] at hstep
      cases hstep
      exact ⟨htasks, by rintro ⟨⟩, .inl hdeactivated⟩
  | timeoutEnds throws timeouts =>
      obtain ⟨hphase, hstep⟩ := Option.ite_none_right_eq_some.mp hstep
      have hdeactivated := hstate (by rw [hphase]; rintro ⟨⟩)
      split at hstep
      · cases hstep
        exact ⟨htasks, by rintro ⟨⟩, .inl hdeactivated⟩
      · cases hstep
        exact ⟨htasks, by rintro ⟨⟩, .inl hdeactivated⟩
  | taskEnds result timeouts =>
      simp only [ScriptContainerJS.step] at hstep
      split at hstep
      · next hphase =>
          have hdeactivated := hstate (by rw [hphase]; rintro ⟨⟩)
          cases hstep
          exact ⟨htasks, by rintro ⟨⟩, .inl hdeactivated⟩
      · cases hstep
  | run input => cases hthread
  | activate => cases hthread
  | deactivate => cases hthread
  | forceQuit => cases hthread

theorem idle_initial : initial.Idle := by rintro ⟨⟩

/-- A script that is deactivated when nothing waits stays idle. -/
theorem Idle.step (h : s.Idle) (hidle : s.DeactivatesIdle action) (hstep : s.step action = some t) :
    t.Idle := by
  cases action with
  | call input =>
      simp only [ScriptActivity.step] at hstep
      split at hstep
      · next hrunning =>
          cases hstep
          exact fun hdeactivated => absurd hrunning (h hdeactivated).2.2.2.not_running
      · cases hstep
        exact h
  | run input =>
      obtain ⟨hcalling, hstep⟩ := Option.ite_none_right_eq_some.mp hstep
      cases hstep
      intro hdeactivated
      rw [(h hdeactivated).2.1] at hcalling
      exact absurd hcalling List.not_mem_nil
  | thread action =>
      obtain ⟨⟨hthread, -⟩, hstep⟩ := Option.ite_none_right_eq_some.mp hstep
      obtain ⟨script, hscript, rfl⟩ := Option.map_eq_some_iff.mp hstep
      intro hdeactivated
      obtain ⟨htasks, hcalling, -, hinactive⟩ := h hdeactivated
      obtain ⟨htasks, hphase, hinactive⟩ := inactive_of_step hthread htasks hinactive hscript
      exact ⟨htasks, hcalling, fun hin => absurd hin hphase, hinactive⟩
  | callTimeout =>
      obtain ⟨-, hstep⟩ := Option.ite_none_right_eq_some.mp hstep
      cases hstep
      intro hdeactivated
      obtain ⟨htasks, hcalling, -, hinactive⟩ := h hdeactivated
      exact ⟨htasks, hcalling, fun _ => rfl, hinactive⟩
  | activate =>
      cases hstep
      rintro ⟨⟩
  | deactivate =>
      cases hstep
      intro hdeactivated
      by_cases hrunning : s.script.mState = .running
      · have hscript : s.script.deactivate = { s.script with mState := .deactivated } :=
          if_pos hrunning
        obtain ⟨htasks, hcalling, hcalled⟩ := hidle hrunning
        simp only [hscript]
        exact ⟨htasks, hcalling, hcalled, .inl rfl⟩
      · have hscript : s.script.deactivate = s.script := if_neg hrunning
        simp only [hrunning, decide_false, Bool.or_false] at hdeactivated
        simp only [hscript]
        exact h hdeactivated
  | forceQuit =>
      cases hstep
      intro hdeactivated
      exact absurd (hidle.symm.trans hdeactivated) (by decide)

/-- An idle script finds nothing. -/
theorem Idle.findsNothing (h : s.Idle) (hstep : s.step action = some t) : s.FindsNothing action := by
  cases action with
  | thread action =>
      intro hdeactivated htakes
      obtain ⟨htasks, -⟩ := h hdeactivated
      cases action with
      | poll timeoutDue => exact htakes htasks
      | wake timeoutDue => exact htakes.1 htasks
      | _ => exact htakes
  | callTimeout =>
      obtain ⟨⟨hphase, hcalled⟩, -⟩ := Option.ite_none_right_eq_some.mp hstep
      refine Bool.eq_false_iff.mpr fun hdeactivated => ?_
      exact absurd (hcalled.symm.trans ((h hdeactivated).2.2.1 hphase)) (by decide)
  | _ => trivial

/-! ## Over the runs -/

/-- Over a run nothing is started while the script is deactivated, exactly if its thread
finds nothing. It finds nothing if the script is only deactivated when nothing waits. -/
theorem still_iff_findsNothing {run : List (Action × ScriptActivity)}
    (hrun : Runs.IsRun (Runs.StepOf step) initial run) :
    (Runs.AllStates Still run ↔ Runs.AllSteps FindsNothing initial run) ∧
      (Runs.AllSteps DeactivatesIdle initial run → Runs.AllStates Still run) := by
  have hiff : Runs.AllStates Still run ↔ Runs.AllSteps FindsNothing initial run :=
    hrun.allStates_iff_allSteps (I := fun _ => True) (fun _ _ _ _ _ _ _ => trivial)
      (fun _ _ _ _ h hstep => still_iff_of_step h hstep) trivial rfl
  refine ⟨hiff, fun hidle => ?_⟩
  have hinvariant : Runs.AllStates (fun s : ScriptActivity => s.Idle ∧ s.Still) run := by
    refine hrun.invariant_of_allSteps ?_ ⟨idle_initial, rfl⟩ hidle
    rintro s action t ⟨h, hstill⟩ hdeactivates hstep
    exact ⟨h.step hdeactivates hstep, (still_iff_of_step hstill hstep).mpr (h.findsNothing hstep)⟩
  exact fun x hx => (hinvariant x hx).2

/-- A script with a timeout is deactivated when its queue is empty, and activated again. -/
def pausedIdle : List Action :=
  [.thread (.initialised (.returns none) 1), .call (.call []), .run (.call []), .thread .test,
    .thread (.poll false), .thread (.taskEnds (.returns none [0x31]) 1), .thread .test,
    .thread (.poll false), .deactivate, .call (.call []), .thread (.wake true), .activate,
    .thread (.wake true), .callTimeout]

theorem still_pausedIdle :
    (Runs.runOf step initial pausedIdle).length = 14 ∧
      Runs.AllStates Still (Runs.runOf step initial pausedIdle) :=
  ⟨by decide, (still_iff_findsNothing (Runs.isRun_runOf step _ _)).1.mpr (by decide)⟩

/-- A call is queued, the script is deactivated, and its thread takes the call. -/
theorem not_still_queued :
    ¬ Runs.AllStates Still (Runs.runOf step initial
      [.thread (.initialised (.returns none) 0), .call (.call []), .run (.call []), .deactivate,
        .thread .test, .thread (.poll false)]) := by
  decide

end ScriptActivity

end NioevMqtt
