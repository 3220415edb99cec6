-- SUMMARY: Over every run, a cleanup is due while something waits to be freed.
import NioevMqtt.Broker.References

/-!
# Reclaiming

What is logged out or deleted is freed by the next cleanup, which looks for it only if
`mShouldCleanup` is set. Logouts set it, and a cleanup that clears it leaves nothing behind.
-/

namespace NioevMqtt

namespace Custody

variable {c c' : Custody} {acquired : Option RefCounted}

/-- A cleanup is due while something waits for it. -/
def NothingForgotten (c : Custody) : Prop := ∀ o, c.Reclaimable o → c.mShouldCleanup = true

/-- A cleanup leaves nothing for the next. -/
theorem not_reclaimable_eraseDisconnected (c : Custody) (o : RefCounted) :
    ¬ c.eraseDisconnected.Reclaimable o := by
  cases o with
  | connection client =>
      rintro ⟨hclient, hout⟩
      exact of_decide_eq_true (List.mem_filter.mp hclient).2 hout
  | session id =>
      rintro ⟨hdeleted, hzero⟩
      exact of_decide_eq_true (List.mem_filter.mp hdeleted).2 hzero

/-- Whoever becomes reclaimable by a logout or a login asks for the cleanup. -/
theorem NothingForgotten.keeps (h : c.NothingForgotten) (hkeeps : c.Keeps c') :
    c'.NothingForgotten := by
  intro o ho
  cases o with
  | connection client =>
      obtain ⟨hclient, hout, hzero⟩ := ho
      rw [hkeeps.mClients_eq] at hclient
      rw [hkeeps.refCount_eq] at hzero
      rcases hkeeps.loggedOut client hout with hout | hflag
      · exact hkeeps.shouldCleanup (h (.connection client) ⟨hclient, hout, hzero⟩)
      · exact hflag
  | session id =>
      obtain ⟨hdeleted, hzero⟩ := ho
      rw [hkeeps.refCount_eq] at hzero
      rcases hkeeps.deleted id hdeleted with hdeleted | hflag
      · exact hkeeps.shouldCleanup (h (.session id) ⟨hdeleted, hzero⟩)
      · exact hflag

/-- A new connection is not logged out. -/
theorem NothingForgotten.newConnection (h : c.NothingForgotten) (new : ConnectionId) :
    (c.newConnection new).NothingForgotten := by
  intro o ho
  cases o with
  | connection client =>
      obtain ⟨hclient, hout, hzero⟩ := ho
      by_cases hnew : client = new
      · subst hnew
        have hfalse : (c.newConnection client).loggedOut client = false := Function.update_self _ _ _
        exact absurd (hout.symm.trans hfalse) Bool.noConfusion
      · have hold : client ∈ c.mClients :=
          (List.mem_append.mp hclient).resolve_right fun hmem => hnew (List.mem_singleton.mp hmem)
        have hne : RefCounted.connection client ≠ .connection new :=
          fun heq => hnew (by cases heq; rfl)
        refine h (.connection client) ⟨hold, ?_, ?_⟩
        · exact (congrArg (· = true) (Function.update_of_ne hnew _ _)).mp hout
        · exact (Function.update_of_ne hne _ _).symm.trans hzero
  | session id =>
      obtain ⟨hdeleted, hzero⟩ := ho
      have hne : RefCounted.session id ≠ .connection new := by rintro ⟨⟩
      have hcount : (c.newConnection new).refCount (.session id) = c.refCount (.session id) :=
        Function.update_of_ne hne 0 _
      exact h (.session id) ⟨hdeleted, hcount.symm.trans hzero⟩

theorem NothingForgotten.moves (h : c.NothingForgotten) (hmoves : c.Moves acquired c') :
    c'.NothingForgotten := by
  cases hmoves with
  | keeps hkeeps => exact h.keeps hkeeps
  | newConnection => exact h.newConnection _
  | setWork hwork => exact fun o ho => h o (by cases o <;> exact ho)
  | request hwork hnamed => exact fun o ho => h o (by cases o <;> exact ho)

end Custody

namespace ApplicationState

section

variable {τ : Type} {s t : ApplicationState τ}

/-- While something waits to be freed, a cleanup is due. -/
structure NothingForgotten (s : ApplicationState τ) : Prop where
  connections : ∀ client ∈ s.mClients, (s.connections client).mLoggedOut = true →
    (s.connections client).taskQueueRefCount = 0 → s.mShouldCleanup = true
  sessions : ∀ id ∈ s.mDeletedPersistentClientStates,
    (s.sessions id).taskQueueRefCount = 0 → s.mShouldCleanup = true

/-- A cleanup frees whatever waits to be freed. -/
structure FreesWaiting (s t : ApplicationState τ) : Prop where
  connections : ∀ client ∈ s.mClients, (s.connections client).mLoggedOut = true →
    (s.connections client).taskQueueRefCount = 0 → client ∉ t.mClients
  sessions : ∀ id ∈ s.mDeletedPersistentClientStates,
    (s.sessions id).taskQueueRefCount = 0 → id ∉ t.mDeletedPersistentClientStates

theorem freesWaiting_eraseDisconnected (s : ApplicationState τ) :
    s.FreesWaiting s.eraseDisconnected where
  connections := by
    intro client _ hout hzero hkept
    exact Custody.not_reclaimable_eraseDisconnected s.custody (.connection client)
      ⟨hkept, hout, hzero⟩
  sessions := by
    intro id _ hzero hkept
    exact Custody.not_reclaimable_eraseDisconnected s.custody (.session id) ⟨hkept, hzero⟩

theorem nothingForgotten_iff : s.NothingForgotten ↔ s.custody.NothingForgotten := by
  constructor
  · intro h o ho
    cases o with
    | connection client => exact h.connections client ho.1 ho.2.1 ho.2.2
    | session id => exact h.sessions id ho.1 ho.2
  · exact fun h => ⟨fun client hclient hout hzero => h (.connection client) ⟨hclient, hout, hzero⟩,
      fun id hdeleted hzero => h (.session id) ⟨hdeleted, hzero⟩⟩

variable [SubscriptionTree τ] [Libnioev]

theorem NothingForgotten.step {action : Action} (h : s.NothingForgotten) (hguarded : s.Guarded)
    (hstep : s.step action = some (.ok t)) : t.NothingForgotten := by
  rw [nothingForgotten_iff] at h ⊢
  by_cases hcleanup : action = .cleanup
  · subst hcleanup
    obtain ⟨-, rfl⟩ := cleanup_step hstep
    exact fun o ho => absurd ho (Custody.not_reclaimable_eraseDisconnected s.custody o)
  · exact h.moves (moves_step hguarded.tabled hguarded.uncounted hcleanup hstep)

/-- In every run, in any order of its steps, nothing that could be freed is forgotten: a
cleanup is due, and it frees it. -/
theorem nothingForgotten_of_isRun {retained : AList fun _ : ByteString => RetainedMessage}
    {run : List (Action × ApplicationState τ)}
    (hrun : Runs.IsRun (Runs.StepOf stepOk) (initial retained) run) :
    Runs.AllStates NothingForgotten run ∧
      Runs.AllSteps (fun s action => action = .cleanup → ∀ t, s.stepOk action = some t →
        s.FreesWaiting t) (initial retained) run := by
  have hboth := hrun.invariant (I := fun s : ApplicationState τ => s.Guarded ∧ s.NothingForgotten)
    (fun _ _ _ h hstep => ⟨h.1.step (step_of_stepOk hstep), h.2.step h.1 (step_of_stepOk hstep)⟩)
    ⟨guarded_initial retained, ⟨fun _ hclient => (by cases hclient), fun _ hid => by cases hid⟩⟩
  refine ⟨fun x hx => (hboth x hx).2, ?_⟩
  refine hrun.allSteps_of_invariant (I := fun _ => True) (fun _ _ _ _ _ => trivial) ?_ trivial
  rintro s action - rfl t hstep
  obtain ⟨-, rfl⟩ := cleanup_step (step_of_stepOk hstep)
  exact freesWaiting_eraseDisconnected s

end

/-- The session of a client that subscribed and timed out waits for the cleanup. -/
theorem nothingForgotten_subscribeAndTimeOut :
    (Runs.runOf (@stepOk SubscriptionList .standard _) (initial ∅) subscribeAndTimeOut).length = 11 ∧
      Runs.AllStates NothingForgotten
        (Runs.runOf (@stepOk SubscriptionList .standard _) (initial ∅) subscribeAndTimeOut) :=
  ⟨by decide +kernel, (@nothingForgotten_of_isRun SubscriptionList _ .standard ∅ _
    (Runs.isRun_runOf (@stepOk SubscriptionList .standard _) _ _)).1⟩

end ApplicationState

end NioevMqtt
