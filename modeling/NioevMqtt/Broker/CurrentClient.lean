-- SUMMARY: Over every run of the broker: no missing connection is used exactly when no message is handed at QoS 0 to a session without one.
import NioevMqtt.Broker.Transitions

/-!
# The current client

A session may have no connection. `publish` does not ask at QoS 0, and
`dropCurrentClient` never asks. The second is safe; of the first, a run is as safe
as the messages it hands over.
-/

namespace NioevMqtt

open Outcome

namespace ApplicationState

/-! ## Runs that may fault -/

section

variable {τ : Type} [Libnioev] [SubscriptionTree τ]

/-- After a fault there are no steps. -/
def stepResult : Except Fault (ApplicationState τ) → Action →
    Option (Except Fault (ApplicationState τ))
  | .ok s, action => s.step action
  | .error _, _ => none

/-- No message the step hands over is at QoS 0 and for a session without a
connection. -/
def DeliversSafely (result : Except Fault (ApplicationState τ)) (action : Action) : Prop :=
  match result with
  | .ok s => ∀ handOff ∈ s.handOffs action, s.Deliverable handOff
  | .error _ => True

instance (s : ApplicationState τ) (handOff : HandOff) : Decidable (s.Deliverable handOff) :=
  match handOff with
  | (.session session, .qos0) =>
    decidable_of_iff (s.view.currentClient session ≠ none)
      ⟨fun h _ heq => by cases heq; exact h, fun h => h session rfl⟩
  | (.session _, .qos1) => isTrue fun _ heq => by cases heq
  | (.session _, .qos2) => isTrue fun _ heq => by cases heq
  | (.other _, _) => isTrue fun _ heq => by cases heq

instance (result : Except Fault (ApplicationState τ)) (action : Action) :
    Decidable (DeliversSafely result action) := by
  unfold DeliversSafely
  split <;> infer_instance

/-- Over every run: neither `publish` nor `dropCurrentClient` uses a missing
connection, exactly when no step hands a message at QoS 0 to a session without
one. -/
theorem succeeds_iff_deliversSafely {retained : AList fun _ : ByteString => RetainedMessage}
    {run : List (Action × Except Fault (ApplicationState τ))}
    (hrun : Runs.IsRun (Runs.StepOf stepResult) (.ok (initial retained)) run) :
    Runs.AllStates Succeeds run ↔ Runs.AllSteps DeliversSafely (.ok (initial retained)) run := by
  refine hrun.allStates_iff_allSteps
    (I := fun result : Except Fault (ApplicationState τ) => ∀ s, result = .ok s → s.Linked)
    ?_ ?_ ?_ (succeeds_ok _)
  · rintro result action result' hlinked - - hstep t rfl
    cases result with
    | error fault => cases hstep
    | ok s =>
        have hs := hlinked s rfl
        exact hs.transition (transition_of_step hs hstep)
  · intro result action result' hlinked hsucceeds hstep
    cases result with
    | error fault => cases hstep
    | ok s => exact succeeds_step (hlinked s rfl) hstep
  · rintro s ⟨⟩
    exact linked_initial retained

instance (result : Except Fault (ApplicationState τ)) : Decidable (Succeeds result) :=
  match result with
  | .ok s => isTrue (succeeds_ok s)
  | .error fault => isFalse (not_succeeds_error fault)

end

/-! ## A session that waits for its client -/

/-- A client subscribes in a session that is not clean, and disconnects. -/
def subscribeAndLeave : List Action :=
  Action.requestLogin 0 [0x61] .no Action.kept_of_id ++ [.execute []] ++
    Action.requestSubscribe 0 [0x74] .qos1 ++ [.execute []] ++
    Action.requestLogout 0 ++ [.execute []]

/-- Another thread publishes to its subscription. -/
def publishTo (qos : QoS) : List Action :=
  [.start 0 (.publish ⟨[0x74], [0x68, 0x69], qos, .no, []⟩), .proceed (.other 0) false]

theorem succeeds_publishQoS1 :
    (Runs.runOf (@stepResult SubscriptionList .standard _) (.ok (initial ∅))
        (subscribeAndLeave ++ publishTo .qos1)).length = 15 ∧
      Runs.AllStates Succeeds (Runs.runOf (@stepResult SubscriptionList .standard _)
        (.ok (initial ∅)) (subscribeAndLeave ++ publishTo .qos1)) :=
  ⟨by decide +kernel, (@succeeds_iff_deliversSafely SubscriptionList .standard _ ∅ _
    (Runs.isRun_runOf (@stepResult SubscriptionList .standard _) _ _)).mpr (by decide +kernel)⟩

/-- At QoS 0 the message is handed to a session without a connection. -/
theorem not_succeeds_publishQoS0 :
    ∃ run, Runs.IsRun (Runs.StepOf (@stepResult SubscriptionList .standard _)) (.ok (initial ∅)) run ∧
      ¬ Runs.AllStates Succeeds run := by
  refine ⟨_, Runs.isRun_runOf (@stepResult SubscriptionList .standard _) _
    (subscribeAndLeave ++ publishTo .qos0), ?_⟩
  decide +kernel

end ApplicationState

end NioevMqtt
