-- SUMMARY: The broker with the threads that work for it: a cleanup asks for their suspension only, and still comes between packets, so that every run is one of the broker alone.
import NioevMqtt.Broker.Suspension
import NioevMqtt.Broker.ThreadWork
import NioevMqtt.Library.Projections

/-!
# Cleanup while the threads are suspended

A thread that receives takes events from `epoll_pwait` and works for one connection after
another, in the body of its loop. `cleanup` looks at none of that: it frees connections
and sessions once `suspendAllThreads` has returned.
-/

namespace NioevMqtt

namespace ApplicationState

variable {τ : Type} {s t : ApplicationState τ} {c : ConnectionId}

/-- The connection that a thread has to work for to do this. -/
def Action.receiverOf : Action → Option ConnectionId
  | .receiveData client _ => some client
  | .connect client _ => some client
  | .rejectVersion client => some client
  | .packet client _ => some client
  | .receiveError client => some client
  | .proceed (.receiver client) _ => some client
  | _ => none

variable [Libnioev] [SubscriptionTree τ]

/-- Nobody else touches what there is to do for a connection. -/
theorem work_eq_of_receiverOf_ne {action : Action} (h : s.Linked)
    (hstep : s.step action = some (.ok t)) (hne : action.receiverOf ≠ some c) :
    t.work (.receiver c) = s.work (.receiver c) := by
  have hview : ∀ {v : View τ}, t.view = v → v.work = s.work →
      t.work (.receiver c) = s.work (.receiver c) := by
    rintro _ rfl hwork
    exact congrFun hwork _
  have hother : ∀ {client work}, some client ≠ some c →
      (s.setWork (.receiver client) work).work (.receiver c) = s.work (.receiver c) := by
    intro client work hclient
    exact Function.update_of_ne (fun heq => hclient (by cases heq; rfl)) _ _
  have hsteps := steps_of_step hstep
  cases hsteps with
  | @connect client packet =>
      exact Function.update_of_ne (fun heq => hne (by cases heq; rfl)) _ _
  | receiveError => exact hother hne
  | @start id work =>
      have hthread : Thread.receiver c ≠ .other id := by rintro ⟨⟩
      exact Function.update_of_ne hthread [work] _
  | @packet client packet =>
      obtain ⟨work, -, hleaves⟩ := (leavesWork_handlePacketReceived s client packet).noLogin
      refine (congrArg (·.work (.receiver c)) hleaves).trans (View.setWork_work_of_ne _ ?_ work)
      exact fun heq => hne (by cases heq; rfl)
  | @proceed thread lockTaken _ _ _ hwork hok =>
      refine (congrFun (work_proceed hok) _).trans (View.setWork_work_of_ne _ ?_ _)
      rintro rfl
      exact hne rfl
  | @execute randomChars =>
      generalize haction : Action.execute randomChars = action at hstep
      cases transition_of_step h hstep with
      | quiet hquiet => exact absurd haction.symm (hquiet randomChars)
      | logsOut hquiet => exact absurd haction.symm (hquiet randomChars)
      | executes hqueue hexecutes hreaches =>
          exact hview hreaches.view_eq (View.frame_executes hexecutes).2
  | executeInternal hqueue hok => exact hview (executeInternal_quiet h hqueue hok).view_eq rfl
  | logoutSendError hclient hok =>
      obtain ⟨v, hout, hreaches⟩ := logoutClient_reaches h.view.toAttached hok
      exact hview hreaches.view_eq (View.frame_logsOut hout).2
  | timeout hclient htimedOut hok =>
      obtain ⟨v, hout, hreaches⟩ := logoutClient_reaches h.view.toAttached hok
      exact hview hreaches.view_eq (View.frame_logsOut hout).2
  | _ => rfl

end ApplicationState

/-! ## The broker and its threads -/

structure ThreadedBroker (ι τ : Type) where
  threads : ReceiverThreads ι := {}
  /-- The connection that a thread works for. -/
  serving : ι → Option ConnectionId := fun _ => none
  broker : ApplicationState τ

namespace ThreadedBroker

open ApplicationState (Action)

section

variable {ι τ : Type} [DecidableEq ι] [Fintype ι]

inductive ThreadedAction (ι : Type) where
  | thread (action : ThreadAction ι)
  /-- A thread comes to the events of a connection, which others may work for as well: to what
  can be written or to an error, while one of them reads. -/
  | serve (i : ι) (client : ConnectionId)
  /-- It has done what there was to do for it, or another does. -/
  | leave (i : ι)
  | broker (action : Action)

def initial [SubscriptionTree τ] (retained : AList fun _ : ByteString => RetainedMessage) :
    ThreadedBroker ι τ :=
  { broker := .initial retained }

/-- A thread that works for a connection stays in the body of its loop. -/
def MayStep (w : ThreadedBroker ι τ) : ThreadAction ι → Prop
  | .receiver i => w.serving i = none
  | _ => True

instance (w : ThreadedBroker ι τ) (action : ThreadAction ι) : Decidable (w.MayStep action) := by
  cases action <;> unfold MayStep <;> infer_instance

/-- Some thread works for the connection, if one has to. -/
def Serves (w : ThreadedBroker ι τ) (action : Action) : Prop :=
  ∀ client ∈ action.receiverOf, ∃ i, w.serving i = some client

instance (w : ThreadedBroker ι τ) (action : Action) : Decidable (w.Serves action) :=
  inferInstanceAs (Decidable (∀ client ∈ action.receiverOf, _))

variable [Libnioev] [SubscriptionTree τ]

def step (w : ThreadedBroker ι τ) : ThreadedAction ι → Option (ThreadedBroker ι τ)
  | .thread action =>
    if w.MayStep action then (w.threads.step action).map fun threads => { w with threads := threads }
    else none
  | .serve i client =>
    if w.threads.pc i = .handling ∧ w.serving i = none then
      some { w with serving := Function.update w.serving i (some client) }
    else none
  | .leave i =>
    match w.serving i with
    | none => none
    | some client =>
      if w.broker.work (.receiver client) = [] ∨ ∃ j, j ≠ i ∧ w.serving j = some client then
        some { w with serving := Function.update w.serving i none }
      else none
  -- It has been decided before the threads were suspended.
  | .broker .cleanup =>
    if w.threads.suspender = .suspended ∧ w.broker.mShouldCleanup then
      some { w with broker := w.broker.eraseDisconnected }
    else none
  | .broker action =>
    if w.Serves action then (w.broker.stepOk action).map fun broker => { w with broker := broker }
    else none

/-- What is to be done for a connection is done by a thread in the body of its loop. -/
structure Attended (w : ThreadedBroker ι τ) : Prop where
  threads : w.threads.Sound
  broker : w.broker.Linked
  inBody : ∀ i, w.serving i ≠ none → w.threads.pc i = .handling
  served : ∀ client, w.broker.work (.receiver client) ≠ [] → ∃ i, w.serving i = some client

/-- What the broker sees. -/
def ThreadedAction.visible : ThreadedAction ι → Option Action
  | .broker action => some action
  | _ => none

variable {w w' : ThreadedBroker ι τ}

omit [Libnioev] [Fintype ι] [DecidableEq ι] in
theorem attended_initial (retained : AList fun _ : ByteString => RetainedMessage) :
    (initial retained : ThreadedBroker ι τ).Attended where
  threads := ReceiverThreads.sound_initial
  broker := ApplicationState.linked_initial retained
  inBody := fun _ h => absurd rfl h
  served := fun _ h => absurd rfl h

omit [Fintype ι] [Libnioev] [SubscriptionTree τ] in
/-- A thread leaves the body of its loop by itself only. -/
theorem handling_step {s t : ReceiverThreads ι} {action : ThreadAction ι} {i : ι}
    (hstep : s.step action = some t) (hpc : s.pc i = .handling) (hne : action ≠ .receiver i) :
    t.pc i = .handling := by
  cases action with
  | receiver j =>
      have hij : i ≠ j := by
        rintro rfl
        exact hne rfl
      obtain ⟨pc, ht⟩ := ReceiverThreads.pc_stepReceiver hstep
      rw [ht, Function.update_of_ne hij, hpc]
  | events j =>
      simp only [ReceiverThreads.step, Option.ite_none_right_eq_some, Option.some.injEq] at hstep
      obtain ⟨hpolling, rfl⟩ := hstep
      have hij : i ≠ j := by
        rintro rfl
        rw [hpc] at hpolling
        cases hpolling
      exact (Function.update_of_ne hij _ _).trans hpc
  | error j =>
      simp only [ReceiverThreads.step, Option.ite_none_right_eq_some, Option.some.injEq] at hstep
      obtain ⟨hpolling, rfl⟩ := hstep
      have hij : i ≠ j := by
        rintro rfl
        rw [hpc] at hpolling
        cases hpolling
      exact (Function.update_of_ne hij _ _).trans hpc
  | suspender => rw [ReceiverThreads.pc_stepSuspender hstep, hpc]
  | signal j =>
      simp only [ReceiverThreads.step, Option.ite_none_right_eq_some, Option.some.injEq] at hstep
      obtain ⟨-, rfl⟩ := hstep
      exact hpc
  | quit =>
      cases hstep
      exact hpc
  | kill j =>
      simp only [ReceiverThreads.step, Option.ite_none_right_eq_some, Option.some.injEq] at hstep
      obtain ⟨-, rfl⟩ := hstep
      exact hpc

omit [DecidableEq ι] [Fintype ι] [Libnioev] [SubscriptionTree τ] in
/-- Whoever is suspended works for nobody. -/
theorem Attended.work_eq_nil (h : w.Attended) (hsuspended : w.threads.suspender = .suspended)
    (client : ConnectionId) : w.broker.work (.receiver client) = [] := by
  by_contra hwork
  obtain ⟨i, hi⟩ := h.served client hwork
  have hpc := h.inBody i (by rw [hi]; exact Option.some_ne_none client)
  have hholds := h.threads.holds_eq_false hsuspended i
  rw [hpc] at hholds
  cases hholds

/-- So a cleanup is one of the broker that waits for its threads. -/
theorem Attended.stepOk (h : w.Attended) {action : Action}
    (hstep : w.step (.broker action) = some w') :
    w.broker.stepOk action = some w'.broker ∧ w'.threads = w.threads ∧ w'.serving = w.serving ∧
      w.Serves action := by
  by_cases hcleanup : action = .cleanup
  · subst hcleanup
    obtain ⟨⟨hsuspended, hshould⟩, heq⟩ := Option.ite_none_right_eq_some.mp hstep
    cases heq
    refine ⟨?_, rfl, rfl, fun _ hclient => by cases hclient⟩
    have hguard : w.broker.mShouldCleanup ∧
        ∀ client ∈ w.broker.mClients, w.broker.work (.receiver client) = [] :=
      ⟨hshould, fun client _ => h.work_eq_nil hsuspended client⟩
    simp only [ApplicationState.stepOk, ApplicationState.step, if_pos hguard]
  · have hstep' : (if w.Serves action then
        (w.broker.stepOk action).map fun broker => { w with broker := broker } else none) =
        some w' := by
      cases action with
      | cleanup => exact absurd rfl hcleanup
      | _ => exact hstep
    obtain ⟨hserves, hmap⟩ := Option.ite_none_right_eq_some.mp hstep'
    obtain ⟨broker, hbroker, rfl⟩ := Option.map_eq_some_iff.mp hmap
    exact ⟨hbroker, rfl, rfl, hserves⟩

theorem Attended.broker_step (h : w.Attended) {action : Action}
    (hstep : w.step (.broker action) = some w') : w'.Attended := by
  obtain ⟨hbroker, hthreads, hserving, hserves⟩ := h.stepOk hstep
  refine ⟨hthreads ▸ h.threads, ApplicationState.linked_stepOk h.broker hbroker, ?_, ?_⟩
  · rw [hthreads, hserving]
    exact h.inBody
  · intro client hwork
    rw [hserving]
    by_cases hclient : action.receiverOf = some client
    · exact hserves client hclient
    · rw [ApplicationState.work_eq_of_receiverOf_ne h.broker
        (ApplicationState.step_of_stepOk hbroker) hclient] at hwork
      exact h.served client hwork

theorem Attended.step {action : ThreadedAction ι} (h : w.Attended)
    (hstep : w.step action = some w') : w'.Attended := by
  cases action with
  | broker action => exact h.broker_step hstep
  | thread action =>
      obtain ⟨hmay, hmap⟩ := Option.ite_none_right_eq_some.mp hstep
      obtain ⟨threads, hthreads, rfl⟩ := Option.map_eq_some_iff.mp hmap
      refine ⟨ReceiverThreads.sound_step h.threads hthreads, h.broker, fun i hi => ?_, h.served⟩
      refine handling_step hthreads (h.inBody i hi) ?_
      rintro rfl
      exact hi hmay
  | serve i client =>
      obtain ⟨⟨hpc, hnone⟩, heq⟩ := Option.ite_none_right_eq_some.mp hstep
      cases heq
      refine ⟨h.threads, h.broker, fun j hj => ?_, fun client' hwork => ?_⟩
      · by_cases hij : j = i
        · rw [hij]
          exact hpc
        · have hj' : Function.update w.serving i (some client) j ≠ none := hj
          rw [Function.update_of_ne hij] at hj'
          exact h.inBody j hj'
      · obtain ⟨j, hj⟩ := h.served client' hwork
        have hij : j ≠ i := by
          rintro rfl
          rw [hnone] at hj
          cases hj
        exact ⟨j, (Function.update_of_ne hij _ _).trans hj⟩
  | leave i =>
      simp only [ThreadedBroker.step] at hstep
      split at hstep
      · cases hstep
      · next client hclient =>
          obtain ⟨hdone, heq⟩ := Option.ite_none_right_eq_some.mp hstep
          cases heq
          refine ⟨h.threads, h.broker, fun j hj => ?_, fun client' hwork => ?_⟩
          · have hj' : Function.update w.serving i none j ≠ none := hj
            by_cases hij : j = i
            · rw [hij, Function.update_self] at hj'
              exact absurd rfl hj'
            · rw [Function.update_of_ne hij] at hj'
              exact h.inBody j hj'
          · have hother : ∃ j, j ≠ i ∧ w.serving j = some client' := by
              obtain ⟨j, hj⟩ := h.served client' hwork
              by_cases hij : j = i
              · rw [hij, hclient] at hj
                cases hj
                exact hdone.resolve_left hwork
              · exact ⟨j, hij, hj⟩
            obtain ⟨j, hij, hj⟩ := hother
            exact ⟨j, (Function.update_of_ne hij _ _).trans hj⟩

theorem simulates_broker :
    Runs.Simulates (Runs.StepOf (@step ι τ _ _ _ _)) (Runs.StepOf ApplicationState.stepOk)
      Attended ThreadedAction.visible ThreadedBroker.broker where
  preserves := fun _ _ _ h hstep => h.step hstep
  visible := by
    intro w action w' seen h hstep hseen
    cases action with
    | broker action =>
        cases hseen
        exact (h.stepOk hstep).1
    | _ => cases hseen
  internal := by
    intro w action w' h hstep hseen
    cases action with
    | broker action => cases hseen
    | thread action =>
        obtain ⟨-, hmap⟩ := Option.ite_none_right_eq_some.mp hstep
        obtain ⟨threads, -, rfl⟩ := Option.map_eq_some_iff.mp hmap
        rfl
    | serve i client =>
        obtain ⟨-, heq⟩ := Option.ite_none_right_eq_some.mp hstep
        cases heq
        rfl
    | leave i =>
        simp only [Runs.StepOf, ThreadedBroker.step] at hstep
        split at hstep
        · cases hstep
        · obtain ⟨-, heq⟩ := Option.ite_none_right_eq_some.mp hstep
          cases heq
          rfl

/-- Whatever the threads do, in every run the broker cleans up between packets: what is seen
of the run is a run of the broker whose cleanup waits until nobody works for a connection. -/
theorem cleansUpBetweenPackets_of_isRun {retained : AList fun _ : ByteString => RetainedMessage}
    {run : List (ThreadedAction ι × ThreadedBroker ι τ)}
    (hrun : Runs.IsRun (Runs.StepOf step) (initial retained) run) :
    Runs.IsRun (Runs.StepOf ApplicationState.stepOk) (.initial retained)
        (Runs.projection ThreadedAction.visible ThreadedBroker.broker run) ∧
      Runs.last (.initial retained)
          (Runs.projection ThreadedAction.visible ThreadedBroker.broker run) =
        (Runs.last (initial retained) run).broker :=
  ⟨simulates_broker.isRun_projection (attended_initial retained) hrun,
    simulates_broker.last_projection (attended_initial retained) hrun⟩

end

/-- A connection is closed and freed; one thread has worked for it, another has not started. -/
def closeAndFree : List (ThreadedAction (Fin 2)) :=
  [.thread (.receiver 0), .thread (.receiver 0), .thread (.events 0), .broker (.newConnection [] 0),
    .serve 0 0, .broker (.receiveError 0), .broker (.proceed (.receiver 0) false),
    .broker (.proceed (.receiver 0) false), .leave 0, .broker (.execute []), .thread .suspender,
    .thread .suspender, .thread (.signal 0), .thread (.receiver 0), .thread (.receiver 0),
    .thread (.receiver 0), .thread (.receiver 0), .thread (.receiver 0), .thread (.receiver 0),
    .thread .suspender, .thread .suspender, .broker .cleanup]

theorem cleansUpBetweenPackets_closeAndFree :
    let run := Runs.runOf (@step (Fin 2) SubscriptionList _ _ .standard _) (initial ∅) closeAndFree
    (Runs.projection ThreadedAction.visible ThreadedBroker.broker run).length = 6 ∧
      Runs.IsRun (Runs.StepOf (@ApplicationState.stepOk SubscriptionList .standard _)) (.initial ∅)
        (Runs.projection ThreadedAction.visible ThreadedBroker.broker run) ∧
      Runs.last (.initial ∅) (Runs.projection ThreadedAction.visible ThreadedBroker.broker run) =
        (Runs.last (initial ∅) run).broker :=
  ⟨by decide +kernel, @cleansUpBetweenPackets_of_isRun (Fin 2) SubscriptionList _ _ .standard _ ∅ _
    (Runs.isRun_runOf (@step (Fin 2) SubscriptionList _ _ .standard _) _ _)⟩

end ThreadedBroker

end NioevMqtt
