-- SUMMARY: The steps of the threads refine the attachments: what each can do, when it succeeds, and that connections and sessions stay linked.
import NioevMqtt.Broker.Execution
import NioevMqtt.Broker.Steps
import NioevMqtt.Library.Runs

/-!
# Transitions

All that a step of the broker can do to the attachments: something quiet, the
execution of the request at the head of a queue, or a logout. With it the links
between connections and sessions are an invariant.
-/

namespace NioevMqtt

open Outcome

namespace ApplicationState

variable {τ : Type} {s t : ApplicationState τ} {client : ConnectionId}

/-! ## New connections -/

theorem view_handleNewClientConnection (s : ApplicationState τ) (remote : ByteString) (now : Nat) :
    (s.handleNewClientConnection remote now).view = s.view.newConnection := by
  simp only [handleNewClientConnection, view, View.newConnection, View.mk.injEq, true_and, and_true]
  refine ⟨?_, ?_⟩
  · exact funext fun c =>
      Function.apply_update (fun _ => MQTTClientConnection.mPersistentClientState) _ _ _ c
  · exact funext fun c => Function.apply_update (fun _ => MQTTClientConnection.mState) _ _ _ c

theorem view_setWork (s : ApplicationState τ) (thread : Thread) (work : List Work) :
    (s.setWork thread work).view = s.view.setWork thread work := rfl

theorem view_handleConnect (s : ApplicationState τ) (client : ConnectionId)
    (packet : ConnectPacket) :
    (s.handleConnect client packet).view =
      (s.view.setState client .connecting).setWork (.receiver client)
        [.request (.loginClient client packet.clientId packet.cleanSession)] := by
  simp only [handleConnect]
  rw [view_setWork, view_updateConnection_mState _ _ rfl]

/-! ## Packets -/

/-- A step that leaves some work to a thread. -/
structure LeavesWork (s : ApplicationState τ) (thread : Thread) (t : ApplicationState τ) : Prop where
  noLogin : ∃ work, View.NoLogin work ∧ t.view = s.view.setWork thread work
  mQueueInternal_eq : t.mQueueInternal = s.mQueueInternal

theorem LeavesWork.quiet {thread : Thread} (h : s.LeavesWork thread t) :
    ∃ v, s.view.Quiet v ∧ s.Reaches v t := by
  obtain ⟨work, hwork, hview⟩ := h.noLogin
  refine ⟨t.view, hview ▸ .setWork hwork, rfl, fun request hrequest => .inl ?_⟩
  rwa [← h.mQueueInternal_eq]

theorem leavesWork_setWork (s : ApplicationState τ) (thread : Thread) {work : List Work}
    (hwork : View.NoLogin work) : s.LeavesWork thread (s.setWork thread work) :=
  ⟨⟨work, hwork, rfl⟩, rfl⟩

theorem noLogin_of_noRequest {work : List Work} (h : ∀ change, Work.request change ∉ work) :
    View.NoLogin work := fun change _ => h change

theorem noLogin_cons {work : Work} {rest : List Work}
    (hwork : ∀ change, View.IsLogin change → work ≠ .request change) (hrest : View.NoLogin rest) :
    View.NoLogin (work :: rest) := by
  intro change hlogin hmem
  rcases List.mem_cons.mp hmem with heq | hold
  · exact hwork change hlogin heq.symm
  · exact hrest change hlogin hold

theorem noLogin_request {change : ChangeRequest} (hchange : ¬ View.IsLogin change) {rest : List Work}
    (hrest : View.NoLogin rest) : View.NoLogin (.request change :: rest) :=
  noLogin_cons (fun c hlogin heq => hchange (by cases heq; exact hlogin)) hrest

theorem noLogin_nil : View.NoLogin [] := fun _ _ hmem => by cases hmem

theorem leavesWork_withSession (s : ApplicationState τ) (client : ConnectionId)
    {f : PersistentClientState → PersistentClientState × List Work}
    (hcurrent : ∀ session, (f session).1.mCurrentClient = session.mCurrentClient)
    (hwork : ∀ session change, Work.request change ∉ (f session).2) :
    s.LeavesWork (.receiver client) (s.withSession client f) := by
  unfold withSession
  split
  · exact leavesWork_setWork s _ (noLogin_of_noRequest fun _ hmem => by
      cases List.mem_singleton.mp hmem)
  · next id _ =>
      refine ⟨⟨_, noLogin_of_noRequest (hwork (s.sessions id)), ?_⟩, rfl⟩
      exact congrArg (View.setWork · (.receiver client) (f (s.sessions id)).2)
        (view_updateSession_of (f := fun _ => (f (s.sessions id)).1) (hcurrent _))

variable [Libnioev]

theorem view_rejectVersion (s : ApplicationState τ) (client : ConnectionId) :
    (s.rejectVersion client).view = s.view.setState client .invalidProtocolVersion := by
  refine (view_sendData _ _ _).trans ?_
  unfold setStateAtomic
  exact view_updateConnection_mState s client rfl

theorem leavesWork_handlePacketReceived (s : ApplicationState τ) (client : ConnectionId)
    (packet : ClientPacket) :
    s.LeavesWork (.receiver client) (s.handlePacketReceived client packet) := by
  cases packet with
  | publish packet id =>
      simp only [handlePacketReceived]
      split
      · exact leavesWork_setWork s _ (noLogin_of_noRequest fun _ hmem => by simp at hmem)
      · exact leavesWork_setWork s _ (noLogin_of_noRequest fun _ hmem => by simp at hmem)
      · refine leavesWork_withSession s client (fun session => rfl) fun session change hmem => ?_
        simp only [List.mem_cons, reduceCtorEq, false_or] at hmem
        split at hmem
        · simp at hmem
        · simp at hmem
  | pubAck id =>
      simp only [handlePacketReceived]
      refine leavesWork_withSession s client (fun _ => rfl) fun _ _ hmem => ?_
      cases hmem
  | pubRel id =>
      simp only [handlePacketReceived]
      refine leavesWork_withSession s client (fun _ => rfl) fun _ _ hmem => ?_
      simp at hmem
  | pubRec id =>
      simp only [handlePacketReceived]
      refine leavesWork_withSession s client (fun _ => rfl) fun _ _ hmem => ?_
      simp at hmem
  | pubComp id =>
      simp only [handlePacketReceived]
      refine leavesWork_withSession s client (fun _ => rfl) fun _ _ hmem => ?_
      cases hmem
  | subscribe id topics complete =>
      refine leavesWork_setWork s _ (noLogin_of_noRequest fun change hmem => ?_)
      simp only [endTopics, List.mem_append, List.mem_map, reduceCtorEq, and_false, exists_false,
        List.mem_singleton, false_or] at hmem
      split at hmem
      · cases hmem
      · cases hmem
  | unsubscribe id topics complete =>
      refine leavesWork_setWork s _ (noLogin_of_noRequest fun change hmem => ?_)
      simp only [endTopics, List.mem_append, List.mem_map, reduceCtorEq, and_false, exists_false,
        List.mem_singleton, false_or] at hmem
      split at hmem
      · cases hmem
      · cases hmem
  | pingReq => exact leavesWork_setWork s _ (noLogin_of_noRequest fun _ hmem => by simp at hmem)
  | disconnect =>
      have hview : (s.updateConnection client fun conn => { conn with mWill := none }).view = s.view :=
        view_updateConnection_of rfl rfl
      refine ⟨⟨[.throws client], noLogin_of_noRequest fun _ hmem => by simp at hmem, ?_⟩, rfl⟩
      exact congrArg (View.setWork · (.receiver client) [.throws client]) hview

variable [SubscriptionTree τ]

/-! ## Work -/

omit [SubscriptionTree τ] [Libnioev] in
theorem view_requestChange (s : ApplicationState τ) (thread : Thread) (change : ChangeRequest)
    (rest : List Work) :
    ((s.setWork thread rest).requestChange ⟨change, thread⟩ false).view =
      (s.view.setWork thread rest).setQueue (s.mQueue ++ [⟨change, thread⟩]) := rfl

omit [SubscriptionTree τ] [Libnioev] in
/-- A request leaves its thread for the queue. -/
theorem enqueue_reaches {thread : Thread} {change : ChangeRequest} {rest : List Work}
    (hwork : s.work thread = .request change :: rest) :
    ∃ v, s.view.Quiet v ∧
      s.Reaches v ((s.setWork thread rest).requestChange ⟨change, thread⟩ false) := by
  exact ⟨_, .enqueue hwork, view_requestChange s thread change rest, fun _ hrequest => .inl hrequest⟩

omit [SubscriptionTree τ] [Libnioev] in
theorem retain_reaches (s : ApplicationState τ) (packet : MQTTPacket) :
    s.Reaches s.view (s.retain packet) := by
  unfold retain
  split
  · exact ⟨rfl, fun _ hrequest => .inl hrequest⟩
  · exact ⟨rfl, fun _ hrequest => .inl hrequest⟩

/-- What a piece of work hands over. -/
def workHandOffs (s : ApplicationState τ) : Work → List HandOff
  | .publish packet => s.fanOut packet
  | _ => []

omit [SubscriptionTree τ] [Libnioev] in
theorem noLogin_throws (client : ConnectionId) : View.NoLogin [Work.throws client] :=
  noLogin_of_noRequest fun _ hmem => by cases List.mem_singleton.mp hmem

theorem proceed_quiet (h : s.view.Linked) {thread : Thread} {work : Work} {rest : List Work}
    (hwork : s.work thread = work :: rest) {lockTaken : Bool}
    (hproceed : s.proceed thread lockTaken work rest = some (.ok t)) :
    ∃ v, s.view.Quiet v ∧ s.Reaches v t := by
  have hrest : View.NoLogin rest := h.noLogin_rest hwork
  cases proceeds_of_proceed hproceed with
  | @subscribeUnattached client =>
      exact (leavesWork_setWork s thread (noLogin_throws client)).quiet
  | subscribe hattached =>
      refine (leavesWork_setWork s thread (noLogin_request ?_ hrest)).quiet
      rintro ⟨_, _, _, heq⟩
      cases heq
  | @unsubscribeUnattached client =>
      exact (leavesWork_setWork s thread (noLogin_throws client)).quiet
  | unsubscribe hattached =>
      refine (leavesWork_setWork s thread (noLogin_request ?_ hrest)).quiet
      rintro ⟨_, _, _, heq⟩
      cases heq
  | @retain packet =>
      have hretained := retain_reaches (s.setWork thread rest) packet
      exact ⟨_, .setWork hrest, hretained.view_eq, hretained.internal⟩
  | request => exact enqueue_reaches hwork
  | publish hok =>
      have hpublishes := publishNoLockNoRetain_publishes hok
      refine ⟨_, .setWork ?_, hpublishes.view_eq, hpublishes.internal⟩
      split
      · refine noLogin_request ?_ hrest
        rintro ⟨_, _, _, heq⟩
        cases heq
      · exact hrest
  | @reply client packet =>
      have hsends := sends_sendData (s.setWork thread rest) client packet
      exact ⟨_, .setWork hrest, hsends.view_eq,
        fun request hrequest => .inl (hsends.mQueueInternal_eq ▸ hrequest)⟩
  | throws =>
      refine (leavesWork_setWork s thread (noLogin_request ?_ noLogin_nil)).quiet
      rintro ⟨_, _, _, heq⟩
      cases heq

theorem succeeds_proceed {thread : Thread} {work : Work} {rest : List Work} {lockTaken : Bool}
    {result : Except Fault (ApplicationState τ)}
    (hproceed : s.proceed thread lockTaken work rest = some result) :
    Succeeds result ↔ ∀ handOff ∈ s.workHandOffs work, s.Deliverable handOff := by
  have hnone : ∀ {t : ApplicationState τ}, Succeeds (.ok t : Except Fault (ApplicationState τ)) ↔
      ∀ handOff ∈ ([] : List HandOff), s.Deliverable handOff :=
    iff_of_true (succeeds_ok _) (fun _ hmem => by cases hmem)
  cases proceeds_of_proceed hproceed with
  | publish hresult =>
      rw [← hresult]
      exact succeeds_publishNoLockNoRetain
  | _ => exact hnone

/-! ## Steps -/

/-- Only retain requests wait in the internal queue. -/
def OnlyRetains (s : ApplicationState τ) : Prop :=
  ∀ request ∈ s.mQueueInternal, ∃ packet, request.change = .retain packet

omit [SubscriptionTree τ] [Libnioev] in
theorem Reaches.onlyRetains {v : View τ} (h : s.Reaches v t) (hs : s.OnlyRetains) : t.OnlyRetains :=
  fun request hrequest => (h.internal request hrequest).elim (hs request) id

/-- The invariant of the steps. -/
structure Linked (s : ApplicationState τ) : Prop where
  view : s.view.Linked
  onlyRetains : s.OnlyRetains

omit [Libnioev] in
theorem linked_initial (retained : AList fun _ : ByteString => RetainedMessage) :
    (initial retained : ApplicationState τ).Linked :=
  ⟨View.linked_initial retained, fun _ hrequest => by cases hrequest⟩

/-- All that a step can do. -/
inductive Transition (s : ApplicationState τ) : Action → ApplicationState τ → Prop
  | quiet {action t v} (haction : ∀ randomChars, action ≠ .execute randomChars)
      (hquiet : s.view.Quiet v) (hreaches : s.Reaches v t) : Transition s action t
  | logsOut {action t client v} (haction : ∀ randomChars, action ≠ .execute randomChars)
      (hout : s.view.LogsOut client v) (hreaches : s.Reaches v t) : Transition s action t
  | executes {randomChars t request queue v} (hqueue : s.mQueue = request :: queue)
      (hexecutes : (s.view.setQueue queue).Executes request.change v) (hreaches : s.Reaches v t) :
      Transition s (.execute randomChars) t

omit [Libnioev] in
theorem Linked.transition {action : Action} (h : s.Linked) (hstep : s.Transition action t) :
    t.Linked := by
  cases hstep with
  | quiet haction hquiet hreaches =>
      exact ⟨hreaches.view_eq ▸ h.view.quiet hquiet, hreaches.onlyRetains h.onlyRetains⟩
  | logsOut haction hout hreaches =>
      exact ⟨hreaches.view_eq ▸ h.view.logsOut hout, hreaches.onlyRetains h.onlyRetains⟩
  | executes hqueue hexecutes hreaches =>
      exact ⟨hreaches.view_eq ▸ h.view.executes hqueue hexecutes,
        hreaches.onlyRetains h.onlyRetains⟩

/-- The message that a thread publishes. -/
def published (s : ApplicationState τ) : Action → Option MQTTPacket
  | .proceed thread _ =>
    match s.work thread with
    | .publish packet :: _ => some packet
    | _ => none
  | _ => none

/-- What a step hands over. -/
def handOffs (s : ApplicationState τ) : Action → List HandOff
  | .proceed thread _ =>
    match s.work thread with
    | [] => []
    | work :: _ => s.workHandOffs work
  | .execute _ =>
    match s.mQueue with
    | [] => []
    | request :: _ => s.changeHandOffs request.change
  | .logoutSendError client | .timeout client _ => s.logoutHandOffs client
  | _ => []

omit [SubscriptionTree τ] [Libnioev] in
/-- The request at the head of the queue, where it is a login, finds its connection
without a session. -/
theorem Linked.freshLogin {request : Request} {queue : List Request} (h : s.Linked)
    (hqueue : s.mQueue = request :: queue) :
    FreshLogin { s with mQueue := queue } request.change := by
  intro client clientId cleanSession hchange
  refine h.view.unattached ?_
  rw [(h.view.dequeuedLogin hqueue hchange).1]
  decide

omit [SubscriptionTree τ] [Libnioev] in
theorem Linked.exists_retain {request : Request} {queue : List Request} (h : s.Linked)
    (hqueue : s.mQueueInternal = request :: queue) : ∃ packet, request.change = .retain packet :=
  h.onlyRetains request (by rw [hqueue]; exact List.mem_cons_self)

/-- The internal queue hands nothing over and changes no attachment. -/
theorem executeInternal_quiet (h : s.Linked) {request : Request} {queue : List Request}
    (hqueue : s.mQueueInternal = request :: queue) {generatedId : ByteString}
    (hok : { s with mQueueInternal := queue }.executeChangeRequest .worker generatedId
      request.change = .ok t) : s.Reaches s.view t := by
  obtain ⟨packet, hchange⟩ := h.exists_retain hqueue
  rw [hchange] at hok
  obtain ⟨v, hexecutes, hreaches⟩ := executeChangeRequest_reaches
    (s := { s with mQueueInternal := queue }) h.view.toAttached (fun _ _ _ heq => by cases heq) hok
  cases hexecutes
  refine ⟨hreaches.view_eq, fun request' hrequest => ?_⟩
  rw [hqueue]
  exact (hreaches.internal request' hrequest).imp_left (List.mem_cons_of_mem request)

theorem transition_of_step {action : Action} (h : s.Linked)
    (hstep : s.step action = some (.ok t)) : s.Transition action t := by
  have hsteps := steps_of_step hstep
  clear hstep
  cases hsteps with
  | @newConnection remote now =>
      exact .quiet (fun _ heq => by cases heq) .newConnection
        ⟨view_handleNewClientConnection s remote now, fun _ hrequest => .inl hrequest⟩
  | receiveData hclient =>
      exact .quiet (fun _ heq => by cases heq) .refl
        ⟨view_updateConnection_of rfl rfl, fun _ hrequest => .inl hrequest⟩
  | @connect client packet hclient hidle hstate =>
      exact .quiet (fun _ heq => by cases heq) (.requestLogin hclient hstate)
        ⟨view_handleConnect s client packet, fun _ hrequest => .inl hrequest⟩
  | @rejectVersion client hclient hidle hstate =>
      exact .quiet (fun _ heq => by cases heq) (.rejectVersion hclient hstate)
        ⟨view_rejectVersion s client, fun _ hrequest => .inl hrequest⟩
  | @packet client packet hclient hidle hstate =>
      obtain ⟨v, hquiet, hreaches⟩ := (leavesWork_handlePacketReceived s client packet).quiet
      exact .quiet (fun _ heq => by cases heq) hquiet hreaches
  | @receiveError client hclient hidle =>
      obtain ⟨v, hquiet, hreaches⟩ :=
        (leavesWork_setWork s (.receiver client) (noLogin_throws client)).quiet
      exact .quiet (fun _ heq => by cases heq) hquiet hreaches
  | @start id work hexternal hidle =>
      have hwork : View.NoLogin [work] := by
        refine noLogin_cons ?_ noLogin_nil
        rintro _ ⟨client, clientId, cleanSession, rfl⟩ rfl
        cases hexternal
      obtain ⟨v, hquiet, hreaches⟩ := (leavesWork_setWork s (.other id) hwork).quiet
      exact .quiet (fun _ heq => by cases heq) hquiet hreaches
  | proceed hwork hproceed =>
      obtain ⟨v, hquiet, hreaches⟩ := proceed_quiet h.view hwork hproceed
      exact .quiet (fun _ heq => by cases heq) hquiet hreaches
  | @execute _ request queue _ _ hqueue hgenerated hok =>
      have hdequeued : (view { s with mQueue := queue }).Linked := h.view.dequeue hqueue
      obtain ⟨v, hexecutes, hreaches⟩ :=
        executeChangeRequest_reaches hdequeued.toAttached (h.freshLogin hqueue) hok
      exact .executes hqueue hexecutes ⟨hreaches.view_eq, hreaches.internal⟩
  | executeInternal hqueue hok =>
      exact .quiet (fun _ heq => by cases heq) .refl (executeInternal_quiet h hqueue hok)
  | sendError hclient =>
      exact .quiet (fun _ heq => by cases heq) .refl
        ⟨view_updateConnection_of rfl rfl, fun _ hrequest => .inl hrequest⟩
  | logoutSendError hclient hok =>
      obtain ⟨v, hout, hreaches⟩ := logoutClient_reaches h.view.toAttached hok
      exact .logsOut (fun _ heq => by cases heq) hout hreaches
  | timeout hclient htimedOut hok =>
      obtain ⟨v, hout, hreaches⟩ := logoutClient_reaches h.view.toAttached hok
      exact .logsOut (fun _ heq => by cases heq) hout hreaches
  | cleanup hidle =>
      have hsub : s.eraseDisconnected.mClients ⊆ s.mClients := List.filter_subset_self _
      exact .quiet (fun _ heq => by cases heq) (.setClients hsub)
        ⟨rfl, fun _ hrequest => .inl hrequest⟩

theorem succeeds_step {action : Action} {result : Except Fault (ApplicationState τ)} (h : s.Linked)
    (hstep : s.step action = some result) :
    Succeeds result ↔ ∀ handOff ∈ s.handOffs action, s.Deliverable handOff := by
  have hnone : ∀ {t : ApplicationState τ}, Succeeds (.ok t : Except Fault (ApplicationState τ)) ↔
      ∀ handOff ∈ ([] : List HandOff), s.Deliverable handOff :=
    iff_of_true (succeeds_ok _) (fun _ hmem => by cases hmem)
  have hsteps := steps_of_step hstep
  clear hstep
  cases hsteps with
  | proceed hwork hproceed =>
      simp only [handOffs, hwork]
      exact succeeds_proceed hproceed
  | @execute _ request queue _ _ hqueue hgenerated hresult =>
      have hdequeued : (view { s with mQueue := queue }).Linked := h.view.dequeue hqueue
      simp only [handOffs, hqueue]
      rw [← hresult, succeeds_executeChangeRequest hdequeued.toAttached (h.freshLogin hqueue)]
      rfl
  | executeInternal hqueue hresult =>
      obtain ⟨packet, hchange⟩ := h.exists_retain hqueue
      rw [hchange] at hresult
      cases hresult
      exact hnone
  | logoutSendError hclient hresult =>
      rw [← hresult]
      exact succeeds_logoutClient h.view.toAttached
  | timeout hclient htimedOut hresult =>
      rw [← hresult]
      exact succeeds_logoutClient h.view.toAttached
  | _ => exact hnone

/-! ## Steps that do not fault -/

/-- A step that does not fault. -/
def stepOk (s : ApplicationState τ) (action : Action) : Option (ApplicationState τ) :=
  match s.step action with
  | some (.ok t) => some t
  | _ => none

theorem step_of_stepOk {action : Action} (h : s.stepOk action = some t) :
    s.step action = some (.ok t) := by
  unfold stepOk at h
  split at h
  · next hstep =>
      cases h
      exact hstep
  · cases h

theorem linked_stepOk {action : Action} (h : s.Linked) (hstep : s.stepOk action = some t) :
    t.Linked :=
  h.transition (transition_of_step h (step_of_stepOk hstep))

end ApplicationState

end NioevMqtt
