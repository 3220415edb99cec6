-- SUMMARY: Which messages the operations of the broker hand to which subscribers, when that succeeds, and what it leaves alone.
import NioevMqtt.Broker.Attachment
import NioevMqtt.Library.Outcome

/-!
# Publishing

A message that is published, a will and the retained messages on a subscription
are handed to subscribers one after another. Handing them over changes no
attachment. It succeeds if none is handed at QoS 0 to a session without a
connection.
-/

namespace NioevMqtt

open Outcome

namespace ApplicationState

variable {τ : Type}

/-! ## Updates and the view -/

theorem view_updateConnection (s : ApplicationState τ) (client : ConnectionId)
    (f : MQTTClientConnection → MQTTClientConnection) :
    (s.updateConnection client f).view =
      { s.view with
        attached := Function.update s.view.attached client
          (f (s.connections client)).mPersistentClientState
        mState := Function.update s.view.mState client (f (s.connections client)).mState } := by
  simp only [view, updateConnection, View.mk.injEq, and_true]
  refine ⟨?_, trivial, ?_⟩
  · exact funext fun c =>
      Function.apply_update (fun _ => MQTTClientConnection.mPersistentClientState) _ _ _ c
  · exact funext fun c => Function.apply_update (fun _ => MQTTClientConnection.mState) _ _ _ c

theorem view_updateSession (s : ApplicationState τ) (session : SessionId)
    (f : PersistentClientState → PersistentClientState) :
    (s.updateSession session f).view =
      { s.view with
        currentClient := Function.update s.view.currentClient session
          (f (s.sessions session)).mCurrentClient } := by
  simp only [view, updateSession, View.mk.injEq, true_and, and_true]
  exact funext fun c => Function.apply_update (fun _ => PersistentClientState.mCurrentClient) _ _ _ c

/-- An update of a connection that leaves its attachment and its state. -/
theorem view_updateConnection_of {s : ApplicationState τ} {client : ConnectionId}
    {f : MQTTClientConnection → MQTTClientConnection}
    (hattached : (f (s.connections client)).mPersistentClientState =
      (s.connections client).mPersistentClientState)
    (hstate : (f (s.connections client)).mState = (s.connections client).mState) :
    (s.updateConnection client f).view = s.view := by
  rw [view_updateConnection, hattached, hstate]
  exact congrArg₂ (fun attached mState => { s.view with attached := attached, mState := mState })
    (Function.update_eq_self client s.view.attached) (Function.update_eq_self client s.view.mState)

/-- An update of a session that leaves its connection. -/
theorem view_updateSession_of {s : ApplicationState τ} {session : SessionId}
    {f : PersistentClientState → PersistentClientState}
    (h : (f (s.sessions session)).mCurrentClient = (s.sessions session).mCurrentClient) :
    (s.updateSession session f).view = s.view := by
  rw [view_updateSession, h]
  exact congrArg (fun currentClient => { s.view with currentClient := currentClient })
    (Function.update_eq_self session s.view.currentClient)

@[simp] theorem view_sendData (s : ApplicationState τ) (client : ConnectionId)
    (packet : EncodedPacket) : (s.sendData client packet).view = s.view :=
  view_updateConnection_of rfl rfl

/-! ## Handing over -/

/-- A message on its way to a subscriber, at the quality of service it is sent with. -/
abbrev HandOff := Subscriber × QoS

/-- No null pointer is followed for it. -/
def Deliverable (s : ApplicationState τ) (handOff : HandOff) : Prop :=
  ∀ session, handOff = (.session session, .qos0) → s.view.currentClient session ≠ none

/-- What handing over messages leaves alone, and what it may have added. -/
structure Publishes (s t : ApplicationState τ) : Prop where
  view_eq : t.view = s.view
  mRetainedMessages_eq : t.mRetainedMessages = s.mRetainedMessages
  internal : ∀ request ∈ t.mQueueInternal,
    request ∈ s.mQueueInternal ∨ ∃ packet, request.change = .retain packet

theorem Publishes.refl (s : ApplicationState τ) : Publishes s s :=
  ⟨rfl, rfl, fun _ hrequest => .inl hrequest⟩

theorem Publishes.trans {s t u : ApplicationState τ} (h : Publishes s t) (h' : Publishes t u) :
    Publishes s u where
  view_eq := h'.view_eq.trans h.view_eq
  mRetainedMessages_eq := h'.mRetainedMessages_eq.trans h.mRetainedMessages_eq
  internal := fun request hrequest => (h'.internal request hrequest).elim (h.internal request) .inr

theorem Publishes.deliverable_iff {s t : ApplicationState τ} (h : Publishes s t)
    (handOff : HandOff) : t.Deliverable handOff ↔ s.Deliverable handOff := by
  unfold Deliverable
  rw [h.view_eq]

theorem Publishes.forall_deliverable_iff {s t : ApplicationState τ} (h : Publishes s t)
    (handOffs : List HandOff) :
    (∀ handOff ∈ handOffs, t.Deliverable handOff) ↔ ∀ handOff ∈ handOffs, s.Deliverable handOff :=
  forall₂_congr fun handOff _ => h.deliverable_iff handOff

variable [Libnioev] {s t : ApplicationState τ}

theorem sendPublish_publishes {sub : Subscriber} {topic : ByteString} {payload : List UInt8}
    {qos : QoS} {retained : Retained} {properties : PropertyList}
    (h : s.sendPublish sub topic payload qos retained properties = .ok t) : Publishes s t := by
  cases sub with
  | other id =>
      cases h
      exact .refl s
  | session id =>
      obtain ⟨published, hpublished, hsent⟩ := bind_eq_ok h
      have hcurrent : published.session.mCurrentClient = (s.sessions id).mCurrentClient := by
        by_cases hqos : qos = .qos0
        · subst hqos
          rw [(PersistentClientState.publish_qos0 hpublished).1]
        · rw [(PersistentClientState.publish_highQoS hqos hpublished).1]
          rfl
      have hview : (s.updateSession id fun _ => published.session).view = s.view :=
        view_updateSession_of hcurrent
      cases hclient : published.sent with
      | none =>
          rw [hclient] at hsent
          cases hsent
          exact ⟨hview, rfl, fun _ hrequest => .inl hrequest⟩
      | some sent =>
          rw [hclient] at hsent
          cases hsent
          exact ⟨(view_sendData _ _ _).trans hview, rfl, fun _ hrequest => .inl hrequest⟩

theorem succeeds_sendPublish {sub : Subscriber} {topic : ByteString} {payload : List UInt8}
    {qos : QoS} {retained : Retained} {properties : PropertyList} :
    Succeeds (s.sendPublish sub topic payload qos retained properties) ↔
      s.Deliverable (sub, qos) := by
  cases sub with
  | other id => exact iff_of_true (succeeds_ok s) (fun session h => by cases h)
  | session id =>
      unfold sendPublish
      rw [succeeds_bind_of_succeeds]
      · refine (PersistentClientState.publish_isOk_iff _ _ _ _ _).trans ?_
        constructor
        · rintro h session heq
          cases heq
          exact h rfl
        · rintro h rfl
          exact h id rfl
      · intro published _
        simp only
        split
        · exact succeeds_pure _
        · exact succeeds_pure _

/-! ## Published messages -/

/-- Whom the callbacks of `publishNoLockNoRetain` hand the message to: every
subscriber once, for the first of its subscriptions. -/
def recipients (publishQoS : QoS) : List Subscriber → List Subscription → List HandOff
  | _, [] => []
  | subs, sub :: subscriptions =>
    if sub.subscriber ∈ subs then recipients publishQoS subs subscriptions
    else
      (sub.subscriber, minQoS sub.qos publishQoS) ::
        recipients publishQoS (sub.subscriber :: subs) subscriptions

section

variable {topic : ByteString} {msg : List UInt8} {publishQoS : QoS} {properties : PropertyList}
  {subs : List Subscriber} {subscriptions : List Subscription}

theorem publishToMatches_publishes
    (h : publishToMatches topic msg publishQoS properties s subs subscriptions = .ok t) :
    Publishes s t := by
  induction subscriptions generalizing s subs with
  | nil =>
      cases h
      exact .refl _
  | cons sub subscriptions ih =>
      unfold publishToMatches at h
      split at h
      · exact ih h
      · obtain ⟨u, hsent, hrest⟩ := bind_eq_ok h
        exact (sendPublish_publishes hsent).trans (ih hrest)

theorem succeeds_publishToMatches :
    Succeeds (publishToMatches topic msg publishQoS properties s subs subscriptions) ↔
      ∀ handOff ∈ recipients publishQoS subs subscriptions, s.Deliverable handOff := by
  induction subscriptions generalizing s subs with
  | nil => exact iff_of_true (succeeds_ok _) (fun _ h => by cases h)
  | cons sub subscriptions ih =>
      unfold publishToMatches recipients
      split
      · exact ih
      · rw [List.forall_mem_cons, ← succeeds_sendPublish]
        apply succeeds_bind_iff
        exact fun u hsent => ih.trans ((sendPublish_publishes hsent).forall_deliverable_iff _)

end

variable [SubscriptionTree τ] {packet : MQTTPacket}

/-- Whom a published message is handed to. -/
def fanOut (s : ApplicationState τ) (packet : MQTTPacket) : List HandOff :=
  recipients packet.qos [] (SubscriptionTree.everyMatch s.mSubscriptions packet.topic)

theorem publishNoLockNoRetain_publishes (h : s.publishNoLockNoRetain packet = .ok t) :
    Publishes s t :=
  publishToMatches_publishes h

theorem succeeds_publishNoLockNoRetain :
    Succeeds (s.publishNoLockNoRetain packet) ↔
      ∀ handOff ∈ s.fanOut packet, s.Deliverable handOff :=
  succeeds_publishToMatches

theorem publishInternal_publishes {thread : Thread} (h : s.publishInternal thread packet = .ok t) :
    Publishes s t := by
  obtain ⟨u, hpublished, hretain⟩ := bind_eq_ok h
  have hnoted : Publishes s (s.notePublished packet) :=
    ⟨rfl, rfl, fun _ hrequest => .inl hrequest⟩
  have hfirst := hnoted.trans (publishNoLockNoRetain_publishes hpublished)
  split at hretain
  · cases hretain
    refine hfirst.trans ⟨rfl, rfl, fun request hrequest => ?_⟩
    rcases List.mem_append.mp hrequest with hold | hnew
    · exact .inl hold
    · exact .inr ⟨packet, by rw [List.mem_singleton.mp hnew]⟩
  · cases hretain
    exact hfirst

theorem succeeds_publishInternal {thread : Thread} :
    Succeeds (s.publishInternal thread packet) ↔
      ∀ handOff ∈ s.fanOut packet, s.Deliverable handOff := by
  unfold publishInternal
  rw [succeeds_bind_of_succeeds]
  · exact succeeds_publishNoLockNoRetain
  · intro u _
    split
    · exact succeeds_pure _
    · exact succeeds_pure _

/-! ## Retained messages -/

/-- What a subscription is handed of the retained messages, once it is stored. -/
def retainedHandOffs (tree : τ) (sub : Subscription)
    (messages : List (Sigma fun _ : ByteString => RetainedMessage)) : List HandOff :=
  messages.flatMap fun message =>
    ((SubscriptionTree.everyMatch tree message.1).filter (sub.same ·)).map
      fun _ => (sub.subscriber, minQoS message.2.qos sub.qos)

section

variable {sub : Subscription} {topic : ByteString} {message : RetainedMessage}
  {subscriptions : List Subscription}
  {messages : List (Sigma fun _ : ByteString => RetainedMessage)}

omit [SubscriptionTree τ] in
theorem sendRetained_publishes (h : sendRetained sub topic message s subscriptions = .ok t) :
    Publishes s t := by
  induction subscriptions generalizing s with
  | nil =>
      cases h
      exact .refl _
  | cons matchedSub subscriptions ih =>
      unfold sendRetained at h
      split at h
      · obtain ⟨u, hsent, hrest⟩ := bind_eq_ok h
        exact (sendPublish_publishes hsent).trans (ih hrest)
      · exact ih h

omit [SubscriptionTree τ] in
theorem succeeds_sendRetained :
    Succeeds (sendRetained sub topic message s subscriptions) ↔
      ∀ handOff ∈ (subscriptions.filter (sub.same ·)).map
        (fun _ => (sub.subscriber, minQoS message.qos sub.qos)), s.Deliverable handOff := by
  induction subscriptions generalizing s with
  | nil => exact iff_of_true (succeeds_ok _) (fun _ h => by cases h)
  | cons matchedSub subscriptions ih =>
      unfold sendRetained
      split
      · next hsame =>
          rw [List.filter_cons, if_pos (decide_eq_true hsame), List.map_cons, List.forall_mem_cons,
            ← succeeds_sendPublish]
          apply succeeds_bind_iff
          exact fun u hsent => ih.trans ((sendPublish_publishes hsent).forall_deliverable_iff _)
      · next hother =>
          rw [List.filter_cons, if_neg (by rwa [decide_eq_true_iff])]
          exact ih

theorem sendAllRetained_publishes (h : sendAllRetained sub s messages = .ok t) : Publishes s t := by
  induction messages generalizing s with
  | nil =>
      cases h
      exact .refl _
  | cons message messages ih =>
      obtain ⟨u, hsent, hrest⟩ := bind_eq_ok h
      exact (sendRetained_publishes hsent).trans (ih hrest)

theorem succeeds_sendAllRetained :
    Succeeds (sendAllRetained sub s messages) ↔
      ∀ handOff ∈ retainedHandOffs s.mSubscriptions sub messages, s.Deliverable handOff := by
  induction messages generalizing s with
  | nil => exact iff_of_true (succeeds_ok _) (fun _ h => by cases h)
  | cons message messages ih =>
      unfold sendAllRetained retainedHandOffs
      rw [List.flatMap_cons, List.forall_mem_append, ← succeeds_sendRetained]
      apply succeeds_bind_iff
      intro u hsent
      have hpublishes := sendRetained_publishes hsent
      have htree : u.mSubscriptions = s.mSubscriptions :=
        congrArg View.mSubscriptions hpublishes.view_eq
      rw [ih, htree]
      exact hpublishes.forall_deliverable_iff _

end

variable {subscriber : Subscriber} {topic : ByteString} {qos : QoS}

/-- What an executed subscription hands over. -/
def subscribeHandOffs (s : ApplicationState τ) (subscriber : Subscriber) (topic : ByteString)
    (qos : QoS) : List HandOff :=
  retainedHandOffs (SubscriptionTree.addSubscription s.mSubscriptions topic ⟨subscriber, qos⟩)
    ⟨subscriber, qos⟩ s.mRetainedMessages.entries

theorem subscribeClientInternal_publishes
    (h : s.subscribeClientInternal subscriber topic qos = .ok t) :
    Publishes { s with
      mSubscriptions :=
        SubscriptionTree.addSubscription s.mSubscriptions topic ⟨subscriber, qos⟩ } t :=
  sendAllRetained_publishes h

theorem succeeds_subscribeClientInternal :
    Succeeds (s.subscribeClientInternal subscriber topic qos) ↔
      ∀ handOff ∈ s.subscribeHandOffs subscriber topic qos, s.Deliverable handOff :=
  succeeds_sendAllRetained

end ApplicationState

end NioevMqtt
