-- SUMMARY: The messages a step hands to sessions, and that besides them, acknowledgements and clean logins nothing changes what the sessions have to send.
import NioevMqtt.Broker.Outbox
import NioevMqtt.Broker.PublishedWills

/-!
# What sessions have to send

A step changes the tables of sessions by handing messages over, by an acknowledgement
or by a login that starts a session clean. The deliveries of a step are made one after
another, and each stores its message under an identifier of its own.
-/

namespace NioevMqtt

open Outcome

namespace ApplicationState

variable {τ : Type} {s t u : ApplicationState τ} {client : ConnectionId} {session : SessionId}
  {action : Action}

/-- The tables of the sessions. -/
def outgoing (s : ApplicationState τ) : SessionId → Outgoing := fun session =>
  (s.sessions session).outgoing

/-- Nothing the sessions have to send changes. -/
structure KeepsOutgoing (s t : ApplicationState τ) : Prop where
  outgoing_eq : t.outgoing = s.outgoing
  globalOrderCounter_eq : t.globalOrderCounter = s.globalOrderCounter

theorem KeepsOutgoing.refl (s : ApplicationState τ) : s.KeepsOutgoing s := ⟨rfl, rfl⟩

theorem KeepsOutgoing.trans (h : s.KeepsOutgoing t) (h' : t.KeepsOutgoing u) : s.KeepsOutgoing u :=
  ⟨h'.outgoing_eq.trans h.outgoing_eq, h'.globalOrderCounter_eq.trans h.globalOrderCounter_eq⟩

/-! ## Updates -/

theorem outgoing_updateSession (s : ApplicationState τ) (session : SessionId)
    (f : PersistentClientState → PersistentClientState) :
    (s.updateSession session f).outgoing =
      Function.update s.outgoing session (f (s.sessions session)).outgoing :=
  funext fun id => Function.apply_update (fun _ => PersistentClientState.outgoing) _ _ _ id

theorem keepsOutgoing_updateSession {f : PersistentClientState → PersistentClientState}
    (h : (f (s.sessions session)).outgoing = (s.sessions session).outgoing) :
    s.KeepsOutgoing (s.updateSession session f) := by
  refine ⟨?_, rfl⟩
  rw [outgoing_updateSession, h]
  exact Function.update_eq_self session s.outgoing

theorem keepsOutgoing_foldl_sendData {α : Type} (packet : α → EncodedPacket) (l : List α)
    (client : ConnectionId) (s : ApplicationState τ) :
    s.KeepsOutgoing (l.foldl (fun s a => s.sendData client (packet a)) s) := by
  induction l generalizing s with
  | nil => exact .refl s
  | cons a l ih =>
      have hfirst : s.KeepsOutgoing (s.sendData client (packet a)) := ⟨rfl, rfl⟩
      exact hfirst.trans (ih _)

theorem keepsOutgoing_requestChange (s : ApplicationState τ) (request : Request) (holdsLock : Bool) :
    s.KeepsOutgoing (s.requestChange request holdsLock) := by
  unfold requestChange
  simp only
  split
  · exact ⟨rfl, rfl⟩
  · exact ⟨rfl, rfl⟩

theorem keepsOutgoing_retain (s : ApplicationState τ) (packet : MQTTPacket) :
    s.KeepsOutgoing (s.retain packet) := by
  unfold retain
  split
  · exact ⟨rfl, rfl⟩
  · exact ⟨rfl, rfl⟩

theorem keepsOutgoing_dropCurrentClient (h : s.dropCurrentClient session = .ok t) :
    s.KeepsOutgoing t := by
  obtain ⟨⟨client, dropped⟩, hdrop, hset⟩ := bind_eq_ok h
  cases hset
  have hsame : dropped.outgoing = (s.sessions session).outgoing := by
    unfold PersistentClientState.dropCurrentClient at hdrop
    split at hdrop
    · cases hdrop
    · cases hdrop
      rfl
  have hdetached : s.KeepsOutgoing (s.setPersistentClientState client none) := ⟨rfl, rfl⟩
  exact hdetached.trans (keepsOutgoing_updateSession (f := fun _ => dropped) hsame)

theorem keepsOutgoing_deleteCleanSession [SubscriptionTree τ] (s : ApplicationState τ)
    (session : SessionId) : s.KeepsOutgoing (s.deleteCleanSession session) := by
  unfold deleteCleanSession
  split
  · split
    · exact .refl s
    · exact ⟨rfl, rfl⟩
  · exact .refl s

/-- A session that is taken over is emptied, or left as it is. -/
theorem outgoing_replaceCurrentClient (s : ApplicationState τ) (session : SessionId)
    (client : ConnectionId) (cleanSession : CleanSession) (style : ReplaceStyle) :
    (s.replaceCurrentClient session client cleanSession style).outgoing =
        (if style = .cleanSession then Function.update s.outgoing session ⟨∅, ∅⟩ else s.outgoing) ∧
      (s.replaceCurrentClient session client cleanSession style).globalOrderCounter =
        s.globalOrderCounter := by
  have hreplaced : ∀ v : ApplicationState τ, v.outgoing = s.outgoing →
      v.sessions session = s.sessions session →
      (v.updateSession session (·.replaceCurrentClient client cleanSession style)).outgoing =
        if style = .cleanSession then Function.update s.outgoing session ⟨∅, ∅⟩ else s.outgoing := by
    intro v hv hsession
    rw [outgoing_updateSession, hv, hsession]
    cases style with
    | simpleReplace => exact Function.update_eq_self session s.outgoing
    | cleanSession => rfl
  simp only [replaceCurrentClient]
  split
  · exact ⟨hreplaced _ rfl rfl, rfl⟩
  · exact ⟨hreplaced s rfl rfl, rfl⟩

/-! ## Messages -/

section

variable [Libnioev]

/-- The message a delivery hands to a session, with the identifier it gets. -/
def handed (s : ApplicationState τ) (d : Delivery) :
    Option (SessionId × UInt16 × HighQoSRetainStorage) :=
  match d.subscriber with
  | .other _ => none
  | .session id =>
    if d.qos = .qos0 then none
    else
      some (id, PersistentClientState.nextPacketId (s.sessions id).mPacketIdCounter,
        (s.sessions id).nextStorage (fun client => (s.connections client).mMQTTVersion)
          s.globalOrderCounter d.qos
          { mTopic := d.topic, mPayload := d.payload, mRetained := d.retained,
            mProperties := d.properties })

/-- The messages of many deliveries, made one after another. -/
def handedAll : ApplicationState τ → List Delivery →
    List (SessionId × UInt16 × HighQoSRetainStorage)
  | _, [] => []
  | s, d :: deliveries =>
    (s.handed d).toList ++
      match s.deliver d with
      | .error _ => []
      | .ok t => handedAll t deliveries

/-- What a session publishes is all that changes. -/
theorem outgoing_sendPublish {topic : ByteString} {payload : List UInt8} {qos : QoS}
    {retained : Retained} {properties : PropertyList}
    (h : s.sendPublish (.session session) topic payload qos retained properties = .ok t) :
    ∃ published, (s.sessions session).publish (fun client => (s.connections client).mMQTTVersion)
        s.globalOrderCounter qos
        { mTopic := topic, mPayload := payload, mRetained := retained, mProperties := properties } =
          .ok published ∧
      t.outgoing = Function.update s.outgoing session published.session.outgoing ∧
      t.globalOrderCounter = published.globalOrderCounter := by
  obtain ⟨published, hpublished, hsent⟩ := bind_eq_ok h
  have hstored := outgoing_updateSession s session fun _ => published.session
  refine ⟨published, hpublished, ?_⟩
  cases hclient : published.sent with
  | none =>
      rw [hclient] at hsent
      cases hsent
      exact ⟨hstored, rfl⟩
  | some sent =>
      rw [hclient] at hsent
      cases hsent
      exact ⟨hstored, rfl⟩

theorem keepsOutgoing_deliver {d : Delivery} (h : s.deliver d = .ok t) (hnone : s.handed d = none) :
    s.KeepsOutgoing t := by
  obtain ⟨subscriber, topic, payload, qos, retained, properties⟩ := d
  cases subscriber with
  | other id =>
      cases h
      exact .refl s
  | session id =>
      obtain ⟨published, hpublished, houtgoing, hcounter⟩ := outgoing_sendPublish h
      simp only [handed, ite_eq_left_iff, reduceCtorEq, imp_false, not_not] at hnone
      subst hnone
      obtain ⟨hsession, hsame⟩ := PersistentClientState.publish_qos0 hpublished
      refine ⟨houtgoing.trans ?_, hcounter.trans hsame⟩
      rw [hsession]
      exact Function.update_eq_self id s.outgoing

/-- A delivery stores the message it hands over. -/
theorem stores_deliver {d : Delivery} (h : s.deliver d = .ok t) {id : UInt16}
    {storage : HighQoSRetainStorage} (hsome : s.handed d = some (session, id, storage)) :
    t.outgoing = Function.update s.outgoing session { s.outgoing session with
        packets := (s.outgoing session).packets.emplace id storage } ∧
      t.globalOrderCounter = s.globalOrderCounter + 1 ∧
      storage.mGlobalOrderCount = s.globalOrderCounter ∧ storage.mQoS ≠ .qos0 := by
  obtain ⟨subscriber, topic, payload, qos, retained, properties⟩ := d
  cases subscriber with
  | other id => cases hsome
  | session id =>
      obtain ⟨published, hpublished, houtgoing, hcounter⟩ := outgoing_sendPublish h
      simp only [handed, Option.ite_none_left_eq_some, Option.some.injEq] at hsome
      obtain ⟨hqos, heq⟩ := hsome
      cases heq
      obtain ⟨hsession, hnext⟩ := PersistentClientState.publish_highQoS hqos hpublished
      refine ⟨houtgoing.trans ?_, hcounter.trans hnext, rfl, hqos⟩
      rw [hsession]
      rfl

end

/-! ## The deliveries of a step -/

section

variable [Libnioev] [SubscriptionTree τ]

/-- The deliveries of a logout, and the state the first one is made in. -/
def logoutDeliveries (s : ApplicationState τ) (client : ConnectionId) :
    ApplicationState τ × List Delivery :=
  match s.logoutWill client with
  | none => (s.markLoggedOut client, [])
  | some willMsg =>
    ((s.markLoggedOut client).notePublished willMsg,
      (s.fanOut willMsg).map (publishedDelivery willMsg))

/-- Those of a change request that is executed. -/
def changeDeliveries (s : ApplicationState τ) : ChangeRequest → ApplicationState τ × List Delivery
  | .subscribe subscriber topic qos _ =>
    ({ s with
        mSubscriptions := SubscriptionTree.addSubscription s.mSubscriptions topic ⟨subscriber, qos⟩ },
      s.subscribeDeliveries topic ⟨subscriber, qos⟩)
  | .logoutClient client => s.logoutDeliveries client
  | _ => (s, [])

/-- The deliveries of a step, and the state the first one is made in. -/
def deliveries (s : ApplicationState τ) : Action → ApplicationState τ × List Delivery
  | .proceed thread _ =>
    match s.work thread with
    | .publish packet :: rest =>
      (s.setWork thread
          (if packet.retain = .yes then .request (.retain packet) :: rest else rest),
        (s.fanOut packet).map (publishedDelivery packet))
    | _ => (s, [])
  | .execute _ =>
    match s.mQueue with
    | [] => (s, [])
    | request :: mQueue => { s with mQueue := mQueue }.changeDeliveries request.change
  | .logoutSendError client | .timeout client _ => s.logoutDeliveries client
  | _ => (s, [])

/-- What a step does to the tables of the sessions are its deliveries. -/
def Delivers (s : ApplicationState τ) (made : ApplicationState τ × List Delivery)
    (t : ApplicationState τ) : Prop :=
  s.KeepsOutgoing made.1 ∧ ∃ u, made.2.foldlM deliver made.1 = .ok u ∧ u.KeepsOutgoing t

omit [SubscriptionTree τ] in
theorem delivers_nothing (h : s.KeepsOutgoing t) : s.Delivers (s, []) t := ⟨.refl s, s, rfl, h⟩

theorem publishNoLockNoRetain_eq (s : ApplicationState τ) (packet : MQTTPacket) :
    s.publishNoLockNoRetain packet =
      ((s.fanOut packet).map (publishedDelivery packet)).foldlM deliver s :=
  publishToMatches_eq packet [] _ s

theorem delivers_logoutClient {thread : Thread} (h : s.logoutClient thread client = .ok t) :
    s.Delivers (s.logoutDeliveries client) t := by
  rw [logoutClient_eq] at h
  unfold logoutDeliveries
  split at h
  · next hout =>
      cases h
      have hnone : s.logoutWill client = none := if_pos (.inl hout)
      rw [hnone]
      exact ⟨⟨rfl, rfl⟩, s.markLoggedOut client, rfl, rfl, rfl⟩
  · obtain ⟨v, hwill, hrest⟩ := bind_eq_ok h
    -- The session is dropped after the will has been published.
    have hdropped : v.KeepsOutgoing t := by
      split at hrest
      · cases hrest
        exact .refl _
      · obtain ⟨w, hdrop, hdelete⟩ := bind_eq_ok hrest
        cases hdelete
        exact (keepsOutgoing_dropCurrentClient hdrop).trans (keepsOutgoing_deleteCleanSession w _)
    cases hlogout : s.logoutWill client with
    | none =>
        rw [hlogout] at hwill
        cases hwill
        exact ⟨⟨rfl, rfl⟩, _, rfl, hdropped⟩
    | some willMsg =>
        rw [hlogout] at hwill
        obtain ⟨w, hpublished, hretain⟩ := bind_eq_ok hwill
        rw [publishNoLockNoRetain_eq] at hpublished
        refine ⟨⟨rfl, rfl⟩, w, hpublished, KeepsOutgoing.trans ?_ hdropped⟩
        -- A will that is to be retained is queued.
        split at hretain
        · cases hretain
          exact keepsOutgoing_requestChange w _ _
        · cases hretain
          exact .refl _

/-- The deliveries of an executed request that is no login. -/
theorem delivers_executeChangeRequest {thread : Thread} {generatedId : ByteString}
    {change : ChangeRequest} (hlogin : ∀ client clientId cleanSession,
      change = .loginClient client clientId cleanSession → (s.connections client).mLoggedOut = true)
    (h : s.executeChangeRequest thread generatedId change = .ok t) :
    s.Delivers (s.changeDeliveries change) t := by
  have hvisit := (executeChangeRequest_eq s thread generatedId _).symm.trans h
  have hkept : s.KeepsOutgoing t → s.Delivers (s, []) t := delivers_nothing
  cases change with
  | subscribe subscriber topic qos type =>
      simp only [visit, subscribeClientInternal] at hvisit
      rw [sendAllRetained_eq] at hvisit
      exact ⟨⟨rfl, rfl⟩, t, hvisit, .refl t⟩
  | logoutClient client => exact delivers_logoutClient hvisit
  | loginClient client clientId cleanSession =>
      simp only [visit, loginClient] at hvisit
      rw [if_pos (hlogin client clientId cleanSession rfl)] at hvisit
      cases hvisit
      exact hkept (.refl s)
  | retain packet =>
      cases hvisit
      exact hkept (keepsOutgoing_retain s packet)
  | unsubscribe subscriber topic =>
      cases hvisit
      exact hkept ⟨rfl, rfl⟩
  | unsubscribeFromAll subscriber =>
      cases hvisit
      exact hkept ⟨rfl, rfl⟩
  | deleteScript script =>
      cases hvisit
      exact hkept ⟨rfl, rfl⟩

theorem delivers_proceed {thread : Thread} {lockTaken : Bool} {work : Work} {rest : List Work}
    (hwork : s.work thread = work :: rest)
    (h : s.proceed thread lockTaken work rest = some (.ok t)) :
    s.Delivers (s.deliveries (.proceed thread lockTaken)) t := by
  have hset : s.KeepsOutgoing (s.setWork thread rest) := ⟨rfl, rfl⟩
  simp only [deliveries, hwork]
  cases proceeds_of_proceed h with
  | publish hok =>
      rw [publishNoLockNoRetain_eq] at hok
      exact ⟨⟨rfl, rfl⟩, t, hok, .refl t⟩
  | retain => exact delivers_nothing (hset.trans (keepsOutgoing_retain _ _))
  | request => exact delivers_nothing (hset.trans (keepsOutgoing_requestChange _ _ _))
  | _ => exact delivers_nothing ⟨rfl, rfl⟩

/-- Where no packet is handled and no login executed, the deliveries are all that
happens to the tables. -/
theorem delivers_step (h : s.Linked) (hpacket : ∀ client packet, action ≠ .packet client packet)
    (hlogin : s.executedLogin action = none) (hstep : s.step action = some (.ok t)) :
    s.Delivers (s.deliveries action) t := by
  have hsteps := steps_of_step hstep
  clear hstep
  cases hsteps with
  | packet => exact absurd rfl (hpacket _ _)
  | proceed hwork hok => exact delivers_proceed hwork hok
  | @execute randomChars request mQueue generatedId _ hqueue hgenerated hok =>
      have hout : ∀ client clientId cleanSession,
          request.change = .loginClient client clientId cleanSession →
            (s.connections client).mLoggedOut = true :=
        fun _ _ _ hchange => mLoggedOut_of_noLogin hqueue hgenerated hlogin hchange
      obtain ⟨hbase, hmade⟩ := delivers_executeChangeRequest
        (s := { s with mQueue := mQueue }) hout hok
      simp only [deliveries, hqueue]
      have hdequeued : s.KeepsOutgoing { s with mQueue := mQueue } := ⟨rfl, rfl⟩
      exact ⟨hdequeued.trans hbase, hmade⟩
  | @executeInternal _ request mQueueInternal _ _ hqueue hok =>
      obtain ⟨packet, hchange⟩ := h.exists_retain hqueue
      rw [hchange] at hok
      obtain ⟨hbase, u, hu, hv⟩ := delivers_executeChangeRequest
        (s := { s with mQueueInternal := mQueueInternal }) (fun _ _ _ heq => by cases heq) hok
      cases hu
      exact delivers_nothing ⟨hv.outgoing_eq, hv.globalOrderCounter_eq⟩
  | logoutSendError hclient hok => exact delivers_logoutClient hok
  | timeout hclient htimedOut hok => exact delivers_logoutClient hok
  | _ => exact delivers_nothing ⟨rfl, rfl⟩

end

/-! ## What a step publishes -/

theorem mSubscriptions_replaceCurrentClient (s : ApplicationState τ) (session : SessionId)
    (client : ConnectionId) (cleanSession : CleanSession) (style : ReplaceStyle) :
    (s.replaceCurrentClient session client cleanSession style).mSubscriptions =
      s.mSubscriptions := by
  unfold replaceCurrentClient
  split
  · rfl
  · rfl

/-- A will is published with the subscriptions there are before the step. -/
theorem mSubscriptions_of_mem_logouts {call : ApplicationState τ × ConnectionId}
    (h : call ∈ s.logouts action) : call.1.mSubscriptions = s.mSubscriptions := by
  unfold logouts at h
  split at h
  · rw [List.mem_singleton.mp h]
  · rw [List.mem_singleton.mp h]
  · split at h
    · rw [List.mem_singleton.mp h]
    · split at h
      · cases h
      · split at h
        · cases h
        · obtain ⟨existingClient, -, rfl⟩ := List.mem_map.mp h
          exact mSubscriptions_replaceCurrentClient _ _ _ _ _
    · cases h
  · cases h

/-- How the messages are handed out that a step publishes. -/
structure HandsOut [Libnioev] [SubscriptionTree τ] (s : ApplicationState τ) (action : Action) :
    Prop where
  /-- A thread that publishes makes the deliveries of its message, and no others. -/
  published : ∀ packet ∈ s.published action,
    (s.deliveries action).2 = (s.fanOut packet).map (publishedDelivery packet) ∧
      s.step action = some ((s.deliveries action).2.foldlM deliver (s.deliveries action).1)
  /-- `publishInternal` is called with the wills. -/
  wills : ∀ t, s.step action = some (.ok t) →
    t.publishedInternally = s.publishedInternally ++ (s.publishedWills action).map Prod.snd
  /-- They are handed to whom they would be before the step. -/
  fanOut : ∀ call ∈ s.logouts action, ∀ willMsg,
    (call.1.markLoggedOut call.2).fanOut willMsg = s.fanOut willMsg
  delivers : ∀ t, (∀ client packet, action ≠ .packet client packet) →
    s.executedLogin action = none → s.step action = some (.ok t) →
      s.Delivers (s.deliveries action) t

theorem handsOut_of_tabled [Libnioev] [SubscriptionTree τ] (h : s.Tabled) (action : Action) :
    s.HandsOut action where
  published := by
    intro packet hpacket
    unfold published at hpacket
    split at hpacket
    · split at hpacket
      · next hwork =>
          cases hpacket
          refine ⟨?_, ?_⟩
          · simp only [deliveries, hwork]
          · simp only [deliveries, step, proceed, hwork]
            rw [publishNoLockNoRetain_eq]
            rfl
      · cases hpacket
    · cases hpacket
  wills := fun _ hstep => publishedInternally_step h.linked h.registered hstep
  fanOut := by
    intro call hcall willMsg
    have hmarked : (call.1.markLoggedOut call.2).mSubscriptions = s.mSubscriptions :=
      mSubscriptions_of_mem_logouts hcall
    unfold ApplicationState.fanOut
    rw [hmarked]
  delivers := fun _ hpacket hlogin hstep => delivers_step h.linked hpacket hlogin hstep

end ApplicationState

end NioevMqtt
