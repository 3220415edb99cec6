-- SUMMARY: What connections are sent, step by step: the packets of a login, those of the deliveries of a step and its answer, and which steps change the state of a connection.
import NioevMqtt.Broker.ThreadWork
import NioevMqtt.Connection.Replies

/-!
# Sent packets

There are three ways for a packet to a connection: the login sends the `CONNACK` and what
is to be sent again, a delivery its message, and the handler of packets its answers.
-/

namespace NioevMqtt

open Outcome

/-- A packet is sent, if there is one. -/
def sendTo (sent : ConnectionId → List EncodedPacket) :
    Option (ConnectionId × EncodedPacket) → ConnectionId → List EncodedPacket
  | none => sent
  | some (client, packet) => Function.update sent client (sent client ++ [packet])

theorem sendTo_of_ne {sent : ConnectionId → List EncodedPacket} {client c : ConnectionId}
    (h : c ≠ client) (packet : EncodedPacket) : sendTo sent (some (client, packet)) c = sent c :=
  Function.update_of_ne h _ _

theorem sendTo_self (sent : ConnectionId → List EncodedPacket) (client : ConnectionId)
    (packet : EncodedPacket) :
    sendTo sent (some (client, packet)) client = sent client ++ [packet] :=
  Function.update_self _ _ _

theorem some_of_update_none {α β : Type*} [DecidableEq α] {f : α → Option β} {a a' : α} {b : β}
    (h : Function.update f a none a' = some b) : f a' = some b := by
  by_cases ha : a' = a
  · rw [ha, Function.update_self] at h
    cases h
  · rwa [Function.update_of_ne ha] at h

/-- The builder a delivery makes for its subscriber. -/
def Delivery.builder (d : Delivery) : MQTTPublishPacketBuilder :=
  .new d.topic d.payload d.retained d.properties

/-- A session publishes to the client it has, in the version of the client. -/
theorem PersistentClientState.sent_publish [Libnioev] {state : PersistentClientState}
    {version : ConnectionId → MQTTVersion} {count : Nat} {qos : QoS}
    {b : MQTTPublishPacketBuilder} (hcaches : b.Caches) {published : Published}
    (h : state.publish version count qos b = .ok published) :
    published.sent = state.mCurrentClient.map fun client =>
      (client, b.freshPacket
        ⟨qos, if qos = .qos0 then 0 else nextPacketId state.mPacketIdCounter, version client⟩) := by
  unfold publish at h
  split at h
  · next hqos =>
      subst hqos
      cases hclient : state.mCurrentClient with
      | none =>
          rw [hclient] at h
          cases h
      | some client =>
          rw [hclient] at h
          cases h
          exact congrArg (fun packet => some (client, packet))
            (hcaches.getPacket ⟨.qos0, 0, version client⟩).1
  · next hqos =>
      cases h
      obtain ⟨-, hcached, hfresh⟩ := hcaches.getPacket
        ⟨qos, nextPacketId state.mPacketIdCounter, state.encoderVersion version⟩
      simp only [if_neg hqos]
      -- The packet that is stored has filled the cache.
      refine congrArg (Option.map · state.mCurrentClient) (funext fun client => ?_)
      refine congrArg (Prod.mk client) ?_
      rw [← hfresh]
      exact (hcached.getPacket ⟨qos, nextPacketId state.mPacketIdCounter, version client⟩).1

namespace ApplicationState

variable {τ : Type} {s t u : ApplicationState τ} {client : ConnectionId} {session : SessionId}
  {action : Action}

/-- The packets given to `sendData` of the connections. -/
def sentTo (s : ApplicationState τ) : ConnectionId → List EncodedPacket := fun client =>
  (s.connections client).sent

/-! ## Operations -/

theorem sentTo_updateConnection {f : MQTTClientConnection → MQTTClientConnection}
    (h : (f (s.connections client)).sent = (s.connections client).sent) :
    (s.updateConnection client f).sentTo = s.sentTo := by
  have hupdate : (s.updateConnection client f).sentTo =
      Function.update s.sentTo client (f (s.connections client)).sent :=
    funext fun c => Function.apply_update (fun _ => MQTTClientConnection.sent) _ _ _ c
  rw [hupdate, h]
  exact Function.update_eq_self client s.sentTo

theorem sentTo_sendData (s : ApplicationState τ) (client : ConnectionId) (packet : EncodedPacket) :
    (s.sendData client packet).sentTo = sendTo s.sentTo (some (client, packet)) :=
  funext fun c => Function.apply_update (fun _ => MQTTClientConnection.sent) _ _ _ c

theorem sentTo_markLoggedOut (s : ApplicationState τ) (client : ConnectionId) :
    (s.markLoggedOut client).sentTo = s.sentTo := by
  simp only [markLoggedOut]
  exact sentTo_updateConnection rfl

theorem sentTo_requestChange (s : ApplicationState τ) (request : Request) (holdsLock : Bool) :
    (s.requestChange request holdsLock).sentTo = s.sentTo := by
  unfold requestChange
  simp only
  split
  · rfl
  · rfl

theorem sentTo_retain (s : ApplicationState τ) (packet : MQTTPacket) :
    (s.retain packet).sentTo = s.sentTo := by
  unfold retain
  split
  · rfl
  · rfl

theorem sentTo_dropCurrentClient (h : s.dropCurrentClient session = .ok t) :
    t.sentTo = s.sentTo := by
  obtain ⟨⟨client, dropped⟩, -, hset⟩ := bind_eq_ok h
  cases hset
  have hdetached : (s.setPersistentClientState client none).sentTo = s.sentTo :=
    sentTo_updateConnection rfl
  exact hdetached

theorem sentTo_deleteCleanSession [SubscriptionTree τ] (s : ApplicationState τ)
    (session : SessionId) : (s.deleteCleanSession session).sentTo = s.sentTo := by
  unfold deleteCleanSession
  split
  · split
    · rfl
    · rfl
  · rfl

theorem sentTo_withSession (client : ConnectionId)
    (f : PersistentClientState → PersistentClientState × List Work) :
    (s.withSession client f).sentTo = s.sentTo := by
  unfold withSession
  split
  · rfl
  · rfl

/-! ## Deliveries -/

section

variable [Libnioev]

theorem sentTo_handlePacketReceived (packet : ClientPacket) :
    (s.handlePacketReceived client packet).sentTo = s.sentTo := by
  cases packet with
  | publish packet id =>
      simp only [handlePacketReceived]
      cases packet.qos with
      | qos0 => rfl
      | qos1 => rfl
      | qos2 => exact sentTo_withSession client _
  | pubAck id => exact sentTo_withSession client _
  | pubRel id => exact sentTo_withSession client _
  | pubRec id => exact sentTo_withSession client _
  | pubComp id => exact sentTo_withSession client _
  | disconnect =>
      have hwill : (s.updateConnection client fun conn => { conn with mWill := none }).sentTo =
          s.sentTo := sentTo_updateConnection rfl
      exact hwill
  | _ => rfl

omit [Libnioev] in
/-- What a delivery asks its builder for: at QoS 0 there is no identifier. -/
def deliveredRequest (s : ApplicationState τ) (d : Delivery) (session : SessionId)
    (client : ConnectionId) : PacketRequest where
  qos := d.qos
  packetId :=
    if d.qos = .qos0 then 0 else PersistentClientState.nextPacketId (s.sessions session).mPacketIdCounter
  version := (s.connections client).mMQTTVersion

/-- What a delivery sends, and the connection it goes to. -/
def deliveredPacket (s : ApplicationState τ) (d : Delivery) :
    Option (ConnectionId × EncodedPacket) :=
  match d.subscriber with
  | .other _ => none
  | .session id =>
    (s.sessions id).mCurrentClient.map fun client =>
      (client, d.builder.freshPacket (s.deliveredRequest d id client))

/-- A delivery sends to the connection its session has. -/
theorem sentTo_deliver {d : Delivery} (h : s.deliver d = .ok t) :
    t.sentTo = sendTo s.sentTo (s.deliveredPacket d) := by
  obtain ⟨subscriber, topic, payload, qos, retained, properties⟩ := d
  cases subscriber with
  | other id =>
      cases h
      rfl
  | session id =>
      obtain ⟨published, hpublished, hsent⟩ := bind_eq_ok h
      have hpacket := PersistentClientState.sent_publish
        (MQTTPublishPacketBuilder.caches_new topic payload retained properties) hpublished
      show _ = sendTo s.sentTo ((s.sessions id).mCurrentClient.map _)
      cases hclient : (s.sessions id).mCurrentClient with
      | none =>
          rw [hclient] at hpacket
          rw [hpacket] at hsent
          cases hsent
          rfl
      | some client =>
          rw [hclient] at hpacket
          rw [hpacket] at hsent
          cases hsent
          exact sentTo_sendData _ _ _

end

/-! ## Steps -/

section

variable [Libnioev] [SubscriptionTree τ]

omit [SubscriptionTree τ] in
/-- What a step answers. -/
def answer (s : ApplicationState τ) : Action → Option (ConnectionId × EncodedPacket)
  | .rejectVersion client =>
    some (client, .fromData (MQTTMessageType.connack.toUInt8 <<< 4) [2, 0, 1])
  | .proceed thread _ =>
    match s.work thread with
    | .reply client packet :: _ => some (client, packet)
    | _ => none
  | _ => none

/-- What a step sends are its deliveries, and its answer. -/
def SendsMade (s : ApplicationState τ) (made : ApplicationState τ × List Delivery)
    (answered : Option (ConnectionId × EncodedPacket)) (t : ApplicationState τ) : Prop :=
  made.1.sentTo = s.sentTo ∧
    ∃ u, made.2.foldlM deliver made.1 = .ok u ∧ t.sentTo = sendTo u.sentTo answered

omit [SubscriptionTree τ] in
theorem sendsMade_nothing (h : t.sentTo = s.sentTo) : s.SendsMade (s, []) none t :=
  ⟨rfl, s, rfl, h⟩

theorem sendsMade_logoutClient {thread : Thread} (h : s.logoutClient thread client = .ok t) :
    s.SendsMade (s.logoutDeliveries client) none t := by
  have hmarked := sentTo_markLoggedOut s client
  rw [logoutClient_eq] at h
  unfold logoutDeliveries
  split at h
  · next hout =>
      cases h
      have hnone : s.logoutWill client = none := if_pos (.inl hout)
      rw [hnone]
      exact ⟨hmarked, s.markLoggedOut client, rfl, hmarked.symm⟩
  · obtain ⟨v, hwill, hrest⟩ := bind_eq_ok h
    have hdropped : t.sentTo = v.sentTo := by
      split at hrest
      · cases hrest
        rfl
      · obtain ⟨w, hdrop, hdelete⟩ := bind_eq_ok hrest
        cases hdelete
        exact (sentTo_deleteCleanSession w _).trans (sentTo_dropCurrentClient hdrop)
    cases hlogout : s.logoutWill client with
    | none =>
        rw [hlogout] at hwill
        cases hwill
        exact ⟨hmarked, _, rfl, hdropped⟩
    | some willMsg =>
        rw [hlogout] at hwill
        obtain ⟨w, hpublished, hretain⟩ := bind_eq_ok hwill
        rw [publishNoLockNoRetain_eq] at hpublished
        refine ⟨hmarked, w, hpublished, hdropped.trans ?_⟩
        split at hretain
        · cases hretain
          exact sentTo_requestChange w _ _
        · cases hretain
          rfl

theorem sendsMade_executeChangeRequest {thread : Thread} {generatedId : ByteString}
    {change : ChangeRequest} (hlogin : ∀ client clientId cleanSession,
      change = .loginClient client clientId cleanSession → (s.connections client).mLoggedOut = true)
    (h : s.executeChangeRequest thread generatedId change = .ok t) :
    s.SendsMade (s.changeDeliveries change) none t := by
  have hvisit := (executeChangeRequest_eq s thread generatedId _).symm.trans h
  have hkept : t.sentTo = s.sentTo → s.SendsMade (s, []) none t := sendsMade_nothing
  cases change with
  | subscribe subscriber topic qos type =>
      simp only [visit, subscribeClientInternal] at hvisit
      rw [sendAllRetained_eq] at hvisit
      exact ⟨rfl, t, hvisit, rfl⟩
  | logoutClient client => exact sendsMade_logoutClient hvisit
  | loginClient client clientId cleanSession =>
      simp only [visit, loginClient] at hvisit
      rw [if_pos (hlogin client clientId cleanSession rfl)] at hvisit
      cases hvisit
      exact hkept rfl
  | retain packet =>
      cases hvisit
      exact hkept (sentTo_retain s packet)
  | unsubscribe subscriber topic =>
      cases hvisit
      exact hkept rfl
  | unsubscribeFromAll subscriber =>
      cases hvisit
      exact hkept rfl
  | deleteScript script =>
      cases hvisit
      exact hkept rfl

theorem sendsMade_proceed {thread : Thread} {lockTaken : Bool} {work : Work} {rest : List Work}
    (hwork : s.work thread = work :: rest)
    (h : s.proceed thread lockTaken work rest = some (.ok t)) :
    s.SendsMade (s.deliveries (.proceed thread lockTaken)) (s.answer (.proceed thread lockTaken)) t := by
  simp only [deliveries, answer, hwork]
  cases proceeds_of_proceed h with
  | publish hok =>
      rw [publishNoLockNoRetain_eq] at hok
      exact ⟨rfl, t, hok, rfl⟩
  | reply => exact ⟨rfl, s, rfl, sentTo_sendData _ _ _⟩
  | retain => exact sendsMade_nothing (sentTo_retain _ _)
  | request => exact sendsMade_nothing (sentTo_requestChange _ _ _)
  | _ => exact sendsMade_nothing rfl

/-- Besides a login, what a step sends are its deliveries and its answer. A new connection
has been sent nothing. -/
theorem sendsMade_step (h : s.Linked) (hnew : ∀ remote now, action ≠ .newConnection remote now)
    (hlogin : s.executedLogin action = none) (hstep : s.step action = some (.ok t)) :
    s.SendsMade (s.deliveries action) (s.answer action) t := by
  have hsteps := steps_of_step hstep
  clear hstep
  cases hsteps with
  | newConnection => exact absurd rfl (hnew _ _)
  | receiveData hclient => exact sendsMade_nothing (sentTo_updateConnection rfl)
  | @connect client packet =>
      refine sendsMade_nothing ?_
      unfold handleConnect
      simp only
      have hconnecting : (s.updateConnection client fun conn =>
          { conn with
            mMQTTVersion := packet.version
            mKeepAliveIntervalSeconds := packet.keepAlive
            mWill := packet.will
            mState := .connecting }).sentTo = s.sentTo := sentTo_updateConnection rfl
      exact hconnecting
  | @rejectVersion client =>
      have hstate : (s.setStateAtomic client .invalidProtocolVersion).sentTo = s.sentTo :=
        sentTo_updateConnection rfl
      refine ⟨rfl, s, rfl, ?_⟩
      show ApplicationState.sentTo _ = sendTo s.sentTo (some _)
      rw [← hstate]
      exact sentTo_sendData _ _ _
  | packet => exact sendsMade_nothing (sentTo_handlePacketReceived _)
  | proceed hwork hok => exact sendsMade_proceed hwork hok
  | @execute randomChars request mQueue generatedId _ hqueue hgenerated hok =>
      have hout : ∀ client clientId cleanSession,
          request.change = .loginClient client clientId cleanSession →
            (s.connections client).mLoggedOut = true :=
        fun _ _ _ hchange => mLoggedOut_of_noLogin hqueue hgenerated hlogin hchange
      obtain ⟨hbase, hmade⟩ := sendsMade_executeChangeRequest
        (s := { s with mQueue := mQueue }) hout hok
      simp only [deliveries, hqueue]
      exact ⟨hbase, hmade⟩
  | @executeInternal _ request mQueueInternal _ _ hqueue hok =>
      obtain ⟨packet, hchange⟩ := h.exists_retain hqueue
      rw [hchange] at hok
      obtain ⟨hbase, u, hu, hv⟩ := sendsMade_executeChangeRequest
        (s := { s with mQueueInternal := mQueueInternal }) (fun _ _ _ heq => by cases heq) hok
      cases hu
      exact sendsMade_nothing hv
  | sendError hclient => exact sendsMade_nothing (sentTo_updateConnection rfl)
  | logoutSendError hclient hok => exact sendsMade_logoutClient hok
  | timeout hclient htimedOut hok => exact sendsMade_logoutClient hok
  | _ => exact sendsMade_nothing rfl

end

/-! ## Logins -/

section

variable [Libnioev]

/-- Only the connection that logs in is sent something. -/
def SendsOnlyTo (client : ConnectionId) (s t : ApplicationState τ) : Prop :=
  ∀ c, c ≠ client → t.sentTo c = s.sentTo c

omit [Libnioev] in
theorem SendsOnlyTo.trans (h : SendsOnlyTo client s t) (h' : SendsOnlyTo client t u) :
    SendsOnlyTo client s u := fun c hc => (h' c hc).trans (h c hc)

omit [Libnioev] in
theorem sendsOnlyTo_of_eq (h : t.sentTo = s.sentTo) : SendsOnlyTo client s t :=
  fun c _ => congrFun h c

omit [Libnioev] in
theorem sendsOnlyTo_sendData (s : ApplicationState τ) (client : ConnectionId)
    (packet : EncodedPacket) : SendsOnlyTo client s (s.sendData client packet) :=
  fun c hc => (congrFun (sentTo_sendData s client packet) c).trans (sendTo_of_ne hc packet)

omit [Libnioev] in
theorem sendsOnlyTo_foldl {α : Type} (packet : α → EncodedPacket) (l : List α)
    (s : ApplicationState τ) :
    SendsOnlyTo client s (l.foldl (fun s a => s.sendData client (packet a)) s) := by
  induction l generalizing s with
  | nil => exact fun _ _ => rfl
  | cons a l ih => exact (sendsOnlyTo_sendData s client (packet a)).trans (ih _)

theorem sendsOnlyTo_resend (s : ApplicationState τ) (client : ConnectionId) (session : SessionId) :
    SendsOnlyTo client s (s.resend client session) :=
  (sendsOnlyTo_foldl (fun packet : HighQoSRetainStorage => packet.mPacket.setDupFlag) _ s).trans
    (sendsOnlyTo_foldl pubrel _ _)

omit [Libnioev] in
theorem sendsOnlyTo_connected (s : ApplicationState τ) (client : ConnectionId) :
    SendsOnlyTo client s (s.connected client) := by
  have hstate : (s.setStateAtomic client .connected).sentTo = s.sentTo :=
    sentTo_updateConnection rfl
  exact sendsOnlyTo_of_eq hstate

theorem sendsOnlyTo_loginExisting [SubscriptionTree τ] (h : s.view.Attached)
    (hclient : s.view.attached client = none) {cleanSession : CleanSession}
    (hok : s.loginExisting .worker client session cleanSession = .ok t) :
    SendsOnlyTo client s t := by
  have hreplaced : ∀ {u : ApplicationState τ}, u.wire = s.wire → SendsOnlyTo client s u :=
    fun hwire => sendsOnlyTo_of_eq (funext fun c => congrArg Prod.fst (congrFun hwire c))
  unfold loginExisting at hok
  simp only at hok
  split at hok
  · obtain ⟨u, hu, hwire, -⟩ := logoutExisting_keeps h hclient session cleanSession .cleanSession
    rw [hu] at hok
    cases hok
    exact (hreplaced hwire).trans ((sendsOnlyTo_sendData u client _).trans
      (sendsOnlyTo_connected _ client))
  · obtain ⟨u, hu, hwire, -⟩ := logoutExisting_keeps h hclient session cleanSession .simpleReplace
    rw [hu] at hok
    cases hok
    exact (hreplaced hwire).trans ((sendsOnlyTo_sendData u client _).trans
      ((sendsOnlyTo_resend _ client session).trans (sendsOnlyTo_connected _ client)))

theorem sendsOnlyTo_loginNew (s : ApplicationState τ) (client : ConnectionId)
    (clientId : ByteString) (cleanSession : CleanSession) :
    SendsOnlyTo client s (s.loginNew client clientId cleanSession) := by
  unfold loginNew
  simp only
  refine SendsOnlyTo.trans ?_ ((sendsOnlyTo_sendData _ client _).trans
    (sendsOnlyTo_connected _ client))
  exact sendsOnlyTo_of_eq (funext fun c =>
    congrArg Prod.fst (congrFun (wire_replaceCurrentClient _ _ client cleanSession .cleanSession) c))

/-- A login sends its packets to its connection and nothing else. -/
theorem sentTo_executedLogin [SubscriptionTree τ] (h : s.Linked) (hstep : s.stepOk action = some t)
    {login : Login} (hlogin : s.executedLogin action = some login) :
    t.sentTo = Function.update s.sentTo login.client
      (s.sentTo login.client ++ s.loginPackets login) := by
  have hsent := (sendsLogin_of_executedLogin h hstep hlogin).sent_eq
  obtain ⟨queue, hattached, hclient, hlogs⟩ := logsIn_of_executedLogin h hstep hlogin
  have honly : SendsOnlyTo login.client s t := by
    cases hlogs with
    | existing hstored hok =>
        exact sendsOnlyTo_loginExisting (s := { s with mQueue := queue }) hattached hclient hok
    | new hnone => exact sendsOnlyTo_loginNew { s with mQueue := queue } _ _ _
  funext c
  by_cases hc : c = login.client
  · subst hc
    rw [Function.update_self]
    exact hsent
  · rw [Function.update_of_ne hc]
    exact honly c hc

end

/-! ## The state of a connection -/

section

variable [Libnioev] [SubscriptionTree τ]

omit [Libnioev] [SubscriptionTree τ] in
/-- No connection changes its state, and none gets a session. -/
structure KeepsConnections (v v' : View τ) : Prop where
  mState_eq : v'.mState = v.mState
  attached : ∀ client session, v'.attached client = some session → v.attached client = some session

omit [Libnioev] in
theorem keepsConnections_logsOut {v v' : View τ} (hout : v.LogsOut client v') :
    KeepsConnections v v' := by
  have hdetached : ∀ session : SessionId, KeepsConnections v (v.detach client session) :=
    fun session => ⟨rfl, fun _ _ hsome => some_of_update_none hsome⟩
  cases hout with
  | nothing => exact ⟨rfl, fun _ _ hsome => hsome⟩
  | detaches => exact hdetached _
  | closes => exact ⟨rfl, fun _ _ hsome => some_of_update_none hsome⟩

/-- Only a `CONNECT` and a login that is executed do more. -/
theorem keepsConnections_step (h : s.Linked)
    (hconnect : ∀ client packet, action ≠ .connect client packet)
    (hreject : ∀ client, action ≠ .rejectVersion client) (hlogin : s.executedLogin action = none)
    (hstep : s.step action = some (.ok t)) : KeepsConnections s.view t.view := by
  have hkeeps : ∀ {v : View τ}, t.view = v → KeepsConnections s.view v →
      KeepsConnections s.view t.view := fun hview hv => hview ▸ hv
  have hsame : t.view = s.view → KeepsConnections s.view t.view :=
    fun hview => hkeeps hview ⟨rfl, fun _ _ hsome => hsome⟩
  have hwork : ∀ {thread work}, t.view = s.view.setWork thread work →
      KeepsConnections s.view t.view := fun hview => hkeeps hview ⟨rfl, fun _ _ hsome => hsome⟩
  have hsteps := steps_of_step hstep
  clear hstep
  cases hsteps with
  | newConnection =>
      refine hkeeps (view_handleNewClientConnection s _ _)
        ⟨?_, fun _ _ hsome => some_of_update_none hsome⟩
      have hfresh := h.view.freshConnection s.nextConnection (Nat.le_refl _)
      show Function.update s.view.mState s.nextConnection .initial = s.view.mState
      rw [← hfresh]
      exact Function.update_eq_self _ _
  | receiveData => exact hsame (view_updateConnection_of rfl rfl)
  | connect => exact absurd rfl (hconnect _ _)
  | rejectVersion => exact absurd rfl (hreject _)
  | packet =>
      obtain ⟨work, -, hview⟩ := (leavesWork_handlePacketReceived s _ _).noLogin
      exact hwork hview
  | @proceed thread lockTaken work rest _ _ hok =>
      by_cases hrequest : ∃ change, work = .request change
      · obtain ⟨change, rfl⟩ := hrequest
        rcases view_proceed_request hok with hview | ⟨hview, -⟩
        · exact hkeeps hview ⟨rfl, fun _ _ hsome => hsome⟩
        · exact hwork hview
      · exact hwork (view_proceed hok fun change heq => hrequest ⟨change, heq⟩)
  | @execute randomChars request mQueue generatedId _ hqueue hgenerated hok =>
      obtain ⟨change, thread⟩ := request
      by_cases hchange : View.IsLogin change
      · -- The connection is logged out, and nothing happens.
        obtain ⟨client, clientId, cleanSession, rfl⟩ := hchange
        have hout : (s.connections client).mLoggedOut = true := by
          by_contra hin
          have hgenerated' : s.generatedFor randomChars
              (.loginClient client clientId cleanSession) = some generatedId := hgenerated
          simp only [executedLogin, hqueue, hin, hgenerated', Option.map_some] at hlogin
          cases hlogin
        rw [executeChangeRequest_eq] at hok
        simp only [visit, loginClient] at hok
        rw [if_pos hout] at hok
        cases hok
        exact hkeeps rfl ⟨rfl, fun _ _ hsome => hsome⟩
      · have hdequeued : (view { s with mQueue := mQueue }).Linked := h.view.dequeue hqueue
        obtain ⟨v, hexecutes, hreaches⟩ :=
          executeChangeRequest_reaches hdequeued.toAttached (h.freshLogin hqueue) hok
        refine hkeeps hreaches.view_eq ?_
        cases hexecutes with
        | loginClient => exact absurd ⟨_, _, _, rfl⟩ hchange
        | logoutClient hout =>
            obtain ⟨hstate, hattached⟩ := keepsConnections_logsOut hout
            exact ⟨hstate, hattached⟩
        | _ => exact ⟨rfl, fun _ _ hsome => hsome⟩
  | executeInternal hqueue hok => exact hsame (executeInternal_quiet h hqueue hok).view_eq
  | sendError => exact hsame (view_updateConnection_of rfl rfl)
  | logoutSendError hclient hok =>
      obtain ⟨v, hout, hreaches⟩ := logoutClient_reaches h.view.toAttached hok
      exact hkeeps hreaches.view_eq (keepsConnections_logsOut hout)
  | timeout hclient htimedOut hok =>
      obtain ⟨v, hout, hreaches⟩ := logoutClient_reaches h.view.toAttached hok
      exact hkeeps hreaches.view_eq (keepsConnections_logsOut hout)
  | _ => exact ⟨rfl, fun _ _ hsome => hsome⟩

/-- What a login that is executed comes to for the connections. -/
structure Connects (s : ApplicationState τ) (login : Login) (t : ApplicationState τ) : Prop where
  waits : s.view.mState login.client = .connecting
  mState_eq : t.view.mState = Function.update s.view.mState login.client .connected
  attached_self : t.view.attached login.client = some (s.sessionFor login)
  attached : ∀ client session, client ≠ login.client → t.view.attached client = some session →
    s.view.attached client = some session

omit [Libnioev] [SubscriptionTree τ] in
/-- A session that gets a connection takes it from nobody else. -/
theorem attached_attach (v : View τ) (client : ConnectionId) (session : SessionId) :
    (v.attach client session).attached client = some session ∧
      ∀ c session', c ≠ client → (v.attach client session).attached c = some session' →
        v.attached c = some session' := by
  refine ⟨Function.update_self _ _ _, fun c session' hc hsome => ?_⟩
  simp only [View.attach, Function.update_of_ne hc] at hsome
  cases hcurrent : v.currentClient session with
  | none =>
      simp only [hcurrent] at hsome
      exact hsome
  | some old =>
      simp only [hcurrent] at hsome
      exact some_of_update_none hsome

theorem connects_executedLogin (h : s.Linked) (hstep : s.stepOk action = some t) {login : Login}
    (hlogin : s.executedLogin action = some login) : s.Connects login t := by
  have hwaits : s.view.mState login.client = .connecting := by
    cases action with
    | execute randomChars =>
        simp only [executedLogin] at hlogin
        split at hlogin
        · next client clientId cleanSession thread _ hqueue =>
            split at hlogin
            · cases hlogin
            · obtain ⟨generatedId, -, rfl⟩ := Option.map_eq_some_iff.mp hlogin
              exact (h.view.dequeuedLogin hqueue rfl).1
        · cases hlogin
    | _ => cases hlogin
  obtain ⟨queue, hattached, hclient, hlogs⟩ := logsIn_of_executedLogin h hstep hlogin
  cases hlogs with
  | @existing _ session hstored hok =>
      obtain ⟨v, hv, hreaches, -⟩ := loginExisting_reaches (s := { s with mQueue := queue })
        hattached hclient .worker session login.cleanSession
      cases hv.symm.trans hok
      have hview := hreaches.view_eq
      have hsession : s.sessionFor login = session := sessionFor_of_stored hstored
      obtain ⟨hself, hother⟩ :=
        attached_attach (view { s with mQueue := queue }) login.client session
      exact ⟨hwaits, (congrArg View.mState hview).trans rfl,
        (congrFun (congrArg View.attached hview) _).trans (hsession ▸ hself),
        fun c session' hc hsome => hother c session' hc
          ((congrFun (congrArg View.attached hview) c).symm.trans hsome)⟩
  | new hnone =>
      have hreaches := (loginNew_reaches (s := { s with mQueue := queue }) hattached
        login.client login.clientId login.cleanSession).1
      have hview := hreaches.view_eq
      have hsession : s.sessionFor login = s.nextSession := sessionFor_of_new hnone
      obtain ⟨hself, hother⟩ := attached_attach
        ((view { s with mQueue := queue }).openSession login.clientId) login.client s.nextSession
      exact ⟨hwaits, (congrArg View.mState hview).trans rfl,
        (congrFun (congrArg View.attached hview) _).trans (hsession ▸ hself),
        fun c session' hc hsome => hother c session' hc
          ((congrFun (congrArg View.attached hview) c).symm.trans hsome)⟩

end

end ApplicationState

end NioevMqtt
