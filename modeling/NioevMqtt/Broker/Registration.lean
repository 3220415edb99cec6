-- SUMMARY: The broker's operations refine those of the registry: what a step changes of logins, wills and sessions, and that it leaves the rest alone.
import NioevMqtt.Broker.Registry
import NioevMqtt.Broker.Deliveries
import NioevMqtt.Broker.Transitions

/-!
# Registration

The registry of a broker state. Handing over messages leaves it alone, and every
operation does to it what the operation of that name does.
-/

namespace NioevMqtt

open Outcome

def MQTTClientConnection.registered (conn : MQTTClientConnection) : RegisteredClient :=
  ⟨conn.mPersistentClientState, conn.mProperClientId, conn.mWill, conn.mLoggedOut⟩

def PersistentClientState.registered (state : PersistentClientState) : RegisteredSession :=
  ⟨state.mClientID, state.mCleanSession, state.mCurrentClient, state.mQoS2receivingPacketIds⟩

namespace ApplicationState

variable {τ : Type} {s t : ApplicationState τ} {client : ConnectionId} {session : SessionId}

def registry (s : ApplicationState τ) : Registry where
  clients := fun client => (s.connections client).registered
  sessions := fun session => (s.sessions session).registered
  mClients := s.mClients
  nextConnection := s.nextConnection
  nextSession := s.nextSession
  mPersistentClientStates := s.mPersistentClientStates

/-! ## Updates -/

theorem registry_updateConnection (s : ApplicationState τ) (client : ConnectionId)
    (f : MQTTClientConnection → MQTTClientConnection) :
    (s.updateConnection client f).registry =
      s.registry.setClient client (f (s.connections client)).registered := by
  simp only [registry, updateConnection, Registry.setClient, Registry.mk.injEq, and_true]
  exact funext fun c => Function.apply_update (fun _ => MQTTClientConnection.registered) _ _ _ c

theorem registry_updateSession (s : ApplicationState τ) (session : SessionId)
    (f : PersistentClientState → PersistentClientState) :
    (s.updateSession session f).registry =
      s.registry.setSession session (f (s.sessions session)).registered := by
  simp only [registry, updateSession, Registry.setSession, Registry.mk.injEq, and_true, true_and]
  exact funext fun c => Function.apply_update (fun _ => PersistentClientState.registered) _ _ _ c

/-- An update of a connection that concerns nothing the registry keeps. -/
theorem registry_updateConnection_of {f : MQTTClientConnection → MQTTClientConnection}
    (h : (f (s.connections client)).registered = (s.connections client).registered) :
    (s.updateConnection client f).registry = s.registry := by
  rw [registry_updateConnection, h]
  exact congrArg (fun clients => { s.registry with clients := clients })
    (Function.update_eq_self client s.registry.clients)

theorem registry_updateSession_of {f : PersistentClientState → PersistentClientState}
    (h : (f (s.sessions session)).registered = (s.sessions session).registered) :
    (s.updateSession session f).registry = s.registry := by
  rw [registry_updateSession, h]
  exact congrArg (fun sessions => { s.registry with sessions := sessions })
    (Function.update_eq_self session s.registry.sessions)

@[simp] theorem registry_sendData (s : ApplicationState τ) (client : ConnectionId)
    (packet : EncodedPacket) : (s.sendData client packet).registry = s.registry :=
  registry_updateConnection_of rfl

@[simp] theorem registry_connected (s : ApplicationState τ) (client : ConnectionId) :
    (s.connected client).registry = s.registry := by
  unfold connected setStateAtomic
  exact registry_updateConnection_of rfl

@[simp] theorem registry_markLoggedOut (s : ApplicationState τ) (client : ConnectionId) :
    (s.markLoggedOut client).registry = s.registry.markLoggedOut client := by
  simp only [markLoggedOut]
  exact registry_updateConnection _ _ _

@[simp] theorem registry_setPersistentClientState (s : ApplicationState τ) (client : ConnectionId)
    (state : Option SessionId) :
    (s.setPersistentClientState client state).registry =
      s.registry.setPersistentClientState client state :=
  registry_updateConnection _ _ _

theorem registry_foldl_sendData {α : Type} (packet : α → EncodedPacket) (l : List α)
    (s : ApplicationState τ) (client : ConnectionId) :
    (l.foldl (fun s x => s.sendData client (packet x)) s).registry = s.registry := by
  induction l generalizing s with
  | nil => rfl
  | cons x l ih => exact (ih _).trans (registry_sendData s client (packet x))

@[simp] theorem registry_requestChange (s : ApplicationState τ) (request : Request)
    (holdsLock : Bool) : (s.requestChange request holdsLock).registry = s.registry := by
  unfold requestChange
  simp only
  split
  · rfl
  · rfl

/-! ## Handing over -/

section

variable [Libnioev]

theorem registry_sendPublish {sub : Subscriber} {topic : ByteString} {payload : List UInt8}
    {qos : QoS} {retained : Retained} {properties : PropertyList}
    (h : s.sendPublish sub topic payload qos retained properties = .ok t) :
    t.registry = s.registry := by
  cases sub with
  | other id =>
      cases h
      rfl
  | session id =>
      obtain ⟨published, hpublished, hsent⟩ := bind_eq_ok h
      have hsame : published.session.registered = (s.sessions id).registered := by
        by_cases hqos : qos = .qos0
        · subst hqos
          rw [(PersistentClientState.publish_qos0 hpublished).1]
        · rw [(PersistentClientState.publish_highQoS hqos hpublished).1]
          rfl
      have hstored : (s.updateSession id fun _ => published.session).registry = s.registry :=
        registry_updateSession_of hsame
      cases hclient : published.sent with
      | none =>
          rw [hclient] at hsent
          cases hsent
          exact hstored
      | some sent =>
          rw [hclient] at hsent
          cases hsent
          exact (registry_sendData _ _ _).trans hstored

/-- Any number of messages. -/
theorem registry_foldlM_deliver {deliveries : List Delivery}
    (h : deliveries.foldlM deliver s = .ok t) : t.registry = s.registry :=
  foldlM_invariant (P := fun u : ApplicationState τ => u.registry = s.registry)
    (fun _ _ _ hu hdelivered => (registry_sendPublish hdelivered).trans hu) h rfl

variable [SubscriptionTree τ]

theorem registry_publishNoLockNoRetain {packet : MQTTPacket}
    (h : s.publishNoLockNoRetain packet = .ok t) : t.registry = s.registry := by
  have hdelivered : ((s.fanOut packet).map (publishedDelivery packet)).foldlM deliver s = .ok t := by
    rw [← h]
    exact (publishToMatches_eq packet [] _ s).symm
  exact registry_foldlM_deliver hdelivered

theorem registry_publishInternal {thread : Thread} {packet : MQTTPacket}
    (h : s.publishInternal thread packet = .ok t) : t.registry = s.registry := by
  obtain ⟨u, hpublished, hretain⟩ := bind_eq_ok h
  have hfirst := registry_publishNoLockNoRetain hpublished
  split at hretain
  · cases hretain
    exact (registry_requestChange _ _ _).trans hfirst
  · cases hretain
    exact hfirst

theorem registry_publishWill {thread : Thread} (h : s.publishWill thread client = .ok t) :
    t.registry = s.registry := by
  unfold publishWill at h
  split at h
  · cases h
    rfl
  · exact registry_publishInternal h

theorem registry_subscribeClientInternal {subscriber : Subscriber} {topic : ByteString} {qos : QoS}
    (h : s.subscribeClientInternal subscriber topic qos = .ok t) : t.registry = s.registry := by
  unfold subscribeClientInternal at h
  rw [sendAllRetained_eq] at h
  have hdelivered := registry_foldlM_deliver h
  exact hdelivered

end

/-! ## Logout -/

/-- The session and the connection that replaces another's are linked. -/
theorem registry_replace (s : ApplicationState τ) (session : SessionId)
    (client : ConnectionId) (cleanSession : CleanSession) (style : ReplaceStyle) :
    ((s.updateSession session (·.replaceCurrentClient client cleanSession style)).updateConnection
        client fun conn =>
          { conn with
            mPersistentClientState := some session
            mProperClientId := some ((s.updateSession session
              (·.replaceCurrentClient client cleanSession style)).sessions session).mClientID }).registry =
      s.registry.link session client cleanSession style := by
  have hsession : (s.updateSession session
      (·.replaceCurrentClient client cleanSession style)).sessions session =
        (s.sessions session).replaceCurrentClient client cleanSession style :=
    Function.update_self _ _ _
  rw [registry_updateConnection, registry_updateSession, hsession]
  cases style with
  | simpleReplace => rfl
  | cleanSession => rfl

@[simp] theorem registry_replaceCurrentClient (s : ApplicationState τ) (session : SessionId)
    (client : ConnectionId) (cleanSession : CleanSession) (style : ReplaceStyle) :
    (s.replaceCurrentClient session client cleanSession style).registry =
      s.registry.replaceCurrentClient session client cleanSession style := by
  unfold replaceCurrentClient Registry.replaceCurrentClient
  cases hcurrent : (s.sessions session).mCurrentClient with
  | none =>
      have hregistered : (s.registry.sessions session).mCurrentClient = none := hcurrent
      simp only [hregistered]
      exact registry_replace s session client cleanSession style
  | some old =>
      have hregistered : (s.registry.sessions session).mCurrentClient = some old := hcurrent
      simp only [hregistered]
      rw [← registry_setPersistentClientState]
      exact registry_replace (s.setPersistentClientState old none) session client cleanSession style

section

variable [SubscriptionTree τ]

@[simp] theorem registry_deleteCleanSession (s : ApplicationState τ) (session : SessionId) :
    (s.deleteCleanSession session).registry = s.registry.deleteCleanSession session := by
  unfold deleteCleanSession Registry.deleteCleanSession
  by_cases hclean : (s.sessions session).mCleanSession = .yes
  · have hregistered : (s.registry.sessions session).mCleanSession = .yes := hclean
    rw [if_pos hclean, if_pos hregistered]
    cases hfind : s.mPersistentClientStates.entries.find? (·.2 = session) with
    | none =>
        have hfind' : s.registry.mPersistentClientStates.entries.find? (·.2 = session) = none := hfind
        simp only [hfind']
    | some actualState =>
        have hfind' : s.registry.mPersistentClientStates.entries.find? (·.2 = session) =
            some actualState := hfind
        simp only [hfind']
        rfl
  · have hregistered : ¬ (s.registry.sessions session).mCleanSession = .yes := hclean
    rw [if_neg hclean, if_neg hregistered]

/-- The end of a logout. -/
theorem registry_drop (hcurrent : s.registry.currentClient session = some client)
    (h : (do
      let s ← s.dropCurrentClient session
      return s.deleteCleanSession session) = Except.ok (ε := Fault) t) :
    t.registry = (s.registry.detach client session).deleteCleanSession session := by
  have hsession : (s.sessions session).mCurrentClient = some client := hcurrent
  unfold dropCurrentClient PersistentClientState.dropCurrentClient at h
  rw [hsession] at h
  cases h
  rw [registry_deleteCleanSession, registry_updateSession, registry_setPersistentClientState]
  rfl

variable [Libnioev]

theorem registry_logoutClient (h : s.registry.Linked) {thread : Thread}
    (hlogout : s.logoutClient thread client = .ok t) :
    t.registry = s.registry.logoutClient client := by
  unfold logoutClient at hlogout
  unfold Registry.logoutClient
  cases hout : (s.connections client).mLoggedOut with
  | true =>
      rw [if_pos hout] at hlogout
      rw [if_pos (show (s.registry.clients client).mLoggedOut = true from hout)]
      cases hlogout
      rfl
  | false =>
      rw [if_neg (by rw [hout]; exact Bool.false_ne_true)] at hlogout
      rw [if_neg (by
        rw [show (s.registry.clients client).mLoggedOut = false from hout]
        exact Bool.false_ne_true)]
      have hmarked : ((s.markLoggedOut client).connections client).mPersistentClientState =
          (s.connections client).mPersistentClientState := by
        simp only [markLoggedOut, updateConnection, Function.update_self]
      cases hattached : (s.connections client).mPersistentClientState with
      | none =>
          have hregistered : (s.registry.clients client).mPersistentClientState = none := hattached
          simp only [hmarked, hattached] at hlogout
          cases hlogout
          simp only [hregistered]
          exact registry_markLoggedOut s client
      | some session =>
          have hregistered : (s.registry.clients client).mPersistentClientState = some session :=
            hattached
          simp only [hmarked, hattached] at hlogout
          obtain ⟨u, hwill, hrest⟩ := bind_eq_ok hlogout
          have hu := registry_publishWill hwill
          rw [registry_markLoggedOut] at hu
          have hcurrent : u.registry.currentClient session = some client := by
            rw [hu]
            exact (h.inverse client session).mp hattached
          rw [registry_drop hcurrent hrest, hu]
          simp only [hregistered]

/-! ## Login -/

omit [SubscriptionTree τ] in
@[simp] theorem registry_sendConnack (s : ApplicationState τ) (client : ConnectionId)
    (sessionPresent : SessionPresent) : (s.sendConnack client sessionPresent).registry = s.registry :=
  registry_sendData _ _ _

omit [SubscriptionTree τ] in
@[simp] theorem registry_resend (s : ApplicationState τ) (client : ConnectionId)
    (session : SessionId) : (s.resend client session).registry = s.registry :=
  (registry_foldl_sendData _ _ _ client).trans (registry_foldl_sendData _ _ s client)

theorem registry_logoutExisting (h : s.registry.Linked) {thread : Thread}
    {existingClient : Option ConnectionId}
    (hlogout : s.logoutExisting thread existingClient = .ok t) :
    t.registry = s.registry.logoutExisting existingClient := by
  cases existingClient with
  | none =>
      cases hlogout
      rfl
  | some existingClient => exact registry_logoutClient h hlogout

theorem registry_loginExisting (h : s.registry.Registered) {thread : Thread}
    {cleanSession : CleanSession} {clientId : ByteString}
    (hclient : s.registry.attached client = none) (hlt : client < s.nextConnection)
    (hout : (s.connections client).mLoggedOut = false)
    (hfound : s.mPersistentClientStates.lookup clientId = some session)
    (hlogin : s.loginExisting thread client session cleanSession = .ok t) :
    t.registry = s.registry.loginClient client clientId cleanSession := by
  have hreplaced : ∀ style,
      (s.replaceCurrentClient session client cleanSession style).registry.Linked := by
    intro style
    rw [registry_replaceCurrentClient]
    exact (h.toLinked.replaceCurrentClient cleanSession style hclient hlt hout ⟨clientId, hfound⟩
      fun id s _ => h.clean id s).toLinked
  have hfound' : s.registry.mPersistentClientStates.lookup clientId = some session := hfound
  have hout' : ¬ (s.registry.clients client).mLoggedOut = true := Bool.eq_false_iff.mp hout
  unfold Registry.loginClient Registry.replaceStyle
  rw [if_neg hout']
  simp only [hfound']
  unfold loginExisting at hlogin
  simp only at hlogin
  split at hlogin
  · next hyes =>
      obtain ⟨u, hlogout, hrest⟩ := bind_eq_ok hlogin
      cases hrest
      rw [if_pos (show _ ∨ (s.registry.sessions session).mCleanSession = .yes from hyes)]
      rw [registry_connected, registry_sendConnack, registry_logoutExisting (hreplaced _) hlogout,
        registry_replaceCurrentClient]
      rfl
  · next hno =>
      obtain ⟨u, hlogout, hrest⟩ := bind_eq_ok hlogin
      cases hrest
      rw [if_neg (show ¬ (_ ∨ (s.registry.sessions session).mCleanSession = .yes) from hno)]
      rw [registry_connected, registry_resend, registry_sendConnack,
        registry_logoutExisting (hreplaced _) hlogout, registry_replaceCurrentClient]
      rfl

omit [SubscriptionTree τ] in
/-- The constructor of the session names its connection already, so that it is unset and
set again. -/
theorem registry_loginNew (s : ApplicationState τ) (client : ConnectionId) (clientId : ByteString)
    (cleanSession : CleanSession) :
    (s.loginNew client clientId cleanSession).registry =
      (s.registry.openSession clientId).replaceCurrentClient s.nextSession client cleanSession
        .cleanSession := by
  let opened : ApplicationState τ := { s with
    nextSession := s.nextSession + 1
    mPersistentClientStates := s.mPersistentClientStates.insert clientId s.nextSession
    sessions := Function.update s.sessions s.nextSession
      { mClientID := clientId, mCleanSession := cleanSession, mCurrentClient := some client } }
  have hopened : opened.registry = (s.registry.openSession clientId).setSession s.nextSession
      { mClientID := clientId, mCleanSession := cleanSession, mCurrentClient := some client } := by
    simp only [registry, Registry.openSession, Registry.setSession, opened, Registry.mk.injEq,
      true_and, and_true, Function.update_idem]
    exact funext fun id => Function.apply_update (fun _ => PersistentClientState.registered) _ _ _ id
  have hlogin : (s.loginNew client clientId cleanSession).registry =
      (opened.replaceCurrentClient s.nextSession client cleanSession .cleanSession).registry := by
    simp only [loginNew]
    rw [registry_connected, registry_sendConnack]
  rw [hlogin, registry_replaceCurrentClient, hopened,
    show s.nextSession = s.registry.nextSession from rfl]
  simp only [Registry.replaceCurrentClient, Registry.openSession, Registry.setSession,
    Registry.link, Registry.setPersistentClientState, Registry.setClient, Function.update_self,
    Function.update_idem]

theorem registry_loginClient (h : s.registry.Registered) {thread : Thread}
    {cleanSession : CleanSession} {clientId generatedId : ByteString}
    (hclient : s.registry.attached client = none) (hlt : client < s.nextConnection)
    (hlogin : s.loginClient thread client clientId cleanSession generatedId = .ok t) :
    t.registry =
      s.registry.loginClient client (if clientId = [] then generatedId else clientId)
        cleanSession := by
  unfold loginClient at hlogin
  split at hlogin
  · next hout =>
      cases hlogin
      unfold Registry.loginClient
      rw [if_pos (show (s.registry.clients client).mLoggedOut = true from hout)]
  · next hout =>
      simp only at hlogin
      split at hlogin
      · next session hfound =>
          exact registry_loginExisting h hclient hlt (Bool.eq_false_iff.mpr hout) hfound hlogin
      · next hnew =>
          cases hlogin
          rw [registry_loginNew]
          unfold Registry.loginClient
          rw [if_neg (show ¬ (s.registry.clients client).mLoggedOut = true from hout)]
          rw [show s.registry.mPersistentClientStates.lookup _ = none from hnew]
          rfl

/-! ## Change requests -/

omit [SubscriptionTree τ] [Libnioev] in
@[simp] theorem registry_retain (s : ApplicationState τ) (packet : MQTTPacket) :
    (s.retain packet).registry = s.registry := by
  unfold retain
  split
  · rfl
  · rfl

end

/-- What a change request is to the registry. -/
def changeOp (generatedId : ByteString) : ChangeRequest → Registry.Op
  | .loginClient client clientId cleanSession =>
    .loginClient client (if clientId = [] then generatedId else clientId) cleanSession
  | .logoutClient client => .logoutClient client
  | _ => .nothing

section

variable [SubscriptionTree τ] [Libnioev] {thread : Thread} {generatedId : ByteString}
  {change : ChangeRequest}

theorem registry_visit (h : s.registry.Registered)
    (hop : s.registry.Permits (changeOp generatedId change))
    (hok : s.visit thread generatedId change = .ok t) :
    t.registry = s.registry.apply (changeOp generatedId change) := by
  cases change with
  | subscribe subscriber topic qos type => exact registry_subscribeClientInternal hok
  | unsubscribe subscriber topic =>
      cases hok
      rfl
  | unsubscribeFromAll subscriber =>
      cases hok
      rfl
  | retain packet =>
      cases hok
      exact registry_retain s packet
  | loginClient client clientId cleanSession => exact registry_loginClient h hop.1 hop.2 hok
  | logoutClient client => exact registry_logoutClient h.toLinked hok
  | deleteScript script =>
      cases hok
      rfl

theorem registry_executeChangeRequest (h : s.registry.Registered)
    (hop : s.registry.Permits (changeOp generatedId change))
    (hok : s.executeChangeRequest thread generatedId change = .ok t) :
    t.registry = s.registry.apply (changeOp generatedId change) := by
  rw [executeChangeRequest_eq] at hok
  exact registry_visit h hop hok

/-! ## Packets -/

omit [SubscriptionTree τ] [Libnioev] in
/-- A branch that needs the session and keeps all but its received identifiers. -/
theorem registry_withSession {f : PersistentClientState → PersistentClientState × List Work}
    {g : Finset UInt16 → Finset UInt16}
    (hf : ∀ state, (f state).1.registered = { state.registered with
      mQoS2receivingPacketIds := g state.mQoS2receivingPacketIds }) :
    (s.withSession client f).registry = s.registry.updateReceiving client g := by
  unfold withSession Registry.updateReceiving
  cases hattached : (s.connections client).mPersistentClientState with
  | none =>
      rw [show (s.registry.clients client).mPersistentClientState = none from hattached]
      rfl
  | some session =>
      rw [show (s.registry.clients client).mPersistentClientState = some session from hattached]
      refine (registry_updateSession s session fun _ => (f (s.sessions session)).1).trans ?_
      rw [hf]
      rfl

omit [SubscriptionTree τ] [Libnioev] in
theorem registry_withSession_of {f : PersistentClientState → PersistentClientState × List Work}
    (hf : ∀ state, (f state).1.registered = state.registered) :
    (s.withSession client f).registry = s.registry := by
  unfold withSession
  split
  · rfl
  · next session _ =>
      have hkept : (s.updateSession session fun _ => (f (s.sessions session)).1).registry =
          s.registry := registry_updateSession_of (hf _)
      exact hkept

end

/-- What a packet is to the registry. -/
def packetOp (client : ConnectionId) : ClientPacket → Registry.Op
  | .publish packet id => if packet.qos = .qos2 then .receiveQoS2 client id else .nothing
  | .pubRel id => .pubRel client id
  | .disconnect => .setWill client none
  | _ => .nothing

theorem registry_handlePacketReceived [Libnioev] (s : ApplicationState τ) (client : ConnectionId)
    (packet : ClientPacket) :
    (s.handlePacketReceived client packet).registry =
      s.registry.apply (packetOp client packet) := by
  cases packet with
  | publish packet id =>
      simp only [handlePacketReceived, packetOp]
      cases hqos : packet.qos with
      | qos0 => rfl
      | qos1 => rfl
      | qos2 =>
          rw [if_pos rfl]
          dsimp only
          exact registry_withSession (g := insert id) fun _ => rfl
  | pubAck id =>
      simp only [handlePacketReceived]
      exact registry_withSession_of fun _ => rfl
  | pubRel id =>
      simp only [handlePacketReceived]
      exact registry_withSession (g := (·.erase id)) fun _ => rfl
  | pubRec id =>
      simp only [handlePacketReceived]
      exact registry_withSession_of fun _ => rfl
  | pubComp id =>
      simp only [handlePacketReceived]
      exact registry_withSession_of fun _ => rfl
  | subscribe id topics complete => rfl
  | unsubscribe id topics complete => rfl
  | pingReq => rfl
  | disconnect =>
      have hwill : (s.updateConnection client fun conn => { conn with mWill := none }).registry =
          s.registry.setWill client none := registry_updateConnection _ _ _
      exact hwill

/-! ## Steps -/

section

variable [Libnioev]

/-- What a step is to the registry. -/
def registryOp (s : ApplicationState τ) : Action → Registry.Op
  | .newConnection _ _ => .newConnection
  | .connect client packet => .setWill client packet.will
  | .packet client packet => packetOp client packet
  | .execute randomChars =>
    match s.mQueue with
    | [] => .nothing
    | request :: _ =>
      match s.generatedFor randomChars request.change with
      | none => .nothing
      | some generatedId => changeOp generatedId request.change
  | .logoutSendError client | .timeout client _ => .logoutClient client
  | .cleanup => .setClients s.eraseDisconnected.mClients
  | _ => .nothing

end

section

variable [Libnioev] [SubscriptionTree τ]

omit [Libnioev] [SubscriptionTree τ] in
/-- The view and the registry agree on who waits for a login. -/
theorem Linked.permits (h : s.Linked) {request : Request} {queue : List Request}
    (hqueue : s.mQueue = request :: queue) (generatedId : ByteString) :
    s.registry.Permits (changeOp generatedId request.change) := by
  cases hchange : request.change with
  | loginClient client clientId cleanSession =>
      obtain ⟨hstate, -, -⟩ := h.view.dequeuedLogin hqueue hchange
      refine ⟨h.view.unattached (by rw [hstate]; decide), Nat.lt_of_not_le fun hle => ?_⟩
      rw [h.view.freshConnection client hle] at hstate
      cases hstate
  | _ => trivial

theorem registry_proceed {thread : Thread} {lockTaken : Bool} {work : Work} {rest : List Work}
    (hproceed : s.proceed thread lockTaken work rest = some (.ok t)) : t.registry = s.registry := by
  cases proceeds_of_proceed hproceed with
  | retain => exact registry_retain _ _
  | request => exact registry_requestChange _ _ _
  | publish hok =>
      have hpublished := registry_publishNoLockNoRetain hok
      exact hpublished
  | reply => exact registry_sendData _ _ _
  | _ => rfl

/-- Every step does to the registry one of its operations. -/
theorem registry_step {action : Action} (h : s.Linked) (hr : s.registry.Registered)
    (hstep : s.step action = some (.ok t)) :
    t.registry = s.registry.apply (s.registryOp action) ∧
      s.registry.Permits (s.registryOp action) := by
  have hsteps := steps_of_step hstep
  clear hstep
  cases hsteps with
  | newConnection =>
      refine ⟨?_, trivial⟩
      simp only [registry, handleNewClientConnection, Registry.apply, registryOp,
        Registry.newConnection, Registry.mk.injEq, and_true]
      exact funext fun c => Function.apply_update (fun _ => MQTTClientConnection.registered) _ _ _ c
  | receiveData hclient => exact ⟨registry_updateConnection_of rfl, trivial⟩
  | @connect client packet hclient hidle hstate =>
      refine ⟨?_, trivial⟩
      have hwill : (s.updateConnection client fun conn => { conn with
          mMQTTVersion := packet.version
          mKeepAliveIntervalSeconds := packet.keepAlive
          mWill := packet.will
          mState := .connecting }).registry = s.registry.setWill client packet.will :=
        registry_updateConnection _ _ _
      exact hwill
  | rejectVersion hclient hidle hstate =>
      exact ⟨(registry_sendData _ _ _).trans (registry_updateConnection_of rfl), trivial⟩
  | @packet client packet hclient hidle hstate =>
      refine ⟨registry_handlePacketReceived s client packet, ?_⟩
      cases packet with
      | publish packet id =>
          simp only [registryOp, packetOp]
          split
          · trivial
          · trivial
      | _ => trivial
  | receiveError hclient hidle => exact ⟨rfl, trivial⟩
  | start hexternal hidle => exact ⟨rfl, trivial⟩
  | proceed hwork hok => exact ⟨registry_proceed hok, trivial⟩
  | @execute randomChars request queue generatedId _ hqueue hgenerated hok =>
      have hop : s.registryOp (.execute randomChars) = changeOp generatedId request.change := by
        simp only [registryOp, hqueue]
        rw [hgenerated]
      rw [hop]
      have hpermits := h.permits hqueue generatedId
      have hexecuted := registry_executeChangeRequest (s := { s with mQueue := queue }) hr hpermits hok
      exact ⟨hexecuted, hpermits⟩
  | @executeInternal randomChars request queue generatedId _ hqueue hok =>
      obtain ⟨packet, hchange⟩ := h.exists_retain hqueue
      rw [hchange] at hok
      -- Only retain requests are made by whoever holds the lock, and they log nobody in.
      have hpermits : s.registry.Permits (changeOp generatedId (.retain packet)) := trivial
      have hexecuted := registry_executeChangeRequest (s := { s with mQueueInternal := queue }) hr
        hpermits hok
      exact ⟨hexecuted, trivial⟩
  | sendError hclient => exact ⟨registry_updateConnection_of rfl, trivial⟩
  | logoutSendError hclient hok => exact ⟨registry_logoutClient hr.toLinked hok, trivial⟩
  | timeout hclient htimedOut hok => exact ⟨registry_logoutClient hr.toLinked hok, trivial⟩
  | cleanup hidle =>
      refine ⟨rfl, fun client hclient hout => List.mem_filter.mpr ⟨hclient, ?_⟩⟩
      rw [decide_eq_true_iff]
      rintro ⟨htrue, -⟩
      exact absurd (htrue.symm.trans hout) Bool.noConfusion

end

/-! ## The list of connections -/

theorem keepsClients_packetOp (client : ConnectionId) (packet : ClientPacket) :
    (packetOp client packet).KeepsClients := by
  cases packet with
  | publish packet id =>
      simp only [packetOp]
      split
      · trivial
      · trivial
  | _ => trivial

theorem keepsClients_changeOp (generatedId : ByteString) (change : ChangeRequest) :
    (changeOp generatedId change).KeepsClients := by
  cases change with
  | _ => trivial

theorem keepsClients_registryOp (s : ApplicationState τ) {action : Action}
    (hnew : ∀ remote now, action ≠ .newConnection remote now) (hcleanup : action ≠ .cleanup) :
    (s.registryOp action).KeepsClients := by
  cases action with
  | newConnection remote now => exact absurd rfl (hnew remote now)
  | cleanup => exact absurd rfl hcleanup
  | packet client packet => exact keepsClients_packetOp client packet
  | execute randomChars =>
      simp only [registryOp]
      split
      · trivial
      · split
        · trivial
        · exact keepsClients_changeOp _ _
  | _ => trivial

end ApplicationState

end NioevMqtt
