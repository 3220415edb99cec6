-- SUMMARY: What a login sends its connection, and what it leaves a session to send: everything, if the session is resumed, and otherwise nothing.
import NioevMqtt.Broker.CleanStart
import NioevMqtt.Broker.Outgoing

/-!
# What a login sends

The `CONNACK` comes first, and after it what the session has to send again. The
connection the session is taken from is gone by then, so that nothing is published in
between.
-/

namespace NioevMqtt

open Outcome

/-- What a connection has been sent, and the version it speaks. -/
def MQTTClientConnection.wire (conn : MQTTClientConnection) : List EncodedPacket × MQTTVersion :=
  (conn.sent, conn.mMQTTVersion)

namespace ApplicationState

variable {τ : Type} {s t : ApplicationState τ} {client : ConnectionId} {session : SessionId}
  {login : Login} {action : Action}

/-! ## The packets -/

section

variable [Libnioev]

def connack (version : MQTTVersion) (sessionPresent : SessionPresent) : EncodedPacket :=
  let response : List UInt8 := [if sessionPresent = .yes then 1 else 0, 0]
  let response :=
    if version = .v5 then
      response ++ Libnioev.encodePropertyList
        [(.topicAliasMaximum, .twoBytes 0), (.subscriptionIdentifierAvailable, .byte 0),
          (.sharedSubscriptionAvailable, .byte 0)]
    else response
  .fromData (MQTTMessageType.connack.toUInt8 <<< 4) response

omit [Libnioev] in
def pubrel (id : UInt16) : EncodedPacket :=
  .fromData (MQTTMessageType.pubrel.toUInt8 <<< 4 ||| 0b10) (bigEndianBytes id)

/-- What a login sends. -/
def loginPackets (s : ApplicationState τ) (login : Login) : List EncodedPacket :=
  let version := (s.connections login.client).mMQTTVersion
  if s.Resumes login then
    let state := s.sessions (s.sessionFor login)
    connack version .yes :: ((orderedPackets state).map (·.mPacket.setDupFlag) ++
      (pubrelIdentifiers state).map pubrel)
  else [connack version .no]

theorem loginPackets_of_resumes (h : s.Resumes login) :
    s.loginPackets login = connack (s.connections login.client).mMQTTVersion .yes ::
      ((orderedPackets (s.sessions (s.sessionFor login))).map (·.mPacket.setDupFlag) ++
        (pubrelIdentifiers (s.sessions (s.sessionFor login))).map pubrel) := if_pos h

theorem loginPackets_of_clean (h : ¬ s.Resumes login) :
    s.loginPackets login = [connack (s.connections login.client).mMQTTVersion .no] := if_neg h

end

/-! ## What a connection has been sent -/

def wire (s : ApplicationState τ) : ConnectionId → List EncodedPacket × MQTTVersion :=
  fun client => (s.connections client).wire

theorem wire_updateConnection (s : ApplicationState τ) (client : ConnectionId)
    (f : MQTTClientConnection → MQTTClientConnection) :
    (s.updateConnection client f).wire = Function.update s.wire client (f (s.connections client)).wire :=
  funext fun c => Function.apply_update (fun _ => MQTTClientConnection.wire) _ _ _ c

theorem wire_updateConnection_of {f : MQTTClientConnection → MQTTClientConnection}
    (h : (f (s.connections client)).wire = (s.connections client).wire) :
    (s.updateConnection client f).wire = s.wire := by
  rw [wire_updateConnection, h]
  exact Function.update_eq_self client s.wire

theorem wire_sendData (s : ApplicationState τ) (client : ConnectionId) (packet : EncodedPacket) :
    (s.sendData client packet).wire client = ((s.wire client).1 ++ [packet], (s.wire client).2) := by
  unfold sendData
  rw [wire_updateConnection, Function.update_self]
  rfl

theorem wire_foldl_sendData {α : Type} (packet : α → EncodedPacket) (l : List α)
    (client : ConnectionId) (s : ApplicationState τ) :
    (l.foldl (fun s a => s.sendData client (packet a)) s).wire client =
      ((s.wire client).1 ++ l.map packet, (s.wire client).2) := by
  induction l generalizing s with
  | nil => rw [List.foldl_nil, List.map_nil, List.append_nil]
  | cons a l ih =>
      rw [List.foldl_cons, ih, wire_sendData, List.map_cons, List.append_assoc]
      rfl

theorem wire_connected (s : ApplicationState τ) (client : ConnectionId) :
    (s.connected client).wire = s.wire := by
  unfold connected setStateAtomic
  exact wire_updateConnection_of rfl

theorem wire_markLoggedOut (s : ApplicationState τ) (client : ConnectionId) :
    (s.markLoggedOut client).wire = s.wire := by
  simp only [markLoggedOut]
  exact wire_updateConnection_of rfl

theorem wire_replaceCurrentClient (s : ApplicationState τ) (session : SessionId)
    (client : ConnectionId) (cleanSession : CleanSession) (style : ReplaceStyle) :
    (s.replaceCurrentClient session client cleanSession style).wire = s.wire := by
  have hreplaced : ∀ v : ApplicationState τ, v.wire = s.wire →
      ((v.updateSession session
        (·.replaceCurrentClient client cleanSession style)).updateConnection client fun conn =>
          { conn with
            mPersistentClientState := some session
            mProperClientId := some ((v.updateSession session
              (·.replaceCurrentClient client cleanSession style)).sessions session).mClientID }).wire =
        s.wire := by
    intro v hv
    exact (wire_updateConnection_of rfl).trans hv
  simp only [replaceCurrentClient]
  split
  · exact hreplaced _ (wire_updateConnection_of rfl)
  · exact hreplaced s rfl

section

variable [Libnioev]

theorem wire_sendConnack (s : ApplicationState τ) (client : ConnectionId)
    (sessionPresent : SessionPresent) :
    (s.sendConnack client sessionPresent).wire client =
      ((s.wire client).1 ++ [connack (s.wire client).2 sessionPresent], (s.wire client).2) :=
  wire_sendData s client _

theorem wire_resend (s : ApplicationState τ) (client : ConnectionId) (session : SessionId) :
    (s.resend client session).wire client =
      ((s.wire client).1 ++ ((orderedPackets (s.sessions session)).map (·.mPacket.setDupFlag) ++
        (pubrelIdentifiers (s.sessions session)).map pubrel), (s.wire client).2) := by
  refine (wire_foldl_sendData pubrel (pubrelIdentifiers (s.sessions session)) client _).trans ?_
  rw [wire_foldl_sendData fun packet : HighQoSRetainStorage => packet.mPacket.setDupFlag,
    List.append_assoc]

theorem keepsOutgoing_resend (s : ApplicationState τ) (client : ConnectionId) (session : SessionId) :
    s.KeepsOutgoing (s.resend client session) :=
  (keepsOutgoing_foldl_sendData (fun packet : HighQoSRetainStorage => packet.mPacket.setDupFlag) _
    client s).trans (keepsOutgoing_foldl_sendData pubrel _ client _)

end

/-! ## Logins -/

section

variable [Libnioev] [SubscriptionTree τ]

omit [SubscriptionTree τ] in
/-- What a login comes to for its connection, and for what is to be sent. -/
structure SendsLogin (s : ApplicationState τ) (login : Login) (t : ApplicationState τ) : Prop where
  sent_eq : (t.wire login.client).1 = (s.wire login.client).1 ++ s.loginPackets login
  outgoing_eq : t.outgoing =
    if s.Resumes login then s.outgoing else Function.update s.outgoing (s.sessionFor login) ⟨∅, ∅⟩
  globalOrderCounter_eq : t.globalOrderCounter = s.globalOrderCounter

omit [Libnioev] [SubscriptionTree τ] in
/-- What is sent again depends on the tables alone. -/
theorem resent_of_outgoing {state state' : PersistentClientState}
    (h : state.outgoing = state'.outgoing) :
    orderedPackets state = orderedPackets state' ∧
      pubrelIdentifiers state = pubrelIdentifiers state' := by
  obtain ⟨hpackets, hreleased⟩ := Outgoing.mk.injEq .. ▸ h
  unfold orderedPackets pubrelIdentifiers
  rw [hpackets, hreleased]
  exact ⟨rfl, rfl⟩

/-- The connection the session is taken from is only marked. -/
theorem logoutExisting_keeps (h : s.view.Attached) (hclient : s.view.attached client = none)
    (session : SessionId) (cleanSession : CleanSession) (style : ReplaceStyle) :
    ∃ u, (s.replaceCurrentClient session client cleanSession style).logoutExisting .worker
        (s.sessions session).mCurrentClient = .ok u ∧ u.wire = s.wire ∧
      u.outgoing =
        (if style = .cleanSession then Function.update s.outgoing session ⟨∅, ∅⟩ else s.outgoing) ∧
      u.globalOrderCounter = s.globalOrderCounter := by
  obtain ⟨u, hu, hmarked⟩ := logoutExisting_eq h hclient .worker session cleanSession style
  obtain ⟨houtgoing, hcounter⟩ := outgoing_replaceCurrentClient s session client cleanSession style
  have hwire := wire_replaceCurrentClient s session client cleanSession style
  refine ⟨u, hu, ?_⟩
  rcases hmarked with rfl | ⟨old, rfl⟩
  · exact ⟨hwire, houtgoing, hcounter⟩
  · exact ⟨(wire_markLoggedOut _ old).trans hwire, houtgoing, hcounter⟩

theorem sendsLogin_existing (h : s.view.Attached) (hclient : s.view.attached login.client = none)
    (hstored : s.storedSession login = some session)
    (hok : s.loginExisting .worker login.client session login.cleanSession = .ok t) :
    s.SendsLogin login t := by
  have hsession := sessionFor_of_stored hstored
  unfold loginExisting at hok
  simp only at hok
  split at hok
  · next hclean =>
      have hresumes : ¬ s.Resumes login := by
        rintro ⟨session', hsome, hno, hkept⟩
        cases hstored.symm.trans hsome
        rcases hclean with hyes | hyes
        · cases hyes.symm.trans hno
        · cases hyes.symm.trans hkept
      obtain ⟨u, hu, hwire, houtgoing, hcounter⟩ :=
        logoutExisting_keeps h hclient session login.cleanSession .cleanSession
      rw [hu] at hok
      cases hok
      refine ⟨?_, ?_, hcounter⟩
      · rw [wire_connected, wire_sendConnack, hwire, loginPackets_of_clean hresumes]
        rfl
      · rw [if_neg hresumes, hsession]
        exact houtgoing
  · next hresumed =>
      have hresumes : s.Resumes login := by
        by_contra hnot
        exact hresumed (clean_of_not_resumes hstored hnot)
      obtain ⟨u, hu, hwire, houtgoing, hcounter⟩ :=
        logoutExisting_keeps h hclient session login.cleanSession .simpleReplace
      rw [hu] at hok
      cases hok
      have hkept := keepsOutgoing_resend (u.sendConnack login.client .yes) login.client session
      have hsame : ((u.sendConnack login.client .yes).sessions session).outgoing =
          (s.sessions session).outgoing := congrFun houtgoing session
      obtain ⟨hordered, hpubrel⟩ := resent_of_outgoing hsame
      refine ⟨?_, ?_, hkept.globalOrderCounter_eq.trans hcounter⟩
      · rw [wire_connected, wire_resend, wire_sendConnack, hwire, hordered, hpubrel,
          loginPackets_of_resumes hresumes, hsession, List.append_assoc]
        rfl
      · rw [if_pos hresumes]
        exact hkept.outgoing_eq.trans houtgoing

omit [SubscriptionTree τ] in
theorem sendsLogin_new (hnone : s.storedSession login = none) :
    s.SendsLogin login (s.loginNew login.client login.clientId login.cleanSession) := by
  have hresumes : ¬ s.Resumes login := by
    rintro ⟨session, hsome, -⟩
    cases hnone.symm.trans hsome
  let opened : ApplicationState τ := { s with
    nextSession := s.nextSession + 1
    mPersistentClientStates := s.mPersistentClientStates.insert login.clientId s.nextSession
    sessions := Function.update s.sessions s.nextSession
      { mClientID := login.clientId, mCleanSession := login.cleanSession,
        mCurrentClient := some login.client } }
  have hopened : opened.outgoing = Function.update s.outgoing s.nextSession ⟨∅, ∅⟩ :=
    funext fun id => Function.apply_update (fun _ => PersistentClientState.outgoing) _ _ _ id
  have hwire := wire_replaceCurrentClient opened s.nextSession login.client login.cleanSession
    .cleanSession
  obtain ⟨houtgoing, hcounter⟩ := outgoing_replaceCurrentClient opened s.nextSession login.client
    login.cleanSession .cleanSession
  rw [if_pos rfl, hopened, Function.update_idem] at houtgoing
  refine ⟨?_, ?_, hcounter⟩
  · unfold loginNew
    rw [wire_connected, wire_sendConnack, loginPackets_of_clean hresumes]
    rw [hwire]
    rfl
  · rw [if_neg hresumes, sessionFor_of_new hnone]
    exact houtgoing

/-- A login that is executed sends what it is to send, and changes no other session. -/
theorem sendsLogin_of_executedLogin (h : s.Linked) (hstep : s.stepOk action = some t)
    (hlogin : s.executedLogin action = some login) : s.SendsLogin login t := by
  obtain ⟨queue, hattached, hclient, hlogs⟩ := logsIn_of_executedLogin h hstep hlogin
  have hsends : SendsLogin { s with mQueue := queue } login t := by
    cases hlogs with
    | existing hstored hok => exact sendsLogin_existing hattached hclient hstored hok
    | new hnone => exact sendsLogin_new hnone
  exact ⟨hsends.sent_eq, hsends.outgoing_eq, hsends.globalOrderCounter_eq⟩

end

end ApplicationState

end NioevMqtt
