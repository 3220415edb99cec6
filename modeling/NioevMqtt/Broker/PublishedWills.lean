-- SUMMARY: Published wills: the wills that the logouts of a step publish are exactly the messages `publishInternal` is called with in it.
import NioevMqtt.Broker.Receipts

/-!
# Published wills

`publishInternal` is called by `logoutClient` only, with the will of a connection that is
attached. A step publishes so the wills of the connections it logs out; a login detaches
the connection it takes a session from before it logs it out.
-/

namespace NioevMqtt

open Outcome

namespace ApplicationState

section

variable {τ : Type} {s t : ApplicationState τ} {client : ConnectionId} {action : Action}

/-! ## Logouts -/

/-- The will that `logoutClient` publishes. -/
def logoutWill (s : ApplicationState τ) (client : ConnectionId) : Option MQTTPacket :=
  if (s.connections client).mLoggedOut ∨ (s.connections client).mPersistentClientState = none then
    none
  else (s.connections client).mWill

/-- The connection a login finds with the session it gets. -/
def takenOver (s : ApplicationState τ) (login : Login) : Option ConnectionId :=
  (s.storedSession login).bind fun session => (s.sessions session).mCurrentClient

/-- The calls of `logoutClient` in a step: the state each is made in, and its client. -/
def logouts (s : ApplicationState τ) (action : Action) :
    List (ApplicationState τ × ConnectionId) :=
  match action with
  | .logoutSendError client | .timeout client _ => [(s, client)]
  | .execute _ =>
    match s.mQueue with
    | ⟨.logoutClient client, _⟩ :: queue => [({ s with mQueue := queue }, client)]
    | ⟨.loginClient _ _ _, _⟩ :: queue =>
      match s.executedLogin action with
      | none => []
      | some login =>
        match s.storedSession login with
        | none => []
        | some session =>
          let style := if s.Resumes login then .simpleReplace else .cleanSession
          (s.takenOver login).toList.map fun existingClient =>
            (replaceCurrentClient { s with mQueue := queue } session login.client login.cleanSession
              style, existingClient)
    | _ => []
  | _ => []

/-- The wills a step publishes, and whose they are. -/
def publishedWills (s : ApplicationState τ) (action : Action) : List (ConnectionId × MQTTPacket) :=
  (s.logouts action).filterMap fun call => (call.1.logoutWill call.2).map (call.2, ·)

/-- The messages published in a step: by a thread, or as wills. -/
def publications (s : ApplicationState τ) (action : Action) : List MQTTPacket :=
  (s.published action).toList ++ (s.publishedWills action).map Prod.snd

section

variable [Libnioev] [SubscriptionTree τ]

/-- A logout publishes the will, if there is one to publish, and nothing else. -/
theorem logoutClient_eq (s : ApplicationState τ) (thread : Thread) (client : ConnectionId) :
    s.logoutClient thread client =
      if (s.connections client).mLoggedOut then .ok s
      else do
        let s' ← (match s.logoutWill client with
          | none => .ok (s.markLoggedOut client)
          | some willMsg => (s.markLoggedOut client).publishInternal thread willMsg)
        match (s.connections client).mPersistentClientState with
        | none => .ok s'
        | some state => do
          let s' ← s'.dropCurrentClient state
          return s'.deleteCleanSession state := by
  have hmarked : ((s.markLoggedOut client).connections client) =
      { s.connections client with mLoggedOut := true } := by
    simp only [markLoggedOut, updateConnection, Function.update_self]
  unfold logoutClient logoutWill publishWill
  cases hout : (s.connections client).mLoggedOut with
  | true => rfl
  | false =>
      cases hattached : (s.connections client).mPersistentClientState with
      | none =>
          simp only [hmarked, hattached]
          rfl
      | some state =>
          simp only [hmarked, hattached]
          cases (s.connections client).mWill with
          | none => rfl
          | some willMsg => rfl

end

/-- A connection whose session is replaced has no will to publish. -/
theorem logoutWill_replaceCurrentClient {session : SessionId} {old : ConnectionId}
    (hcurrent : (s.sessions session).mCurrentClient = some old) (hne : old ≠ client)
    (cleanSession : CleanSession) (style : ReplaceStyle) :
    (s.replaceCurrentClient session client cleanSession style).logoutWill old = none := by
  have hdetached :
      (s.replaceCurrentClient session client cleanSession style).registry.attached old = none := by
    rw [registry_replaceCurrentClient, Registry.attached_replaceCurrentClient,
      Function.update_of_ne hne, show s.registry.currentClient session = some old from hcurrent]
    exact Function.update_self _ _ _
  exact if_pos (.inr hdetached)

/-- A login detaches the connection it takes the session of before it logs it out, and
publishes no will. -/
theorem publishedWills_login {login : Login} (h : s.registry.Registered)
    (hclient : s.registry.attached login.client = none)
    (hlogin : s.executedLogin action = some login) : s.publishedWills action = [] := by
  have hexecute := hlogin
  unfold executedLogin at hexecute
  split at hexecute
  · next randomChars =>
    split at hexecute
    · next client clientId cleanSession thread queue hqueue =>
        simp only [publishedWills, logouts, hqueue, hlogin]
        cases hstored : s.storedSession login with
        | none => rfl
        | some session =>
            simp only [takenOver, hstored, Option.bind_some]
            cases hcurrent : (s.sessions session).mCurrentClient with
            | none => rfl
            | some old =>
                have hne : old ≠ login.client := h.inverse.ne hclient hcurrent
                -- The connection has lost its session before it is logged out.
                have hnone := logoutWill_replaceCurrentClient (s := { s with mQueue := queue })
                  hcurrent hne login.cleanSession
                simp only [Option.toList_some, List.map_cons, List.map_nil, List.filterMap_cons,
                  List.filterMap_nil, hnone, Option.map_none]
    · cases hexecute
  · cases hexecute

/-- What a logout publishes is the will of its connection. -/
theorem publishedWills_logout (haction : s.registryOp action = .logoutClient client) :
    s.publishedWills action = ((s.logoutWill client).map (client, ·)).toList := by
  have hcall : ∀ u : ApplicationState τ, u.logoutWill client = s.logoutWill client →
      s.logouts action = [(u, client)] →
        s.publishedWills action = ((s.logoutWill client).map (client, ·)).toList := by
    intro u hwill hlogouts
    rw [publishedWills, hlogouts, List.filterMap_cons, hwill]
    cases s.logoutWill client with
    | none => rfl
    | some willMsg => rfl
  cases action with
  | logoutSendError c =>
      cases haction
      exact hcall s rfl rfl
  | timeout c now =>
      cases haction
      exact hcall s rfl rfl
  | packet c packet =>
      cases packet with
      | publish packet id =>
          simp only [registryOp, packetOp] at haction
          split at haction
          · cases haction
          · cases haction
      | _ => cases haction
  | execute randomChars =>
      simp only [registryOp] at haction
      split at haction
      · cases haction
      · next request queue hqueue =>
          split at haction
          · cases haction
          · next generatedId _ =>
              obtain ⟨change, thread⟩ := request
              cases change with
              | logoutClient c =>
                  cases haction
                  refine hcall { s with mQueue := queue } rfl ?_
                  simp only [logouts, hqueue]
              | _ => cases haction
  | _ => cases haction

theorem snd_publishedWills_logout (haction : s.registryOp action = .logoutClient client) :
    (s.publishedWills action).map Prod.snd = (s.logoutWill client).toList := by
  rw [publishedWills_logout haction]
  cases s.logoutWill client with
  | none => rfl
  | some willMsg => rfl

/-- Other requests publish none. -/
theorem publishedWills_of_no_logout {randomChars : List ByteString}
    (hlogin : s.executedLogin (.execute randomChars) = none)
    (hlogout : ∀ client, s.registryOp (.execute randomChars) ≠ .logoutClient client) :
    s.publishedWills (.execute randomChars) = [] := by
  cases hqueue : s.mQueue with
  | nil => simp only [publishedWills, logouts, hqueue, List.filterMap_nil]
  | cons request queue =>
      obtain ⟨change, thread⟩ := request
      cases change with
      | loginClient client clientId cleanSession =>
          simp only [publishedWills, logouts, hqueue, hlogin, List.filterMap_nil]
      | logoutClient client =>
          refine absurd ?_ (hlogout client)
          simp only [registryOp, hqueue]
          rfl
      | _ => simp only [publishedWills, logouts, hqueue, List.filterMap_nil]

/-! ## The calls of `publishInternal` -/

section

variable [Libnioev]

theorem publishedInternally_sendPublish {sub : Subscriber} {topic : ByteString}
    {payload : List UInt8} {qos : QoS} {retained : Retained} {properties : PropertyList}
    (h : s.sendPublish sub topic payload qos retained properties = .ok t) :
    t.publishedInternally = s.publishedInternally := by
  cases sub with
  | other id =>
      cases h
      rfl
  | session id =>
      obtain ⟨published, -, hsent⟩ := bind_eq_ok h
      cases hclient : published.sent with
      | none =>
          rw [hclient] at hsent
          cases hsent
          rfl
      | some sent =>
          rw [hclient] at hsent
          cases hsent
          rfl

theorem publishedInternally_foldlM_deliver {deliveries : List Delivery}
    (h : deliveries.foldlM deliver s = .ok t) : t.publishedInternally = s.publishedInternally :=
  foldlM_invariant (P := fun u : ApplicationState τ => u.publishedInternally = s.publishedInternally)
    (fun _ _ _ hu hdelivered => (publishedInternally_sendPublish hdelivered).trans hu) h rfl

variable [SubscriptionTree τ]

theorem publishedInternally_publishNoLockNoRetain {packet : MQTTPacket}
    (h : s.publishNoLockNoRetain packet = .ok t) :
    t.publishedInternally = s.publishedInternally := by
  have hdelivered : ((s.fanOut packet).map (publishedDelivery packet)).foldlM deliver s = .ok t := by
    rw [← h]
    exact (publishToMatches_eq packet [] _ s).symm
  exact publishedInternally_foldlM_deliver hdelivered

theorem publishedInternally_publishInternal {thread : Thread} {packet : MQTTPacket}
    (h : s.publishInternal thread packet = .ok t) :
    t.publishedInternally = s.publishedInternally ++ [packet] := by
  obtain ⟨u, hpublished, hretain⟩ := bind_eq_ok h
  have hnoted : u.publishedInternally = s.publishedInternally ++ [packet] :=
    publishedInternally_publishNoLockNoRetain hpublished
  split at hretain
  · cases hretain
    exact hnoted
  · cases hretain
    exact hnoted

omit [Libnioev] in
theorem publishedInternally_deleteCleanSession (s : ApplicationState τ) (session : SessionId) :
    (s.deleteCleanSession session).publishedInternally = s.publishedInternally := by
  unfold deleteCleanSession
  split
  · split
    · rfl
    · rfl
  · rfl

/-- A logout calls it with the will. -/
theorem publishedInternally_logoutClient {thread : Thread}
    (h : s.logoutClient thread client = .ok t) :
    t.publishedInternally = s.publishedInternally ++ (s.logoutWill client).toList := by
  rw [logoutClient_eq] at h
  split at h
  · next hout =>
      cases h
      have hnone : s.logoutWill client = none := if_pos (.inl hout)
      rw [hnone]
      exact (List.append_nil _).symm
  · obtain ⟨u, hwill, hrest⟩ := bind_eq_ok h
    have hpublished : u.publishedInternally =
        s.publishedInternally ++ (s.logoutWill client).toList := by
      cases hlogout : s.logoutWill client with
      | none =>
          rw [hlogout] at hwill
          cases hwill
          exact (List.append_nil _).symm
      | some willMsg =>
          rw [hlogout] at hwill
          exact publishedInternally_publishInternal (s := s.markLoggedOut client) hwill
    rw [← hpublished]
    split at hrest
    · cases hrest
      rfl
    · obtain ⟨v, hdrop, hdelete⟩ := bind_eq_ok hrest
      cases hdelete
      obtain ⟨⟨old, dropped⟩, -, hset⟩ := bind_eq_ok hdrop
      cases hset
      exact publishedInternally_deleteCleanSession _ _

omit [Libnioev] [SubscriptionTree τ] in
theorem publishedInternally_replaceCurrentClient (s : ApplicationState τ) (session : SessionId)
    (client : ConnectionId) (cleanSession : CleanSession) (style : ReplaceStyle) :
    (s.replaceCurrentClient session client cleanSession style).publishedInternally =
      s.publishedInternally := by
  simp only [replaceCurrentClient]
  split
  · rfl
  · rfl

omit [Libnioev] [SubscriptionTree τ] in
theorem publishedInternally_foldl_sendData {α : Type} (packet : α → EncodedPacket) (l : List α)
    (client : ConnectionId) (s : ApplicationState τ) :
    (l.foldl (fun s a => s.sendData client (packet a)) s).publishedInternally =
      s.publishedInternally := by
  induction l generalizing s with
  | nil => rfl
  | cons a l ih => exact ih (s.sendData client (packet a))

/-- The connection a login takes a session from is logged out without its will. -/
theorem publishedInternally_takeover (h : s.registry.Registered) {session : SessionId}
    (hclient : s.registry.attached client = none) {cleanSession : CleanSession}
    {style : ReplaceStyle} {thread : Thread}
    (hok : (s.replaceCurrentClient session client cleanSession style).logoutExisting thread
      (s.sessions session).mCurrentClient = .ok t) :
    t.publishedInternally = s.publishedInternally := by
  rw [← publishedInternally_replaceCurrentClient s session client cleanSession style]
  cases hcurrent : (s.sessions session).mCurrentClient with
  | none =>
      rw [hcurrent] at hok
      cases hok
      rfl
  | some old =>
      rw [hcurrent] at hok
      have hnone := logoutWill_replaceCurrentClient hcurrent (h.inverse.ne hclient hcurrent)
        cleanSession style
      rw [publishedInternally_logoutClient hok, hnone]
      exact List.append_nil _

theorem publishedInternally_logsIn (h : s.registry.Registered) {login : Login}
    (hclient : s.registry.attached login.client = none) (hlogs : s.LogsIn login t) :
    t.publishedInternally = s.publishedInternally := by
  cases hlogs with
  | existing hstored hok =>
      unfold loginExisting at hok
      simp only at hok
      split at hok
      · obtain ⟨u, hu, hsent⟩ := bind_eq_ok hok
        cases hsent
        rw [← publishedInternally_takeover h hclient hu]
        rfl
      · obtain ⟨u, hu, hsent⟩ := bind_eq_ok hok
        cases hsent
        rw [← publishedInternally_takeover h hclient hu]
        refine (publishedInternally_foldl_sendData _ _ login.client _).trans ?_
        exact publishedInternally_foldl_sendData _ _ login.client _
  | new hnone =>
      exact publishedInternally_replaceCurrentClient _ _ login.client login.cleanSession
        .cleanSession

omit [SubscriptionTree τ] [Libnioev] in
theorem publishedInternally_retain (s : ApplicationState τ) (packet : MQTTPacket) :
    (s.retain packet).publishedInternally = s.publishedInternally := by
  unfold retain
  split
  · rfl
  · rfl

/-- Other requests than a login: only a logout publishes. -/
theorem publishedInternally_executeChangeRequest {thread : Thread} {generatedId : ByteString}
    {change : ChangeRequest} (hlogin : ∀ client clientId cleanSession,
      change = .loginClient client clientId cleanSession → (s.connections client).mLoggedOut = true)
    (hlogout : ∀ client, change = .logoutClient client → s.logoutWill client = none)
    (h : s.executeChangeRequest thread generatedId change = .ok t) :
    t.publishedInternally = s.publishedInternally := by
  have hvisit := (executeChangeRequest_eq s thread generatedId _).symm.trans h
  cases change with
  | subscribe subscriber topic qos type =>
      simp only [visit, subscribeClientInternal] at hvisit
      rw [sendAllRetained_eq] at hvisit
      have hdelivered := publishedInternally_foldlM_deliver hvisit
      exact hdelivered
  | logoutClient client =>
      rw [publishedInternally_logoutClient hvisit, hlogout client rfl]
      exact List.append_nil _
  | loginClient client clientId cleanSession =>
      simp only [visit, loginClient] at hvisit
      rw [if_pos (hlogin client clientId cleanSession rfl)] at hvisit
      cases hvisit
      rfl
  | retain packet =>
      cases hvisit
      exact publishedInternally_retain s packet
  | unsubscribe subscriber topic =>
      cases hvisit
      rfl
  | unsubscribeFromAll subscriber =>
      cases hvisit
      rfl
  | deleteScript script =>
      cases hvisit
      rfl

omit [SubscriptionTree τ] [Libnioev] in
theorem publishedInternally_withSession (s : ApplicationState τ) (client : ConnectionId)
    (f : PersistentClientState → PersistentClientState × List Work) :
    (s.withSession client f).publishedInternally = s.publishedInternally := by
  unfold withSession
  split
  · rfl
  · rfl

omit [SubscriptionTree τ] in
theorem publishedInternally_handlePacketReceived (s : ApplicationState τ) (client : ConnectionId)
    (packet : ClientPacket) :
    (s.handlePacketReceived client packet).publishedInternally = s.publishedInternally := by
  cases packet with
  | publish packet id =>
      simp only [handlePacketReceived]
      cases packet.qos with
      | qos0 => rfl
      | qos1 => rfl
      | qos2 => exact publishedInternally_withSession s client _
  | pubAck id => exact publishedInternally_withSession s client _
  | pubRel id => exact publishedInternally_withSession s client _
  | pubRec id => exact publishedInternally_withSession s client _
  | pubComp id => exact publishedInternally_withSession s client _
  | _ => rfl

theorem publishedInternally_proceed {thread : Thread} {lockTaken : Bool} {work : Work}
    {rest : List Work} (h : s.proceed thread lockTaken work rest = some (.ok t)) :
    t.publishedInternally = s.publishedInternally := by
  cases proceeds_of_proceed h with
  | publish hok =>
      have hpublished := publishedInternally_publishNoLockNoRetain hok
      exact hpublished
  | retain => exact publishedInternally_retain _ _
  | _ => rfl

/-- The request at the head of the queue, where it is no login. -/
theorem publishedInternally_execute {randomChars : List ByteString} {request : Request}
    {queue : List Request} {generatedId : ByteString} (hqueue : s.mQueue = request :: queue)
    (hgenerated : s.generatedFor randomChars request.change = some generatedId)
    (hlogin : s.executedLogin (.execute randomChars) = none)
    (hok : { s with mQueue := queue }.executeChangeRequest .worker generatedId request.change =
      .ok t) :
    t.publishedInternally =
      s.publishedInternally ++ (s.publishedWills (.execute randomChars)).map Prod.snd := by
  have hout : ∀ client clientId cleanSession,
      request.change = .loginClient client clientId cleanSession →
        (s.connections client).mLoggedOut = true :=
    fun _ _ _ hchange => mLoggedOut_of_noLogin hqueue hgenerated hlogin hchange
  by_cases hlogout : ∃ client, request.change = .logoutClient client
  · obtain ⟨client, hchange⟩ := hlogout
    have hop : s.registryOp (.execute randomChars) = .logoutClient client := by
      simp only [registryOp, hqueue, hchange]
      rfl
    rw [executeChangeRequest_eq, hchange] at hok
    rw [snd_publishedWills_logout hop]
    exact publishedInternally_logoutClient (s := { s with mQueue := queue }) hok
  · have hother : ∀ client, s.registryOp (.execute randomChars) ≠ .logoutClient client := by
      intro client hop
      obtain ⟨change, thread⟩ := request
      simp only [registryOp, hqueue, hgenerated] at hop
      cases change with
      | logoutClient c => exact hlogout ⟨c, rfl⟩
      | _ => cases hop
    rw [publishedWills_of_no_logout hlogin hother]
    refine (publishedInternally_executeChangeRequest (s := { s with mQueue := queue }) hout
      (fun client hchange => absurd ⟨client, hchange⟩ hlogout) hok).trans ?_
    exact (List.append_nil _).symm

/-- A step publishes the will of the connection it logs out for good, or none. -/
theorem publishedWills_cases (h : s.Linked) (hr : s.registry.Registered)
    (hstep : s.step action = some (.ok t)) :
    s.publishedWills action = [] ∨
      ∃ client, s.registryOp action = .logoutClient client ∧
        s.publishedWills action = ((s.logoutWill client).map (client, ·)).toList := by
  cases hlogin : s.executedLogin action with
  | some login =>
      have hpermits := (registry_step h hr hstep).2
      rw [(Receipts.registryOp_of_executedLogin hlogin).1] at hpermits
      exact .inl (publishedWills_login hr hpermits.1 hlogin)
  | none =>
      by_cases hlogout : ∃ client, s.registryOp action = .logoutClient client
      · obtain ⟨client, hop⟩ := hlogout
        exact .inr ⟨client, hop, publishedWills_logout hop⟩
      · have hother : ∀ client, s.registryOp action ≠ .logoutClient client :=
          fun client hop => hlogout ⟨client, hop⟩
        cases action with
        | execute randomChars => exact .inl (publishedWills_of_no_logout hlogin hother)
        | logoutSendError client => exact absurd rfl (hother client)
        | timeout client now => exact absurd rfl (hother client)
        | _ => exact .inl rfl

/-- The messages a step calls it with are the wills it publishes. -/
theorem publishedInternally_step (h : s.Linked) (hr : s.registry.Registered)
    (hstep : s.step action = some (.ok t)) :
    t.publishedInternally =
      s.publishedInternally ++ (s.publishedWills action).map Prod.snd := by
  have hnothing : t.publishedInternally = s.publishedInternally → s.publishedWills action = [] →
      t.publishedInternally =
        s.publishedInternally ++ (s.publishedWills action).map Prod.snd := by
    intro hkept hnone
    rw [hkept, hnone]
    exact (List.append_nil _).symm
  have hlogout : ∀ {thread client}, s.logoutClient thread client = .ok t →
      s.registryOp action = .logoutClient client → t.publishedInternally =
        s.publishedInternally ++ (s.publishedWills action).map Prod.snd := by
    intro thread client hok hop
    rw [snd_publishedWills_logout hop, publishedInternally_logoutClient hok]
  cases hlogin : s.executedLogin action with
  | some login =>
      obtain ⟨hop, -⟩ := Receipts.registryOp_of_executedLogin hlogin
      have hpermits := (registry_step h hr hstep).2
      rw [hop] at hpermits
      have hok : s.stepOk action = some t := by simp only [stepOk, hstep]
      obtain ⟨queue, -, hclient, hlogs⟩ := logsIn_of_executedLogin h hok hlogin
      refine hnothing ?_ (publishedWills_login hr hpermits.1 hlogin)
      exact publishedInternally_logsIn (s := { s with mQueue := queue }) hr hpermits.1 hlogs
  | none =>
      have hsteps := steps_of_step hstep
      clear hstep
      cases hsteps with
      | execute hqueue hgenerated hok =>
          exact publishedInternally_execute hqueue hgenerated hlogin hok
      | proceed hwork hok => exact hnothing (publishedInternally_proceed hok) rfl
      | @executeInternal _ request queue _ _ hqueue hok =>
          obtain ⟨packet, hchange⟩ := h.exists_retain hqueue
          rw [hchange] at hok
          refine hnothing ?_ rfl
          exact publishedInternally_executeChangeRequest (s := { s with mQueueInternal := queue })
            (fun _ _ _ heq => by cases heq) (fun _ heq => by cases heq) hok
      | logoutSendError hclient hok => exact hlogout hok rfl
      | timeout hclient htimedOut hok => exact hlogout hok rfl
      | @packet client packet =>
          exact hnothing (publishedInternally_handlePacketReceived s client packet) rfl
      | _ => exact hnothing rfl rfl

end

end

end ApplicationState

end NioevMqtt
