-- SUMMARY: The first packet of a connection: over every run a connection is sent nothing before its CONNACK, and no other CONNACK after it.
import NioevMqtt.Broker.SentPackets

/-!
# The first packet

A session that is taken over publishes to its new connection at once. That connection has
its `CONNACK` by then: nothing is published between the two.
-/

namespace NioevMqtt

open Outcome

/-- Nothing, or a `CONNACK` and no other one. -/
def ConnackFirst : List EncodedPacket → Prop
  | [] => True
  | packet :: packets =>
    packet.messageType = .connack ∧ ∀ later ∈ packets, later.messageType ≠ .connack

instance : DecidablePred ConnackFirst
  | [] => isTrue trivial
  | _ :: _ => inferInstanceAs (Decidable (_ ∧ ∀ later ∈ _, _))

theorem ConnackFirst.append {packets : List EncodedPacket} (h : ConnackFirst packets)
    (hne : packets ≠ []) {packet : EncodedPacket} (hpacket : packet.messageType ≠ .connack) :
    ConnackFirst (packets ++ [packet]) := by
  cases packets with
  | nil => exact absurd rfl hne
  | cons first packets =>
      refine ⟨h.1, fun later hlater => ?_⟩
      rcases List.mem_append.mp hlater with hold | hnew
      · exact h.2 later hold
      · rw [List.mem_singleton.mp hnew]
        exact hpacket

/-- Some factory has built it. -/
def EncodedPacket.Built [Libnioev] (p : EncodedPacket) : Prop := ∃ frame : Frame, frame.packet = p

theorem EncodedPacket.built_fromData [Libnioev] (firstByte : UInt8) (buffer : SharedBuffer) :
    (fromData firstByte buffer).Built := ⟨.fromData firstByte buffer, rfl⟩

/-- It is no `CONNACK` and carries no message. -/
structure EncodedPacket.IsAnswer [Libnioev] (p : EncodedPacket) : Prop where
  ne_connack : p.messageType ≠ .connack
  ne_publish : p.messageType ≠ .publish
  built : p.Built

/-- What a builder builds is a `PUBLISH`. -/
theorem MQTTPublishPacketBuilder.messageType_freshPacket [Libnioev] (b : MQTTPublishPacketBuilder)
    (request : PacketRequest) : (b.freshPacket request).messageType = .publish := by
  have hfirst : (b.freshPacket request).mPrelude.firstByte = firstByte b.mRetained request.qos := by
    rw [← packet_frame, ← firstByte_frame]
    cases b.frame request with
    | _ => rfl
  unfold EncodedPacket.messageType
  rw [hfirst, (bits_firstByte b.mRetained request.qos).2.2.2]
  rfl

namespace ApplicationState

variable {τ : Type} {s t : ApplicationState τ} {client : ConnectionId} {action : Action}

/-! ## Greetings -/

/-- A connection has been sent nothing while it waits, and a `CONNACK` first otherwise. -/
def Greets (s : ApplicationState τ) : Prop :=
  ∀ client, ConnackFirst (s.sentTo client) ∧
    (s.sentTo client = [] ↔
      s.view.mState client = .initial ∨ s.view.mState client = .connecting)

/-- A connected connection may be sent anything else. -/
theorem Greets.send (h : s.Greets) (hstate : t.view.mState = s.view.mState)
    (sent : Option (ConnectionId × EncodedPacket)) (hsent : t.sentTo = sendTo s.sentTo sent)
    (hconnected : ∀ client packet, sent = some (client, packet) →
      s.view.mState client = .connected ∧ packet.messageType ≠ .connack) : t.Greets := by
  intro c
  rw [hstate, hsent]
  cases sent with
  | none => exact h c
  | some m =>
      obtain ⟨client, packet⟩ := m
      obtain ⟨hclient, hpacket⟩ := hconnected client packet rfl
      by_cases hc : c = client
      · subst hc
        have hne : s.sentTo c ≠ [] := by
          rw [Ne, (h c).2, hclient]
          simp only [reduceCtorEq, or_self, not_false_eq_true]
        rw [sendTo_self, hclient]
        exact ⟨(h c).1.append hne hpacket, by simp⟩
      · rw [sendTo_of_ne hc]
        exact h c

/-- A connection that has been sent nothing is answered, and no longer waits. -/
theorem Greets.greet (h : s.Greets) {state : ConnectionState}
    (hstate : t.view.mState = Function.update s.view.mState client state)
    {packets : List EncodedPacket} (hwaits : s.sentTo client = [])
    (hsent : t.sentTo = Function.update s.sentTo client (s.sentTo client ++ packets))
    (hfirst : ConnackFirst packets)
    (hne : packets = [] ↔ state = .initial ∨ state = .connecting) : t.Greets := by
  intro c
  rw [hstate, hsent, hwaits, List.nil_append]
  by_cases hc : c = client
  · subst hc
    rw [Function.update_self, Function.update_self]
    exact ⟨hfirst, hne⟩
  · rw [Function.update_of_ne hc, Function.update_of_ne hc]
    exact h c

section

variable [Libnioev]

/-- Only connected connections have sessions, and only those are delivered to. -/
theorem connected_of_deliveredPacket (h : s.view.Attached) {d : Delivery} {packet : EncodedPacket}
    (hpacket : s.deliveredPacket d = some (client, packet)) :
    s.view.mState client = .connected ∧ packet.messageType ≠ .connack := by
  obtain ⟨subscriber, topic, payload, qos, retained, properties⟩ := d
  cases subscriber with
  | other id => cases hpacket
  | session id =>
      obtain ⟨c, hcurrent, heq⟩ := Option.map_eq_some_iff.mp hpacket
      cases heq
      have hattached : s.view.attached client = some id := (h.inverse _ _).mpr hcurrent
      refine ⟨h.connected client (by rw [hattached]; exact Option.some_ne_none id), ?_⟩
      rw [MQTTPublishPacketBuilder.messageType_freshPacket]
      decide

theorem Greets.deliverAll (h : s.Greets) (hattached : s.view.Attached) {deliveries : List Delivery}
    (hok : deliveries.foldlM deliver s = .ok t) : t.Greets ∧ t.view = s.view := by
  refine foldlM_invariant (P := fun u => u.Greets ∧ u.view = s.view) (fun u d v hu hd => ?_) hok
    ⟨h, rfl⟩
  obtain ⟨hgreets, hview⟩ := hu
  have hpublishes := (sendPublish_publishes hd).view_eq
  refine ⟨hgreets.send (congrArg View.mState hpublishes) _ (sentTo_deliver hd) fun c packet hsent => ?_,
    hpublishes.trans hview⟩
  exact connected_of_deliveredPacket (hview ▸ hattached) hsent

end

/-! ## Answers -/

/-- A packet is handled once the login of its connection has been executed. -/
def HandlesConnected (s : ApplicationState τ) : Action → Prop
  | .packet client _ => (s.connections client).mState = .connected
  | _ => True

instance (s : ApplicationState τ) : DecidablePred s.HandlesConnected
  | .packet client _ => inferInstanceAs (Decidable ((s.connections client).mState = .connected))
  | .newConnection .. | .receiveData .. | .connect .. | .rejectVersion .. | .receiveError .. |
    .start .. | .proceed .. | .execute .. | .executeInternal .. | .sendError .. |
    .logoutSendError .. | .timeout .. | .cleanup => isTrue trivial

section

variable [Libnioev]

/-- Only connected connections are answered. -/
def AnswersConnected (s : ApplicationState τ) : Prop :=
  ∀ thread client packet, .reply client packet ∈ s.work thread →
    s.view.mState client = .connected ∧ packet.IsAnswer

/-- All answers in this work go to the connection. -/
def AnswersOnly (client : ConnectionId) (work : List Work) : Prop :=
  ∀ c answered, .reply c answered ∈ work → c = client ∧ answered.IsAnswer

theorem answersOnly_of_noReply {work : List Work} (h : NoReply work) : AnswersOnly client work :=
  fun c answered hmem => absurd hmem (h c answered)

theorem AnswersOnly.append {work rest : List Work} (h : AnswersOnly client work)
    (hrest : AnswersOnly client rest) : AnswersOnly client (work ++ rest) :=
  fun c answered hmem => (List.mem_append.mp hmem).elim (h c answered) (hrest c answered)

theorem AnswersOnly.cons {work : Work} {rest : List Work} (h : AnswersOnly client [work])
    (hrest : AnswersOnly client rest) : AnswersOnly client (work :: rest) := h.append hrest

theorem answersOnly_reply {answered : EncodedPacket} {type : MQTTMessageType}
    (hbuilt : answered.Built) (h : answered.messageType = type)
    (htype : type ≠ .connack ∧ type ≠ .publish) : AnswersOnly client [.reply client answered] := by
  intro c answered' hmem
  cases List.mem_singleton.mp hmem
  subst h
  exact ⟨rfl, htype.1, htype.2, hbuilt⟩

theorem answersOnly_endTopics {complete : Bool} {answered : EncodedPacket} {type : MQTTMessageType}
    (hbuilt : answered.Built) (h : answered.messageType = type)
    (htype : type ≠ .connack ∧ type ≠ .publish) :
    AnswersOnly client [endTopics client complete answered] := by
  unfold endTopics
  split
  · exact answersOnly_reply hbuilt h htype
  · exact answersOnly_of_noReply (noReply_singleton fun _ _ heq => by cases heq)

theorem AnswersOnly.setWork {work : List Work} (h : AnswersOnly client work)
    (s : ApplicationState τ) :
    AnswersOnly client ((s.setWork (.receiver client) work).work (.receiver client)) := by
  have hself : (s.setWork (.receiver client) work).work (.receiver client) = work :=
    Function.update_self _ _ _
  rw [hself]
  exact h

theorem answersOnly_withSession {f : PersistentClientState → PersistentClientState × List Work}
    (h : ∀ session, AnswersOnly client (f session).2) :
    AnswersOnly client ((s.withSession client f).work (.receiver client)) := by
  unfold withSession
  split
  · exact (answersOnly_of_noReply (noReply_singleton fun _ _ heq => by cases heq)).setWork s
  · exact (h _).setWork _

/-- The handler answers its own connection. -/
theorem answersOnly_handlePacketReceived (s : ApplicationState τ) (client : ConnectionId)
    (packet : ClientPacket) :
    AnswersOnly client ((s.handlePacketReceived client packet).work (.receiver client)) := by
  have hnone : AnswersOnly client [] := fun _ _ hmem => by cases hmem
  have hpublish : ∀ message, AnswersOnly client [.publish message] := fun message =>
    answersOnly_of_noReply (noReply_singleton fun _ _ heq => by cases heq)
  have htopics : ∀ {work : List Work} {complete : Bool} {answered : EncodedPacket}
      {type : MQTTMessageType}, NoReply work → answered.Built → answered.messageType = type →
        type ≠ .connack ∧ type ≠ .publish →
          AnswersOnly client (work ++ [endTopics client complete answered]) :=
    fun hwork hbuilt hanswered htype =>
      (answersOnly_of_noReply hwork).append (answersOnly_endTopics hbuilt hanswered htype)
  cases packet with
  | publish message id =>
      simp only [handlePacketReceived]
      cases message.qos with
      | qos0 => exact (hpublish message).setWork s
      | qos1 =>
          refine AnswersOnly.setWork (AnswersOnly.cons ?_ (hpublish message)) s
          exact answersOnly_reply (EncodedPacket.built_fromData _ _)
            (EncodedPacket.messageType_fromData .puback (by decide) _) (by decide)
      | qos2 =>
          refine answersOnly_withSession fun session => ?_
          refine AnswersOnly.cons ?_ ?_
          · exact answersOnly_reply (EncodedPacket.built_fromData _ _)
              (EncodedPacket.messageType_fromData .pubrec (by decide) _) (by decide)
          · show AnswersOnly client (if (session.receiveQoS2 id).2 then [.publish message] else [])
            split
            · exact hpublish message
            · exact hnone
  | pubAck id => exact answersOnly_withSession fun _ => hnone
  | pubComp id => exact answersOnly_withSession fun _ => hnone
  | pubRel id =>
      refine answersOnly_withSession fun session => ?_
      exact answersOnly_reply (EncodedPacket.built_fromData _ _)
        (EncodedPacket.messageType_fromData .pubcomp (by decide) _) (by decide)
  | pubRec id =>
      refine answersOnly_withSession fun session => ?_
      exact answersOnly_reply (EncodedPacket.built_fromData _ _)
        (EncodedPacket.messageType_fromData .pubrel (by decide) _) (by decide)
  | subscribe id topics complete =>
      refine AnswersOnly.setWork (htopics ?_ (EncodedPacket.built_fromData _ _)
        (EncodedPacket.messageType_fromData .suback (by decide) _) (by decide)) s
      intro c answered hmem
      obtain ⟨_, -, heq⟩ := List.mem_map.mp hmem
      cases heq
  | unsubscribe id topics complete =>
      refine AnswersOnly.setWork (htopics ?_ (EncodedPacket.built_fromData _ _)
        (EncodedPacket.messageType_fromData .unsuback (by decide) _) (by decide)) s
      intro c answered hmem
      obtain ⟨_, -, heq⟩ := List.mem_map.mp hmem
      cases heq
  | pingReq =>
      have htype : (EncodedPacket.fromFirstByte
          (MQTTMessageType.pingresp.toUInt8 <<< 4)).messageType = .pingresp := rfl
      exact (answersOnly_reply ⟨.fromFirstByte _, rfl⟩ htype (by decide)).setWork s
  | disconnect =>
      exact (answersOnly_of_noReply (noReply_singleton fun _ _ heq => by cases heq)).setWork _

variable [SubscriptionTree τ]

/-- Who is connected stays connected. -/
theorem connected_stepOk (h : s.Linked) (hstep : s.stepOk action = some t)
    (hclient : s.view.mState client = .connected) : t.view.mState client = .connected := by
  have hstep' := step_of_stepOk hstep
  have hset : ∀ {c state}, s.view.mState c ≠ .connected →
      Function.update s.view.mState c state client = .connected := by
    intro c state hc
    have hne : client ≠ c := by
      rintro rfl
      exact hc hclient
    rw [Function.update_of_ne hne]
    exact hclient
  by_cases hconnect : ∃ c packet, action = .connect c packet
  · obtain ⟨c, packet, rfl⟩ := hconnect
    cases steps_of_step hstep' with
    | connect _ _ hstate =>
        rw [view_handleConnect]
        refine hset (c := c) ?_
        rw [show s.view.mState c = .initial from hstate]
        decide
  by_cases hreject : ∃ c, action = .rejectVersion c
  · obtain ⟨c, rfl⟩ := hreject
    cases steps_of_step hstep' with
    | rejectVersion _ _ hstate =>
        rw [view_rejectVersion]
        refine hset (c := c) ?_
        rw [show s.view.mState c = .initial from hstate]
        decide
  cases hlogin : s.executedLogin action with
  | some login =>
      have hconnects := connects_executedLogin h hstep hlogin
      rw [hconnects.mState_eq]
      refine hset ?_
      rw [hconnects.waits]
      decide
  | none =>
      rw [(keepsConnections_step h (fun c packet heq => hconnect ⟨c, packet, heq⟩)
        (fun c heq => hreject ⟨c, heq⟩) hlogin hstep').mState_eq]
      exact hclient

/-- A step leaves answers of its own connection only, and takes others as they are. -/
theorem reply_of_step (h : s.Linked) (hstep : s.step action = some (.ok t)) {thread : Thread}
    {packet : EncodedPacket} (hmem : .reply client packet ∈ t.work thread) :
    .reply client packet ∈ s.work thread ∨
      packet.IsAnswer ∧ ∃ received, action = .packet client received := by
  have hsteps := steps_of_step hstep
  have hsame : t.work thread = s.work thread ∨ s.work thread = [] ∧ NoReply (t.work thread) →
      .reply client packet ∈ s.work thread ∨
        packet.IsAnswer ∧ ∃ received, action = .packet client received := by
    rintro (heq | ⟨-, hno⟩)
    · exact .inl (heq ▸ hmem)
    · exact absurd hmem (hno client packet)
  cases hsteps with
  | @packet c received =>
      by_cases hthread : thread = .receiver c
      · subst hthread
        obtain ⟨rfl, htype⟩ := answersOnly_handlePacketReceived s c received client packet hmem
        exact .inr ⟨htype, received, rfl⟩
      · obtain ⟨work, -, hview⟩ := (leavesWork_handlePacketReceived s c received).noLogin
        exact hsame (.inl ((congrArg (·.work thread) hview).trans
          (View.setWork_work_of_ne _ hthread work)))
  | @proceed thread' lockTaken work rest _ hwork hok =>
      by_cases hthread : thread = thread'
      · subst hthread
        refine .inl ?_
        have hafter : t.work thread = s.workAfter work rest :=
          (congrFun (work_proceed hok) thread).trans (View.setWork_work _ _ _)
        rw [hafter] at hmem
        rw [hwork]
        refine List.mem_cons_of_mem _ ?_
        cases work with
        | subscribe c topic qos =>
            simp only [workAfter] at hmem
            split at hmem
            · cases List.mem_singleton.mp hmem
            · exact (List.mem_cons.mp hmem).elim (fun heq => by cases heq) id
        | unsubscribe c topic =>
            simp only [workAfter] at hmem
            split at hmem
            · cases List.mem_singleton.mp hmem
            · exact (List.mem_cons.mp hmem).elim (fun heq => by cases heq) id
        | publish message =>
            simp only [workAfter] at hmem
            split at hmem
            · exact (List.mem_cons.mp hmem).elim (fun heq => by cases heq) id
            · exact hmem
        | request change => exact hmem
        | reply c answered => exact hmem
        | throws c => cases List.mem_singleton.mp hmem
      · exact hsame (.inl ((congrFun (work_proceed hok) thread).trans
          (View.setWork_work_of_ne _ hthread _)))
  | @execute randomChars =>
      generalize haction : Action.execute randomChars = action at hstep
      cases transition_of_step h hstep with
      | quiet hother => exact absurd haction.symm (hother randomChars)
      | logsOut hother => exact absurd haction.symm (hother randomChars)
      | executes hqueue hexecutes hreaches =>
          have hwork := (congrArg View.work hreaches.view_eq).trans (View.frame_executes hexecutes).2
          have hsameWork : t.work thread = s.work thread := congrFun hwork thread
          exact .inl (hsameWork ▸ hmem)
  | _ =>
      exact hsame ((frame_step h hstep (fun _ _ heq => by cases heq) (fun _ _ heq => by cases heq)
        fun _ heq => by cases heq).2 thread)

omit [Libnioev] in
theorem view_logoutDeliveries (s : ApplicationState τ) (client : ConnectionId) :
    (s.logoutDeliveries client).1.view = s.view := by
  have hmarked : (s.markLoggedOut client).view = s.view := (sends_markLoggedOut s client).view_eq
  unfold logoutDeliveries
  split
  · exact hmarked
  · exact hmarked

omit [Libnioev] in
/-- The deliveries of a step find the connections as they are. -/
theorem view_deliveries (h : s.Linked) (action : Action) :
    (s.deliveries action).1.view.Attached ∧
      (s.deliveries action).1.view.mState = s.view.mState ∧
        (s.deliveries action).1.view.attached = s.view.attached := by
  have hattached : s.view.Attached := h.view.toAttached
  have hlogout : ∀ c, (s.logoutDeliveries c).1.view.Attached ∧
      (s.logoutDeliveries c).1.view.mState = s.view.mState ∧
        (s.logoutDeliveries c).1.view.attached = s.view.attached := by
    intro c
    have hview := view_logoutDeliveries s c
    exact ⟨hview ▸ hattached, congrArg View.mState hview, congrArg View.attached hview⟩
  have hfields : ∀ {v : View τ}, v.attached = s.view.attached →
      v.currentClient = s.view.currentClient → v.mState = s.view.mState →
      v.nextSession = s.view.nextSession →
      v.mPersistentClientStates = s.view.mPersistentClientStates → v.Attached := by
    intro v h1 h2 h3 h4 h5
    refine ⟨?_, ?_, ?_, ?_⟩
    · rw [h1, h2]
      exact hattached.inverse
    · rw [h1, h3]
      exact hattached.connected
    · rw [h2, h4]
      exact hattached.freshSession
    · rw [h4, h5]
      exact hattached.found
  cases action with
  | proceed thread lockTaken =>
      simp only [deliveries]
      split
      · exact ⟨hfields rfl rfl rfl rfl rfl, rfl, rfl⟩
      · exact ⟨hattached, rfl, rfl⟩
  | execute randomChars =>
      simp only [deliveries]
      split
      · exact ⟨hattached, rfl, rfl⟩
      · next request queue hqueue =>
          cases request.change with
          | logoutClient client =>
              have hview := view_logoutDeliveries { s with mQueue := queue } client
              have hstate := congrArg View.mState hview
              have hlinks := congrArg View.attached hview
              exact ⟨hview ▸ (h.view.dequeue hqueue).toAttached, hstate.trans rfl, hlinks.trans rfl⟩
          | _ => exact ⟨hfields rfl rfl rfl rfl rfl, rfl, rfl⟩
  | logoutSendError client => exact hlogout client
  | timeout client now => exact hlogout client
  | _ => exact ⟨hattached, rfl, rfl⟩

omit [SubscriptionTree τ] in
/-- What holds in every state of a run. -/
structure Greeting (s : ApplicationState τ) : Prop where
  linked : s.Linked
  stores : s.StoresPublishes
  answers : s.AnswersConnected
  greets : s.Greets

theorem greeting_initial (retained : AList fun _ : ByteString => RetainedMessage) :
    (initial retained : ApplicationState τ).Greeting where
  linked := linked_initial retained
  stores := storesPublishes_initial retained
  answers := fun _ _ _ hmem => by cases hmem
  greets := fun _ => ⟨trivial, iff_of_true rfl (.inl rfl)⟩

omit [SubscriptionTree τ] in
/-- The packets of a login begin with its `CONNACK`. -/
theorem connackFirst_loginPackets (h : s.StoresPublishes) (login : Login) :
    ConnackFirst (s.loginPackets login) := by
  have hconnack : ∀ version sessionPresent,
      (connack version sessionPresent).messageType = .connack := fun _ _ =>
    EncodedPacket.messageType_fromData .connack (by decide) _
  by_cases hresumes : s.Resumes login
  · rw [loginPackets_of_resumes hresumes]
    refine ⟨hconnack _ _, fun later hlater => ?_⟩
    rcases List.mem_append.mp hlater with hstored | hreleased
    · obtain ⟨stored, hmem, rfl⟩ := List.mem_map.mp hstored
      rw [(isPublish_of_mem_orderedPackets h hmem).messageType_setDupFlag]
      decide
    · obtain ⟨id, -, rfl⟩ := List.mem_map.mp hreleased
      rw [pubrel, EncodedPacket.messageType_fromData .pubrel (by decide)]
      decide
  · rw [loginPackets_of_clean hresumes]
    exact ⟨hconnack _ _, fun _ hlater => by cases hlater⟩

theorem Greeting.greets_step (h : s.Greeting) (hstep : s.stepOk action = some t) : t.Greets := by
  have hstep' := step_of_stepOk hstep
  by_cases hnew : ∃ remote now, action = .newConnection remote now
  · -- The connection is new, and has been sent nothing before.
    obtain ⟨remote, now, rfl⟩ := hnew
    have hfresh : s.view.mState s.nextConnection = .initial :=
      h.linked.view.freshConnection s.nextConnection (Nat.le_refl _)
    cases steps_of_step hstep' with
    | newConnection =>
        have hsent : (s.handleNewClientConnection remote now).sentTo = s.sentTo := by
          have hupdate : (s.handleNewClientConnection remote now).sentTo =
              Function.update s.sentTo s.nextConnection [] :=
            funext fun c => Function.apply_update (fun _ => MQTTClientConnection.sent) _ _ _ c
          rw [hupdate, ← ((h.greets s.nextConnection).2).mpr (.inl hfresh)]
          exact Function.update_eq_self _ _
        refine h.greets.send ?_ none hsent fun _ _ heq => by cases heq
        exact (keepsConnections_step h.linked (fun _ _ heq => by cases heq)
          (fun _ heq => by cases heq) rfl hstep').mState_eq
  by_cases hconnect : ∃ client packet, action = .connect client packet
  · obtain ⟨client, packet, rfl⟩ := hconnect
    obtain ⟨-, u, hu, hsent⟩ := sendsMade_step h.linked (fun _ _ heq => by cases heq) rfl hstep'
    cases hu
    cases steps_of_step hstep' with
    | connect _ _ hstate =>
        have hwaits := ((h.greets client).2).mpr (.inl hstate)
        have hview : (s.handleConnect client packet).view.mState =
            Function.update s.view.mState client .connecting := by
          rw [view_handleConnect]
          rfl
        have hnothing : (s.handleConnect client packet).sentTo =
            Function.update s.sentTo client (s.sentTo client ++ []) := by
          rw [List.append_nil]
          exact hsent.trans (Function.update_eq_self client s.sentTo).symm
        exact h.greets.greet hview hwaits hnothing trivial (iff_of_true rfl (.inr rfl))
  by_cases hreject : ∃ client, action = .rejectVersion client
  · obtain ⟨client, rfl⟩ := hreject
    obtain ⟨-, u, hu, hsent⟩ := sendsMade_step h.linked (fun _ _ heq => by cases heq) rfl hstep'
    cases hu
    cases steps_of_step hstep' with
    | rejectVersion _ _ hstate =>
        have hwaits := ((h.greets client).2).mpr (.inl hstate)
        have hview : (s.rejectVersion client).view.mState =
            Function.update s.view.mState client .invalidProtocolVersion := by
          rw [view_rejectVersion]
          rfl
        refine h.greets.greet hview hwaits hsent ⟨?_, fun _ hlater => by cases hlater⟩ (by simp)
        exact EncodedPacket.messageType_fromData .connack (by decide) _
  cases hlogin : s.executedLogin action with
  | some login =>
      have hconnects := connects_executedLogin h.linked hstep hlogin
      have hsent := sentTo_executedLogin h.linked hstep hlogin
      refine h.greets.greet hconnects.mState_eq
        (((h.greets login.client).2).mpr (.inr hconnects.waits)) hsent
        (connackFirst_loginPackets h.stores login) ?_
      refine iff_of_false ?_ (by simp)
      unfold loginPackets
      simp only
      split
      · exact List.cons_ne_nil _ _
      · exact List.cons_ne_nil _ _
  | none =>
      have hstate := (keepsConnections_step h.linked
        (fun c packet heq => hconnect ⟨c, packet, heq⟩) (fun c heq => hreject ⟨c, heq⟩) hlogin
        hstep').mState_eq
      obtain ⟨hbase, u, hu, hsent⟩ := sendsMade_step h.linked
        (fun remote now heq => hnew ⟨remote, now, heq⟩) hlogin hstep'
      obtain ⟨hattached, hbaseState, -⟩ := view_deliveries h.linked action
      have hbaseGreets : (s.deliveries action).1.Greets :=
        h.greets.send hbaseState none hbase fun _ _ heq => by cases heq
      obtain ⟨hgreets, hview⟩ := hbaseGreets.deliverAll hattached hu
      have hmState : u.view.mState = s.view.mState := (congrArg View.mState hview).trans hbaseState
      refine hgreets.send (hstate.trans hmState.symm) _ hsent fun client packet hanswer => ?_
      rw [hmState]
      -- Only work that is left to a thread is an answer now.
      cases action with
      | rejectVersion c => exact absurd ⟨c, rfl⟩ hreject
      | proceed thread lockTaken =>
          simp only [answer] at hanswer
          split at hanswer
          · next hwork =>
              cases hanswer
              obtain ⟨hconnected, hanswer⟩ :=
                h.answers thread client packet (by rw [hwork]; exact List.mem_cons_self)
              exact ⟨hconnected, hanswer.1⟩
          · cases hanswer
      | _ => cases hanswer

theorem Greeting.step (h : s.Greeting) (hhandles : s.HandlesConnected action)
    (hstep : s.stepOk action = some t) : t.Greeting where
  linked := linked_stepOk h.linked hstep
  stores := storesPublishes_stepOk h.linked h.stores hstep
  answers := by
    intro thread client packet hmem
    rcases reply_of_step h.linked (step_of_stepOk hstep) hmem with hold | ⟨htype, received, rfl⟩
    · obtain ⟨hconnected, htype⟩ := h.answers thread client packet hold
      exact ⟨connected_stepOk h.linked hstep hconnected, htype⟩
    · exact ⟨connected_stepOk h.linked hstep hhandles, htype⟩
  greets := h.greets_step hstep

/-- Over every run in which packets are handled on connected connections only, every
connection has been sent nothing until its `CONNECT` is answered, and then a `CONNACK`
first and no other one. -/
theorem greets_of_isRun {retained : AList fun _ : ByteString => RetainedMessage}
    {run : List (Action × ApplicationState τ)}
    (hrun : Runs.IsRun (Runs.StepOf stepOk) (initial retained) run)
    (hhandles : Runs.AllSteps HandlesConnected (initial retained) run) :
    Runs.AllStates Greets run := by
  intro x hx
  exact (hrun.invariant_of_allSteps (I := Greeting) (fun _ _ _ h hhandled hstep =>
    h.step hhandled hstep) (greeting_initial retained) hhandles x hx).greets

end

/-- A client subscribes and is sent a message. -/
theorem greets_published :
    let run := Runs.runOf (@stepOk SubscriptionList .standard _) (initial ∅)
      (Resumptions.subscribed ++ Resumptions.published .qos1)
    ((Runs.last (initial ∅) run).sentTo 0).map (fun packet => packet.messageType) =
        [.connack, .suback, .publish] ∧ Runs.AllStates Greets run := by
  intro run
  refine ⟨by decide +kernel, ?_⟩
  exact @greets_of_isRun SubscriptionList .standard _ ∅ run
    (Runs.isRun_runOf (@stepOk SubscriptionList .standard _) _ _) (by decide +kernel)

end ApplicationState

end NioevMqtt
