-- SUMMARY: What a resumed session is sent again: over every run it is messages handed to the session before, in their order, each of which arrives as it was published exactly if the connection has the version the message was stored for.
import NioevMqtt.Broker.Resumption
import NioevMqtt.Connection.ResentPublish
import Mathlib.Data.List.Sort

/-!
# Resent messages

Beside the broker stands a log of the messages that have been handed to sessions, each
with the version it was encoded for. Whatever a login sends again is in it.
-/

namespace NioevMqtt

open Outcome

open ApplicationState (connack pubrel)

/-! ## Messages -/

/-- A message that has been handed to a session. -/
structure HandedMessage where
  delivery : Delivery
  session : SessionId
  packetId : UInt16
  version : MQTTVersion
  globalOrder : Nat

namespace HandedMessage

def builder (m : HandedMessage) : MQTTPublishPacketBuilder :=
  .new m.delivery.topic m.delivery.payload m.delivery.retained m.delivery.properties

def request (m : HandedMessage) : PacketRequest := ⟨m.delivery.qos, m.packetId, m.version⟩

section

variable [Libnioev]

/-- What is stored of it. -/
def storage (m : HandedMessage) : HighQoSRetainStorage :=
  ⟨(m.builder.getPacket m.delivery.qos m.packetId m.version).1, m.globalOrder, m.delivery.qos,
    m.version⟩

/-- What is sent when it is sent again. -/
def resent (m : HandedMessage) : EncodedPacket := m.storage.mPacket.setDupFlag

/-- It can be received: it has a topic, neither this nor the packet is too long, and its
properties can be read. -/
structure Receivable (m : HandedMessage) : Prop where
  topic_ne : m.delivery.topic ≠ []
  topic_length : m.delivery.topic.length ≤ maxStringLength
  readsBack : Libnioev.ReadsBack m.delivery.properties
  bodyLength_le : m.resent.bodyLength ≤ maxReceivedLength

variable [BinaryDecoder]

/-- The message gets to a connection as it was published. -/
def ArrivesAt (m : HandedMessage) (others : PacketHandler PublishReceiver)
    (s : LoopState PublishReceiver) (chunks : List (List UInt8)) : Prop :=
  ∃ s', receiveChunks (PublishReceiver.handlePacketReceived others) chunks s = .ok s' ∧
    s'.world.published =
      s.world.published ++ [m.builder.messageFor m.request s.world.mMQTTVersion]

omit [BinaryDecoder] in
/-- The bytes of the packet come, in whatever pieces, and nothing has come under its
identifier before. -/
structure IsSent (m : HandedMessage) (s : LoopState PublishReceiver)
    (chunks : List (List UInt8)) : Prop where
  recvState_eq : s.recvData.recvState = .idle
  fresh : m.delivery.qos = .qos2 →
    ∃ ids, s.world.mQoS2receivingPacketIds = some ids ∧ m.packetId ∉ ids
  flatten_chunks : chunks.flatten = m.resent.wireBytes

omit [BinaryDecoder] in
theorem resent_eq (m : HandedMessage) : m.resent = (m.builder.freshPacket m.request).setDupFlag :=
  congrArg EncodedPacket.setDupFlag ((MQTTPublishPacketBuilder.caches_new _ _ _ _).getPacket m.request).1

theorem arrivesAt_iff [LawfulLibnioev] [LawfulBinaryDecoder]
    (htakes : ∀ bytes properties rest,
      Libnioev.decodeProperties bytes = some (properties, rest) → rest.length < bytes.length)
    (hcount : MQTTMessageType.publish.toUInt8.toNat < Libnioev.messageTypeCount)
    {m : HandedMessage} (h : m.Receivable) (others : PacketHandler PublishReceiver)
    {s : LoopState PublishReceiver} {chunks : List (List UInt8)} (hsent : m.IsSent s chunks) :
    m.ArrivesAt others s chunks ↔ m.version = s.world.mMQTTVersion := by
  obtain ⟨hidle, hfresh, hchunks⟩ := hsent
  have hbody := h.bodyLength_le
  rw [resent_eq] at hchunks hbody
  have hreadsBack : Libnioev.ReadsBack m.builder.mProperties := h.readsBack
  exact MQTTPublishPacketBuilder.receives_setDupFlag_iff htakes h.topic_ne h.topic_length hreadsBack
    hcount hbody others hidle hfresh hchunks

end

end HandedMessage

/-- A packet of the client takes messages away only. -/
theorem Outgoing.lookup_received {o : Outgoing} {packet : ClientPacket} {id : UInt16}
    {storage : HighQoSRetainStorage} (h : (o.received packet).packets.lookup id = some storage) :
    o.packets.lookup id = some storage := by
  have herase : ∀ id', (o.packets.erase id').lookup id = some storage →
      o.packets.lookup id = some storage := by
    intro id' hsome
    by_cases hid : id = id'
    · subst hid
      rw [AList.lookup_erase] at hsome
      cases hsome
    · exact AList.lookup_erase_ne hid ▸ hsome
  cases packet with
  | pubAck id' => exact herase id' h
  | pubRec id' => exact herase id' h
  | _ => exact h

namespace ApplicationState

variable {τ : Type} [Libnioev] {s t : ApplicationState τ} {action : Action}

/-- The message a delivery hands to a session, encoded for the connection the session has. -/
def handedMessage (s : ApplicationState τ) (d : Delivery) : Option HandedMessage :=
  match d.subscriber with
  | .other _ => none
  | .session session =>
    if d.qos = .qos0 then none
    else
      some
        { delivery := d
          session
          packetId := PersistentClientState.nextPacketId (s.sessions session).mPacketIdCounter
          version := (s.sessions session).encoderVersion
            fun client => (s.connections client).mMQTTVersion
          globalOrder := s.globalOrderCounter }

/-- The messages of many deliveries. -/
def handedMessages : ApplicationState τ → List Delivery → List HandedMessage
  | _, [] => []
  | s, d :: deliveries =>
    (s.handedMessage d).toList ++
      match s.deliver d with
      | .error _ => []
      | .ok t => handedMessages t deliveries

theorem handed_eq (s : ApplicationState τ) (d : Delivery) :
    s.handed d = (s.handedMessage d).map fun m => (m.session, m.packetId, m.storage) := by
  obtain ⟨subscriber, topic, payload, qos, retained, properties⟩ := d
  cases subscriber with
  | other id => rfl
  | session session =>
      unfold handed handedMessage
      simp only
      split
      · rfl
      · rfl

/-! ## The log -/

/-- What is stored has been logged, and the log is in the order of the messages. -/
structure Logged (s : ApplicationState τ) (log : List HandedMessage) : Prop where
  stored : ∀ session id storage, (s.outgoing session).packets.lookup id = some storage →
    ∃ m ∈ log, m.session = session ∧ m.packetId = id ∧ m.storage = storage
  ordered : log.Pairwise fun m m' => m.globalOrder < m'.globalOrder
  counted : ∀ m ∈ log, m.globalOrder < s.globalOrderCounter
  highQoS : ∀ m ∈ log, m.delivery.qos ≠ .qos0

namespace Logged

variable {log : List HandedMessage}

/-- Nothing is stored that was not stored before. -/
theorem of_lookup (h : s.Logged log) (hcount : t.globalOrderCounter = s.globalOrderCounter)
    (hlookup : ∀ session id storage, (t.outgoing session).packets.lookup id = some storage →
      (s.outgoing session).packets.lookup id = some storage) : t.Logged log where
  stored := fun session id storage hsome => h.stored session id storage (hlookup _ _ _ hsome)
  ordered := h.ordered
  counted := fun m hm => hcount ▸ h.counted m hm
  highQoS := h.highQoS

theorem keeps (h : s.Logged log) (hkeeps : s.KeepsOutgoing t) : t.Logged log :=
  h.of_lookup hkeeps.globalOrderCounter_eq fun _ _ _ hsome => hkeeps.outgoing_eq ▸ hsome

/-- The tables of one session lose packets. -/
theorem update (h : s.Logged log) {changed : SessionId} {o : Outgoing}
    (houtgoing : t.outgoing = Function.update s.outgoing changed o)
    (hcount : t.globalOrderCounter = s.globalOrderCounter)
    (hlookup : ∀ id storage, o.packets.lookup id = some storage →
      (s.outgoing changed).packets.lookup id = some storage) : t.Logged log := by
  refine h.of_lookup hcount fun session id storage hsome => ?_
  rw [houtgoing] at hsome
  by_cases hsession : session = changed
  · subst hsession
    rw [Function.update_self] at hsome
    exact hlookup id storage hsome
  · rwa [Function.update_of_ne hsession] at hsome

/-- A message that is handed over is logged. -/
theorem deliver (h : s.Logged log) {d : Delivery} (hok : s.deliver d = .ok t) :
    t.Logged (log ++ (s.handedMessage d).toList) := by
  cases hmessage : s.handedMessage d with
  | none =>
      rw [Option.toList_none, List.append_nil]
      refine h.keeps (keepsOutgoing_deliver hok ?_)
      rw [handed_eq, hmessage]
      rfl
  | some m =>
      have hhanded : s.handed d = some (m.session, m.packetId, m.storage) := by
        rw [handed_eq, hmessage]
        rfl
      obtain ⟨houtgoing, hcount, horder, hqos⟩ := stores_deliver hok hhanded
      rw [Option.toList_some]
      refine ⟨?_, ?_, ?_, ?_⟩
      · intro session id storage hsome
        rw [houtgoing] at hsome
        by_cases hold : (s.outgoing session).packets.lookup id = some storage
        · obtain ⟨old, hmem, heq⟩ := h.stored session id storage hold
          exact ⟨old, List.mem_append_left _ hmem, heq⟩
        · refine ⟨m, List.mem_append_right _ (List.mem_singleton_self m), ?_⟩
          by_cases hsession : session = m.session
          · subst hsession
            rw [Function.update_self] at hsome
            by_cases hid : id = m.packetId
            · subst hid
              unfold SendingPackets.emplace at hsome
              simp only at hsome
              split at hsome
              · exact absurd hsome hold
              · rw [AList.lookup_insert, Option.some.injEq] at hsome
                exact ⟨rfl, rfl, hsome⟩
            · rw [SendingPackets.lookup_emplace_of_ne hid] at hsome
              exact absurd hsome hold
          · rw [Function.update_of_ne hsession] at hsome
            exact absurd hsome hold
      · refine List.pairwise_append.mpr ⟨h.ordered, List.pairwise_singleton _ _, ?_⟩
        intro old hold new hnew
        rw [List.mem_singleton.mp hnew]
        have hcounted := h.counted old hold
        rw [← horder] at hcounted
        exact hcounted
      · intro m' hm'
        rw [hcount]
        rcases List.mem_append.mp hm' with hold | hnew
        · exact Nat.lt_succ_of_lt (h.counted m' hold)
        · rw [List.mem_singleton.mp hnew]
          exact Nat.lt_succ_of_le (Nat.le_of_eq horder)
      · intro m' hm'
        rcases List.mem_append.mp hm' with hold | hnew
        · exact h.highQoS m' hold
        · rw [List.mem_singleton.mp hnew]
          exact hqos

theorem deliverAll (h : s.Logged log) {deliveries : List Delivery}
    (hok : deliveries.foldlM ApplicationState.deliver s = .ok t) :
    t.Logged (log ++ s.handedMessages deliveries) := by
  induction deliveries generalizing s log with
  | nil =>
      cases hok
      rw [handedMessages, List.append_nil]
      exact h
  | cons d deliveries ih =>
      rw [List.foldlM_cons] at hok
      obtain ⟨u, hd, hrest⟩ := bind_eq_ok hok
      have hlater := ih (h.deliver hd) hrest
      rw [List.append_assoc] at hlater
      rw [handedMessages, hd]
      exact hlater

/-! ## What is sent again -/

/-- The messages of a session that are in its table, as they are in the log. -/
def unacknowledged (s : ApplicationState τ) (log : List HandedMessage) (session : SessionId) :
    List HandedMessage :=
  log.filter fun m =>
    m.session = session ∧ (s.outgoing session).packets.lookup m.packetId = some m.storage

/-- The table holds these. -/
theorem holds (h : s.Logged log) (session : SessionId) :
    Outbox.Holds (s.outgoing session) s.globalOrderCounter
      { owed := (unacknowledged s log session).map fun m => (m.packetId, m.storage)
        released := (s.outgoing session).pubrecReceived } where
  lookup_iff := by
    intro id storage
    rw [List.mem_map]
    constructor
    · intro hsome
      obtain ⟨m, hm, hsession, rfl, rfl⟩ := h.stored session id storage hsome
      exact ⟨m, List.mem_filter.mpr ⟨hm, decide_eq_true ⟨hsession, hsome⟩⟩, rfl⟩
    · rintro ⟨m, hm, heq⟩
      cases heq
      exact (of_decide_eq_true (List.mem_filter.mp hm).2).2
  released_eq := rfl
  ordered := List.pairwise_map.mpr (h.ordered.filter _)
  counted := by
    intro entry hentry
    obtain ⟨m, hm, rfl⟩ := List.mem_map.mp hentry
    exact h.counted m (List.mem_filter.mp hm).1
  highQoS := by
    intro entry hentry
    obtain ⟨m, hm, rfl⟩ := List.mem_map.mp hentry
    exact h.highQoS m (List.mem_filter.mp hm).1

theorem orderedPackets_eq (h : s.Logged log) (session : SessionId) :
    (orderedPackets (s.sessions session)).map (·.mPacket.setDupFlag) =
      (unacknowledged s log session).map HandedMessage.resent := by
  rw [Outbox.orderedPackets_eq (h.holds session), List.map_map, List.map_map]
  rfl

end Logged

omit [Libnioev] in
/-- The deliveries of a login are none. -/
theorem deliveries_of_executedLogin [SubscriptionTree τ] {login : Login}
    (h : s.executedLogin action = some login) : (s.deliveries action).2 = [] := by
  cases action with
  | execute randomChars =>
      simp only [executedLogin] at h
      split at h
      · next hqueue =>
          simp only [deliveries, hqueue]
          rfl
      · cases h
  | _ => cases h

end ApplicationState

/-! ## Runs -/

/-- A broker, and the messages its sessions have been handed. -/
structure ResentMessages (τ : Type) where
  broker : ApplicationState τ
  log : List HandedMessage := []

namespace ResentMessages

variable {τ : Type} [Libnioev] [SubscriptionTree τ] {w w' : ResentMessages τ}
  {action : ApplicationState.Action}

def step (w : ResentMessages τ) (action : ApplicationState.Action) : Option (ResentMessages τ) :=
  (w.broker.stepOk action).map fun t =>
    { broker := t
      log := w.log ++
        (w.broker.deliveries action).1.handedMessages (w.broker.deliveries action).2 }

omit [Libnioev] [SubscriptionTree τ] in
def initial (retained : AList fun _ : ByteString => RetainedMessage) : ResentMessages τ where
  broker := .initial retained

omit [SubscriptionTree τ] in
structure Sound (w : ResentMessages τ) : Prop where
  linked : w.broker.Linked
  logged : w.broker.Logged w.log

theorem sound_initial (retained : AList fun _ : ByteString => RetainedMessage) :
    (initial retained : ResentMessages τ).Sound where
  linked := ApplicationState.linked_initial retained
  logged := {
    stored := fun _ _ _ hsome => by cases hsome
    ordered := .nil
    counted := fun _ hm => by cases hm
    highQoS := fun _ hm => by cases hm }

theorem Sound.step (h : w.Sound) (hstep : w.step action = some w') : w'.Sound := by
  obtain ⟨t, hok, rfl⟩ := Option.map_eq_some_iff.mp hstep
  refine ⟨ApplicationState.linked_stepOk h.linked hok, ?_⟩
  show t.Logged (w.log ++ _)
  cases hlogin : w.broker.executedLogin action with
  | some login =>
      have hsends := ApplicationState.sendsLogin_of_executedLogin h.linked hok hlogin
      rw [ApplicationState.deliveries_of_executedLogin hlogin, ApplicationState.handedMessages,
        List.append_nil]
      have houtgoing := hsends.outgoing_eq
      split at houtgoing
      · exact h.logged.keeps ⟨houtgoing, hsends.globalOrderCounter_eq⟩
      · exact h.logged.update houtgoing hsends.globalOrderCounter_eq fun _ _ hsome => by cases hsome
  | none =>
      have hstep' := ApplicationState.step_of_stepOk hok
      by_cases hpacket : ∃ client packet, action = .packet client packet
      · obtain ⟨client, packet, rfl⟩ := hpacket
        cases ApplicationState.steps_of_step hstep'
        show ApplicationState.Logged _ (w.log ++ [])
        rw [List.append_nil]
        cases hattached : (w.broker.connections client).mPersistentClientState with
        | none =>
            exact h.logged.keeps (ApplicationState.keepsOutgoing_handlePacketReceived hattached packet)
        | some session =>
            obtain ⟨houtgoing, hcount⟩ :=
              ApplicationState.outgoing_handlePacketReceived hattached packet
            exact h.logged.update houtgoing hcount fun _ _ hsome => Outgoing.lookup_received hsome
      · obtain ⟨hbase, u, hmade, hkept⟩ := ApplicationState.delivers_step h.linked
          (fun client packet heq => hpacket ⟨client, packet, heq⟩) hlogin hstep'
        exact ((h.logged.keeps hbase).deliverAll hmade).keeps hkept

/-- In every run, a login that resumes a session sends the `CONNACK`, then messages that have
been handed to the session, in their order and none of them twice, and then the `PUBREL`s. A
message that can be received gets to its connection as it was published exactly if the
connection has the version of the one that the session had when it was published. -/
theorem resent_of_isRun
    [LawfulLibnioev] [BinaryDecoder] [LawfulBinaryDecoder]
    (htakes : ∀ bytes properties rest,
      Libnioev.decodeProperties bytes = some (properties, rest) → rest.length < bytes.length)
    (hcount : MQTTMessageType.publish.toUInt8.toNat < Libnioev.messageTypeCount)
    {retained : AList fun _ : ByteString => RetainedMessage}
    {run : List (ApplicationState.Action × ResentMessages τ)}
    (hrun : Runs.IsRun (Runs.StepOf step) (initial retained) run)
    (hlast : Runs.last (initial retained) run = w) (hstep : w.step action = some w')
    {login : Login} (hlogin : w.broker.executedLogin action = some login)
    (hresumes : w.broker.Resumes login) :
    ∃ messages : List HandedMessage, messages.Sublist w.log ∧
      (∀ m ∈ messages, m.session = w.broker.sessionFor login) ∧
      (w'.broker.connections login.client).sent = (w.broker.connections login.client).sent ++
        connack (w.broker.connections login.client).mMQTTVersion .yes ::
          (messages.map HandedMessage.resent ++
            (ApplicationState.pubrelIdentifiers
              (w.broker.sessions (w.broker.sessionFor login))).map pubrel) ∧
      ∀ m ∈ messages, m.Receivable → ∀ others (s : LoopState PublishReceiver) chunks,
        s.world.mMQTTVersion = (w.broker.connections login.client).mMQTTVersion →
        m.IsSent s chunks →
          (m.ArrivesAt others s chunks ↔
            m.version = (w.broker.connections login.client).mMQTTVersion) := by
  have hsound : w.Sound := by
    rw [← hlast]
    exact hrun.invariant_last (fun _ _ _ h hst => h.step hst) (sound_initial retained)
  obtain ⟨t, hok, rfl⟩ := Option.map_eq_some_iff.mp hstep
  have hsent := (ApplicationState.sendsLogin_of_executedLogin hsound.linked hok hlogin).sent_eq
  rw [ApplicationState.loginPackets_of_resumes hresumes, hsound.logged.orderedPackets_eq] at hsent
  refine ⟨_, List.filter_sublist, ?_, hsent, ?_⟩
  · intro m hm
    exact (of_decide_eq_true (List.mem_filter.mp hm).2).1
  · intro m hm hreceivable others s chunks hversion hissent
    rw [← hversion]
    exact HandedMessage.arrivesAt_iff htakes hcount hreceivable others hissent

end ResentMessages

section

open ApplicationState

/-- A message is published to a client of version 3.1.1, and not acknowledged; the client
comes back with version 5. -/
def ResentMessages.upgraded : List Action :=
  Resumptions.subscribed ++ Resumptions.published .qos1 ++ Action.requestLogout 0 ++
    [.execute [], .newConnection [] 0, .connect 1 ⟨.v5, 60, [0x61], .no, none, Action.kept_of_id⟩,
      .proceed (.receiver 1) false]

/-- The message is sent again, and it does not arrive as it was. -/
theorem ResentMessages.resent_upgraded :
    let w := Runs.last (initial ∅)
      (Runs.runOf (@step SubscriptionList .standard _) (initial ∅) upgraded)
    ∃ messages : List HandedMessage, messages.Sublist w.log ∧ messages ≠ [] ∧
      ∀ m ∈ messages, ∀ others (s : LoopState PublishReceiver) chunks,
        s.world.mMQTTVersion = .v5 → @HandedMessage.IsSent .standard m s chunks →
          ¬ @HandedMessage.ArrivesAt .standard .standard m others s chunks := by
  intro w
  obtain ⟨w', hstep⟩ := Option.isSome_iff_exists.mp
    (show (@step SubscriptionList .standard _ w (.execute [])).isSome by decide +kernel)
  have hlogin : (w.broker.executedLogin (.execute [])).map
      (fun login => (login.client, login.clientId, login.cleanSession)) = some (1, [0x61], .no) := by
    decide +kernel
  obtain ⟨⟨client, clientId, cleanSession⟩, hlogin, heq⟩ := Option.map_eq_some_iff.mp hlogin
  cases heq
  obtain ⟨messages, hsub, -, hsent, harrives⟩ :=
    @resent_of_isRun SubscriptionList .standard _ w w' (.execute []) Libnioev.standard_lawful
      .standard BinaryDecoder.standard_lawful Libnioev.standard_takes (by decide) ∅ _
      (Runs.isRun_runOf (@step SubscriptionList .standard _) (initial ∅) upgraded) rfl hstep
      ⟨1, [0x61], .no⟩ hlogin (by decide +kernel)
  have hlogged : ∀ m ∈ w.log, m.version = .v4 ∧ m.delivery.topic = [0x74] ∧
      m.delivery.properties = [] ∧
      (@HandedMessage.resent .standard m).bodyLength ≤ maxReceivedLength := by
    decide +kernel
  have hversion : (w.broker.connections 1).mMQTTVersion = .v5 := by decide +kernel
  refine ⟨messages, hsub, ?_, fun m hm others s chunks hs hissent harrive => ?_⟩
  · rintro rfl
    have hcount : ((w'.broker.connections 1).sent.length) = 2 := by
      have hall : (@step SubscriptionList .standard _ w (.execute [])).map
          (fun w' => (w'.broker.connections 1).sent.length) = some 2 := by decide +kernel
      rw [hstep] at hall
      exact Option.some.inj hall
    rw [hsent] at hcount
    revert hcount
    decide +kernel
  · obtain ⟨hv4, htopic, hproperties, hbody⟩ := hlogged m (hsub.subset hm)
    have hreceivable : @HandedMessage.Receivable .standard m := by
      refine @HandedMessage.Receivable.mk .standard m ?_ ?_ ?_ hbody
      · rw [htopic]
        decide
      · rw [htopic]
        decide
      · rw [hproperties]
        exact fun _ => rfl
    have hsame := (harrives m hm hreceivable others s chunks (hs.trans hversion.symm) hissent).mp
      harrive
    rw [hv4, hversion] at hsame
    cases hsame

end

end NioevMqtt
