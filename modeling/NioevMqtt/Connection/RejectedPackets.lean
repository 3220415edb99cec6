-- SUMMARY: Packets that are rejected: which of them have already been answered, published or passed on in part.
import NioevMqtt.Connection.HandledPackets

/-!
# Rejected packets

A packet that violates the protocol, or ends before all of it has been read, makes the
handler throw. Most branches read everything before they act. A `PUBLISH` is answered before
its properties are read, and lists of topics are passed on one by one.
-/

namespace NioevMqtt

open Reading

namespace PacketReceiver

section

variable [Libnioev] [BinaryDecoder] {c : PacketReceiver} {recvData : PacketReceiveData}

/-- What others see of a packet: the sessions, what is published, the changes asked for, and
the replies. -/
structure Effects where
  sessions : SessionId → PersistentClientState
  published : List MQTTPacket
  requests : List ChangeRequest
  sent : List EncodedPacket

omit [Libnioev] [BinaryDecoder] in
def effects (c : PacketReceiver) : Effects := ⟨c.sessions, c.published, c.requests, c.conn.sent⟩

omit [Libnioev] in
/-- A protocol violation or a decode error. -/
def IsRejection (exception : ReceiveException) : Prop :=
  (∃ reason, exception = .protocolViolation reason) ∨ exception = BinaryDecoder.exception

/-- The handler throws for one of these reasons. -/
def Rejects (c : PacketReceiver) (recvData : PacketReceiveData) : Prop :=
  ∃ exception, (handlePacketReceived .connected recvData c).2 = some exception ∧
    IsRejection exception

/-- A message whose properties cannot be read has been answered by then. At quality 2 this is
so the first time. -/
def SpoilsPublish (c : PacketReceiver) (recvData : PacketReceiveData) : Prop :=
  ∃ qos topic id bytes, PublishesAs recvData qos topic id bytes ∧
    skipProperties c.version bytes = none ∧
    (qos = .qos1 ∨ qos = .qos2 ∧ ∃ session, c.conn.mPersistentClientState = some session ∧
      id ∉ (c.sessions session).mQoS2receivingPacketIds)

/-- A topic cannot be read, and it is not the first. -/
def SpoilsTopics (c : PacketReceiver) (recvData : PacketReceiveData) : Prop :=
  (∃ session id filters exception, filters ≠ [] ∧
      c.ListsTopics recvData .subscribe readFilter session id filters (some exception)) ∨
    ∃ session id topics exception, topics ≠ [] ∧
      c.ListsTopics recvData .unsubscribe readTopic session id topics (some exception)

/-! ## Failures -/

omit [Libnioev] in
theorem isRejection_of_reads {β : Type}
    {read : List UInt8 → Except ReceiveException (β × List UInt8)}
    (h : ∀ bytes exception, read bytes = .error exception → IsRejection exception)
    {bytes : List UInt8} {items : List β} {exception : ReceiveException}
    (hreads : Reads read bytes items (some exception)) : IsRejection exception := by
  generalize hfailure : some exception = failure at hreads
  induction hreads with
  | last hread => cases hfailure
  | more hread hne hrest ih => exact ih hfailure
  | fails hread =>
      cases hfailure
      exact h _ _ hread

omit [Libnioev] in
theorem isRejection_readFilter (bytes : List UInt8) (exception : ReceiveException)
    (h : readFilter bytes = .error exception) : IsRejection exception := by
  unfold readFilter at h
  split at h
  · cases h
    exact .inr rfl
  · split at h
    · cases h
      exact .inl ⟨_, rfl⟩
    · split at h
      · cases h
        exact .inr rfl
      · split at h
        · cases h
          exact .inl ⟨_, rfl⟩
        · cases h

omit [Libnioev] in
theorem isRejection_readTopic (bytes : List UInt8) (exception : ReceiveException)
    (h : readTopic bytes = .error exception) : IsRejection exception := by
  unfold readTopic at h
  split at h
  · cases h
    exact .inr rfl
  · cases h

/-! ## What has been done -/

/-- The answer to a `PUBLISH` that is spoilt. -/
theorem handleConnected_spoilsPublish (h : c.SpoilsPublish recvData) :
    ∃ packet, (c.handleConnected recvData).1.conn.sent = c.conn.sent ++ [packet] ∧
      (c.handleConnected recvData).2 = some BinaryDecoder.exception := by
  obtain ⟨qos, topic, id, bytes, hpublishes, hproperties, hqos⟩ := h
  have hpublish : c.handleConnected recvData = c.handlePublish recvData := by
    unfold handleConnected
    rw [hpublishes.1]
  rw [hpublish]
  rcases hqos with rfl | ⟨rfl, session, hsession, hnew⟩
  · rcases handlePublish_qos1 (c := c) hpublishes with ⟨-, heq⟩ | ⟨message, hread, -⟩
    · rw [heq]
      exact ⟨_, rfl, rfl⟩
    · exact absurd hproperties hread
  · rcases handlePublish_qos2 hsession hpublishes with ⟨hknown, -⟩ | ⟨-, -, heq⟩ | ⟨_, -, hread, -⟩
    · exact absurd hknown hnew
    · rw [heq]
      exact ⟨_, rfl, rfl⟩
    · exact absurd hproperties hread

variable [LawfulBinaryDecoder]

theorem handleConnected_subscribe [StrictBinaryDecoder] {session : SessionId} {id : UInt16}
    {filters : List (ByteString × QoS)} {failure : Option ReceiveException}
    (h : c.ListsTopics recvData .subscribe readFilter session id filters failure) :
    c.handleConnected recvData = (c.requestChanges (filters.map (subscribeRequest session))).answerTopics
      .suback id (filters.flatMap fun filter => [filter.2.toUInt8]) failure := by
  obtain ⟨htype, hfirst, hsession, body, hheader, hreads⟩ := h
  have hvalid : ¬ recvData.firstByte ≠ 0x82 := not_not.mpr hfirst
  unfold handleConnected
  rw [htype]
  simp only [if_neg hvalid]
  exact handleTopics_of_reads consuming_readFilter
    (fun filter s hs _ => subscribe_of_session hs filter) hsession .suback hheader hreads

theorem handleConnected_unsubscribe {session : SessionId} {id : UInt16}
    {topics : List ByteString} {failure : Option ReceiveException}
    (h : c.ListsTopics recvData .unsubscribe readTopic session id topics failure) :
    c.handleConnected recvData =
      (c.requestChanges (topics.map (unsubscribeRequest session))).answerTopics .unsuback id
        (topics.flatMap fun topic => unsubscribeCodes c.version [topic]) failure := by
  obtain ⟨htype, hfirst, hsession, body, hheader, hreads⟩ := h
  have hvalid : ¬ recvData.firstByte ≠ 0xA2 := not_not.mpr hfirst
  unfold handleConnected
  rw [htype]
  simp only [if_neg hvalid]
  exact handleTopics_of_reads consuming_readTopic
    (fun topic s hs hversion => hversion ▸ unsubscribe_of_session hs topic) hsession .unsuback
    hheader hreads

variable [StrictBinaryDecoder]

/-- The changes that a spoilt list of topics has asked for. -/
theorem handleConnected_spoilsTopics (h : c.SpoilsTopics recvData) :
    ∃ changes exception, changes ≠ [] ∧ IsRejection exception ∧
      c.handleConnected recvData = (c.requestChanges changes, some exception) := by
  rcases h with ⟨session, id, filters, exception, hne, h⟩ | ⟨session, id, topics, exception, hne, h⟩
  · obtain ⟨body, -, hreads⟩ := h.reads
    exact ⟨_, exception, List.map_eq_nil_iff.not.mpr hne,
      isRejection_of_reads isRejection_readFilter hreads, handleConnected_subscribe h⟩
  · obtain ⟨body, -, hreads⟩ := h.reads
    exact ⟨_, exception, List.map_eq_nil_iff.not.mpr hne,
      isRejection_of_reads isRejection_readTopic hreads, handleConnected_unsubscribe h⟩

omit [Libnioev] [BinaryDecoder] [LawfulBinaryDecoder] [StrictBinaryDecoder] in
/-- Without topics nothing is asked for. -/
theorem effects_requestChanges_nil {β : Type} {request : β → ChangeRequest} {items : List β}
    (h : ¬ items ≠ []) : (c.requestChanges (items.map request)).effects = c.effects := by
  rw [not_not.mp h]
  unfold effects requestChanges
  rw [List.map_nil, List.append_nil]

/-- For every packet on every connection: if it is rejected it has no effect, exactly if it
is not spoilt after it has had one. -/
theorem effects_of_rejects_iff (c : PacketReceiver) (recvData : PacketReceiveData) :
    (c.Rejects recvData →
        (handlePacketReceived .connected recvData c).1.effects = c.effects) ↔
      ¬ (c.SpoilsPublish recvData ∨ c.SpoilsTopics recvData) := by
  constructor
  · rintro h (hspoilt | hspoilt)
    · obtain ⟨packet, hsent, hthrows⟩ := handleConnected_spoilsPublish hspoilt
      have hsame := congrArg Effects.sent (h ⟨_, hthrows, .inr rfl⟩)
      exact List.cons_ne_nil _ _ (List.append_right_eq_self.mp (hsent.symm.trans hsame))
    · obtain ⟨changes, exception, hne, hrejection, heq⟩ := handleConnected_spoilsTopics hspoilt
      have hsame := congrArg Effects.requests (h ⟨_, congrArg Prod.snd heq, hrejection⟩)
      have hrequests : (c.handleConnected recvData).1.requests = c.requests ++ changes :=
        congrArg (·.1.requests) heq
      exact hne (List.append_right_eq_self.mp (hrequests.symm.trans hsame))
  · rintro hnot ⟨exception, hthrows, -⟩
    have hhandled := handled c recvData
    show (c.handleConnected recvData).1.effects = c.effects
    change (c.handleConnected recvData).2 = some exception at hthrows
    generalize c.handleConnected recvData = result at hhandled hthrows
    cases hhandled with
    | nothing => rfl
    | disconnect => rfl
    | publish1Spoilt h hproperties =>
        exact absurd (.inl ⟨.qos1, _, _, _, h, hproperties, .inl rfl⟩) hnot
    | publish2Spoilt hsession h hnew hproperties =>
        exact absurd (.inl ⟨.qos2, _, _, _, h, hproperties, .inr ⟨rfl, _, hsession, hnew⟩⟩) hnot
    | subscribeSpoilt h =>
        exact effects_requestChanges_nil fun hne =>
          hnot (.inr (.inl ⟨_, _, _, _, hne, h⟩))
    | unsubscribeSpoilt h =>
        exact effects_requestChanges_nil fun hne =>
          hnot (.inr (.inr ⟨_, _, _, _, hne, h⟩))
    | _ => cases hthrows

end

/-- A `SUBSCRIBE` that ends within its only filter. -/
theorem effects_of_rejects_subscribe :
    let c : PacketReceiver := { client := 0, conn := { mPersistentClientState := some 0 } }
    let recvData : PacketReceiveData :=
      { messageType := .subscribe, firstByte := 0x82, currentReceiveBuffer := [0x00, 0x09, 0x00] }
    @Rejects .standard .standard c recvData ∧
      (@handlePacketReceived .standard .standard .connected recvData c).1.effects = c.effects := by
  intro c recvData
  have hrejects : @Rejects .standard .standard c recvData :=
    ⟨@BinaryDecoder.exception .standard, by decide +kernel, .inr rfl⟩
  have hiff := @effects_of_rejects_iff .standard .standard BinaryDecoder.standard_lawful
    BinaryDecoder.standard_strict c recvData
  have hheader : @readHeader .standard .standard c.version recvData.currentReceiveBuffer =
      some (9, [0x00]) := by decide +kernel
  have hfails : Reads (@readFilter .standard) [0x00] [] (some (@BinaryDecoder.exception .standard)) :=
    .fails rfl
  refine ⟨hrejects, hiff.mpr ?_ hrejects⟩
  rintro (⟨qos, topic, id, bytes, ⟨htype, -⟩, -⟩ |
    ⟨session, id, filters, exception, hne, -, -, -, body, hbody, hreads⟩ |
    ⟨session, id, topics, exception, hne, htype, -⟩)
  · cases htype
  · cases hheader.symm.trans hbody
    exact hne (hreads.unique hfails).1
  · cases htype

/-- A `SUBSCRIBE` whose second filter has no quality of service: the first is passed on. -/
theorem not_effects_of_rejects_subscribe :
    let c : PacketReceiver := { client := 0, conn := { mPersistentClientState := some 0 } }
    let recvData : PacketReceiveData :=
      { messageType := .subscribe, firstByte := 0x82
        currentReceiveBuffer := [0x00, 0x09, 0x00, 0x01, 0x61, 0x00, 0x00, 0x01, 0x62] }
    @Rejects .standard .standard c recvData ∧
      (@handlePacketReceived .standard .standard .connected recvData c).1.effects ≠ c.effects := by
  intro c recvData
  refine ⟨⟨@BinaryDecoder.exception .standard, by decide +kernel, .inr rfl⟩, fun hsame => ?_⟩
  have hrequests := congrArg Effects.requests hsame
  revert hrequests
  decide +kernel

end PacketReceiver

end NioevMqtt
