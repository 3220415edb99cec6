-- SUMMARY: The replies of the handler in version 3.1.1, and what a login sends: when each of them has the body its type requires.
import NioevMqtt.Broker.StoredPublishes
import NioevMqtt.Connection.HandledPackets

/-!
# Replies

What the handler sends is one packet at most. All of its replies are put together by hand,
and the factories of `EncodedPacket` add the length to what they are given.
-/

namespace NioevMqtt

namespace EncodedPacket

/-- The type in the first byte. -/
def messageType (p : EncodedPacket) : MQTTMessageType := .ofUInt8 (p.mPrelude.firstByte >>> 4)

/-- What follows the fixed header. -/
def body (p : EncodedPacket) : List UInt8 := p.mMiddle ++ (p.packetIdBytes ++ p.mEnd)

section

variable [Libnioev]

theorem messageType_fromData (type : MQTTMessageType) {firstByte : UInt8}
    (h : .ofUInt8 (firstByte >>> 4) = type) (buffer : SharedBuffer) :
    (fromData firstByte buffer).messageType = type := h

theorem body_fromData (firstByte : UInt8) (buffer : SharedBuffer) :
    (fromData firstByte buffer).body = buffer := List.append_nil buffer

/-- In version 3.1.1 an acknowledgement is the identifier alone. -/
theorem body_acknowledgement_v4 (type : MQTTMessageType) (flags : UInt8) (id : UInt16)
    (reason : Option UInt8) :
    (ApplicationState.acknowledgement type flags .v4 id reason).body = bigEndianBytes id :=
  (body_fromData _ _).trans (List.append_nil _)

theorem body_topicAcknowledgement_v4 (type : MQTTMessageType) (id : UInt16) (codes : List UInt8) :
    (ApplicationState.topicAcknowledgement type .v4 id codes).body = bigEndianBytes id ++ codes := by
  refine (body_fromData _ _).trans ?_
  rw [if_neg (by decide), List.append_nil]

end

theorem type_dupFlag (retained : Retained) (qos : QoS) :
    (MQTTPublishPacketBuilder.firstByte retained qos ||| 0x08) >>> 4 =
      MQTTMessageType.publish.toUInt8 := by
  cases retained with
  | no =>
      cases qos with
      | qos0 => decide
      | qos1 => decide
      | qos2 => decide
  | yes =>
      cases qos with
      | qos0 => decide
      | qos1 => decide
      | qos2 => decide

/-- A stored packet stays a `PUBLISH` when it is sent again. -/
theorem IsPublish.messageType_setDupFlag {p : EncodedPacket} (h : p.IsPublish) :
    p.setDupFlag.messageType = .publish := by
  obtain ⟨retained, qos, hfirst⟩ := h
  show MQTTMessageType.ofUInt8 ((p.mPrelude.firstByte ||| 0x08) >>> 4) = .publish
  rw [hfirst, type_dupFlag]
  rfl

end EncodedPacket

/-! ## New connections -/

namespace ConnectReceiver

variable [Libnioev] [BinaryDecoder] {c : ConnectReceiver} {sent : List EncodedPacket}

/-- A `CONNECT` of a protocol level that is not supported. -/
def RejectsVersion (recvData : PacketReceiveData) : Prop :=
  recvData.messageType = .connect ∧ 6 ≤ recvData.currentReceiveBuffer.length ∧
    recvData.currentReceiveBuffer.take 6 = protocolName ∧
    ∃ protocolLevel rest, BinaryDecoder.decodeByte (recvData.currentReceiveBuffer.drop 6) =
      some (protocolLevel, rest) ∧ protocolLevel ≠ 4 ∧ protocolLevel ≠ 5

omit [Libnioev] in
theorem sent_decoding {α : Type*} {read : Option (α × List UInt8)}
    {next : α → List UInt8 → ConnectReceiver × Option ReceiveException}
    (hc : c.conn.sent = sent) (h : ∀ x bytes, (next x bytes).1.conn.sent = sent) :
    (c.decoding read next).1.conn.sent = sent := by
  unfold decoding
  cases read with
  | none => exact hc
  | some read => exact h read.1 read.2

omit [Libnioev] in
theorem sent_skipString {flag : UInt8} {bytes : List UInt8}
    {next : List UInt8 → ConnectReceiver × Option ReceiveException}
    (hc : c.conn.sent = sent) (h : ∀ bytes, (next bytes).1.conn.sent = sent) :
    (c.skipString flag bytes next).1.conn.sent = sent := by
  unfold skipString
  split
  · exact sent_decoding hc fun _ bytes => h bytes
  · exact h bytes

omit [Libnioev] in
theorem sent_handleCredentials (c : ConnectReceiver) (connectFlags : UInt8) (clientId : ByteString)
    (cleanSession : CleanSession) (bytes : List UInt8) :
    (c.handleCredentials connectFlags clientId cleanSession bytes).1.conn.sent = c.conn.sent :=
  sent_skipString rfl fun _ => sent_skipString rfl fun _ => rfl

omit [Libnioev] in
theorem sent_handleWill (c : ConnectReceiver) (connectFlags : UInt8) (clientId : ByteString)
    (cleanSession : CleanSession) (bytes : List UInt8) :
    (c.handleWill connectFlags clientId cleanSession bytes).1.conn.sent = c.conn.sent := by
  unfold handleWill
  split
  · refine sent_decoding rfl fun willTopic bytes => ?_
    split
    · rfl
    · refine sent_decoding rfl fun willMessage bytes => ?_
      simp only
      split
      · rfl
      · exact sent_handleCredentials _ connectFlags clientId cleanSession bytes
  · exact sent_handleCredentials c connectFlags clientId cleanSession bytes

omit [Libnioev] in
theorem sent_handlePayload (c : ConnectReceiver) (connectFlags : UInt8) (bytes : List UInt8) :
    (c.handlePayload connectFlags bytes).1.conn.sent = c.conn.sent := by
  refine sent_decoding rfl fun clientId bytes => ?_
  generalize (if connectFlags &&& 0x2 = 0 then CleanSession.no else .yes) = cleanSession
  simp only
  split
  · rfl
  · exact sent_handleWill c connectFlags clientId cleanSession bytes

/-- A supported version is not answered yet. -/
theorem sent_handleVersion (c : ConnectReceiver) (version : MQTTVersion) (bytes : List UInt8) :
    (c.handleVersion version bytes).1.conn.sent = c.conn.sent := by
  refine sent_decoding rfl fun connectFlags bytes => sent_decoding rfl fun keepAlive bytes => ?_
  simp only
  split
  · rfl
  · split
    · exact sent_decoding rfl fun properties bytes => sent_handlePayload _ connectFlags bytes
    · exact sent_handlePayload _ connectFlags bytes

/-- A new connection is answered when its version is rejected. -/
theorem sent_handlePacketReceived (c : ConnectReceiver) (recvData : PacketReceiveData) :
    (RejectsVersion recvData ∧
        (handlePacketReceived recvData c).1.conn.sent = c.rejectVersion.conn.sent) ∨
      (¬ RejectsVersion recvData ∧
        (handlePacketReceived recvData c).1.conn.sent = c.conn.sent) := by
  unfold handlePacketReceived
  split
  · next htype =>
      unfold handleConnect
      split
      · next hshort => exact .inr ⟨fun h => absurd h.2.1 (Nat.not_le.mpr hshort), rfl⟩
      · next hlong =>
          split
          · next hname => exact .inr ⟨fun h => hname h.2.2.1, rfl⟩
          · next hname =>
              unfold decoding
              cases hlevel : BinaryDecoder.decodeByte (recvData.currentReceiveBuffer.drop 6) with
              | none =>
                  refine .inr ⟨?_, rfl⟩
                  rintro ⟨-, -, -, level, rest, heq, -⟩
                  cases hlevel.symm.trans heq
              | some read =>
                  obtain ⟨protocolLevel, bytes⟩ := read
                  simp only
                  split
                  · next hother =>
                      exact .inl ⟨⟨htype, Nat.le_of_not_lt hlong, not_not.mp hname, protocolLevel,
                        bytes, hlevel, hother⟩, rfl⟩
                  · next hsupported =>
                      refine .inr ⟨?_, sent_handleVersion c _ bytes⟩
                      rintro ⟨-, -, -, level, rest, heq, hother⟩
                      cases hlevel.symm.trans heq
                      exact hsupported hother
  · next htype => exact .inr ⟨fun h => htype h.1, rfl⟩

end ConnectReceiver

/-! ## All connections -/

namespace PacketReceiver

variable [Libnioev] [BinaryDecoder] {c : PacketReceiver} {recvData : PacketReceiveData}

/-- What the handler sends for a packet. -/
def replies (c : PacketReceiver) (state : ConnectionState) (recvData : PacketReceiveData) :
    List EncodedPacket :=
  (handlePacketReceived state recvData c).1.conn.sent.drop c.conn.sent.length

/-- The replies there are. -/
inductive Replies (c : PacketReceiver) (recvData : PacketReceiveData) :
    ConnectionState → List EncodedPacket → Prop
  | nothing {state} : Replies c recvData state []
  | rejectVersion (h : ConnectReceiver.RejectsVersion recvData) :
      Replies c recvData .initial [.fromData (MQTTMessageType.connack.toUInt8 <<< 4) [2, 0, 1]]
  | puback {topic id bytes} (h : PublishesAs recvData .qos1 topic id bytes) :
      Replies c recvData .connected
        [ApplicationState.acknowledgement .puback 0 c.version id (some 0)]
  | pubrec {topic id bytes} (h : PublishesAs recvData .qos2 topic id bytes) :
      Replies c recvData .connected
        [ApplicationState.acknowledgement .pubrec 0 c.version id (some 0)]
  | pubcomp {session id} (h : c.Acknowledges recvData .pubrel session id)
      (hfirst : recvData.firstByte = 0x62) :
      Replies c recvData .connected
        [ApplicationState.acknowledgement .pubcomp 0 c.version id
          (reason (id ∈ (c.sessions session).mQoS2receivingPacketIds))]
  | pubrel {session id} (h : c.Acknowledges recvData .pubrec session id) :
      Replies c recvData .connected
        [ApplicationState.acknowledgement .pubrel 0b10 c.version id
          (reason (id ∈ (c.sessions session).mHighQoSSendingPackets))]
  | suback {session id filters}
      (h : c.ListsTopics recvData .subscribe readFilter session id filters none)
      (hrequests : (handlePacketReceived .connected recvData c).1.requests =
        c.requests ++ filters.map (subscribeRequest session)) :
      Replies c recvData .connected
        [ApplicationState.topicAcknowledgement .suback c.version id
          (filters.map fun filter => filter.2.toUInt8)]
  | unsuback {session id topics}
      (h : c.ListsTopics recvData .unsubscribe readTopic session id topics none) :
      Replies c recvData .connected
        [ApplicationState.topicAcknowledgement .unsuback c.version id
          (unsubscribeCodes c.version topics)]
  | pingresp : Replies c recvData .connected
      [.fromFirstByte (MQTTMessageType.pingresp.toUInt8 <<< 4)]

theorem replies_eq (state : ConnectionState) {packets : List EncodedPacket}
    (h : (handlePacketReceived state recvData c).1.conn.sent = c.conn.sent ++ packets) :
    c.replies state recvData = packets := by
  unfold replies
  rw [h]
  exact List.drop_left

/-- Where nothing is sent there is no reply. -/
theorem replies_eq_nil (state : ConnectionState)
    (h : (handlePacketReceived state recvData c).1.conn.sent = c.conn.sent) :
    c.replies state recvData = [] := replies_eq state (h.trans (List.append_nil _).symm)

theorem replies_initial (c : PacketReceiver) (recvData : PacketReceiveData) :
    Replies c recvData .initial (c.replies .initial recvData) := by
  rcases ConnectReceiver.sent_handlePacketReceived c.toConnectReceiver recvData with
    ⟨hrejects, hsent⟩ | ⟨-, hsent⟩
  · have heq := replies_eq (c := c) .initial hsent
    exact heq ▸ .rejectVersion hrejects
  · have heq := replies_eq_nil (c := c) .initial hsent
    exact heq ▸ .nothing

theorem replies_rejectVersion (h : ConnectReceiver.RejectsVersion recvData) :
    c.replies .initial recvData =
      [.fromData (MQTTMessageType.connack.toUInt8 <<< 4) [2, 0, 1]] := by
  rcases ConnectReceiver.sent_handlePacketReceived c.toConnectReceiver recvData with
    ⟨-, hsent⟩ | ⟨hnot, -⟩
  · exact replies_eq .initial hsent
  · exact absurd h hnot

section

variable [LawfulBinaryDecoder] [StrictBinaryDecoder]

theorem replies_connected (c : PacketReceiver) (recvData : PacketReceiveData) :
    Replies c recvData .connected (c.replies .connected recvData) := by
  have hreplies := @replies_eq _ _ c recvData .connected
  have hrequests : ∀ result, c.handleConnected recvData = result →
      (handlePacketReceived .connected recvData c).1.requests = result.1.requests := by
    rintro _ rfl
    rfl
  have hhandled := handled c recvData
  have hsent : (handlePacketReceived .connected recvData c).1.conn.sent =
      (c.handleConnected recvData).1.conn.sent := rfl
  generalize hresult : c.handleConnected recvData = result at hhandled hsent
  cases hhandled with
  | publish1 h => exact hreplies hsent ▸ .puback h
  | publish1Spoilt h hproperties => exact hreplies hsent ▸ .puback h
  | publish2Again hsession h => exact hreplies hsent ▸ .pubrec h
  | publish2 hsession h => exact hreplies hsent ▸ .pubrec h
  | publish2Spoilt hsession h hnew hproperties => exact hreplies hsent ▸ .pubrec h
  | pubRel h hfirst => exact hreplies hsent ▸ .pubcomp h hfirst
  | pubRec h => exact hreplies hsent ▸ .pubrel h
  | subscribe h => exact hreplies hsent ▸ .suback h (hrequests _ hresult)
  | unsubscribe h => exact hreplies hsent ▸ .unsuback h
  | pingReq htype => exact hreplies hsent ▸ .pingresp
  | _ => exact replies_eq_nil (c := c) .connected hsent ▸ .nothing

/-- Whatever the handler sends is one of the replies. -/
theorem replies_cases (c : PacketReceiver) (state : ConnectionState) (recvData : PacketReceiveData) :
    Replies c recvData state (c.replies state recvData) := by
  cases state with
  | initial => exact replies_initial c recvData
  | connected => exact replies_connected c recvData
  | connecting => exact replies_eq_nil (c := c) .connecting rfl ▸ .nothing
  | invalidProtocolVersion =>
      exact replies_eq_nil (c := c) .invalidProtocolVersion rfl ▸ .nothing

end

/-! ## Identifiers -/

omit [Libnioev] in
theorem identifier_of_publishesAs {qos : QoS} {topic : ByteString} {id : UInt16}
    {bytes : List UInt8} (h : PublishesAs recvData qos topic id bytes) :
    identifier recvData = some id := by
  obtain ⟨htype, -, -, behind, hstring, hid⟩ := h
  unfold identifier
  rw [if_pos htype, hstring]
  exact congrArg (Option.map (·.1)) hid

theorem Acknowledges.identifier_eq {type : MQTTMessageType} {session : SessionId} {id : UInt16}
    (h : c.Acknowledges recvData type session id) (htype : type ≠ .publish) :
    identifier recvData = some id := by
  have hdecode := h.decode_eq
  unfold decodeAcknowledgement at hdecode
  unfold identifier
  rw [h.messageType_eq, if_neg htype]
  split at hdecode
  · cases hdecode
  · next read hid =>
      obtain ⟨-, -, rfl⟩ := Option.map_eq_some_iff.mp hdecode
      exact congrArg (Option.map (·.1)) hid

theorem ListsTopics.identifier_eq {type : MQTTMessageType} {β : Type}
    {read : List UInt8 → Except ReceiveException (β × List UInt8)} {session : SessionId}
    {id : UInt16} {items : List β} {failure : Option ReceiveException}
    (h : c.ListsTopics recvData type read session id items failure) (htype : type ≠ .publish) :
    identifier recvData = some id := by
  obtain ⟨body, hheader, -⟩ := h.reads
  unfold readHeader at hheader
  unfold identifier
  rw [h.messageType_eq, if_neg htype]
  split at hheader
  · cases hheader
  · next read hid =>
      obtain ⟨rest, -, heq⟩ := Option.map_eq_some_iff.mp hheader
      rw [hid, ← (Prod.mk.inj heq).1]
      rfl

/-! ## Well-formed replies -/

/-- The body that version 3.1.1 requires of a reply. What a `SUBSCRIBE` asks for is
requested in the order in which it is answered. -/
def RequiresBody (c : PacketReceiver) (state : ConnectionState) (recvData : PacketReceiveData)
    (type : MQTTMessageType) (body : List UInt8) : Prop :=
  match type with
  | .connack => ∃ sessionPresent returnCode, body = [sessionPresent, returnCode]
  | .puback | .pubrec | .pubrel | .pubcomp | .unsuback =>
    ∃ id, identifier recvData = some id ∧ body = bigEndianBytes id
  | .pingresp => body = []
  | .suback =>
    ∃ session id filters, c.ListsTopics recvData .subscribe readFilter session id filters none ∧
      identifier recvData = some id ∧
      body = bigEndianBytes id ++ filters.map (fun filter => filter.2.toUInt8) ∧
      (handlePacketReceived state recvData c).1.requests =
        c.requests ++ filters.map (subscribeRequest session)
  | _ => False

/-- A reply has the body that its type requires. -/
def WellFormedReply (c : PacketReceiver) (state : ConnectionState) (recvData : PacketReceiveData)
    (packet : EncodedPacket) : Prop :=
  c.RequiresBody state recvData packet.messageType packet.body

variable [LawfulBinaryDecoder] [StrictBinaryDecoder]

/-- Every reply is well-formed, but that to a version that is not supported. -/
theorem wellFormedReply_iff (hversion : c.version = .v4) (state : ConnectionState) :
    (∀ packet ∈ c.replies state recvData, c.WellFormedReply state recvData packet) ↔
      ¬ (state = .initial ∧ ConnectReceiver.RejectsVersion recvData) := by
  constructor
  · rintro h ⟨rfl, hrejects⟩
    have hreply := h _ (by rw [replies_rejectVersion hrejects]; exact List.mem_singleton_self _)
    unfold WellFormedReply at hreply
    rw [EncodedPacket.messageType_fromData .connack (by decide),
      EncodedPacket.body_fromData] at hreply
    obtain ⟨sessionPresent, returnCode, hbody⟩ := hreply
    cases hbody
  · intro hsupported
    have hcases := replies_cases c state recvData
    generalize c.replies state recvData = packets at hcases
    have hsingle : ∀ {type packet}, packet.messageType = type →
        c.RequiresBody state recvData type packet.body →
        ∀ packet' ∈ [packet], c.WellFormedReply state recvData packet' := by
      rintro _ packet rfl h packet' hmem
      exact List.mem_singleton.mp hmem ▸ h
    have hacknowledgement := fun type flags id reason =>
      hversion ▸ EncodedPacket.body_acknowledgement_v4 type flags id reason
    have htopics := fun type id codes =>
      hversion ▸ EncodedPacket.body_topicAcknowledgement_v4 type id codes
    cases hcases with
    | nothing => exact fun _ hmem => absurd hmem List.not_mem_nil
    | rejectVersion hrejects => exact absurd ⟨rfl, hrejects⟩ hsupported
    | puback h =>
        exact hsingle (EncodedPacket.messageType_fromData .puback (by decide) _)
          ⟨_, identifier_of_publishesAs h, hacknowledgement _ _ _ _⟩
    | pubrec h =>
        exact hsingle (EncodedPacket.messageType_fromData .pubrec (by decide) _)
          ⟨_, identifier_of_publishesAs h, hacknowledgement _ _ _ _⟩
    | pubcomp h hfirst =>
        exact hsingle (EncodedPacket.messageType_fromData .pubcomp (by decide) _)
          ⟨_, h.identifier_eq (by decide), hacknowledgement _ _ _ _⟩
    | pubrel h =>
        exact hsingle (EncodedPacket.messageType_fromData .pubrel (by decide) _)
          ⟨_, h.identifier_eq (by decide), hacknowledgement _ _ _ _⟩
    | suback h hrequests =>
        exact hsingle (EncodedPacket.messageType_fromData .suback (by decide) _)
          ⟨_, _, _, h, h.identifier_eq (by decide), htopics _ _ _, hrequests⟩
    | unsuback h =>
        refine hsingle (EncodedPacket.messageType_fromData .unsuback (by decide) _)
          ⟨_, h.identifier_eq (by decide), (htopics _ _ _).trans ?_⟩
        unfold unsubscribeCodes
        rw [hversion, if_neg (by decide), List.append_nil]
    | pingresp =>
        have htype : (EncodedPacket.fromFirstByte (MQTTMessageType.pingresp.toUInt8 <<< 4)).messageType
            = .pingresp := by decide
        exact hsingle htype rfl

end PacketReceiver

/-! ## Logins -/

namespace ApplicationState

variable {τ : Type} [Libnioev] {s t : ApplicationState τ} {login : Login} {action : Action}

/-- What version 3.1.1 requires of the packets of a login, by their types. What is stored is
sent as it is, and marked. -/
def RequiresPacket (state : PersistentClientState) (type : MQTTMessageType)
    (packet : EncodedPacket) : Prop :=
  match type with
  | .connack => ∃ sessionPresent returnCode, packet.body = [sessionPresent, returnCode]
  | .pubrel => ∃ id ∈ state.mQos2pubrecReceived, packet.body = bigEndianBytes id
  | .publish => ∃ stored ∈ orderedPackets state, packet = stored.mPacket.setDupFlag
  | _ => False

def WellFormedLoginPacket (state : PersistentClientState) (packet : EncodedPacket) : Prop :=
  RequiresPacket state packet.messageType packet

omit [Libnioev] in
theorem mem_pubrelIdentifiers {state : PersistentClientState} {id : UInt16} :
    id ∈ pubrelIdentifiers state ↔
      id ∈ state.mQos2pubrecReceived ∧ id.toNat < state.mQos2pubrecReceived.card := by
  unfold pubrelIdentifiers
  rw [List.mem_filter, decide_eq_true_eq, List.mem_map, and_comm, and_congr_right_iff]
  intro hmem
  constructor
  · rintro ⟨n, hn, rfl⟩
    have hle := UInt16.toNat_ofNat' ▸ Nat.mod_le n (2 ^ 16)
    exact Nat.lt_of_le_of_lt hle (List.mem_range.mp hn)
  · intro hlt
    exact ⟨id.toNat, List.mem_range.mpr hlt, UInt16.ofNat_toNat⟩

omit [Libnioev] in
theorem isPublish_of_mem_orderedPackets (h : s.StoresPublishes) {session : SessionId}
    {stored : HighQoSRetainStorage} (hmem : stored ∈ orderedPackets (s.sessions session)) :
    stored.mPacket.IsPublish := by
  unfold orderedPackets at hmem
  rw [List.mem_mergeSort, List.mem_map] at hmem
  obtain ⟨⟨id, storage⟩, hentry, rfl⟩ := hmem
  exact h session id storage (AList.mem_lookup_iff.mpr hentry)

theorem wellFormed_loginPackets (h : s.StoresPublishes)
    (hversion : (s.connections login.client).mMQTTVersion = .v4) :
    ∀ packet ∈ s.loginPackets login,
      WellFormedLoginPacket (s.sessions (s.sessionFor login)) packet := by
  have hconnack : ∀ sessionPresent, WellFormedLoginPacket (s.sessions (s.sessionFor login))
      (connack .v4 sessionPresent) := by
    intro sessionPresent
    unfold WellFormedLoginPacket connack
    rw [EncodedPacket.messageType_fromData .connack (by decide)]
    exact ⟨_, _, (EncodedPacket.body_fromData _ _).trans (if_neg (by decide))⟩
  intro packet hpacket
  by_cases hresumes : s.Resumes login
  · rw [loginPackets_of_resumes hresumes, hversion, List.mem_cons, List.mem_append, List.mem_map,
      List.mem_map] at hpacket
    rcases hpacket with rfl | ⟨stored, hstored, rfl⟩ | ⟨id, hid, rfl⟩
    · exact hconnack .yes
    · unfold WellFormedLoginPacket
      rw [(isPublish_of_mem_orderedPackets h hstored).messageType_setDupFlag]
      exact ⟨stored, hstored, rfl⟩
    · unfold WellFormedLoginPacket pubrel
      rw [EncodedPacket.messageType_fromData .pubrel (by decide)]
      exact ⟨id, (mem_pubrelIdentifiers.mp hid).1, EncodedPacket.body_fromData _ _⟩
  · rw [loginPackets_of_clean hresumes, hversion, List.mem_singleton] at hpacket
    exact hpacket ▸ hconnack .no

end ApplicationState

namespace PacketReceiver

section

variable {τ : Type} [Libnioev] [SubscriptionTree τ] [BinaryDecoder] [LawfulBinaryDecoder]
  [StrictBinaryDecoder]

/-- Connections that do not use version 5 are sent well-formed packets, by the handler and
by the logins of every state of the broker. Only the answer to a `CONNECT` of an
unsupported level is not one. -/
theorem wellFormed_iff {retained : AList fun _ : ByteString => RetainedMessage}
    {run : List (ApplicationState.Action × ApplicationState τ)}
    (hrun : Runs.IsRun (Runs.StepOf ApplicationState.stepOk) (.initial retained) run)
    {s : ApplicationState τ} (hs : Runs.last (.initial retained) run = s) :
    (∀ (c : PacketReceiver) (state : ConnectionState) (recvData : PacketReceiveData),
      c.version = .v4 →
        ((∀ packet ∈ c.replies state recvData, c.WellFormedReply state recvData packet) ↔
          ¬ (state = .initial ∧ ConnectReceiver.RejectsVersion recvData))) ∧
      ∀ action t login, s.stepOk action = some t → s.executedLogin action = some login →
        (s.connections login.client).mMQTTVersion = .v4 →
        ∃ packets,
          (t.connections login.client).sent = (s.connections login.client).sent ++ packets ∧
          ∀ packet ∈ packets,
            ApplicationState.WellFormedLoginPacket (s.sessions (s.sessionFor login)) packet := by
  refine ⟨fun c state recvData hversion => wellFormedReply_iff hversion state, ?_⟩
  intro action t login hstep hlogin hversion
  obtain ⟨hsent, hstores⟩ := ApplicationState.sendsLogin_of_isRun hrun hs hstep hlogin
  exact ⟨_, hsent, ApplicationState.wellFormed_loginPackets hstores hversion⟩

end

/-- A `SUBSCRIBE` with two filters, and a login that resumes its session. -/
theorem wellFormed_subscribe :
    let c : PacketReceiver := { client := 0, conn := { mPersistentClientState := some 0 } }
    let recvData : PacketReceiveData :=
      { messageType := .subscribe, firstByte := 0x82
        currentReceiveBuffer := [0x00, 0x09, 0x00, 0x01, 0x61, 0x01, 0x00, 0x01, 0x62, 0x00] }
    let run := Runs.runOf (@ApplicationState.stepOk SubscriptionList .standard _) (.initial ∅)
      (ApplicationState.Action.requestLogin 0 [0x61] .no ApplicationState.Action.kept_of_id)
    (@replies .standard .standard c .connected recvData).map (fun packet => packet.body) =
        [[0x00, 0x09, 0x01, 0x00]] ∧
      (∀ packet ∈ @replies .standard .standard c .connected recvData,
        @WellFormedReply .standard .standard c .connected recvData packet) ∧
      ∀ t login, @ApplicationState.stepOk _ .standard _ (Runs.last (.initial ∅) run) (.execute []) =
          some t →
        (Runs.last (.initial ∅) run).executedLogin (.execute []) = some login →
        ((Runs.last (.initial ∅) run).connections login.client).mMQTTVersion = .v4 →
        ∃ packets, (t.connections login.client).sent =
            ((Runs.last (.initial ∅) run).connections login.client).sent ++ packets ∧
          ∀ packet ∈ packets, ApplicationState.WellFormedLoginPacket
            ((Runs.last (.initial ∅) run).sessions
              ((Runs.last (.initial ∅) run).sessionFor login)) packet := by
  intro c recvData run
  obtain ⟨hreplies, hlogins⟩ := @wellFormed_iff SubscriptionList .standard _ .standard
    BinaryDecoder.standard_lawful BinaryDecoder.standard_strict ∅ run (Runs.isRun_runOf _ _ _) _ rfl
  refine ⟨by decide +kernel, (hreplies c .connected recvData rfl).mpr ?_, hlogins (.execute [])⟩
  rintro ⟨⟨⟩, -⟩

/-- The `CONNACK` for version 3.1 has three bytes. -/
theorem not_wellFormed_connack :
    let c : PacketReceiver := { client := 0 }
    let recvData : PacketReceiveData :=
      { messageType := .connect, firstByte := 0x10
        currentReceiveBuffer := [0x00, 0x04, 0x4d, 0x51, 0x54, 0x54, 0x03, 0x02, 0x00, 0x3c] }
    (@replies .standard .standard c .initial recvData).map (fun packet => packet.body) = [[2, 0, 1]] ∧
      ¬ ∀ packet ∈ @replies .standard .standard c .initial recvData,
        @WellFormedReply .standard .standard c .initial recvData packet := by
  intro c recvData
  have hrejects : @ConnectReceiver.RejectsVersion .standard recvData :=
    ⟨rfl, by decide, by decide, 3, _, rfl, by decide, by decide⟩
  have hreplies := @replies_rejectVersion .standard .standard c recvData hrejects
  refine ⟨by rw [hreplies]; rfl, fun h => ?_⟩
  have hreply := h _ (by rw [hreplies]; exact List.mem_singleton_self _)
  unfold WellFormedReply at hreply
  rw [@EncodedPacket.messageType_fromData .standard .connack _ (by decide)] at hreply
  obtain ⟨sessionPresent, returnCode, hbody⟩ := hreply
  cases hbody

end PacketReceiver

end NioevMqtt
