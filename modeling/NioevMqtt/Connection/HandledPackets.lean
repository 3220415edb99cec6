-- SUMMARY: The cases of the handler of a connected client: what it has read, done and answered in each, read off once from its branches.
import NioevMqtt.Connection.PacketHandling

/-!
# What becomes of a packet

Each branch reads the packet in stages and acts between them. Whatever is said about all
packets is said case by case: what was there to read, what has been done, and whether the
branch has thrown after it.
-/

namespace NioevMqtt

open Reading

theorem QoS.toUInt8_ofUInt8 {n : UInt8} (h : ¬ n ≥ 3) : (ofUInt8 n).toUInt8 = n := by
  have hlt : n.toNat < 3 := Nat.lt_of_not_le h
  unfold ofUInt8
  split
  · next hzero => exact hzero.symm
  · next hzero =>
      split
      · next hone => exact hone.symm
      · next hone =>
          rw [← UInt8.toNat_inj] at hzero hone
          apply UInt8.toNat_inj.mp
          show 2 = n.toNat
          change ¬ n.toNat = 0 at hzero
          change ¬ n.toNat = 1 at hone
          omega

namespace PacketReceiver

variable [Libnioev] [BinaryDecoder] {c : PacketReceiver} {recvData : PacketReceiveData}

/-- The identifier of a packet. That of a `PUBLISH` comes behind its topic. -/
def identifier (recvData : PacketReceiveData) : Option UInt16 :=
  if recvData.messageType = .publish then
    match BinaryDecoder.decodeString recvData.currentReceiveBuffer with
    | none => none
    | some (_, bytes) => (BinaryDecoder.decode2Bytes bytes).map (·.1)
  else (BinaryDecoder.decode2Bytes recvData.currentReceiveBuffer).map (·.1)

/-- The quality of service in the first byte. -/
def qosInt (recvData : PacketReceiveData) : UInt8 := (recvData.firstByte >>> 1) &&& 0x3

/-- What stands behind the identifier of a `PUBLISH` that has one. -/
def PublishesAs (recvData : PacketReceiveData) (qos : QoS) (topic : ByteString) (id : UInt16)
    (bytes : List UInt8) : Prop :=
  recvData.messageType = .publish ∧ qosInt recvData = qos.toUInt8 ∧ topic ≠ [] ∧
    ∃ behind, BinaryDecoder.decodeString recvData.currentReceiveBuffer = some (topic, behind) ∧
      BinaryDecoder.decode2Bytes behind = some (id, bytes)

def publish (c : PacketReceiver) (message : MQTTPacket) : PacketReceiver :=
  { c with published := c.published ++ [message] }

/-- The answer to a `PUBLISH`. -/
def reply (c : PacketReceiver) (type : MQTTMessageType) (id : UInt16) : PacketReceiver :=
  c.sendData (ApplicationState.acknowledgement type 0 c.version id (some 0))

/-- A `SUBSCRIBE` asks for this. -/
def subscribeRequest (session : SessionId) (filter : ByteString × QoS) : ChangeRequest :=
  .subscribe (.session session) filter.1 filter.2 .normal

def unsubscribeRequest (session : SessionId) (topic : ByteString) : ChangeRequest :=
  .unsubscribe (.session session) topic

/-- The changes are asked for one after another. -/
def requestChanges (c : PacketReceiver) (changes : List ChangeRequest) : PacketReceiver :=
  { c with requests := c.requests ++ changes }

/-- The codes of an `UNSUBACK`. -/
def unsubscribeCodes (version : MQTTVersion) (topics : List ByteString) : List UInt8 :=
  if version = .v5 then topics.map fun _ => 0 else []

/-! ## Readers -/

section

variable [LawfulBinaryDecoder] [StrictBinaryDecoder]

theorem consuming_readFilter : Consuming readFilter := by
  intro bytes filter rest hread
  unfold readFilter at hread
  split at hread
  · cases hread
  · next topic behind hstring =>
      have htopic := length_decodeString_lt hstring
      split at hread
      · cases hread
      · split at hread
        · cases hread
        · next qosInt behind' hbyte =>
            have hbehind := decodeByte_eq_some.mp hbyte
            split at hread
            · cases hread
            · cases hread
              rw [hbehind, List.length_cons] at htopic
              omega

omit [StrictBinaryDecoder] in
theorem consuming_readTopic : Consuming (readTopic : List UInt8 → _) := by
  intro bytes topic rest hread
  unfold readTopic at hread
  split at hread
  · cases hread
  · next hstring =>
      cases hread
      exact length_decodeString_lt hstring

end

/-! ## Loops over topics -/

omit [Libnioev] [BinaryDecoder] in
theorem subscribe_of_session {session : SessionId} {s : PacketReceiver × List UInt8}
    (hsession : s.1.conn.mPersistentClientState = some session) (filter : ByteString × QoS) :
    subscribe filter s =
      ((s.1.requestChange (subscribeRequest session filter), s.2 ++ [filter.2.toUInt8]), none) := by
  unfold subscribe withSession
  rw [hsession]
  rfl

omit [Libnioev] [BinaryDecoder] in
theorem unsubscribe_of_session {session : SessionId} {s : PacketReceiver × List UInt8}
    (hsession : s.1.conn.mPersistentClientState = some session) (topic : ByteString) :
    unsubscribe topic s =
      ((s.1.requestChange (unsubscribeRequest session topic),
        s.2 ++ unsubscribeCodes s.1.version [topic]), none) := by
  have hcodes : (if s.1.version = .v5 then s.2 ++ [0] else s.2) =
      s.2 ++ unsubscribeCodes s.1.version [topic] := by
    unfold unsubscribeCodes
    split
    · rfl
    · exact (List.append_nil _).symm
  unfold unsubscribe withSession
  rw [hsession, hcodes]
  rfl

omit [Libnioev] [BinaryDecoder] in
/-- Requests and codes add up. -/
theorem foldl_requestChange {β : Type} (request : β → ChangeRequest) (codes : β → List UInt8)
    (items : List β) (s : PacketReceiver × List UInt8) :
    items.foldl (fun s item => (s.1.requestChange (request item), s.2 ++ codes item)) s =
      (s.1.requestChanges (items.map request), s.2 ++ items.flatMap codes) := by
  induction items generalizing s with
  | nil =>
      unfold requestChanges
      rw [List.foldl_nil, List.map_nil, List.flatMap_nil, List.append_nil, List.append_nil]
  | cons item items ih =>
      rw [List.foldl_cons, ih, List.map_cons, List.flatMap_cons]
      unfold requestChanges requestChange
      simp only [List.append_assoc, List.singleton_append]

/-- The end of a branch with a list of topics. -/
def answerTopics (c : PacketReceiver) (answer : MQTTMessageType) (id : UInt16) (codes : List UInt8) :
    Option ReceiveException → PacketReceiver × Option ReceiveException
  | some exception => (c, some exception)
  | none => (c.sendData (ApplicationState.topicAcknowledgement answer c.version id codes), none)

/-- A branch with a list of topics, and what it has done when it is through with it. -/
theorem handleTopics_of_reads {β : Type} {session : SessionId} {bytes : List UInt8}
    {read : List UInt8 → Except ReceiveException (β × List UInt8)}
    {act : β → PacketReceiver × List UInt8 →
      (PacketReceiver × List UInt8) × Option ReceiveException}
    {request : β → ChangeRequest} {codes : β → List UInt8} (h : Consuming read)
    (hact : ∀ item s, s.1.conn.mPersistentClientState = some session → s.1.version = c.version →
      act item s = ((s.1.requestChange (request item), s.2 ++ codes item), none))
    (hsession : c.conn.mPersistentClientState = some session) (answer : MQTTMessageType)
    {id : UInt16} {body : List UInt8} (hheader : readHeader c.version bytes = some (id, body))
    {items : List β} {failure : Option ReceiveException} (hreads : Reads read body items failure) :
    c.handleTopics bytes read act answer =
      (c.requestChanges (items.map request)).answerTopics answer id (items.flatMap codes) failure := by
  have hall := readItems_of_reads (P := fun s : PacketReceiver × List UInt8 =>
    s.1.conn.mPersistentClientState = some session ∧ s.1.version = c.version) h
    (fun item s hs => ⟨hact item s hs.1 hs.2, hs⟩) hreads (s := (c, [])) ⟨hsession, rfl⟩
  rw [foldl_requestChange] at hall
  unfold handleTopics
  rw [hheader]
  simp only [hall]
  cases failure with
  | none => rfl
  | some exception => rfl

/-- Without a session nothing is asked for. -/
theorem handleTopics_unattached {β : Type} (bytes : List UInt8)
    {read : List UInt8 → Except ReceiveException (β × List UInt8)}
    {act : β → PacketReceiver × List UInt8 →
      (PacketReceiver × List UInt8) × Option ReceiveException} (h : Consuming read)
    (hact : ∀ item s, s.1 = c → ∃ s' failure, act item s = (s', some failure) ∧ s'.1 = c)
    (answer : MQTTMessageType) :
    ∃ failure, c.handleTopics bytes read act answer = (c, some failure) := by
  unfold handleTopics
  cases readHeader c.version bytes with
  | none => exact ⟨_, rfl⟩
  | some header =>
      obtain ⟨id, body⟩ := header
      obtain ⟨s', failure, hfails, hs'⟩ := readItems_of_fails h hact body (s := (c, [])) rfl
      simp only [hfails, hs']
      exact ⟨failure, rfl⟩

/-! ## `PUBLISH` -/

omit [Libnioev] [BinaryDecoder] in
theorem afterPublish_eq (c : PacketReceiver) (sent : List EncodedPacket)
    (published : List MQTTPacket) :
    c.afterPublish { c.publishReceiver with sent := sent, published := published } =
      { c with conn := { c.conn with sent := sent }, published := published } := by
  unfold afterPublish publishReceiver
  cases hsession : c.conn.mPersistentClientState with
  | none => simp only [hsession, Option.map_none]
  | some session =>
      have hsame : Function.update c.sessions session (c.sessions session) = c.sessions :=
        Function.update_eq_self session c.sessions
      simp only [updateSession, Option.map_some, hsame, hsession]

omit [Libnioev] [BinaryDecoder] in
theorem afterPublish_insert {session : SessionId}
    (hsession : c.conn.mPersistentClientState = some session) (id : UInt16)
    (sent : List EncodedPacket) (published : List MQTTPacket) :
    c.afterPublish
        { c.publishReceiver with
          mQoS2receivingPacketIds := some (insert id (c.sessions session).mQoS2receivingPacketIds)
          sent := sent
          published := published } =
      { c.updateSession session (fun state => (state.receiveQoS2 id).1) with
        conn := { c.conn with sent := sent }
        published := published } := by
  unfold afterPublish
  simp only [hsession]
  rfl

/-- The properties are there, or the message is not delivered. -/
theorem deliverOnward_cases (p : PublishReceiver) (topic : ByteString) (qos : QoS) (retain : Retain)
    (bytes : List UInt8) :
    (skipProperties p.mMQTTVersion bytes = none ∧
        p.deliverOnward topic qos retain bytes = (p, some BinaryDecoder.exception)) ∨
      ∃ message, skipProperties p.mMQTTVersion bytes ≠ none ∧
        p.deliverOnward topic qos retain bytes =
          ({ p with published := p.published ++ [message] }, none) := by
  unfold skipProperties PublishReceiver.deliverOnward
  by_cases hversion : p.mMQTTVersion = .v5
  · rw [if_pos hversion, if_pos hversion]
    cases Libnioev.decodeProperties bytes with
    | none => exact .inl ⟨rfl, rfl⟩
    | some read => exact .inr ⟨_, Option.some_ne_none _, rfl⟩
  · rw [if_neg hversion, if_neg hversion]
    exact .inr ⟨_, Option.some_ne_none _, rfl⟩

/-- The session after a message with this identifier. -/
def receive (c : PacketReceiver) (session : SessionId) (id : UInt16) : PacketReceiver :=
  c.updateSession session fun state => (state.receiveQoS2 id).1

/-- At quality 1 the answer comes before the properties. -/
theorem handlePublish_qos1 {topic : ByteString} {id : UInt16} {bytes : List UInt8}
    (h : PublishesAs recvData .qos1 topic id bytes) :
    (skipProperties c.version bytes = none ∧
        c.handlePublish recvData = (c.reply .puback id, some BinaryDecoder.exception)) ∨
      ∃ message, skipProperties c.version bytes ≠ none ∧
        c.handlePublish recvData = ((c.reply .puback id).publish message, none) := by
  obtain ⟨-, hqos, htopic, behind, hstring, hid⟩ := h
  have hhandle : PublishReceiver.handlePublish recvData c.publishReceiver =
      (c.publishReceiver.reply .puback id).deliverOnward topic .qos1
        (if recvData.firstByte &&& 0x1 = 0 then .no else .yes) bytes := by
    unfold qosInt at hqos
    unfold PublishReceiver.handlePublish
    simp only [hqos, hstring, if_neg htopic]
    rw [if_neg (by decide), QoS.ofUInt8_toUInt8]
    simp only [hid]
  unfold handlePublish
  rw [hhandle]
  have hcases := deliverOnward_cases (c.publishReceiver.reply .puback id) topic .qos1
    (if recvData.firstByte &&& 0x1 = 0 then .no else .yes) bytes
  rcases hcases with ⟨hnone, heq⟩ | ⟨message, hsome, heq⟩
  · refine .inl ⟨hnone, ?_⟩
    rw [heq]
    exact congrArg (·, some BinaryDecoder.exception) (afterPublish_eq c _ _)
  · refine .inr ⟨message, hsome, ?_⟩
    rw [heq]
    exact congrArg (·, none) (afterPublish_eq c _ _)

/-- At quality 2 the identifier is noted, too. What has arrived before is answered only. -/
theorem handlePublish_qos2 {session : SessionId}
    (hsession : c.conn.mPersistentClientState = some session) {topic : ByteString} {id : UInt16}
    {bytes : List UInt8} (h : PublishesAs recvData .qos2 topic id bytes) :
    (id ∈ (c.sessions session).mQoS2receivingPacketIds ∧
        c.handlePublish recvData = ((c.receive session id).reply .pubrec id, none)) ∨
      (id ∉ (c.sessions session).mQoS2receivingPacketIds ∧ skipProperties c.version bytes = none ∧
        c.handlePublish recvData =
          ((c.receive session id).reply .pubrec id, some BinaryDecoder.exception)) ∨
      ∃ message, id ∉ (c.sessions session).mQoS2receivingPacketIds ∧
        skipProperties c.version bytes ≠ none ∧
        c.handlePublish recvData =
          (((c.receive session id).reply .pubrec id).publish message, none) := by
  obtain ⟨-, hqos, htopic, behind, hstring, hid⟩ := h
  let answered : PublishReceiver :=
    { c.publishReceiver with
      mQoS2receivingPacketIds := some (insert id (c.sessions session).mQoS2receivingPacketIds) }.reply
        .pubrec id
  have hids : c.publishReceiver.mQoS2receivingPacketIds =
      some (c.sessions session).mQoS2receivingPacketIds := by
    unfold publishReceiver
    rw [hsession]
    rfl
  have hhandle : PublishReceiver.handlePublish recvData c.publishReceiver =
      if id ∈ (c.sessions session).mQoS2receivingPacketIds then (answered, none)
      else answered.deliverOnward topic .qos2
        (if recvData.firstByte &&& 0x1 = 0 then .no else .yes) bytes := by
    unfold qosInt at hqos
    unfold PublishReceiver.handlePublish
    simp only [hqos, hstring, if_neg htopic]
    rw [if_neg (by decide), QoS.ofUInt8_toUInt8]
    simp only [hid, hids]
    rfl
  unfold handlePublish
  rw [hhandle]
  by_cases hmem : id ∈ (c.sessions session).mQoS2receivingPacketIds
  · rw [if_pos hmem]
    exact .inl ⟨hmem, congrArg (·, none) (afterPublish_insert hsession id _ _)⟩
  · rw [if_neg hmem]
    have hcases := deliverOnward_cases answered topic .qos2
      (if recvData.firstByte &&& 0x1 = 0 then .no else .yes) bytes
    rcases hcases with ⟨hnone, heq⟩ | ⟨message, hsome, heq⟩
    · refine .inr (.inl ⟨hmem, hnone, ?_⟩)
      rw [heq]
      exact congrArg (·, some BinaryDecoder.exception) (afterPublish_insert hsession id _ _)
    · refine .inr (.inr ⟨message, hmem, hsome, ?_⟩)
      rw [heq]
      exact congrArg (·, none) (afterPublish_insert hsession id _ _)

/-! ## The cases -/

/-- An acknowledgement of this type has been read, on a connection with this session. -/
structure Acknowledges (c : PacketReceiver) (recvData : PacketReceiveData) (type : MQTTMessageType)
    (session : SessionId) (id : UInt16) : Prop where
  messageType_eq : recvData.messageType = type
  session_eq : c.conn.mPersistentClientState = some session
  decode_eq : decodeAcknowledgement c.version recvData.currentReceiveBuffer = some id

/-- The items of a list of topics have been read, on a connection with this session. -/
structure ListsTopics (c : PacketReceiver) (recvData : PacketReceiveData) (type : MQTTMessageType)
    {β : Type} (read : List UInt8 → Except ReceiveException (β × List UInt8)) (session : SessionId)
    (id : UInt16) (items : List β) (failure : Option ReceiveException) : Prop where
  messageType_eq : recvData.messageType = type
  firstByte_eq : recvData.firstByte = type.toUInt8 <<< 4 ||| 0b10
  session_eq : c.conn.mPersistentClientState = some session
  reads : ∃ body, readHeader c.version recvData.currentReceiveBuffer = some (id, body) ∧
    Reads read body items failure

/-- Why a `PUBREL` or `PUBREC` is not in order. -/
def reason (known : Prop) [Decidable known] : Option UInt8 := if known then none else some 0x92

/-- What may become of the packet of a connected client, and what is thrown then. -/
inductive Handled (c : PacketReceiver) (recvData : PacketReceiveData) :
    PacketReceiver × Option ReceiveException → Prop
  | nothing {exception} : Handled c recvData (c, exception)
  | pubAck {session id} (h : c.Acknowledges recvData .puback session id) :
      Handled c recvData (c.updateSession session (·.pubAck id), none)
  | pubComp {session id} (h : c.Acknowledges recvData .pubcomp session id) :
      Handled c recvData (c.updateSession session (·.pubComp id), none)
  | pubRel {session id} (h : c.Acknowledges recvData .pubrel session id)
      (hfirst : recvData.firstByte = 0x62) :
      Handled c recvData ((c.updateSession session (·.pubRel id)).sendData
        (ApplicationState.acknowledgement .pubcomp 0 c.version id
          (reason (id ∈ (c.sessions session).mQoS2receivingPacketIds))), none)
  | pubRec {session id} (h : c.Acknowledges recvData .pubrec session id) :
      Handled c recvData ((c.updateSession session (·.pubRec id)).sendData
        (ApplicationState.acknowledgement .pubrel 0b10 c.version id
          (reason (id ∈ (c.sessions session).mHighQoSSendingPackets))), none)
  | publish0 {message} : Handled c recvData (c.publish message, none)
  | publish1 {topic id bytes message} (h : PublishesAs recvData .qos1 topic id bytes) :
      Handled c recvData ((c.reply .puback id).publish message, none)
  | publish1Spoilt {topic id bytes} (h : PublishesAs recvData .qos1 topic id bytes)
      (hproperties : skipProperties c.version bytes = none) :
      Handled c recvData (c.reply .puback id, some BinaryDecoder.exception)
  | publish2Again {session topic id bytes} (hsession : c.conn.mPersistentClientState = some session)
      (h : PublishesAs recvData .qos2 topic id bytes) :
      Handled c recvData ((c.receive session id).reply .pubrec id, none)
  | publish2 {session topic id bytes message}
      (hsession : c.conn.mPersistentClientState = some session)
      (h : PublishesAs recvData .qos2 topic id bytes) :
      Handled c recvData (((c.receive session id).reply .pubrec id).publish message, none)
  | publish2Spoilt {session topic id bytes}
      (hsession : c.conn.mPersistentClientState = some session)
      (h : PublishesAs recvData .qos2 topic id bytes)
      (hnew : id ∉ (c.sessions session).mQoS2receivingPacketIds)
      (hproperties : skipProperties c.version bytes = none) :
      Handled c recvData ((c.receive session id).reply .pubrec id, some BinaryDecoder.exception)
  | subscribe {session id filters}
      (h : c.ListsTopics recvData .subscribe readFilter session id filters none) :
      Handled c recvData ((c.requestChanges (filters.map (subscribeRequest session))).sendData
        (ApplicationState.topicAcknowledgement .suback c.version id
          (filters.map fun filter => filter.2.toUInt8)), none)
  | subscribeSpoilt {session id filters exception}
      (h : c.ListsTopics recvData .subscribe readFilter session id filters (some exception)) :
      Handled c recvData
        (c.requestChanges (filters.map (subscribeRequest session)), some exception)
  | unsubscribe {session id topics}
      (h : c.ListsTopics recvData .unsubscribe readTopic session id topics none) :
      Handled c recvData ((c.requestChanges (topics.map (unsubscribeRequest session))).sendData
        (ApplicationState.topicAcknowledgement .unsuback c.version id
          (unsubscribeCodes c.version topics)), none)
  | unsubscribeSpoilt {session id topics exception}
      (h : c.ListsTopics recvData .unsubscribe readTopic session id topics (some exception)) :
      Handled c recvData
        (c.requestChanges (topics.map (unsubscribeRequest session)), some exception)
  | pingReq (htype : recvData.messageType = .pingreq) :
      Handled c recvData
        (c.sendData (.fromFirstByte (MQTTMessageType.pingresp.toUInt8 <<< 4)), none)
  | disconnect (htype : recvData.messageType = .disconnect) :
      Handled c recvData ({ c with conn := { c.conn with mWill := none } }, some .cleanDisconnect)

theorem handled_publish (htype : recvData.messageType = .publish) :
    c.Handled recvData (c.handlePublish recvData) := by
  have hnothing : ∀ exception, PublishReceiver.handlePublish recvData c.publishReceiver =
      (c.publishReceiver, exception) → c.Handled recvData (c.handlePublish recvData) := by
    intro exception heq
    have hsame : c.afterPublish c.publishReceiver = c := afterPublish_eq c _ _
    unfold handlePublish
    rw [heq]
    simp only [hsame]
    exact .nothing
  by_cases hthrows : qosInt recvData ≥ 3
  · exact hnothing _ (if_pos hthrows)
  have hqos := (QoS.toUInt8_ofUInt8 hthrows).symm
  generalize QoS.ofUInt8 (qosInt recvData) = qos at hqos
  have hhandle : PublishReceiver.handlePublish recvData c.publishReceiver = _ := if_neg hthrows
  unfold qosInt at hqos
  simp only [hqos, QoS.ofUInt8_toUInt8] at hhandle
  cases hstring : BinaryDecoder.decodeString recvData.currentReceiveBuffer with
  | none =>
      rw [hstring] at hhandle
      exact hnothing _ hhandle
  | some read =>
      obtain ⟨topic, behind⟩ := read
      simp only [hstring] at hhandle
      by_cases htopic : topic = []
      · exact hnothing _ (hhandle.trans (if_pos htopic))
      rw [if_neg htopic] at hhandle
      cases qos with
      | qos0 =>
          rcases deliverOnward_cases c.publishReceiver topic .qos0 _ behind with
            ⟨-, heq⟩ | ⟨message, -, heq⟩
          · exact hnothing _ (hhandle.trans heq)
          · have hall := hhandle.trans heq
            have hafter : c.afterPublish { c.publishReceiver with
                published := c.publishReceiver.published ++ [message] } = c.publish message :=
              afterPublish_eq c c.conn.sent _
            unfold handlePublish
            rw [hall]
            simp only [hafter]
            exact .publish0
      | qos1 =>
          cases hid : BinaryDecoder.decode2Bytes behind with
          | none =>
              simp only [hid] at hhandle
              exact hnothing _ hhandle
          | some read =>
              obtain ⟨id, bytes⟩ := read
              have h : PublishesAs recvData .qos1 topic id bytes :=
                ⟨htype, hqos, htopic, behind, hstring, hid⟩
              rcases handlePublish_qos1 (c := c) h with ⟨hproperties, heq⟩ | ⟨message, -, heq⟩
              · exact heq ▸ .publish1Spoilt h hproperties
              · exact heq ▸ .publish1 h
      | qos2 =>
          cases hid : BinaryDecoder.decode2Bytes behind with
          | none =>
              simp only [hid] at hhandle
              exact hnothing _ hhandle
          | some read =>
              obtain ⟨id, bytes⟩ := read
              simp only [hid] at hhandle
              have h : PublishesAs recvData .qos2 topic id bytes :=
                ⟨htype, hqos, htopic, behind, hstring, hid⟩
              cases hsession : c.conn.mPersistentClientState with
              | none =>
                  have hids : c.publishReceiver.mQoS2receivingPacketIds = none := by
                    unfold publishReceiver
                    rw [hsession]
                    rfl
                  rw [hids] at hhandle
                  exact hnothing _ hhandle
              | some session =>
                  rcases handlePublish_qos2 hsession h with
                    ⟨-, heq⟩ | ⟨hnew, hproperties, heq⟩ | ⟨message, -, -, heq⟩
                  · exact heq ▸ .publish2Again hsession h
                  · exact heq ▸ .publish2Spoilt hsession h hnew hproperties
                  · exact heq ▸ .publish2 hsession h

/-- An acknowledgement is read, or nothing is done. -/
theorem handled_acknowledged {type : MQTTMessageType} (htype : recvData.messageType = type)
    {update : SessionId → UInt16 → PacketReceiver}
    (h : ∀ session id, c.Acknowledges recvData type session id →
      c.Handled recvData (update session id, none)) :
    c.Handled recvData (c.acknowledged recvData.currentReceiveBuffer fun id =>
      c.withSession fun session => (update session id, none)) := by
  unfold acknowledged
  cases hdecode : decodeAcknowledgement c.version recvData.currentReceiveBuffer with
  | none => exact .nothing
  | some id =>
      unfold withSession
      cases hsession : c.conn.mPersistentClientState with
      | none => exact .nothing
      | some session => exact h session id ⟨htype, hsession, hdecode⟩

/-- Topics are read, or nothing is done. -/
theorem topics_cases {β : Type} {type answer : MQTTMessageType}
    (htype : recvData.messageType = type)
    (hfirst : recvData.firstByte = type.toUInt8 <<< 4 ||| 0b10)
    {read : List UInt8 → Except ReceiveException (β × List UInt8)} (h : Consuming read)
    {act : β → PacketReceiver × List UInt8 →
      (PacketReceiver × List UInt8) × Option ReceiveException}
    {request : SessionId → β → ChangeRequest} {codes : β → List UInt8}
    (hfails : ∀ item s, s.1.conn.mPersistentClientState = none →
      ∃ codes failure, act item s = ((s.1, codes), some failure))
    (hact : ∀ session item s, s.1.conn.mPersistentClientState = some session →
      s.1.version = c.version →
      act item s = ((s.1.requestChange (request session item), s.2 ++ codes item), none)) :
    (∃ exception, c.handleTopics recvData.currentReceiveBuffer read act answer = (c, exception)) ∨
      ∃ session id items failure, c.ListsTopics recvData type read session id items failure ∧
        c.handleTopics recvData.currentReceiveBuffer read act answer =
          (c.requestChanges (items.map (request session))).answerTopics answer id
            (items.flatMap codes) failure := by
  cases hsession : c.conn.mPersistentClientState with
  | none =>
      have hunattached : ∀ item s, s.1 = c →
          ∃ s' failure, act item s = (s', some failure) ∧ s'.1 = c := by
        intro item s hs
        obtain ⟨codes, failure, hfails⟩ := hfails item s (hs ▸ hsession)
        exact ⟨_, failure, hfails, hs⟩
      obtain ⟨failure, heq⟩ :=
        handleTopics_unattached recvData.currentReceiveBuffer h hunattached answer
      exact .inl ⟨_, heq⟩
  | some session =>
      cases hheader : readHeader c.version recvData.currentReceiveBuffer with
      | none =>
          unfold handleTopics
          rw [hheader]
          exact .inl ⟨_, rfl⟩
      | some header =>
          obtain ⟨id, body⟩ := header
          obtain ⟨items, failure, hreads⟩ := exists_reads h body
          exact .inr ⟨session, id, items, failure,
            ⟨htype, hfirst, hsession, body, hheader, hreads⟩,
            handleTopics_of_reads h (hact session) hsession answer hheader hreads⟩

section

variable [LawfulBinaryDecoder] [StrictBinaryDecoder]

theorem handled_subscribe (htype : recvData.messageType = .subscribe)
    (hfirst : recvData.firstByte = 0x82) :
    c.Handled recvData
      (c.handleTopics recvData.currentReceiveBuffer readFilter PacketReceiver.subscribe .suback) := by
  have hfails : ∀ filter s, s.1.conn.mPersistentClientState = none →
      ∃ codes failure, PacketReceiver.subscribe filter s = ((s.1, codes), some failure) := by
    intro filter s hs
    unfold PacketReceiver.subscribe withSession
    rw [hs]
    exact ⟨_, _, rfl⟩
  have hact : ∀ session filter s, s.1.conn.mPersistentClientState = some session →
      s.1.version = c.version → PacketReceiver.subscribe filter s =
        ((s.1.requestChange (subscribeRequest session filter), s.2 ++ [filter.2.toUInt8]), none) :=
    fun session filter s hs _ => subscribe_of_session hs filter
  rcases topics_cases htype hfirst consuming_readFilter hfails hact with
    ⟨exception, heq⟩ | ⟨session, id, filters, failure, hlists, heq⟩
  · exact heq ▸ .nothing
  · rw [← List.map_eq_flatMap] at heq
    rw [heq]
    cases failure with
    | none => exact .subscribe hlists
    | some exception => exact .subscribeSpoilt hlists

omit [StrictBinaryDecoder] in
theorem handled_unsubscribe (htype : recvData.messageType = .unsubscribe)
    (hfirst : recvData.firstByte = 0xA2) :
    c.Handled recvData
      (c.handleTopics recvData.currentReceiveBuffer readTopic PacketReceiver.unsubscribe
        .unsuback) := by
  have hfails : ∀ topic s, s.1.conn.mPersistentClientState = none →
      ∃ codes failure, PacketReceiver.unsubscribe topic s = ((s.1, codes), some failure) := by
    intro topic s hs
    unfold PacketReceiver.unsubscribe withSession
    rw [hs]
    exact ⟨_, _, rfl⟩
  have hact : ∀ session topic s, s.1.conn.mPersistentClientState = some session →
      s.1.version = c.version → PacketReceiver.unsubscribe topic s =
        ((s.1.requestChange (unsubscribeRequest session topic),
          s.2 ++ unsubscribeCodes c.version [topic]), none) :=
    fun session topic s hs hversion => hversion ▸ unsubscribe_of_session hs topic
  have hcodes : ∀ topics : List ByteString,
      (topics.flatMap fun topic => unsubscribeCodes c.version [topic]) =
        unsubscribeCodes c.version topics := by
    intro topics
    unfold unsubscribeCodes
    by_cases hversion : c.version = .v5
    · simp only [if_pos hversion]
      exact (List.map_eq_flatMap).symm
    · simp only [if_neg hversion]
      exact List.flatMap_eq_nil_iff.mpr fun _ _ => rfl
  rcases topics_cases htype hfirst consuming_readTopic hfails hact with
    ⟨exception, heq⟩ | ⟨session, id, topics, failure, hlists, heq⟩
  · exact heq ▸ .nothing
  · rw [hcodes] at heq
    rw [heq]
    cases failure with
    | none => exact .unsubscribe hlists
    | some exception => exact .unsubscribeSpoilt hlists

/-- Every packet of a connected client comes to one of the cases. -/
theorem handled (c : PacketReceiver) (recvData : PacketReceiveData) :
    c.Handled recvData (c.handleConnected recvData) := by
  unfold handleConnected
  cases htype : recvData.messageType with
  | publish => exact handled_publish htype
  | puback => exact handled_acknowledged htype fun _ _ h => .pubAck h
  | pubcomp => exact handled_acknowledged htype fun _ _ h => .pubComp h
  | pubrec => exact handled_acknowledged htype fun _ _ h => .pubRec h
  | pubrel =>
      simp only
      split
      · exact .nothing
      · next hfirst => exact handled_acknowledged htype fun _ _ h => .pubRel h (not_not.mp hfirst)
  | subscribe =>
      simp only
      split
      · exact .nothing
      · next hfirst => exact handled_subscribe htype (not_not.mp hfirst)
  | unsubscribe =>
      simp only
      split
      · exact .nothing
      · next hfirst => exact handled_unsubscribe htype (not_not.mp hfirst)
  | pingreq =>
      simp only
      split
      · exact .nothing
      · exact .pingReq htype
  | disconnect =>
      simp only
      split
      · exact .nothing
      · split
        · exact .nothing
        · exact .disconnect htype
  | _ => exact .nothing

end

end PacketReceiver

end NioevMqtt
