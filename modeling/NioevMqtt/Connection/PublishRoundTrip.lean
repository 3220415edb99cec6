-- SUMMARY: PUBLISH packets from the builder, read back by the receive loop and the PUBLISH branch: what the builder has cached makes no difference, and the message arrives as it was.
import NioevMqtt.Broker.Threads
import NioevMqtt.Connection.BinaryDecoder
import NioevMqtt.Connection.FrameRoundTrip

/-!
# PUBLISH round trip

One builder serves subscribers with different qualities of service and protocol versions.
Its packets are fed to the receive loop of a connection with the same version.
-/

namespace NioevMqtt

/-! ## Many packets of one builder -/

/-- The arguments of `getPacket`. -/
structure PacketRequest where
  qos : QoS
  packetId : UInt16
  version : MQTTVersion
deriving DecidableEq, Repr

namespace MQTTPublishPacketBuilder

/-- The constructor. -/
def new (topic : ByteString) (payload : List UInt8) (retained : Retained)
    (properties : PropertyList) : MQTTPublishPacketBuilder where
  mTopic := topic
  mPayload := payload
  mRetained := retained
  mProperties := properties

variable [Libnioev]

/-- The packets of a sequence of calls on one builder. -/
def getPackets (b : MQTTPublishPacketBuilder) : List PacketRequest → List EncodedPacket
  | [] => []
  | request :: requests =>
    let (packet, b) := b.getPacket request.qos request.packetId request.version
    packet :: b.getPackets requests

/-- What is cached is what would be encoded. -/
structure Caches (b : MQTTPublishPacketBuilder) : Prop where
  middle : ∀ middle, b.mPacketMiddle = some middle → middle = Libnioev.encodeString b.mTopic
  postlude : ∀ version end_, b.mPacketPostlude version = some end_ → end_ = b.encodeEnd version

omit [Libnioev] in
def firstByte (retained : Retained) (qos : QoS) : UInt8 :=
  (if retained = .yes then qos.toUInt8 <<< 1 ||| 1 else qos.toUInt8 <<< 1) |||
    MQTTMessageType.publish.toUInt8 <<< 4

/-- The packet of a builder that has cached nothing. -/
def freshPacket (b : MQTTPublishPacketBuilder) (request : PacketRequest) : EncodedPacket :=
  assemble request.qos (firstByte b.mRetained request.qos) (Libnioev.encodeString b.mTopic) request.packetId
    (b.encodeEnd request.version)

variable {b : MQTTPublishPacketBuilder}

theorem caches_new (topic : ByteString) (payload : List UInt8) (retained : Retained)
    (properties : PropertyList) : (new topic payload retained properties).Caches where
  middle := by rintro _ ⟨⟩
  postlude := by rintro _ _ ⟨⟩

/-- What a call of `getPacket` gives, and what it leaves. -/
theorem Caches.getPacket (h : b.Caches) (request : PacketRequest) :
    (b.getPacket request.qos request.packetId request.version).1 = b.freshPacket request ∧
      (b.getPacket request.qos request.packetId request.version).2.Caches ∧
      (b.getPacket request.qos request.packetId request.version).2.freshPacket = b.freshPacket := by
  unfold MQTTPublishPacketBuilder.getPacket
  simp only
  split
  · next end_ middle hend hmiddle =>
      rw [h.middle middle hmiddle, h.postlude request.version end_ hend]
      exact ⟨rfl, h, rfl⟩
  · have hend : (b.mPacketPostlude request.version).getD (b.encodeEnd request.version) =
        b.encodeEnd request.version := by
      cases hcached : b.mPacketPostlude request.version with
      | none => rfl
      | some end_ => exact h.postlude request.version end_ hcached
    rw [hend]
    refine ⟨rfl, ⟨?_, fun version end_ hpostlude => ?_⟩, rfl⟩
    · rintro _ ⟨⟩
      rfl
    · simp only at hpostlude
      by_cases hversion : version = request.version
      · subst hversion
        rw [Function.update_self] at hpostlude
        exact (Option.some.inj hpostlude).symm
      · rw [Function.update_of_ne hversion] at hpostlude
        exact h.postlude version end_ hpostlude

/-- What is in the cache makes no difference. -/
theorem Caches.getPackets (h : b.Caches) (requests : List PacketRequest) :
    b.getPackets requests = requests.map b.freshPacket := by
  induction requests generalizing b with
  | nil => rfl
  | cons request requests ih =>
      obtain ⟨hpacket, hcaches, hfresh⟩ := h.getPacket request
      exact congrArg₂ List.cons hpacket ((ih hcaches).trans (congrArg (List.map · requests) hfresh))

/-- The factory call behind a packet. -/
def frame (b : MQTTPublishPacketBuilder) (request : PacketRequest) : Frame :=
  if request.qos = .qos0 then
    .fromComponents (firstByte b.mRetained request.qos) (Libnioev.encodeString b.mTopic)
      (b.encodeEnd request.version)
  else
    .fromComponentsWithId (firstByte b.mRetained request.qos) (Libnioev.encodeString b.mTopic)
      request.packetId (b.encodeEnd request.version)

/-- The identifier, where there is one. -/
def idBytes (request : PacketRequest) : List UInt8 :=
  if request.qos = .qos0 then [] else bigEndianBytes request.packetId

theorem packet_frame (b : MQTTPublishPacketBuilder) (request : PacketRequest) :
    (b.frame request).packet = b.freshPacket request := by
  unfold frame freshPacket assemble
  split
  · rfl
  · rfl

theorem firstByte_frame (b : MQTTPublishPacketBuilder) (request : PacketRequest) :
    (b.frame request).firstByte = firstByte b.mRetained request.qos := by
  unfold frame
  split
  · rfl
  · rfl

theorem body_frame (b : MQTTPublishPacketBuilder) (request : PacketRequest) :
    (b.frame request).body =
      Libnioev.encodeString b.mTopic ++ (idBytes request ++ b.encodeEnd request.version) := by
  unfold frame idBytes
  split
  · rfl
  · exact List.append_assoc _ _ _

end MQTTPublishPacketBuilder

/-- What follows the fixed header. -/
def EncodedPacket.bodyLength (p : EncodedPacket) : Nat :=
  p.mMiddle.length + p.packetIdSize + p.mEnd.length

theorem Frame.bodyLength_packet [Libnioev] (f : Frame) : f.packet.bodyLength = f.body.length := by
  cases f with
  | fromFirstByte firstByte => rfl
  | fromData firstByte buffer => exact Nat.add_zero _
  | fromComponents firstByte middle end_ => exact (List.length_append).symm
  | fromComponentsWithId firstByte middle packetId end_ =>
      show middle.length + 2 + end_.length = (middle ++ bigEndianBytes packetId ++ end_).length
      simp only [List.length_append, bigEndianBytes, List.length_cons, List.length_nil]

/-! ## The `PUBLISH` branch -/

/-- What the branch reads and changes of a connected client. -/
structure PublishReceiver where
  mMQTTVersion : MQTTVersion
  /-- Of its session, if it has one. -/
  mQoS2receivingPacketIds : Option (Finset UInt16)
  sent : List EncodedPacket := []
  /-- The messages given to `app.publish`. -/
  published : List MQTTPacket := []

namespace PublishReceiver

variable [Libnioev]

/-- `PUBACK` and `PUBREC`. -/
def reply (c : PublishReceiver) (type : MQTTMessageType) (id : UInt16) : PublishReceiver :=
  { c with sent := c.sent ++ [ApplicationState.acknowledgement type 0 c.mMQTTVersion id (some 0)] }

section

variable [BinaryDecoder]

/-- What is done with a message that is delivered onward. -/
def deliverOnward (c : PublishReceiver) (topic : ByteString) (qos : QoS) (retain : Retain)
    (bytes : List UInt8) : PublishReceiver × Option ReceiveException :=
  match if c.mMQTTVersion = .v5 then Libnioev.decodeProperties bytes else some ([], bytes) with
  | none => (c, some BinaryDecoder.exception)
  | some (properties, payload) =>
    ({ c with published := c.published ++ [{ topic, payload, qos, retain, properties }] }, none)

/-- The branch of `handlePacketReceived` for a `PUBLISH` of a connected client. -/
def handlePublish (recvData : PacketReceiveData) (c : PublishReceiver) :
    PublishReceiver × Option ReceiveException :=
  let qosInt := (recvData.firstByte >>> 1) &&& 0x3
  if qosInt ≥ 3 then (c, some (.protocolViolation "Invalid QoS"))
  else
    let qos := QoS.ofUInt8 qosInt
    let retain := if recvData.firstByte &&& 0x1 = 0 then Retain.no else .yes
    match BinaryDecoder.decodeString recvData.currentReceiveBuffer with
    | none => (c, some BinaryDecoder.exception)
    | some (topic, bytes) =>
      if topic = [] then (c, some (.protocolViolation "Invalid topic"))
      else
        match qos with
        | .qos0 => c.deliverOnward topic qos retain bytes
        | .qos1 =>
          match BinaryDecoder.decode2Bytes bytes with
          | none => (c, some BinaryDecoder.exception)
          | some (id, bytes) => (c.reply .puback id).deliverOnward topic qos retain bytes
        | .qos2 =>
          match BinaryDecoder.decode2Bytes bytes with
          | none => (c, some BinaryDecoder.exception)
          | some (id, bytes) =>
            match c.mQoS2receivingPacketIds with
            | none => (c, some (.runtimeError "Persistent state lost!"))
            | some recvPacketIds =>
              let c := { c with mQoS2receivingPacketIds := some (insert id recvPacketIds) }
              let c := c.reply .pubrec id
              if id ∈ recvPacketIds then (c, none) else c.deliverOnward topic qos retain bytes

/-- `handlePacketReceived` for a connected client; `others` are its other branches. -/
def handlePacketReceived (others : PacketHandler PublishReceiver) : PacketHandler PublishReceiver :=
  fun recvData c =>
    if recvData.messageType = .publish then handlePublish recvData c else others recvData c

end

/-- A message arrives with this identifier. A message of quality 2 that has arrived before
is answered only. -/
def receives (c : PublishReceiver) (id : UInt16) (message : MQTTPacket) : PublishReceiver :=
  match message.qos, c.mQoS2receivingPacketIds with
  | .qos0, _ => { c with published := c.published ++ [message] }
  | .qos1, _ => { c.reply .puback id with published := c.published ++ [message] }
  | .qos2, none => c
  | .qos2, some ids =>
    { c.reply .pubrec id with
      mQoS2receivingPacketIds := some (insert id ids)
      published := if id ∈ ids then c.published else c.published ++ [message] }

end PublishReceiver

/-! ## The round trip -/

/-- The retain bit of a message that is delivered. -/
def Retained.retain : Retained → Retain
  | .no => .no
  | .yes => .yes

namespace MQTTPublishPacketBuilder

/-- What the bits of the first byte say. -/
theorem bits_firstByte (retained : Retained) (qos : QoS) :
    (firstByte retained qos >>> 1) &&& 0x3 = qos.toUInt8 ∧ ¬ qos.toUInt8 ≥ 3 ∧
      (if firstByte retained qos &&& 0x1 = 0 then Retain.no else .yes) = retained.retain ∧
      firstByte retained qos >>> 4 = MQTTMessageType.publish.toUInt8 := by
  cases retained with
  | no =>
      cases qos with
      | qos0 => decide
      | qos1 => decide
      | qos2 => decide
  | yes =>
      cases qos with
      | qos0 => decide
      | qos1 => decide
      | qos2 => decide

/-- The message as a connection of some version sees it. -/
def message (b : MQTTPublishPacketBuilder) (request : PacketRequest) : MQTTPacket where
  topic := b.mTopic
  payload := b.mPayload
  qos := request.qos
  retain := b.mRetained.retain
  properties := if request.version = .v5 then b.mProperties else []

variable [Libnioev] [BinaryDecoder] {b : MQTTPublishPacketBuilder} {request : PacketRequest}

theorem deliverOnward_encodeEnd (hproperties : Libnioev.ReadsBack b.mProperties)
    {c : PublishReceiver} (hversion : c.mMQTTVersion = request.version) :
    c.deliverOnward b.mTopic request.qos b.mRetained.retain (b.encodeEnd request.version) =
      ({ c with published := c.published ++ [b.message request] }, none) := by
  unfold PublishReceiver.deliverOnward encodeEnd message
  rw [hversion]
  by_cases hv5 : request.version = .v5
  · rw [if_pos hv5, if_pos hv5, hproperties]
    simp only [if_pos hv5]
  · rw [if_neg hv5, if_neg hv5]
    simp only [if_neg hv5, List.nil_append]

variable [LawfulBinaryDecoder]

/-- The branch reads what the builder has written. -/
theorem handlePublish_frame (htopic : b.mTopic ≠ []) (hlength : b.mTopic.length ≤ maxStringLength)
    (hproperties : Libnioev.ReadsBack b.mProperties) {recvData : PacketReceiveData}
    (hreceived : recvData.received = ((b.frame request).firstByte, (b.frame request).body))
    {c : PublishReceiver} (hversion : c.mMQTTVersion = request.version)
    (hsession : request.qos = .qos2 → c.mQoS2receivingPacketIds ≠ none) :
    PublishReceiver.handlePublish recvData c =
      (c.receives request.packetId (b.message request), none) := by
  obtain ⟨hfirst, hbody⟩ := Prod.mk.injEq .. ▸ hreceived
  rw [firstByte_frame] at hfirst
  rw [body_frame] at hbody
  obtain ⟨hqos, hvalid, hretain, -⟩ := bits_firstByte b.mRetained request.qos
  have hid := LawfulBinaryDecoder.decode2Bytes_append request.packetId
  have hend : ∀ c : PublishReceiver, c.mMQTTVersion = request.version →
      c.deliverOnward b.mTopic request.qos b.mRetained.retain (b.encodeEnd request.version) =
        ({ c with published := c.published ++ [b.message request] }, none) :=
    fun _ hc => deliverOnward_encodeEnd hproperties hc
  have hmessage : (b.message request).qos = request.qos := rfl
  unfold PublishReceiver.handlePublish
  simp only [hfirst, hqos, if_neg hvalid, hretain, QoS.ofUInt8_toUInt8, hbody,
    decodeString_append hlength, if_neg htopic]
  unfold idBytes PublishReceiver.receives
  rw [hmessage]
  cases hq : request.qos with
  | qos0 =>
      rw [hq] at hend
      simp only [if_true, List.nil_append]
      exact hend c hversion
  | qos1 =>
      rw [hq] at hend
      simp only [reduceCtorEq, if_false, hid]
      exact hend (c.reply .puback request.packetId) hversion
  | qos2 =>
      rw [hq] at hend
      simp only [reduceCtorEq, if_false, hid]
      cases hids : c.mQoS2receivingPacketIds with
      | none => exact absurd hids (hsession hq)
      | some ids =>
          simp only
          split
          · rfl
          · exact hend _ hversion

variable [LawfulLibnioev]

/-- A packet that is read goes through the loop in whatever pieces it arrives. -/
theorem receiveChunks_freshPacket (htopic : b.mTopic ≠ [])
    (hlength : b.mTopic.length ≤ maxStringLength) (hproperties : Libnioev.ReadsBack b.mProperties)
    (hcount : MQTTMessageType.publish.toUInt8.toNat < Libnioev.messageTypeCount)
    (hbody : (b.freshPacket request).bodyLength ≤ maxReceivedLength)
    (others : PacketHandler PublishReceiver) {s : LoopState PublishReceiver}
    (hidle : s.recvData.recvState = .idle) (hversion : s.world.mMQTTVersion = request.version)
    (hsession : request.qos = .qos2 → s.world.mQoS2receivingPacketIds ≠ none)
    {chunks : List (List UInt8)} (hchunks : chunks.flatten = (b.freshPacket request).wireBytes) :
    ∃ s', receiveChunks (PublishReceiver.handlePacketReceived others) chunks s = .ok s' ∧
      s'.recvData.recvState = .idle ∧
      s'.world = s.world.receives request.packetId (b.message request) := by
  have hframed : s.recvData.Framed := by
    unfold PacketReceiveData.Framed
    rw [hidle]
    trivial
  have hne : (b.frame request).body ≠ [] := by
    rw [body_frame]
    exact List.append_ne_nil_of_left_ne_nil (encodeString_ne_nil hlength htopic) _
  have hvalid : ValidType (b.frame request).firstByte := by
    unfold ValidType
    rw [firstByte_frame, (bits_firstByte b.mRetained request.qos).2.2.2]
    exact ⟨hcount, by decide⟩
  rw [← packet_frame] at hchunks hbody
  rw [Frame.bodyLength_packet] at hbody
  have hframe : ∃ called : PacketReceiveData, _ ∧ _ ∧
      ∀ world, PublishReceiver.handlePacketReceived others called s.world = (world, none) → _ :=
    consumes_frameWithBody hidle hvalid hbody hne
  obtain ⟨called, hreceived, htype, hconsumes⟩ := hframe
  have hpublish : called.messageType = .publish := by
    rw [htype, firstByte_frame, (bits_firstByte b.mRetained request.qos).2.2.2]
    rfl
  have hhandled := handlePublish_frame htopic hlength hproperties hreceived hversion hsession
  obtain ⟨s', hs', hidle', -, hworld⟩ := hconsumes _ ((if_pos hpublish).trans hhandled)
  refine ⟨s', ?_, hidle', hworld⟩
  have hall := hs' []
  rw [List.append_nil, receiveLoop_nil] at hall
  rw [receiveChunks, (elementwise_receiveLoop _).foldlM_flatten chunks hframed, hchunks]
  exact hall

/-- Every packet of a builder is the one that a fresh builder would give, and a connection
of its version that receives it, in whatever pieces, gets the message that was built. -/
theorem getPackets_roundTrip {topic : ByteString} (payload : List UInt8) (retained : Retained)
    {properties : PropertyList} (htopic : topic ≠ []) (hlength : topic.length ≤ maxStringLength)
    (hproperties : Libnioev.ReadsBack properties)
    (hcount : MQTTMessageType.publish.toUInt8.toNat < Libnioev.messageTypeCount)
    (requests : List PacketRequest)
    (hbodies : ∀ packet ∈ (new topic payload retained properties).getPackets requests,
      packet.bodyLength ≤ maxReceivedLength) :
    (new topic payload retained properties).getPackets requests =
        requests.map (fun request => ((new topic payload retained properties).getPacket request.qos
          request.packetId request.version).1) ∧
      ∀ request ∈ requests, ∀ (others : PacketHandler PublishReceiver)
        (s : LoopState PublishReceiver) (chunks : List (List UInt8)),
        s.recvData.recvState = .idle → s.world.mMQTTVersion = request.version →
        (request.qos = .qos2 → s.world.mQoS2receivingPacketIds ≠ none) →
        chunks.flatten = ((new topic payload retained properties).getPacket request.qos
          request.packetId request.version).1.wireBytes →
        ∃ s', receiveChunks (PublishReceiver.handlePacketReceived others) chunks s = .ok s' ∧
          s'.recvData.recvState = .idle ∧
          s'.world = s.world.receives request.packetId
            { topic, payload
              qos := request.qos
              retain := retained.retain
              properties := if request.version = .v5 then properties else [] } := by
  have hcaches := caches_new topic payload retained properties
  have hfresh : ∀ request : PacketRequest, _ = _ := fun request => (hcaches.getPacket request).1
  rw [hcaches.getPackets] at hbodies ⊢
  refine ⟨List.map_congr_left fun request _ => (hfresh request).symm, ?_⟩
  intro request hrequest others s chunks hidle hversion hsession hchunks
  rw [hfresh] at hchunks
  exact receiveChunks_freshPacket (b := new topic payload retained properties) htopic hlength
    hproperties hcount (hbodies _ (List.mem_map_of_mem hrequest)) others hidle hversion hsession
    hchunks

end MQTTPublishPacketBuilder

/-- A retained message to four subscribers, and what the last of them gets. -/
theorem getPackets_fourSubscribers :
    let builder := MQTTPublishPacketBuilder.new [0x74] [0x01, 0x02] .yes []
    let requests : List PacketRequest :=
      [⟨.qos0, 0, .v4⟩, ⟨.qos1, 7, .v5⟩, ⟨.qos1, 8, .v4⟩, ⟨.qos2, 9, .v5⟩]
    let world : PublishReceiver := { mMQTTVersion := .v5, mQoS2receivingPacketIds := some ∅ }
    @MQTTPublishPacketBuilder.getPackets .standard builder requests =
        requests.map (fun request => (@MQTTPublishPacketBuilder.getPacket .standard builder
          request.qos request.packetId request.version).1) ∧
      ∃ s', @receiveChunks .standard PublishReceiver
          (@PublishReceiver.handlePacketReceived .standard .standard fun _ c => (c, none))
          [[0x35, 0x08, 0x00], [0x01, 0x74, 0x00, 0x09, 0x00, 0x01, 0x02]] { world := world } = .ok s' ∧
        s'.recvData.recvState = .idle ∧
        s'.world = @PublishReceiver.receives .standard world 9
          { topic := [0x74], payload := [0x01, 0x02], qos := .qos2, retain := .yes, properties := [] } := by
  intro builder requests world
  obtain ⟨hsame, harrives⟩ := @MQTTPublishPacketBuilder.getPackets_roundTrip .standard .standard
    BinaryDecoder.standard_lawful Libnioev.standard_lawful [0x74] [0x01, 0x02] .yes [] (by decide)
    (by decide) (fun _ => rfl) (by decide) requests (by decide +kernel)
  exact ⟨hsame, harrives ⟨.qos2, 9, .v5⟩ (by decide) _ { world := world } _ rfl rfl
    (fun _ => by rintro ⟨⟩) (by decide +kernel)⟩

end NioevMqtt
