-- SUMMARY: The handler of received packets, byte by byte, in every state of a connection: what each branch reads, does and answers, and where it throws.
import NioevMqtt.Connection.ConnectDecoding
import NioevMqtt.Connection.PublishRoundTrip
import NioevMqtt.Library.Reading

/-!
# Handling packets

`handlePacketReceived` on the bytes of a packet. The branches for `CONNECT` and `PUBLISH`
are those of `ConnectDecoding` and `PublishRoundTrip`. What a branch has done when it
throws stays done.
-/

namespace NioevMqtt

open Reading

/-- What the handler reads and changes: the connection, the sessions, and the calls it makes. -/
structure PacketReceiver extends ConnectReceiver where
  sessions : SessionId → PersistentClientState := fun _ => {}
  /-- The messages given to `app.publish`. -/
  published : List MQTTPacket := []
  mPacketsReceivedWhileWaitingForConnectingLogin : List PacketReceiveData := []

namespace PacketReceiver

def version (c : PacketReceiver) : MQTTVersion := c.conn.mMQTTVersion

def violation (c : PacketReceiver) (reason : String) : PacketReceiver × Option ReceiveException :=
  (c, some (.protocolViolation reason))

def sendData (c : PacketReceiver) (packet : EncodedPacket) : PacketReceiver :=
  { c with conn := { c.conn with sent := c.conn.sent ++ [packet] } }

def requestChange (c : PacketReceiver) (change : ChangeRequest) : PacketReceiver :=
  { c with requests := c.requests ++ [change] }

def updateSession (c : PacketReceiver) (session : SessionId)
    (f : PersistentClientState → PersistentClientState) : PacketReceiver :=
  { c with sessions := Function.update c.sessions session (f (c.sessions session)) }

/-- What `getPersistentClientState` points to is needed. -/
def withSession (c : PacketReceiver)
    (next : SessionId → PacketReceiver × Option ReceiveException) :
    PacketReceiver × Option ReceiveException :=
  match c.conn.mPersistentClientState with
  | none => (c, some (.runtimeError "Persistent state lost!"))
  | some session => next session

section

variable [Libnioev]

/-! ## Acknowledgements -/

/-- `PUBACK`, when its fields have been read. -/
def handlePubAck (c : PacketReceiver) (id : UInt16) : PacketReceiver × Option ReceiveException :=
  c.withSession fun session => (c.updateSession session (·.pubAck id), none)

/-- `PUBREL`. -/
def handlePubRel (c : PacketReceiver) (id : UInt16) : PacketReceiver × Option ReceiveException :=
  c.withSession fun session =>
    let reason := if id ∈ (c.sessions session).mQoS2receivingPacketIds then none else some 0x92
    ((c.updateSession session (·.pubRel id)).sendData
      (ApplicationState.acknowledgement .pubcomp 0 c.version id reason), none)

/-- `PUBREC`. -/
def handlePubRec (c : PacketReceiver) (id : UInt16) : PacketReceiver × Option ReceiveException :=
  c.withSession fun session =>
    let reason := if id ∈ (c.sessions session).mHighQoSSendingPackets then none else some 0x92
    ((c.updateSession session (·.pubRec id)).sendData
      (ApplicationState.acknowledgement .pubrel 0b10 c.version id reason), none)

/-- `PUBCOMP`. -/
def handlePubComp (c : PacketReceiver) (id : UInt16) : PacketReceiver × Option ReceiveException :=
  c.withSession fun session => (c.updateSession session (·.pubComp id), none)

variable [BinaryDecoder]

/-- In version 5 a property list is read. It is used by `CONNECT` and `PUBLISH` only. -/
def skipProperties (version : MQTTVersion) (bytes : List UInt8) : Option (List UInt8) :=
  if version = .v5 then (Libnioev.decodeProperties bytes).map (·.2) else some bytes

/-- The reason code of version 5, and the properties behind it. -/
def skipReason (version : MQTTVersion) (bytes : List UInt8) : Option (List UInt8) :=
  if version = .v5 then
    match BinaryDecoder.decodeByte bytes with
    | none => none
    | some (_, bytes) => skipProperties version bytes
  else some bytes

/-- The identifier an acknowledgement is about. What comes behind it has to be there. -/
def decodeAcknowledgement (version : MQTTVersion) (bytes : List UInt8) : Option UInt16 :=
  match BinaryDecoder.decode2Bytes bytes with
  | none => none
  | some (id, bytes) => (skipReason version bytes).map fun _ => id

/-- A branch that reads an acknowledgement. -/
def acknowledged (c : PacketReceiver) (bytes : List UInt8)
    (next : UInt16 → PacketReceiver × Option ReceiveException) :
    PacketReceiver × Option ReceiveException :=
  match decodeAcknowledgement c.version bytes with
  | none => (c, some BinaryDecoder.exception)
  | some id => next id

/-! ## `PUBLISH` -/

/-- The part of the connection that the branch for `PUBLISH` looks at. -/
def publishReceiver (c : PacketReceiver) : PublishReceiver where
  mMQTTVersion := c.version
  mQoS2receivingPacketIds :=
    c.conn.mPersistentClientState.map fun session => (c.sessions session).mQoS2receivingPacketIds
  sent := c.conn.sent
  published := c.published

/-- What the branch for `PUBLISH` leaves. -/
def afterPublish (c : PacketReceiver) (p : PublishReceiver) : PacketReceiver :=
  let c := { c with conn := { c.conn with sent := p.sent }, published := p.published }
  match c.conn.mPersistentClientState, p.mQoS2receivingPacketIds with
  | some session, some ids =>
    c.updateSession session fun state => { state with mQoS2receivingPacketIds := ids }
  | _, _ => c

def handlePublish (c : PacketReceiver) (recvData : PacketReceiveData) :
    PacketReceiver × Option ReceiveException :=
  let (p, exception) := PublishReceiver.handlePublish recvData c.publishReceiver
  (c.afterPublish p, exception)

/-! ## Lists of topics -/

/-- A filter of a `SUBSCRIBE`. -/
def readFilter (bytes : List UInt8) :
    Except ReceiveException ((ByteString × QoS) × List UInt8) :=
  match BinaryDecoder.decodeString bytes with
  | none => .error BinaryDecoder.exception
  | some (topic, bytes) =>
    if topic = [] then .error (.protocolViolation "SUBSCRIBE topic is empty")
    else
      match BinaryDecoder.decodeByte bytes with
      | none => .error BinaryDecoder.exception
      | some (qosInt, bytes) =>
        if qosInt ≥ 3 then .error (.protocolViolation "SUBSCRIPE invalid qos")
        else .ok ((topic, QoS.ofUInt8 qosInt), bytes)

/-- A topic of an `UNSUBSCRIBE`. -/
def readTopic (bytes : List UInt8) : Except ReceiveException (ByteString × List UInt8) :=
  match BinaryDecoder.decodeString bytes with
  | none => .error BinaryDecoder.exception
  | some (topic, bytes) => .ok (topic, bytes)

omit [Libnioev] [BinaryDecoder] in
/-- The body of the loop over the filters. The code of the answer is encoded in between. -/
def subscribe (filter : ByteString × QoS) (s : PacketReceiver × List UInt8) :
    (PacketReceiver × List UInt8) × Option ReceiveException :=
  let codes := s.2 ++ [filter.2.toUInt8]
  let (c, exception) := s.1.withSession fun session =>
    (s.1.requestChange (.subscribe (.session session) filter.1 filter.2 .normal), none)
  ((c, codes), exception)

omit [Libnioev] [BinaryDecoder] in
/-- The body of the loop over the topics. -/
def unsubscribe (topic : ByteString) (s : PacketReceiver × List UInt8) :
    (PacketReceiver × List UInt8) × Option ReceiveException :=
  let (c, exception) := s.1.withSession fun session =>
    (s.1.requestChange (.unsubscribe (.session session) topic), none)
  ((c, if s.1.version = .v5 then s.2 ++ [0] else s.2), exception)

/-- The identifier of a packet with a list of topics, and the bytes of the list. -/
def readHeader (version : MQTTVersion) (bytes : List UInt8) : Option (UInt16 × List UInt8) :=
  match BinaryDecoder.decode2Bytes bytes with
  | none => none
  | some (id, bytes) => (skipProperties version bytes).map (id, ·)

/-- A branch that does something for each of a list of topics, and then answers. -/
def handleTopics {β : Type} (c : PacketReceiver) (bytes : List UInt8)
    (read : List UInt8 → Except ReceiveException (β × List UInt8))
    (act : β → PacketReceiver × List UInt8 →
      (PacketReceiver × List UInt8) × Option ReceiveException) (answer : MQTTMessageType) :
    PacketReceiver × Option ReceiveException :=
  match readHeader c.version bytes with
  | none => (c, some BinaryDecoder.exception)
  | some (id, bytes) =>
    match readItems read act bytes (c, []) with
    | ((c, _), some exception) => (c, some exception)
    | ((c, codes), none) =>
      (c.sendData (ApplicationState.topicAcknowledgement answer c.version id codes), none)

/-! ## All branches -/

/-- `case CONNECTED`. Packets of another type are ignored. -/
def handleConnected (c : PacketReceiver) (recvData : PacketReceiveData) :
    PacketReceiver × Option ReceiveException :=
  let bytes := recvData.currentReceiveBuffer
  match recvData.messageType with
  | .publish => c.handlePublish recvData
  | .puback => c.acknowledged bytes c.handlePubAck
  | .pubrel =>
    if recvData.firstByte ≠ 0x62 then c.violation "Invalid first byte in PUBREL"
    else c.acknowledged bytes c.handlePubRel
  | .pubrec => c.acknowledged bytes c.handlePubRec
  | .pubcomp => c.acknowledged bytes c.handlePubComp
  | .subscribe =>
    if recvData.firstByte ≠ 0x82 then c.violation "SUBSCRIBE invalid first byte"
    else c.handleTopics bytes readFilter subscribe .suback
  | .unsubscribe =>
    if recvData.firstByte ≠ 0xA2 then c.violation "UNSUBSCRIBE invalid first byte"
    else c.handleTopics bytes readTopic unsubscribe .unsuback
  | .pingreq =>
    if recvData.firstByte ≠ 0xC0 then c.violation "PINGREQ Invalid first byte"
    else (c.sendData (.fromFirstByte (MQTTMessageType.pingresp.toUInt8 <<< 4)), none)
  | .disconnect =>
    if recvData.firstByte ≠ 0xE0 then c.violation "Invalid disconnect first byte"
    -- The reason code is taken for the start of the properties.
    else if c.version = .v5 ∧ bytes.length > 1 ∧ Libnioev.decodeProperties bytes = none then
      (c, some BinaryDecoder.exception)
    else ({ c with conn := { c.conn with mWill := none } }, some .cleanDisconnect)
  | _ => (c, none)

/-- `handlePacketReceived`. The state is the connection's, but for packets that were kept
while it was connecting. -/
def handlePacketReceived (state : ConnectionState) : PacketHandler PacketReceiver :=
  fun recvData c =>
    match state with
    | .initial =>
      let (connecting, exception) := ConnectReceiver.handlePacketReceived recvData c.toConnectReceiver
      ({ c with toConnectReceiver := connecting }, exception)
    | .connecting =>
      ({ c with
        mPacketsReceivedWhileWaitingForConnectingLogin :=
          c.mPacketsReceivedWhileWaitingForConnectingLogin ++ [recvData] }, none)
    | .connected => c.handleConnected recvData
    | .invalidProtocolVersion => (c, none)

end

end PacketReceiver

end NioevMqtt
