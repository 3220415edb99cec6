-- SUMMARY: What the threads of the broker do, step by step, in any order: packets, publishes, queued requests, send errors, timeouts and cleanup.
import NioevMqtt.Broker.ApplicationState

/-!
# The threads

A step of the broker is one effect of one thread. What runs under the exclusive
lock is one step for each request or logout; a thread that handles a packet does
its work piece by piece, and others may come between.
-/

namespace NioevMqtt

/-- A `CONNECT` packet the broker accepts. -/
structure ConnectPacket where
  version : MQTTVersion
  keepAlive : UInt16
  clientId : ByteString
  cleanSession : CleanSession
  will : Option MQTTPacket
  /-- Without a client id the session is clean. -/
  clean_of_empty : clientId = [] → cleanSession = .yes

/-- The packets of a connected client. A list of topics is incomplete where the
rest of the packet makes the handler throw. -/
inductive ClientPacket where
  | publish (packet : MQTTPacket) (id : UInt16)
  | pubAck (id : UInt16)
  | pubRel (id : UInt16)
  | pubRec (id : UInt16)
  | pubComp (id : UInt16)
  | subscribe (id : UInt16) (topics : List (ByteString × QoS)) (complete : Bool)
  | unsubscribe (id : UInt16) (topics : List ByteString) (complete : Bool)
  | pingReq
  | disconnect

namespace ApplicationState

variable {τ : Type}

def setWork (s : ApplicationState τ) (thread : Thread) (work : List Work) : ApplicationState τ :=
  { s with work := Function.update s.work thread work }

/-- The broker before its first connection, with the retained messages it has loaded. -/
def initial [SubscriptionTree τ] (retained : AList fun _ : ByteString => RetainedMessage) :
    ApplicationState τ where
  mSubscriptions := SubscriptionTree.empty
  mRetainedMessages := retained

/-! ## New connections -/

/-- `handleNewClientConnection`. -/
def handleNewClientConnection (s : ApplicationState τ) (remote : ByteString) (now : Nat) :
    ApplicationState τ :=
  let client := s.nextConnection
  { s with
    nextConnection := client + 1
    mClients := s.mClients ++ [client]
    connections := Function.update s.connections client
      { mRemote := remote, mLastDataReceivedTimestamp := now } }

/-- The branch of `handlePacketReceived` for an accepted `CONNECT`. -/
def handleConnect (s : ApplicationState τ) (client : ConnectionId) (packet : ConnectPacket) :
    ApplicationState τ :=
  let s := s.updateConnection client fun conn =>
    { conn with
      mMQTTVersion := packet.version
      mKeepAliveIntervalSeconds := packet.keepAlive
      mWill := packet.will
      mState := .connecting }
  s.setWork (.receiver client)
    [.request (.loginClient client packet.clientId packet.cleanSession)]

/-! ## Packets of connected clients -/

variable [Libnioev]

/-- An unsupported protocol version. -/
def rejectVersion (s : ApplicationState τ) (client : ConnectionId) : ApplicationState τ :=
  (s.setStateAtomic client .invalidProtocolVersion).sendData client
    (.fromData (MQTTMessageType.connack.toUInt8 <<< 4) [2, 0, 1])

/-- An acknowledgement: the identifier and, in version 5, the reason where there is
one. -/
def acknowledgement (type : MQTTMessageType) (flags : UInt8) (version : MQTTVersion) (id : UInt16)
    (reason : Option UInt8) : EncodedPacket :=
  .fromData (type.toUInt8 <<< 4 ||| flags)
    (bigEndianBytes id ++
      match version, reason with
      | .v5, some reason => reason :: Libnioev.encodePropertyList []
      | _, _ => [])

/-- `SUBACK` and `UNSUBACK`. -/
def topicAcknowledgement (type : MQTTMessageType) (version : MQTTVersion) (id : UInt16)
    (codes : List UInt8) : EncodedPacket :=
  .fromData (type.toUInt8 <<< 4)
    (bigEndianBytes id ++ (if version = .v5 then Libnioev.encodePropertyList [] else []) ++ codes)

/-- A branch of `handlePacketReceived` that needs the session; without one it throws. -/
def withSession (s : ApplicationState τ) (client : ConnectionId)
    (f : PersistentClientState → PersistentClientState × List Work) : ApplicationState τ :=
  match (s.connections client).mPersistentClientState with
  | none => s.setWork (.receiver client) [.throws client]
  | some id =>
    let (session, work) := f (s.sessions id)
    (s.updateSession id fun _ => session).setWork (.receiver client) work

/-- The end of a branch with a list of topics. -/
def endTopics (client : ConnectionId) (complete : Bool) (packet : EncodedPacket) : Work :=
  if complete then .reply client packet else .throws client

/-- `handlePacketReceived` for a connected client: what it does at once, and the work
it leaves to its thread. -/
def handlePacketReceived (s : ApplicationState τ) (client : ConnectionId) :
    ClientPacket → ApplicationState τ
  | .publish packet id =>
    let version := (s.connections client).mMQTTVersion
    match packet.qos with
    | .qos0 => s.setWork (.receiver client) [.publish packet]
    | .qos1 =>
      s.setWork (.receiver client)
        [.reply client (acknowledgement .puback 0 version id (some 0)), .publish packet]
    | .qos2 =>
      s.withSession client fun session =>
        let (session, doDeliverOnward) := session.receiveQoS2 id
        (session, .reply client (acknowledgement .pubrec 0 version id (some 0)) ::
          if doDeliverOnward then [.publish packet] else [])
  | .pubAck id => s.withSession client fun session => (session.pubAck id, [])
  | .pubRel id =>
    let version := (s.connections client).mMQTTVersion
    s.withSession client fun session =>
      let reason := if id ∈ session.mQoS2receivingPacketIds then none else some 0x92
      (session.pubRel id, [.reply client (acknowledgement .pubcomp 0 version id reason)])
  | .pubRec id =>
    let version := (s.connections client).mMQTTVersion
    s.withSession client fun session =>
      let reason := if id ∈ session.mHighQoSSendingPackets then none else some 0x92
      (session.pubRec id, [.reply client (acknowledgement .pubrel 0b10 version id reason)])
  | .pubComp id => s.withSession client fun session => (session.pubComp id, [])
  | .subscribe id topics complete =>
    let version := (s.connections client).mMQTTVersion
    s.setWork (.receiver client)
      (topics.map (fun t => .subscribe client t.1 t.2) ++ [endTopics client complete
        (topicAcknowledgement .suback version id (topics.map fun t => t.2.toUInt8))])
  | .unsubscribe id topics complete =>
    let version := (s.connections client).mMQTTVersion
    let codes := if version = .v5 then topics.map fun _ => 0 else []
    s.setWork (.receiver client)
      (topics.map (fun t => .unsubscribe client t) ++ [endTopics client complete
        (topicAcknowledgement .unsuback version id codes)])
  | .pingReq =>
    s.setWork (.receiver client)
      [.reply client (.fromFirstByte (MQTTMessageType.pingresp.toUInt8 <<< 4))]
  | .disconnect =>
    (s.updateConnection client fun conn => { conn with mWill := none }).setWork (.receiver client)
      [.throws client]

/-! ## Steps -/

inductive Action where
  | newConnection (remote : ByteString) (now : Nat)
  | receiveData (client : ConnectionId) (now : Nat)
  | connect (client : ConnectionId) (packet : ConnectPacket)
  | rejectVersion (client : ConnectionId)
  | packet (client : ConnectionId) (packet : ClientPacket)
  /-- A socket error, a packet that violates the protocol, or one of them cut short. -/
  | receiveError (client : ConnectionId)
  /-- A thread that receives for no connection publishes or makes a request. -/
  | start (id : Nat) (work : Work)
  | proceed (thread : Thread) (lockTaken : Bool)
  | execute (randomChars : List ByteString)
  | executeInternal (randomChars : List ByteString)
  | sendError (client : ConnectionId)
  | logoutSendError (client : ConnectionId)
  | timeout (client : ConnectionId) (now : Nat)
  | cleanup

/-- The requests of scripts, websockets and statistics name no connection and no
session. -/
def isExternal : Work → Bool
  | .publish _ => true
  | .request (.subscribe (.other _) _ _ _) => true
  | .request (.unsubscribe (.other _) _) => true
  | .request (.unsubscribeFromAll (.other _)) => true
  | .request (.deleteScript _) => true
  | _ => false

/-- The client id generated for a login that names none. -/
def generatedFor (s : ApplicationState τ) (randomChars : List ByteString) :
    ChangeRequest → Option ByteString
  | .loginClient client [] _ => s.generateClientId client randomChars
  | _ => some []

variable [SubscriptionTree τ]

/-- The next piece of work of a thread. A retain request is executed at once if the
lock can be taken. -/
def proceed (s : ApplicationState τ) (thread : Thread) (lockTaken : Bool) :
    Work → List Work → Option (Except Fault (ApplicationState τ))
  | .subscribe client topic qos, rest =>
    match (s.connections client).mPersistentClientState with
    | none => some (.ok (s.setWork thread [.throws client]))
    | some id =>
      some (.ok (s.setWork thread (.request (.subscribe (.session id) topic qos .normal) :: rest)))
  | .unsubscribe client topic, rest =>
    match (s.connections client).mPersistentClientState with
    | none => some (.ok (s.setWork thread [.throws client]))
    | some id =>
      some (.ok (s.setWork thread (.request (.unsubscribe (.session id) topic) :: rest)))
  | .request (.retain packet), rest =>
    if lockTaken then some (.ok ((s.setWork thread rest).retain packet))
    else some (.ok ((s.setWork thread rest).requestChange ⟨.retain packet, thread⟩ false))
  | .request change, rest =>
    some (.ok ((s.setWork thread rest).requestChange ⟨change, thread⟩ false))
  | .publish packet, rest =>
    let rest := if packet.retain = .yes then .request (.retain packet) :: rest else rest
    some ((s.setWork thread rest).publishNoLockNoRetain packet)
  | .reply client packet, rest => some (.ok ((s.setWork thread rest).sendData client packet))
  | .throws client, _ => some (.ok (s.setWork thread [.request (.logoutClient client)]))

/-- The execution of a queued request by the worker thread. -/
def executeRequest (s : ApplicationState τ) (randomChars : List ByteString) (request : Request) :
    Option (Except Fault (ApplicationState τ)) :=
  (s.generatedFor randomChars request.change).map fun generatedId =>
    s.executeChangeRequest .worker generatedId request.change

/-- A packet may be handled once its connection has sent a `CONNECT`, whether the
login has been executed or not. -/
def step (s : ApplicationState τ) : Action → Option (Except Fault (ApplicationState τ))
  | .newConnection remote now => some (.ok (s.handleNewClientConnection remote now))
  | .receiveData client now =>
    if client ∈ s.mClients then
      some (.ok (s.updateConnection client fun conn =>
        { conn with mLastDataReceivedTimestamp := now }))
    else none
  | .connect client packet =>
    if client ∈ s.mClients ∧ s.work (.receiver client) = [] ∧
        (s.connections client).mState = .initial then
      some (.ok (s.handleConnect client packet))
    else none
  | .rejectVersion client =>
    if client ∈ s.mClients ∧ s.work (.receiver client) = [] ∧
        (s.connections client).mState = .initial then
      some (.ok (s.rejectVersion client))
    else none
  | .packet client packet =>
    if client ∈ s.mClients ∧ s.work (.receiver client) = [] ∧
        ((s.connections client).mState = .connecting ∨
          (s.connections client).mState = .connected) then
      some (.ok (s.handlePacketReceived client packet))
    else none
  | .receiveError client =>
    if client ∈ s.mClients ∧ s.work (.receiver client) = [] then
      some (.ok (s.setWork (.receiver client) [.throws client]))
    else none
  | .start id work =>
    if isExternal work ∧ s.work (.other id) = [] then
      some (.ok (s.setWork (.other id) [work]))
    else none
  | .proceed thread lockTaken =>
    match s.work thread with
    | [] => none
    | work :: rest => s.proceed thread lockTaken work rest
  | .execute randomChars =>
    match s.mQueue with
    | [] => none
    | request :: mQueue => { s with mQueue := mQueue }.executeRequest randomChars request
  | .executeInternal randomChars =>
    match s.mQueueInternal with
    | [] => none
    | request :: mQueueInternal =>
      { s with mQueueInternal := mQueueInternal }.executeRequest randomChars request
  | .sendError client =>
    if client ∈ s.mClients then
      some (.ok (s.updateConnection client fun conn => { conn with mSendError := true }))
    else none
  | .logoutSendError client =>
    if client ∈ s.mClients ∧ (s.connections client).mSendError then
      some (s.logoutClient .worker client)
    else none
  | .timeout client now =>
    if client ∈ s.mClients ∧ s.TimedOut client now then some (s.logoutClient .timers client)
    else none
  -- The threads that receive are suspended only between packets.
  | .cleanup =>
    if s.mShouldCleanup ∧ ∀ client ∈ s.mClients, s.work (.receiver client) = [] then
      some (.ok s.eraseDisconnected)
    else none

/-! ## Steps in a row

What a thread does without another between. -/

namespace Action

omit [Libnioev] in
/-- Only a client without an id has to ask for a clean session. -/
theorem kept_of_id : ([0x61] : ByteString) = [] → CleanSession.no = .yes := by
  rintro ⟨⟩

/-- A client connects, and its login is queued. -/
def requestLogin (client : ConnectionId) (clientId : ByteString) (cleanSession : CleanSession)
    (h : clientId = [] → cleanSession = .yes) : List Action :=
  [.newConnection [] 0, .connect client ⟨.v4, 60, clientId, cleanSession, none, h⟩,
    .proceed (.receiver client) false]

/-- A `SUBSCRIBE` with one topic is answered, and its request is queued. -/
def requestSubscribe (client : ConnectionId) (topic : ByteString) (qos : QoS) : List Action :=
  [.packet client (.subscribe 1 [(topic, qos)] true), .proceed (.receiver client) false,
    .proceed (.receiver client) false, .proceed (.receiver client) false]

/-- A `DISCONNECT` makes its thread queue a logout. -/
def requestLogout (client : ConnectionId) : List Action :=
  [.packet client .disconnect, .proceed (.receiver client) false, .proceed (.receiver client) false]

end Action

end ApplicationState

end NioevMqtt
