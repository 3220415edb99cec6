-- SUMMARY: The broker's state and the operations that run under its lock: publishing, change requests, login, logout and cleanup.
import NioevMqtt.Broker.SubscriptionTree
import NioevMqtt.Connection.Types
import Mathlib.Logic.Function.Basic
import Mathlib.Data.Finset.Card

/-!
# The application state

`ApplicationState`, with the connections and sessions it owns. Every function
here is one that the source runs as a whole under `mMutex`; what the threads do
around them is in `Broker/Threads.lean`. A function fails where the source
follows a null pointer.
-/

namespace NioevMqtt

/-! ## Data -/

/-- A thread that makes change requests: one that receives for a connection, the
one that executes the queues, the timers', or another. -/
inductive Thread where
  | receiver (client : ConnectionId)
  | worker
  | timers
  | other (id : Nat)
deriving DecidableEq, Repr

inductive SubscriptionType where
  | normal
  | omni
deriving DecidableEq, Repr

/-- `ChangeRequest`. Of the requests about scripts only those that end one touch
the data kept here. -/
inductive ChangeRequest where
  | subscribe (subscriber : Subscriber) (topic : ByteString) (qos : QoS) (type : SubscriptionType)
  | unsubscribe (subscriber : Subscriber) (topic : ByteString)
  | unsubscribeFromAll (subscriber : Subscriber)
  | retain (packet : MQTTPacket)
  | loginClient (client : ConnectionId) (clientId : ByteString) (cleanSession : CleanSession)
  | logoutClient (client : ConnectionId)
  | deleteScript (script : Nat)
deriving DecidableEq, Repr

/-- A change request and the thread that made it. -/
structure Request where
  change : ChangeRequest
  thread : Thread
deriving DecidableEq, Repr

structure MQTTClientConnection where
  /-- The address and port of the peer, as the generated client ids show them. -/
  mRemote : ByteString := []
  mState : ConnectionState := .initial
  mPersistentClientState : Option SessionId := none
  mWill : Option MQTTPacket := none
  mMQTTVersion : MQTTVersion := .v4
  mKeepAliveIntervalSeconds : UInt16 := 10
  mLastDataReceivedTimestamp : Nat := 0
  mProperClientId : Option ByteString := none
  mLoggedOut : Bool := false
  mSendError : Bool := false
  /-- The packets given to `sendData`. -/
  sent : List EncodedPacket := []
  taskQueueRefCount : Nat := 0

structure RetainedMessage where
  payload : List UInt8
  qos : QoS
  properties : PropertyList
deriving DecidableEq, Repr

/-- The work a thread has yet to do on what it handles, one effect after another. -/
inductive Work where
  | subscribe (client : ConnectionId) (topic : ByteString) (qos : QoS)
  | unsubscribe (client : ConnectionId) (topic : ByteString)
  | request (change : ChangeRequest)
  | publish (packet : MQTTPacket)
  | reply (client : ConnectionId) (packet : EncodedPacket)
  | throws (client : ConnectionId)
deriving DecidableEq

structure ApplicationState (τ : Type) where
  mSubscriptions : τ
  mQueueInternal : List Request := []
  mQueue : List Request := []
  mShouldCleanup : Bool := false
  mClients : List ConnectionId := []
  mPersistentClientStates : AList (fun _ : ByteString => SessionId) := ∅
  mDeletedPersistentClientStates : List SessionId := []
  mRetainedMessages : AList (fun _ : ByteString => RetainedMessage) := ∅
  connections : ConnectionId → MQTTClientConnection := fun _ => {}
  sessions : SessionId → PersistentClientState := fun _ => {}
  nextConnection : ConnectionId := 0
  nextSession : SessionId := 0
  globalOrderCounter : Nat := 0
  work : Thread → List Work := fun _ => []
  /-- The messages `publishInternal` has been called with. -/
  publishedInternally : List MQTTPacket := []

namespace ApplicationState

variable {τ : Type}

/-! ## Objects -/

def updateConnection (s : ApplicationState τ) (client : ConnectionId)
    (f : MQTTClientConnection → MQTTClientConnection) : ApplicationState τ :=
  { s with connections := Function.update s.connections client (f (s.connections client)) }

def updateSession (s : ApplicationState τ) (session : SessionId)
    (f : PersistentClientState → PersistentClientState) : ApplicationState τ :=
  { s with sessions := Function.update s.sessions session (f (s.sessions session)) }

def setPersistentClientState (s : ApplicationState τ) (client : ConnectionId)
    (state : Option SessionId) : ApplicationState τ :=
  s.updateConnection client fun conn => { conn with mPersistentClientState := state }

def setStateAtomic (s : ApplicationState τ) (client : ConnectionId) (state : ConnectionState) :
    ApplicationState τ :=
  s.updateConnection client fun conn => { conn with mState := state }

def sendData (s : ApplicationState τ) (client : ConnectionId) (packet : EncodedPacket) :
    ApplicationState τ :=
  s.updateConnection client fun conn => { conn with sent := conn.sent ++ [packet] }

/-- `PersistentClientState::replaceCurrentClient`, on both objects. -/
def replaceCurrentClient (s : ApplicationState τ) (session : SessionId)
    (newConnection : ConnectionId) (cleanSession : CleanSession) (replaceStyle : ReplaceStyle) :
    ApplicationState τ :=
  let s :=
    match (s.sessions session).mCurrentClient with
    | some client => s.setPersistentClientState client none
    | none => s
  let s := s.updateSession session
    (·.replaceCurrentClient newConnection cleanSession replaceStyle)
  s.updateConnection newConnection fun conn =>
    { conn with
      mPersistentClientState := some session
      mProperClientId := some (s.sessions session).mClientID }

/-- `PersistentClientState::dropCurrentClient`, on both objects. -/
def dropCurrentClient (s : ApplicationState τ) (session : SessionId) :
    Except Fault (ApplicationState τ) := do
  let (client, dropped) ← (s.sessions session).dropCurrentClient
  return (s.setPersistentClientState client none).updateSession session fun _ => dropped

/-! ## Reference counts -/

/-- `incTaskQueueRefCount` and `decTaskQueueRefCount` of the object a request names.
Only connections and sessions are kept here. -/
def updateRefCount (s : ApplicationState τ) (f : Nat → Nat) : ChangeRequest → ApplicationState τ
  | .loginClient client _ _ | .logoutClient client =>
    s.updateConnection client fun conn => { conn with taskQueueRefCount := f conn.taskQueueRefCount }
  | .subscribe (.session id) _ _ _ | .unsubscribe (.session id) _ |
    .unsubscribeFromAll (.session id) =>
    s.updateSession id fun state => { state with taskQueueRefCount := f state.taskQueueRefCount }
  | _ => s

/-- `std::visit(overloaded{...}, changeRequest)`: lambdas for some of the requests, each by
reference to const, and one for `auto&`. -/
def visitOverloaded (_constRef generic : ChangeRequest → ApplicationState τ)
    (changeRequest : ChangeRequest) : ApplicationState τ :=
  -- `changeRequest` is a variable that is not const. For each of its alternatives `auto&` is a
  -- reference that adds no const, and so the better match.
  generic changeRequest

/-- The visit at the start of `requestChange`. -/
def acquireRequest (s : ApplicationState τ) : ChangeRequest → ApplicationState τ :=
  visitOverloaded (s.updateRefCount (· + 1)) fun _ => s

/-- The visit at the end of `executeChangeRequest`. No subscriber overrides `isDeleted`, so
that only the lambdas for connections could ask for a cleanup. -/
def releaseRequest (s : ApplicationState τ) : ChangeRequest → ApplicationState τ :=
  visitOverloaded
    (fun changeRequest =>
      let s := s.updateRefCount (· - 1) changeRequest
      match changeRequest with
      | .loginClient client _ _ | .logoutClient client =>
        if (s.connections client).taskQueueRefCount = 0 ∧ (s.connections client).mLoggedOut then
          { s with mShouldCleanup := true }
        else s
      | _ => s)
    fun _ => s

/-- Where `requestChange` puts a request it does not execute itself: a thread that
holds the lock has a queue of its own. -/
def requestChange (s : ApplicationState τ) (request : Request) (holdsLock : Bool) :
    ApplicationState τ :=
  let s := s.acquireRequest request.change
  if holdsLock then { s with mQueueInternal := s.mQueueInternal ++ [request] }
  else { s with mQueue := s.mQueue ++ [request] }

/-- No request is counted. -/
@[simp] theorem acquireRequest_eq (s : ApplicationState τ) (change : ChangeRequest) :
    s.acquireRequest change = s := rfl

@[simp] theorem releaseRequest_eq (s : ApplicationState τ) (change : ChangeRequest) :
    s.releaseRequest change = s := rfl

section

variable [Libnioev]

/-! ## Publishing -/

/-- `sendPublish`: a builder for this subscriber, and its `publish`. What another
subscriber than a session does with the message is not part of this state. -/
def sendPublish (s : ApplicationState τ) (sub : Subscriber) (topic : ByteString)
    (payload : List UInt8) (qos : QoS) (retained : Retained) (properties : PropertyList) :
    Except Fault (ApplicationState τ) :=
  match sub with
  | .other _ => .ok s
  | .session id => do
    let builder : MQTTPublishPacketBuilder :=
      { mTopic := topic, mPayload := payload, mRetained := retained, mProperties := properties }
    let published ← (s.sessions id).publish (fun client => (s.connections client).mMQTTVersion)
      s.globalOrderCounter qos builder
    let s := s.updateSession id fun _ => published.session
    let s := { s with globalOrderCounter := published.globalOrderCounter }
    match published.sent with
    | none => return s
    | some (client, packet) => return s.sendData client packet

/-- The callbacks of `publishNoLockNoRetain`; `subs` are the subscribers it has sent
the message to. -/
def publishToMatches (topic : ByteString) (msg : List UInt8) (publishQoS : QoS)
    (properties : PropertyList) :
    ApplicationState τ → List Subscriber → List Subscription → Except Fault (ApplicationState τ)
  | s, _, [] => .ok s
  | s, subs, sub :: subscriptions =>
    if sub.subscriber ∈ subs then
      publishToMatches topic msg publishQoS properties s subs subscriptions
    else do
      let s ← s.sendPublish sub.subscriber topic msg (minQoS sub.qos publishQoS) .no properties
      publishToMatches topic msg publishQoS properties s (sub.subscriber :: subs) subscriptions

variable [SubscriptionTree τ]

/-- `publishNoLockNoRetain`, less the statistics it may refresh. -/
def publishNoLockNoRetain (s : ApplicationState τ) (packet : MQTTPacket) :
    Except Fault (ApplicationState τ) :=
  publishToMatches packet.topic packet.payload packet.qos packet.properties s []
    (SubscriptionTree.everyMatch s.mSubscriptions packet.topic)

def notePublished (s : ApplicationState τ) (packet : MQTTPacket) : ApplicationState τ :=
  { s with publishedInternally := s.publishedInternally ++ [packet] }

/-- `publishInternal`: the thread holds the lock, so that the attempt to take it
fails. -/
def publishInternal (s : ApplicationState τ) (thread : Thread) (packet : MQTTPacket) :
    Except Fault (ApplicationState τ) := do
  let s := s.notePublished packet
  let s ← s.publishNoLockNoRetain packet
  if packet.retain = .yes then
    return s.requestChange ⟨.retain packet, thread⟩ true
  else return s

/-! ## Subscriptions and retained messages -/

/-- The callbacks for one retained message. -/
def sendRetained (sub : Subscription) (topic : ByteString) (message : RetainedMessage) :
    ApplicationState τ → List Subscription → Except Fault (ApplicationState τ)
  | s, [] => .ok s
  | s, matchedSub :: subscriptions =>
    if sub.same matchedSub then do
      let s ← s.sendPublish sub.subscriber topic message.payload (minQoS message.qos sub.qos) .yes
        message.properties
      sendRetained sub topic message s subscriptions
    else sendRetained sub topic message s subscriptions

/-- The loop over the retained messages. -/
def sendAllRetained (sub : Subscription) :
    ApplicationState τ → List (Sigma fun _ : ByteString => RetainedMessage) →
      Except Fault (ApplicationState τ)
  | s, [] => .ok s
  | s, ⟨topic, message⟩ :: messages => do
    let s ← sendRetained sub topic message s (SubscriptionTree.everyMatch s.mSubscriptions topic)
    sendAllRetained sub s messages

def subscribeClientInternal (s : ApplicationState τ) (subscriber : Subscriber) (topic : ByteString)
    (qos : QoS) : Except Fault (ApplicationState τ) :=
  let sub : Subscription := ⟨subscriber, qos⟩
  let s := { s with
    mSubscriptions := SubscriptionTree.addSubscription s.mSubscriptions topic sub }
  sendAllRetained sub s s.mRetainedMessages.entries

def deleteAllSubscriptions (s : ApplicationState τ) (sub : Subscriber) : ApplicationState τ :=
  { s with
    mSubscriptions := SubscriptionTree.removeAllSubscriptions s.mSubscriptions ⟨sub, .qos0⟩ }

/-- `operator()(ChangeRequestRetain)`. -/
def retain (s : ApplicationState τ) (packet : MQTTPacket) : ApplicationState τ :=
  if packet.payload = [] then
    { s with mRetainedMessages := s.mRetainedMessages.erase packet.topic }
  else
    { s with
      mRetainedMessages := s.mRetainedMessages.insert packet.topic
        ⟨packet.payload, packet.qos, packet.properties⟩ }

/-! ## Logout -/

/-- The end of `logoutClient`: a clean session is given up together with its
subscriptions. -/
def deleteCleanSession (s : ApplicationState τ) (session : SessionId) : ApplicationState τ :=
  if (s.sessions session).mCleanSession = .yes then
    match s.mPersistentClientStates.entries.find? (·.2 = session) with
    | none => s
    | some actualState =>
      { s.deleteAllSubscriptions (.session session) with
        mDeletedPersistentClientStates := s.mDeletedPersistentClientStates ++ [session]
        mPersistentClientStates := s.mPersistentClientStates.erase actualState.1
        mShouldCleanup := true }
  else s

/-- The start of `logoutClient`, with `notifyLoggedOut`. -/
def markLoggedOut (s : ApplicationState τ) (client : ConnectionId) : ApplicationState τ :=
  let s := { s with mShouldCleanup := true }
  s.updateConnection client fun conn => { conn with mLoggedOut := true }

/-- The will of a client that is logged out. It stays where it is, since nothing
reads it again. -/
def publishWill (s : ApplicationState τ) (thread : Thread) (client : ConnectionId) :
    Except Fault (ApplicationState τ) :=
  match (s.connections client).mWill with
  | none => .ok s
  | some willMsg => s.publishInternal thread willMsg

def logoutClient (s : ApplicationState τ) (thread : Thread) (client : ConnectionId) :
    Except Fault (ApplicationState τ) :=
  if (s.connections client).mLoggedOut then .ok s
  else
    let s := s.markLoggedOut client
    match (s.connections client).mPersistentClientState with
    | none => .ok s
    | some state => do
      let s ← s.publishWill thread client
      let s ← s.dropCurrentClient state
      return s.deleteCleanSession state

/-! ## Login -/

inductive SessionPresent where
  | no
  | yes
deriving DecidableEq, Repr

/-- The lambda `sendConnack`, where it sends. -/
def sendConnack (s : ApplicationState τ) (client : ConnectionId) (sessionPresent : SessionPresent) :
    ApplicationState τ :=
  let response : List UInt8 := [if sessionPresent = .yes then 1 else 0, 0]
  let response :=
    if (s.connections client).mMQTTVersion = .v5 then
      response ++ Libnioev.encodePropertyList
        [(.topicAliasMaximum, .twoBytes 0), (.subscriptionIdentifierAvailable, .byte 0),
          (.sharedSubscriptionAvailable, .byte 0)]
    else response
  s.sendData client (.fromData (MQTTMessageType.connack.toUInt8 <<< 4) response)

/-- The stored packets of a session, in the order in which they were published. -/
def orderedPackets (state : PersistentClientState) : List HighQoSRetainStorage :=
  (state.mHighQoSSendingPackets.entries.map (·.2)).mergeSort
    fun a b => a.mGlobalOrderCount ≤ b.mGlobalOrderCount

/-- The identifiers the `PUBREL` loop comes by: it counts up to the number of bits
set, not to the number of bits. -/
def pubrelIdentifiers (state : PersistentClientState) : List UInt16 :=
  ((List.range state.mQos2pubrecReceived.card).map UInt16.ofNat).filter
    (· ∈ state.mQos2pubrecReceived)

/-- What a resumed session sends its new connection after the `CONNACK`. -/
def resend (s : ApplicationState τ) (client : ConnectionId) (session : SessionId) :
    ApplicationState τ :=
  let state := s.sessions session
  let s := (orderedPackets state).foldl (fun s packet => s.sendData client packet.mPacket.setDupFlag) s
  (pubrelIdentifiers state).foldl (fun s id => s.sendData client
    (.fromData (MQTTMessageType.pubrel.toUInt8 <<< 4 ||| 0b10) (bigEndianBytes id))) s

/-- `logoutClient(*existingClient)` where there is one. -/
def logoutExisting (s : ApplicationState τ) (thread : Thread) :
    Option ConnectionId → Except Fault (ApplicationState τ)
  | none => .ok s
  | some existingClient => s.logoutClient thread existingClient

/-- The end of the login of a connection that has its session. -/
def connected (s : ApplicationState τ) (client : ConnectionId) : ApplicationState τ :=
  s.setStateAtomic client .connected

/-- The branches of the login that find a session. -/
def loginExisting (s : ApplicationState τ) (thread : Thread) (client : ConnectionId)
    (session : SessionId) (cleanSession : CleanSession) : Except Fault (ApplicationState τ) := do
  let existingClient := (s.sessions session).mCurrentClient
  if cleanSession = .yes ∨ (s.sessions session).mCleanSession = .yes then
    let s := s.replaceCurrentClient session client cleanSession .cleanSession
    let s ← s.logoutExisting thread existingClient
    return (s.sendConnack client .no).connected client
  else
    let s := s.replaceCurrentClient session client cleanSession .simpleReplace
    let s ← s.logoutExisting thread existingClient
    return ((s.sendConnack client .yes).resend client session).connected client

/-- The branch that finds none. -/
def loginNew (s : ApplicationState τ) (client : ConnectionId) (clientId : ByteString)
    (cleanSession : CleanSession) : ApplicationState τ :=
  let session := s.nextSession
  let s := { s with
    nextSession := session + 1
    mPersistentClientStates := s.mPersistentClientStates.insert clientId session
    sessions := Function.update s.sessions session
      { mClientID := clientId, mCleanSession := cleanSession, mCurrentClient := some client } }
  let s := s.replaceCurrentClient session client cleanSession .cleanSession
  (s.sendConnack client .no).connected client

/-- `operator()(ChangeRequestLoginClient)`. An empty client id is replaced by
`generatedId`. -/
def loginClient (s : ApplicationState τ) (thread : Thread) (client : ConnectionId)
    (clientId : ByteString) (cleanSession : CleanSession) (generatedId : ByteString) :
    Except Fault (ApplicationState τ) :=
  if (s.connections client).mLoggedOut then .ok s
  else
    let clientId := if clientId = [] then generatedId else clientId
    match s.mPersistentClientStates.lookup clientId with
    | some session => s.loginExisting thread client session cleanSession
    | none => .ok (s.loginNew client clientId cleanSession)

/-- The loop that looks for a client id nobody uses: the address of the peer, and
then the address with random characters. -/
def generateClientId (s : ApplicationState τ) (client : ConnectionId)
    (randomChars : List ByteString) : Option ByteString :=
  let remote := (s.connections client).mRemote
  (remote :: randomChars.map (remote ++ ·)).find? (· ∉ s.mPersistentClientStates)

/-! ## Executing change requests -/

/-- `std::visit(*this, changeRequest)`. `isDeleted` is always false. -/
def visit (s : ApplicationState τ) (thread : Thread) (generatedId : ByteString) :
    ChangeRequest → Except Fault (ApplicationState τ)
  | .subscribe subscriber topic qos _ => s.subscribeClientInternal subscriber topic qos
  | .unsubscribe subscriber topic =>
    .ok { s with
      mSubscriptions :=
        SubscriptionTree.removeSubscription s.mSubscriptions topic ⟨subscriber, .qos0⟩ }
  | .unsubscribeFromAll subscriber => .ok (s.deleteAllSubscriptions subscriber)
  | .retain packet => .ok (s.retain packet)
  | .loginClient client clientId cleanSession =>
    s.loginClient thread client clientId cleanSession generatedId
  | .logoutClient client => s.logoutClient thread client
  | .deleteScript script => .ok (s.deleteAllSubscriptions (.other script))

def executeChangeRequest (s : ApplicationState τ) (thread : Thread) (generatedId : ByteString)
    (change : ChangeRequest) : Except Fault (ApplicationState τ) := do
  let s ← s.visit thread generatedId change
  return s.releaseRequest change

theorem executeChangeRequest_eq (s : ApplicationState τ) (thread : Thread)
    (generatedId : ByteString) (change : ChangeRequest) :
    s.executeChangeRequest thread generatedId change = s.visit thread generatedId change := by
  unfold executeChangeRequest
  simp only [releaseRequest_eq]
  exact bind_pure _

/-! ## Cleanup -/

/-- The part of `cleanup` that erases what has been logged out or deleted, and whose
count is zero. -/
def eraseDisconnected (s : ApplicationState τ) : ApplicationState τ :=
  { s with
    mClients := s.mClients.filter fun client =>
      ¬ ((s.connections client).mLoggedOut ∧ (s.connections client).taskQueueRefCount = 0)
    mDeletedPersistentClientStates := s.mDeletedPersistentClientStates.filter fun session =>
      (s.sessions session).taskQueueRefCount ≠ 0
    mShouldCleanup := false }

/-- The condition under which `cleanup` logs a client out. -/
def TimedOut (s : ApplicationState τ) (client : ConnectionId) (now : Nat) : Prop :=
  (s.connections client).mLoggedOut = false ∧
    (s.connections client).mLastDataReceivedTimestamp +
      (s.connections client).mKeepAliveIntervalSeconds.toNat * 2000000000 ≤ now

instance (s : ApplicationState τ) (client : ConnectionId) (now : Nat) :
    Decidable (s.TimedOut client now) :=
  inferInstanceAs (Decidable (_ ∧ _))

end

end ApplicationState

end NioevMqtt
