-- SUMMARY: The session of a client: its packet tables, the identifier counter and the connection it is attached to.
import Mathlib.Data.List.AList
import Mathlib.Data.Finset.Basic
import NioevMqtt.Packet.PublishPacketBuilder

/-!
# Sessions

`PersistentClientState`. Connections and sessions are heap objects; a pointer to
one is its number. Where the source follows the pointer to the current client
without a check, the model fails.
-/

namespace NioevMqtt

/-- An `MQTTClientConnection*`. -/
abbrev ConnectionId := Nat

/-- A `PersistentClientState*`. -/
abbrev SessionId := Nat

/-! ## Data -/

/-- A packet that waits for its acknowledgement. -/
structure HighQoSRetainStorage where
  mPacket : EncodedPacket
  mGlobalOrderCount : Nat
  mQoS : QoS
  mMQTTVersion : MQTTVersion
deriving DecidableEq

/-- `unordered_map<uint16_t, HighQoSRetainStorage>`. -/
abbrev SendingPackets := AList fun _ : UInt16 => HighQoSRetainStorage

/-- `emplace` keeps the entry that is there. -/
def SendingPackets.emplace (packets : SendingPackets) (id : UInt16)
    (storage : HighQoSRetainStorage) : SendingPackets :=
  if id ∈ packets then packets else packets.insert id storage

namespace SendingPackets

variable {packets : SendingPackets} {id id' : UInt16} {storage : HighQoSRetainStorage}

theorem mem_emplace : id' ∈ packets.emplace id storage ↔ id' = id ∨ id' ∈ packets := by
  unfold emplace
  split
  · next hmem => exact (or_iff_right_of_imp fun heq => heq ▸ hmem).symm
  · exact AList.mem_insert packets

theorem lookup_emplace (h : id ∉ packets) :
    (packets.emplace id storage).lookup id = some storage := by
  rw [emplace, if_neg h]
  exact AList.lookup_insert packets

theorem lookup_emplace_of_ne (h : id' ≠ id) :
    (packets.emplace id storage).lookup id' = packets.lookup id' := by
  unfold emplace
  split
  · rfl
  · exact AList.lookup_insert_ne h

end SendingPackets

structure PersistentClientState where
  mHighQoSSendingPackets : SendingPackets := ∅
  /-- The identifiers whose bit is set. -/
  mQos2pubrecReceived : Finset UInt16 := ∅
  mQoS2receivingPacketIds : Finset UInt16 := ∅
  mClientID : ByteString := []
  mCleanSession : CleanSession := .yes
  mPacketIdCounter : UInt16 := 1
  mCurrentClient : Option ConnectionId := none
  taskQueueRefCount : Nat := 0

/-- `PersistentClientState::ReplaceStyle`. -/
inductive ReplaceStyle where
  | simpleReplace
  | cleanSession
deriving DecidableEq, Repr

/-- A null pointer is followed. -/
inductive Fault where
  | publishWithoutClient
  | dropWithoutClient
deriving DecidableEq, Repr

/-! ## Operations -/

namespace PersistentClientState

/-- The loop that skips the identifier 0. -/
def nextPacketId (counter : UInt16) : UInt16 :=
  if counter + 1 = 0 then counter + 1 + 1 else counter + 1

theorem nextPacketId_ne_zero (counter : UInt16) : nextPacketId counter ≠ 0 := by
  unfold nextPacketId
  split
  · next hwrap => rw [hwrap]; decide
  · next hne => exact hne

/-- The part of `replaceCurrentClient` that concerns the session. -/
def replaceCurrentClient (s : PersistentClientState) (newConnection : ConnectionId)
    (cleanSession : CleanSession) (replaceStyle : ReplaceStyle) : PersistentClientState :=
  let s := { s with mCurrentClient := some newConnection, mCleanSession := cleanSession }
  match replaceStyle with
  | .simpleReplace => s
  | .cleanSession =>
    { s with
      mQos2pubrecReceived := ∅
      mQoS2receivingPacketIds := ∅
      mHighQoSSendingPackets := ∅
      mPacketIdCounter := 1 }

/-- The part of `dropCurrentClient` that concerns the session, and the connection
it had. -/
def dropCurrentClient (s : PersistentClientState) :
    Except Fault (ConnectionId × PersistentClientState) :=
  match s.mCurrentClient with
  | none => .error .dropWithoutClient
  | some client => .ok (client, { s with mCurrentClient := none })

/-- What `publish` leaves behind: the session, the next global order, and what
goes to the current client. -/
structure Published where
  session : PersistentClientState
  globalOrderCounter : Nat
  sent : Option (ConnectionId × EncodedPacket)

variable [Libnioev]

/-- The version a stored packet is encoded in. -/
def encoderVersion (s : PersistentClientState) (version : ConnectionId → MQTTVersion) :
    MQTTVersion :=
  (s.mCurrentClient.map version).getD .v4

/-- What `publish` stores under the next identifier. -/
def nextStorage (s : PersistentClientState) (version : ConnectionId → MQTTVersion)
    (globalOrderCounter : Nat) (qos : QoS) (packetBuilder : MQTTPublishPacketBuilder) :
    HighQoSRetainStorage :=
  ⟨(packetBuilder.getPacket qos (nextPacketId s.mPacketIdCounter) (s.encoderVersion version)).1,
    globalOrderCounter, qos, s.encoderVersion version⟩

/-- The session after `publish` has stored a packet. -/
def store (s : PersistentClientState) (version : ConnectionId → MQTTVersion)
    (globalOrderCounter : Nat) (qos : QoS) (packetBuilder : MQTTPublishPacketBuilder) :
    PersistentClientState :=
  { s with
    mPacketIdCounter := nextPacketId s.mPacketIdCounter
    mHighQoSSendingPackets := s.mHighQoSSendingPackets.emplace (nextPacketId s.mPacketIdCounter)
      (s.nextStorage version globalOrderCounter qos packetBuilder) }

/-- `PersistentClientState::publish`. The versions are those of the connections. -/
def publish (s : PersistentClientState) (version : ConnectionId → MQTTVersion)
    (globalOrderCounter : Nat) (qos : QoS) (packetBuilder : MQTTPublishPacketBuilder) :
    Except Fault Published :=
  if qos = .qos0 then
    match s.mCurrentClient with
    | none => .error .publishWithoutClient
    | some client =>
      let (packet, _) := packetBuilder.getPacket .qos0 0 (version client)
      .ok ⟨s, globalOrderCounter, some (client, packet)⟩
  else
    let packetId := nextPacketId s.mPacketIdCounter
    let (_, packetBuilder') := packetBuilder.getPacket qos packetId (s.encoderVersion version)
    let sent := s.mCurrentClient.map fun client =>
      (client, (packetBuilder'.getPacket qos packetId (version client)).1)
    .ok ⟨s.store version globalOrderCounter qos packetBuilder, globalOrderCounter + 1, sent⟩

section

variable {s : PersistentClientState} {version : ConnectionId → MQTTVersion}
  {globalOrderCounter : Nat} {packetBuilder : MQTTPublishPacketBuilder} {published : Published}

/-- At QoS 0 the session is left alone. -/
theorem publish_qos0 (h : s.publish version globalOrderCounter .qos0 packetBuilder = .ok published) :
    published.session = s ∧ published.globalOrderCounter = globalOrderCounter := by
  unfold publish at h
  rw [if_pos rfl] at h
  cases hclient : s.mCurrentClient with
  | none => rw [hclient] at h; cases h
  | some client =>
      rw [hclient] at h
      cases h
      exact ⟨rfl, rfl⟩

/-- At the other qualities of service it stores the packet, connected or not. -/
theorem publish_highQoS {qos : QoS} (hqos : qos ≠ .qos0)
    (h : s.publish version globalOrderCounter qos packetBuilder = .ok published) :
    published.session = s.store version globalOrderCounter qos packetBuilder ∧
      published.globalOrderCounter = globalOrderCounter + 1 := by
  unfold publish at h
  rw [if_neg hqos] at h
  cases h
  exact ⟨rfl, rfl⟩

/-- Publishing fails exactly at QoS 0 without a current client. -/
theorem publish_isOk_iff (s : PersistentClientState) (version : ConnectionId → MQTTVersion)
    (globalOrderCounter : Nat) (qos : QoS) (packetBuilder : MQTTPublishPacketBuilder) :
    (∃ published, s.publish version globalOrderCounter qos packetBuilder = .ok published) ↔
      (qos = .qos0 → s.mCurrentClient ≠ none) := by
  unfold publish
  split
  · next hqos =>
      cases hclient : s.mCurrentClient with
      | none => exact iff_of_false (fun ⟨_, h⟩ => by cases h) (fun h => h hqos rfl)
      | some client => exact iff_of_true ⟨_, rfl⟩ (fun _ => Option.some_ne_none client)
  · next hqos => exact iff_of_true ⟨_, rfl⟩ (fun h => absurd h hqos)

end

omit [Libnioev]

/-! What the branches of `handlePacketReceived` do to the session. -/

/-- `PUBACK`. -/
def pubAck (s : PersistentClientState) (id : UInt16) : PersistentClientState :=
  { s with mHighQoSSendingPackets := s.mHighQoSSendingPackets.erase id }

/-- `PUBREC`. The bit is set whether the packet was found or not. -/
def pubRec (s : PersistentClientState) (id : UInt16) : PersistentClientState :=
  { s with
    mHighQoSSendingPackets := s.mHighQoSSendingPackets.erase id
    mQos2pubrecReceived := insert id s.mQos2pubrecReceived }

/-- `PUBCOMP`. -/
def pubComp (s : PersistentClientState) (id : UInt16) : PersistentClientState :=
  { s with mQos2pubrecReceived := s.mQos2pubrecReceived.erase id }

/-- `PUBREL`. -/
def pubRel (s : PersistentClientState) (id : UInt16) : PersistentClientState :=
  { s with mQoS2receivingPacketIds := s.mQoS2receivingPacketIds.erase id }

/-- A `PUBLISH` at QoS 2, and whether it is delivered onward. -/
def receiveQoS2 (s : PersistentClientState) (id : UInt16) : PersistentClientState × Bool :=
  ({ s with mQoS2receivingPacketIds := insert id s.mQoS2receivingPacketIds },
    id ∉ s.mQoS2receivingPacketIds)

end PersistentClientState

end NioevMqtt
