-- SUMMARY: The builder of PUBLISH packets, which encodes a message once for every protocol version it is sent in.
import NioevMqtt.Packet.EncodedPacket

/-!
# Building PUBLISH packets

`MQTTPublishPacketBuilder`. A builder lives for one message to one subscriber. It
keeps the encoded topic, and the encoded properties and payload by version.
-/

namespace NioevMqtt

structure MQTTPublishPacketBuilder where
  mTopic : ByteString
  mPayload : List UInt8
  mRetained : Retained
  mPacketMiddle : Option SharedBuffer := none
  mPacketPostlude : MQTTVersion → Option SharedBuffer := fun _ => none
  mProperties : PropertyList

namespace MQTTPublishPacketBuilder

variable [Libnioev]

/-- The properties and the payload, as a version encodes them. -/
def encodeEnd (b : MQTTPublishPacketBuilder) (version : MQTTVersion) : SharedBuffer :=
  (if version = .v5 then Libnioev.encodePropertyList b.mProperties else []) ++ b.mPayload

/-- The last two branches of `getPacket`. -/
def assemble (qos : QoS) (firstByte : UInt8) (middle : SharedBuffer) (packetId : UInt16)
    (end_ : SharedBuffer) : EncodedPacket :=
  if qos = .qos0 then .fromComponents firstByte middle end_
  else .fromComponentsWithId firstByte middle packetId end_

/-- `getPacket`: the packet, and the builder with what it has cached. -/
def getPacket (b : MQTTPublishPacketBuilder) (qos : QoS) (packetId : UInt16)
    (version : MQTTVersion) : EncodedPacket × MQTTPublishPacketBuilder :=
  let firstByte := qos.toUInt8 <<< 1
  let firstByte := if b.mRetained = .yes then firstByte ||| 1 else firstByte
  let firstByte := firstByte ||| MQTTMessageType.publish.toUInt8 <<< 4
  match b.mPacketPostlude version, b.mPacketMiddle with
  | some end_, some middle => (assemble qos firstByte middle packetId end_, b)
  | cached, _ =>
    let middle := Libnioev.encodeString b.mTopic
    -- `emplace` keeps an entry that is there.
    let end_ := cached.getD (b.encodeEnd version)
    (assemble qos firstByte middle packetId end_,
      { b with
        mPacketMiddle := some middle
        mPacketPostlude := Function.update b.mPacketPostlude version (some end_) })

end MQTTPublishPacketBuilder

end NioevMqtt
