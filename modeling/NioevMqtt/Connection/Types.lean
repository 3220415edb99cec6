-- SUMMARY: The data a client connection keeps about its socket: connection and receive states, and packets in transit.
import NioevMqtt.Packet.EncodedPacket

/-!
# Connection data

The enumerations and records of `MQTTClientConnection.hpp` and of the send queue
in `MQTTPublishPacketBuilder.hpp`.
-/

namespace NioevMqtt

/-- `MQTTClientConnection::ConnectionState`. -/
inductive ConnectionState where
  | initial
  | connecting
  | connected
  | invalidProtocolVersion
deriving DecidableEq, Repr

/-! ## Receiving -/

/-- `MQTTClientConnection::PacketReceiveState`. -/
inductive PacketReceiveState where
  | idle
  | receivingVarLength
  | receivingData
deriving DecidableEq, Repr

/-- `MQTTClientConnection::PacketReceiveData`. -/
structure PacketReceiveData where
  currentReceiveBuffer : List UInt8 := []
  recvState : PacketReceiveState := .idle
  messageType : MQTTMessageType := .invalid
  packetLength : UInt32 := 0
  multiplier : UInt32 := 1
  firstByte : UInt8 := 0
deriving DecidableEq, Repr

/-! ## Sending -/

/-- A packet and how many of its bytes the socket has accepted. -/
structure InTransitEncodedPacket where
  packet : EncodedPacket
  offset : Nat := 0
deriving DecidableEq

namespace InTransitEncodedPacket

def isDone (p : InTransitEncodedPacket) : Bool := p.packet.fullSize ≤ p.offset

/-- The bytes still to be sent. -/
def remaining (p : InTransitEncodedPacket) : List UInt8 := p.packet.wireBytes.drop p.offset

theorem length_remaining (p : InTransitEncodedPacket) :
    p.remaining.length = p.packet.fullSize - p.offset := by
  rw [remaining, List.length_drop, EncodedPacket.length_wireBytes]

theorem remaining_of_isDone {p : InTransitEncodedPacket} (h : p.isDone = true) :
    p.remaining = [] := by
  have hle : p.packet.fullSize ≤ p.offset := by simpa [isDone] using h
  exact List.drop_eq_nil_of_le (by rwa [EncodedPacket.length_wireBytes])

end InTransitEncodedPacket

end NioevMqtt
