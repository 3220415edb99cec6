-- SUMMARY: What the broker uses of libnioev: enumerations, property lists, encoders and decoders, taken as parameters where only their use is known.
import NioevMqtt.Library.Base128

/-!
# libnioev

The broker is built on the submodule libnioev. Its enumerations and plain data
are written down here as the broker's source uses them. Of its functions only
the calls are known; they are the fields of the class `Libnioev`, and what the
broker relies on about them is a class of its own, `LawfulLibnioev`.
-/

namespace NioevMqtt

/-- `std::string`, as its bytes. -/
abbrev ByteString := List UInt8

/-- The bytes a `SharedBuffer` holds. -/
abbrev SharedBuffer := List UInt8

/-! ## Enumerations -/

inductive QoS where
  | qos0
  | qos1
  | qos2
deriving DecidableEq, Repr

namespace QoS

/-- `static_cast<uint8_t>(qos)`. -/
def toUInt8 : QoS → UInt8
  | qos0 => 0
  | qos1 => 1
  | qos2 => 2

/-- `static_cast<QoS>(n)`. The broker casts 0, 1 and 2 only. -/
def ofUInt8 (n : UInt8) : QoS :=
  if n = 0 then qos0 else if n = 1 then qos1 else qos2

theorem ofUInt8_toUInt8 (qos : QoS) : ofUInt8 qos.toUInt8 = qos := by
  cases qos with
  | qos0 => rfl
  | qos1 => rfl
  | qos2 => rfl

end QoS

/-- The smaller of two qualities of service. -/
def minQoS : QoS → QoS → QoS
  | .qos0, _ => .qos0
  | _, .qos0 => .qos0
  | .qos1, _ => .qos1
  | _, .qos1 => .qos1
  | .qos2, .qos2 => .qos2

/-- Whether the publisher asked for the message to be retained. -/
inductive Retain where
  | no
  | yes
deriving DecidableEq, Repr

/-- Whether a message is delivered because it was retained. -/
inductive Retained where
  | no
  | yes
deriving DecidableEq, Repr

inductive CleanSession where
  | no
  | yes
deriving DecidableEq, Repr

inductive MQTTVersion where
  | v4
  | v5
deriving DecidableEq, Repr

/-- Control packet types. `other` is a value of the underlying `uint8_t` without
an enumerator the broker names. -/
inductive MQTTMessageType where
  | invalid
  | connect
  | connack
  | publish
  | puback
  | pubrec
  | pubrel
  | pubcomp
  | subscribe
  | suback
  | unsubscribe
  | unsuback
  | pingreq
  | pingresp
  | disconnect
  | other (id : UInt8)
deriving DecidableEq, Repr

namespace MQTTMessageType

/-- `static_cast<uint8_t>(type)`: the MQTT type number. -/
def toUInt8 : MQTTMessageType → UInt8
  | invalid => 0
  | connect => 1
  | connack => 2
  | publish => 3
  | puback => 4
  | pubrec => 5
  | pubrel => 6
  | pubcomp => 7
  | subscribe => 8
  | suback => 9
  | unsubscribe => 10
  | unsuback => 11
  | pingreq => 12
  | pingresp => 13
  | disconnect => 14
  | other id => id

/-- `static_cast<MQTTMessageType>(id)`. -/
def ofUInt8 (id : UInt8) : MQTTMessageType :=
  match id.toNat with
  | 0 => invalid
  | 1 => connect
  | 2 => connack
  | 3 => publish
  | 4 => puback
  | 5 => pubrec
  | 6 => pubrel
  | 7 => pubcomp
  | 8 => subscribe
  | 9 => suback
  | 10 => unsubscribe
  | 11 => unsuback
  | 12 => pingreq
  | 13 => pingresp
  | 14 => disconnect
  | _ => other id

end MQTTMessageType

/-! ## Properties -/

/-- MQTT 5 properties, by the names the broker mentions. -/
inductive MQTTProperty where
  | topicAliasMaximum
  | subscriptionIdentifierAvailable
  | sharedSubscriptionAvailable
  | other (id : UInt8)
deriving DecidableEq, Repr

inductive PropertyValue where
  | byte (v : UInt8)
  | twoBytes (v : UInt16)
  | fourBytes (v : UInt32)
  | bytes (v : ByteString)
  | pair (key value : ByteString)
deriving DecidableEq, Repr

abbrev PropertyList := List (MQTTProperty × PropertyValue)

/-- A message on its way through the broker. -/
structure MQTTPacket where
  topic : ByteString
  payload : List UInt8
  qos : QoS
  retain : Retain
  properties : PropertyList := []
deriving DecidableEq, Repr

/-! ## Functions -/

/-- The result of `encodeVarByteInt`: a four-byte array and how much of it counts. -/
structure VarByteInt where
  value : List UInt8
  valueLength : Nat
  value_length : value.length = 4
  valueLength_le : valueLength ≤ 4
deriving DecidableEq

/-- The bytes the encoding consists of. -/
def VarByteInt.bytes (v : VarByteInt) : List UInt8 := v.value.take v.valueLength

/-- The functions of libnioev the broker calls. -/
class Libnioev where
  /-- `static_cast<int>(MQTTMessageType::Count)`. -/
  messageTypeCount : Nat
  encodeVarByteInt : Nat → VarByteInt
  /-- `buffer.size()` after `buffer` was moved from. -/
  sizeAfterMove : SharedBuffer → Nat
  /-- What `BinaryEncoder::encodeString` appends. -/
  encodeString : ByteString → List UInt8
  /-- What `BinaryEncoder::encodePropertyList` appends. -/
  encodePropertyList : PropertyList → List UInt8
  /-- `BinaryDecoder::decodeProperties`: the properties and what is left to read,
  or `none` where it throws. -/
  decodeProperties : List UInt8 → Option (PropertyList × List UInt8)

/-- The largest length the four bytes of a variable byte integer hold. -/
def maxVarByteInt : Nat := 268435455

/-- The behaviour of libnioev's lengths that frames rely on: the variable byte
integer is the base-128 form, and a moved-from buffer still knows its size. -/
class LawfulLibnioev [Libnioev] : Prop where
  bytes_encodeVarByteInt : ∀ n ≤ maxVarByteInt,
    (Libnioev.encodeVarByteInt n).bytes = Base128.encode n
  sizeAfterMove_eq : ∀ buffer, Libnioev.sizeAfterMove buffer = buffer.length

/-! ## The MQTT-standard instance

The functions as the MQTT standard describes them. The properties are left out:
an empty list is encoded by its length byte `0`, and only that is decoded. -/

namespace Libnioev

private theorem length_pad (l : List UInt8) : ((l ++ [0, 0, 0, 0]).take 4).length = 4 := by
  simp

/-- The standard variable byte integer. -/
def standardVarByteInt (n : Nat) : VarByteInt where
  value := (Base128.encode n ++ [0, 0, 0, 0]).take 4
  valueLength := min (Base128.encode n).length 4
  value_length := length_pad _
  valueLength_le := Nat.min_le_right _ _

/-- `Count` follows `DISCONNECT`. -/
@[reducible] def standard : Libnioev where
  messageTypeCount := 15
  encodeVarByteInt := standardVarByteInt
  sizeAfterMove := List.length
  encodeString := fun s => UInt8.ofNat (s.length / 256) :: UInt8.ofNat s.length :: s
  encodePropertyList := fun _ => [0]
  decodeProperties := fun
    | 0 :: rest => some ([], rest)
    | _ => none

theorem bytes_standardVarByteInt {n : Nat} (h : n ≤ maxVarByteInt) :
    (standardVarByteInt n).bytes = Base128.encode n := by
  have hlen : (Base128.encode n).length ≤ 4 :=
    @Base128.length_encode_le 3 n (by simp only [maxVarByteInt] at h; omega)
  simp only [VarByteInt.bytes, standardVarByteInt, Nat.min_eq_left hlen, List.take_take]
  exact List.take_left

theorem standard_lawful : @LawfulLibnioev standard :=
  @LawfulLibnioev.mk standard (fun _ h => bytes_standardVarByteInt h) (fun _ => rfl)

end Libnioev

end NioevMqtt
