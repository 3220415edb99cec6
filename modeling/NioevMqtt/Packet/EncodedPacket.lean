-- SUMMARY: Encoded control packets: the factories, their wire bytes, and the byte ranges handed to a partial send.
import NioevMqtt.Libnioev
import NioevMqtt.Library.Segments

/-!
# Encoded packets

`EncodedPacket` of `MQTTPublishPacketBuilder.hpp` and its `constructIOVecs`. A
packet is kept in up to four pieces: the prelude (first byte and remaining
length), a middle buffer, a packet identifier and an end buffer. Which of them
exist is the packet's type.
-/

namespace NioevMqtt

/-! ## Identifiers in memory

The broker runs on little-endian hosts. `htons` swaps the two bytes of an
identifier there, so that its image in memory is the big-endian one. -/

/-- The two bytes of a `uint16_t` in memory. -/
def memoryBytes (x : UInt16) : List UInt8 := [x.toUInt8, (x >>> 8).toUInt8]

/-- The two bytes of a `uint16_t` in network order. -/
def bigEndianBytes (x : UInt16) : List UInt8 := [(x >>> 8).toUInt8, x.toUInt8]

def htons (x : UInt16) : UInt16 := (x <<< 8) ||| (x >>> 8)

theorem memoryBytes_htons (x : UInt16) : memoryBytes (htons x) = bigEndianBytes x := by
  have hlo : (htons x).toUInt8 = (x >>> 8).toUInt8 := by
    apply UInt8.toBitVec_inj.mp
    simp only [htons, UInt16.toBitVec_toUInt8, UInt16.toBitVec_or, UInt16.toBitVec_shiftLeft,
      UInt16.toBitVec_shiftRight]
    ext i hi
    simp
  have hhi : (htons x >>> 8).toUInt8 = x.toUInt8 := by
    apply UInt8.toBitVec_inj.mp
    simp only [htons, UInt16.toBitVec_toUInt8, UInt16.toBitVec_or, UInt16.toBitVec_shiftLeft,
      UInt16.toBitVec_shiftRight]
    ext i hi
    have hin : 8 + i < 16 := by omega
    have hge : x.toBitVec.getLsbD (8 + (8 + i)) = false := BitVec.getLsbD_of_ge _ _ (by omega)
    simp [hin, hge, BitVec.getLsbD_eq_getElem (show i < 16 by omega)]
  rw [memoryBytes, bigEndianBytes, hlo, hhi]

/-! ## The packet -/

/-- The contiguous bytes a packet starts with. -/
structure Prelude where
  firstByte : UInt8 := 0
  varLength : List UInt8 := [0, 0, 0, 0]
  varLength_length : varLength.length = 4 := by decide

namespace Prelude

instance : DecidableEq Prelude := fun p q =>
  decidable_of_iff (p.firstByte = q.firstByte ∧ p.varLength = q.varLength) (by cases p; cases q; simp)

/-- The bytes from `&firstByte` on. -/
def bytes (p : Prelude) : List UInt8 := p.firstByte :: p.varLength

@[simp] theorem length_bytes (p : Prelude) : p.bytes.length = 5 := by
  simp [bytes, p.varLength_length]

/-- `memcpy(varLength, value, valueLength)`, over zeros. -/
def ofVarByteInt (firstByte : UInt8) (v : VarByteInt) : Prelude where
  firstByte := firstByte
  varLength := v.value.take v.valueLength ++ [0, 0, 0, 0].drop v.valueLength
  varLength_length := by
    have hv := v.value_length
    have hl := v.valueLength_le
    rw [List.length_append, List.length_take, List.length_drop]
    simp only [List.length_cons, List.length_nil]
    omega

theorem take_ofVarByteInt (firstByte : UInt8) (v : VarByteInt) :
    (ofVarByteInt firstByte v).bytes.take (v.valueLength + 1) = firstByte :: v.bytes := by
  have hlen : (v.value.take v.valueLength).length = v.valueLength := by
    rw [List.length_take, v.value_length, Nat.min_eq_left v.valueLength_le]
  simp only [bytes, ofVarByteInt, List.take_succ_cons, VarByteInt.bytes]
  rw [List.take_append_of_le_length (by omega), List.take_take, Nat.min_self]

end Prelude

/-- `EncodedPacket::Type`. No factory leaves the type `Invalid`. -/
inductive PacketType where
  | singleByteWithLen
  | singleByteWithLenAndMiddle
  | singleByteWithLenAndMiddleAndEnd
  | full
deriving DecidableEq, Repr

/-- The pieces a packet of each type may have. -/
def PacketType.Fits (type : PacketType) (middle : SharedBuffer) (packetId : Option UInt16)
    (end_ : SharedBuffer) : Prop :=
  match type with
  | .singleByteWithLen => middle = [] ∧ packetId = none ∧ end_ = []
  | .singleByteWithLenAndMiddle => packetId = none ∧ end_ = []
  | .singleByteWithLenAndMiddleAndEnd => packetId = none
  | .full => packetId.isSome

structure EncodedPacket where
  mPrelude : Prelude
  mPreludeLength : Nat
  mMiddle : SharedBuffer := []
  mPacketId : Option UInt16 := none
  mEnd : SharedBuffer := []
  mType : PacketType
  mPreludeLength_pos : 0 < mPreludeLength
  mPreludeLength_le : mPreludeLength ≤ 5
  fits : mType.Fits mMiddle mPacketId mEnd
deriving DecidableEq

namespace EncodedPacket

/-! ## Size and wire bytes -/

/-- `mPacketId.has_value() ? sizeof(uint16_t) : 0`. -/
def packetIdSize (p : EncodedPacket) : Nat := if p.mPacketId.isSome then 2 else 0

def fullSize (p : EncodedPacket) : Nat :=
  p.mPreludeLength + p.mMiddle.length + p.packetIdSize + p.mEnd.length

theorem fullSize_pos (p : EncodedPacket) : 0 < p.fullSize := by
  have := p.mPreludeLength_pos
  rw [fullSize]
  omega

/-- The bytes of the packet identifier as they lie in memory. -/
def packetIdBytes (p : EncodedPacket) : List UInt8 :=
  match p.mPacketId with
  | some id => memoryBytes id
  | none => []

/-- The four pieces of a packet, in wire order. -/
def segments (p : EncodedPacket) : List (List UInt8) :=
  [p.mPrelude.bytes.take p.mPreludeLength, p.mMiddle, p.packetIdBytes, p.mEnd]

/-- What the receiver of the packet has to see. -/
def wireBytes (p : EncodedPacket) : List UInt8 := p.segments.flatten

@[simp] theorem length_packetIdBytes (p : EncodedPacket) :
    p.packetIdBytes.length = p.packetIdSize := by
  unfold packetIdBytes packetIdSize
  cases p.mPacketId <;> simp [memoryBytes]

@[simp] theorem length_prelude (p : EncodedPacket) :
    (p.mPrelude.bytes.take p.mPreludeLength).length = p.mPreludeLength := by
  rw [List.length_take, Prelude.length_bytes, Nat.min_eq_left p.mPreludeLength_le]

theorem length_wireBytes (p : EncodedPacket) : p.wireBytes.length = p.fullSize := by
  simp only [wireBytes, segments, List.length_flatten, List.map_cons, List.map_nil, List.sum_cons,
    List.sum_nil, length_prelude, length_packetIdBytes, fullSize]
  omega

/-- A packet shows its prelude, then the bytes of its buffers. -/
theorem wireBytes_eq (p : EncodedPacket) :
    p.wireBytes = p.mPrelude.bytes.take p.mPreludeLength ++
      (p.mMiddle ++ (p.packetIdBytes ++ p.mEnd)) := by
  simp [wireBytes, segments]

/-! ## Factories -/

def setDupFlag (p : EncodedPacket) : EncodedPacket :=
  { p with mPrelude := { p.mPrelude with firstByte := p.mPrelude.firstByte ||| 0x08 } }

def fromFirstByte (firstByte : UInt8) : EncodedPacket where
  mType := .singleByteWithLen
  mPrelude := { firstByte := firstByte }
  mPreludeLength := 2
  mPreludeLength_pos := by decide
  mPreludeLength_le := by decide
  fits := ⟨rfl, rfl, rfl⟩

theorem wireBytes_fromFirstByte (firstByte : UInt8) :
    (fromFirstByte firstByte).wireBytes = [firstByte, 0] := rfl

section

variable [Libnioev]

/-- The length is taken from `buffer` after it was moved into the packet. -/
def fromData (firstByte : UInt8) (buffer : SharedBuffer) : EncodedPacket :=
  let varLength := Libnioev.encodeVarByteInt (Libnioev.sizeAfterMove buffer)
  { mType := .singleByteWithLenAndMiddle
    mMiddle := buffer
    mPrelude := .ofVarByteInt firstByte varLength
    mPreludeLength := varLength.valueLength + 1
    mPreludeLength_pos := Nat.succ_pos _
    mPreludeLength_le := Nat.succ_le_succ varLength.valueLength_le
    fits := ⟨rfl, rfl⟩ }

def fromComponentsWithId (firstByte : UInt8) (middle : SharedBuffer) (packetId : UInt16)
    (end_ : SharedBuffer) : EncodedPacket :=
  let varLength := Libnioev.encodeVarByteInt (end_.length + middle.length + 2)
  { mType := .full
    mMiddle := middle
    mPrelude := .ofVarByteInt firstByte varLength
    mPreludeLength := varLength.valueLength + 1
    mPacketId := some (htons packetId)
    mEnd := end_
    mPreludeLength_pos := Nat.succ_pos _
    mPreludeLength_le := Nat.succ_le_succ varLength.valueLength_le
    fits := rfl }

def fromComponents (firstByte : UInt8) (middle end_ : SharedBuffer) : EncodedPacket :=
  let varLength := Libnioev.encodeVarByteInt (end_.length + middle.length)
  { mType := .singleByteWithLenAndMiddleAndEnd
    mMiddle := middle
    mPrelude := .ofVarByteInt firstByte varLength
    mPreludeLength := varLength.valueLength + 1
    mEnd := end_
    mPreludeLength_pos := Nat.succ_pos _
    mPreludeLength_le := Nat.succ_le_succ varLength.valueLength_le
    fits := rfl }

/-! What the factories put on the wire. -/

theorem wireBytes_fromData (firstByte : UInt8) (buffer : SharedBuffer) :
    (fromData firstByte buffer).wireBytes =
      firstByte :: (Libnioev.encodeVarByteInt (Libnioev.sizeAfterMove buffer)).bytes ++ buffer := by
  simp [wireBytes_eq, fromData, Prelude.take_ofVarByteInt, packetIdBytes]

theorem wireBytes_fromComponentsWithId (firstByte : UInt8) (middle : SharedBuffer)
    (packetId : UInt16) (end_ : SharedBuffer) :
    (fromComponentsWithId firstByte middle packetId end_).wireBytes =
      firstByte :: (Libnioev.encodeVarByteInt (end_.length + middle.length + 2)).bytes ++
        (middle ++ bigEndianBytes packetId ++ end_) := by
  simp [wireBytes_eq, fromComponentsWithId, Prelude.take_ofVarByteInt, packetIdBytes,
    memoryBytes_htons]

theorem wireBytes_fromComponents (firstByte : UInt8) (middle end_ : SharedBuffer) :
    (fromComponents firstByte middle end_).wireBytes =
      firstByte :: (Libnioev.encodeVarByteInt (end_.length + middle.length)).bytes ++
        (middle ++ end_) := by
  simp [wireBytes_eq, fromComponents, Prelude.take_ofVarByteInt, packetIdBytes]

end

end EncodedPacket

end NioevMqtt
