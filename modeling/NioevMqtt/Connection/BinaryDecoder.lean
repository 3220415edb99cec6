-- SUMMARY: The decoder of libnioev: what it reads, as parameters, and what is known about reading back what has been encoded.
import NioevMqtt.Connection.ReceiveLoop

/-!
# Decoding

`BinaryDecoder` of libnioev, as the broker uses it. Every function gives the value it
reads and the bytes that are left, or `none` where it throws. Property lists are read by
`Libnioev.decodeProperties`.
-/

namespace NioevMqtt

class BinaryDecoder where
  decodeByte : List UInt8 → Option (UInt8 × List UInt8)
  decode2Bytes : List UInt8 → Option (UInt16 × List UInt8)
  decodeString : List UInt8 → Option (ByteString × List UInt8)
  decodeBytesWithPrefixLength : List UInt8 → Option (List UInt8 × List UInt8)
  /-- `what()` of the exceptions. -/
  exceptionText : String

/-- What the handlers of packets leave by where the decoder throws. -/
def BinaryDecoder.exception [BinaryDecoder] : ReceiveException :=
  .runtimeError BinaryDecoder.exceptionText

/-- The longest string a length of two bytes can announce. -/
def maxStringLength : Nat := 65535

/-- Strings and byte strings have the encoding of `BinaryEncoder::encodeString`, a
two-byte integer is in network order. -/
class LawfulBinaryDecoder [Libnioev] [BinaryDecoder] : Prop where
  decodeByte_cons : ∀ b rest, BinaryDecoder.decodeByte (b :: rest) = some (b, rest)
  decode2Bytes_append : ∀ x rest,
    BinaryDecoder.decode2Bytes (bigEndianBytes x ++ rest) = some (x, rest)
  decodeString_eq_some : ∀ bytes s rest, BinaryDecoder.decodeString bytes = some (s, rest) ↔
    s.length ≤ maxStringLength ∧ bytes = Libnioev.encodeString s ++ rest
  decodeBytesWithPrefixLength_eq_some : ∀ bytes s rest,
    BinaryDecoder.decodeBytesWithPrefixLength bytes = some (s, rest) ↔
      s.length ≤ maxStringLength ∧ bytes = Libnioev.encodeString s ++ rest

/-- A property list is read back, whatever comes behind it. -/
def Libnioev.ReadsBack [Libnioev] (properties : PropertyList) : Prop :=
  ∀ rest, Libnioev.decodeProperties (Libnioev.encodePropertyList properties ++ rest) =
    some (properties, rest)

theorem decodeString_append [Libnioev] [BinaryDecoder] [LawfulBinaryDecoder] {s : ByteString}
    (h : s.length ≤ maxStringLength) (rest : List UInt8) :
    BinaryDecoder.decodeString (Libnioev.encodeString s ++ rest) = some (s, rest) :=
  (LawfulBinaryDecoder.decodeString_eq_some _ _ _).mpr ⟨h, rfl⟩

/-- An encoded string says that it is there. -/
theorem encodeString_ne_nil [Libnioev] [BinaryDecoder] [LawfulBinaryDecoder] {s : ByteString}
    (h : s.length ≤ maxStringLength) (hne : s ≠ []) : Libnioev.encodeString s ≠ [] := by
  intro hnil
  have hempty := decodeString_append (s := []) (Nat.zero_le _) []
  have hsame := decodeString_append h (Libnioev.encodeString [] ++ [])
  rw [hnil, List.nil_append, hempty] at hsame
  exact hne (congrArg Prod.fst (Option.some.inj hsame)).symm

/-- So does the empty one. -/
theorem encodeString_nil_ne_nil [Libnioev] [BinaryDecoder] [LawfulBinaryDecoder] :
    Libnioev.encodeString [] ≠ [] := by
  intro hnil
  have hempty := decodeString_append (s := []) (Nat.zero_le _) (Libnioev.encodeString [0] ++ [])
  have hone := decodeString_append (s := [0]) (by decide) []
  rw [hnil, List.nil_append, hone] at hempty
  exact List.cons_ne_nil 0 [] (congrArg Prod.fst (Option.some.inj hempty))

/-- Reading a string takes something. -/
theorem length_decodeString_lt [Libnioev] [BinaryDecoder] [LawfulBinaryDecoder]
    {bytes rest : List UInt8} {s : ByteString}
    (h : BinaryDecoder.decodeString bytes = some (s, rest)) : rest.length < bytes.length := by
  obtain ⟨hlength, rfl⟩ := (LawfulBinaryDecoder.decodeString_eq_some _ _ _).mp h
  have hne : Libnioev.encodeString s ≠ [] := by
    by_cases hs : s = []
    · exact hs ▸ encodeString_nil_ne_nil
    · exact encodeString_ne_nil hlength hs
  rw [List.length_append]
  exact Nat.lt_add_of_pos_left (List.length_pos_iff.mpr hne)

/-- Whoever asks for more than there is gets an exception. -/
class StrictBinaryDecoder [BinaryDecoder] : Prop where
  decodeByte_nil : BinaryDecoder.decodeByte [] = none
  decode2Bytes_of_lt : ∀ bytes, bytes.length < 2 → BinaryDecoder.decode2Bytes bytes = none

theorem decodeByte_eq_some [Libnioev] [BinaryDecoder] [LawfulBinaryDecoder] [StrictBinaryDecoder]
    {bytes rest : List UInt8} {b : UInt8} :
    BinaryDecoder.decodeByte bytes = some (b, rest) ↔ bytes = b :: rest := by
  cases bytes with
  | nil =>
      rw [StrictBinaryDecoder.decodeByte_nil]
      exact iff_of_false (by rintro ⟨⟩) (by rintro ⟨⟩)
  | cons b' bytes =>
      rw [LawfulBinaryDecoder.decodeByte_cons, Option.some.injEq, Prod.mk.injEq, List.cons.injEq]

/-! ## The MQTT-standard instance -/

namespace BinaryDecoder

def standardDecodeString : List UInt8 → Option (ByteString × List UInt8)
  | hi :: lo :: bytes =>
    let length := hi.toNat * 256 + lo.toNat
    if length ≤ bytes.length then some (bytes.take length, bytes.drop length) else none
  | _ => none

@[reducible] def standard : BinaryDecoder where
  decodeByte := fun
    | b :: rest => some (b, rest)
    | [] => none
  decode2Bytes := fun
    | hi :: lo :: rest => some (UInt16.ofNat (hi.toNat * 256 + lo.toNat), rest)
    | _ => none
  decodeString := standardDecodeString
  decodeBytesWithPrefixLength := standardDecodeString
  exceptionText := "unexpected end of packet"

theorem length_of_bytes (hi lo : UInt8) :
    UInt8.ofNat ((hi.toNat * 256 + lo.toNat) / 256) = hi ∧
      UInt8.ofNat (hi.toNat * 256 + lo.toNat) = lo := by
  have hhi := hi.toNat_lt
  have hlo := lo.toNat_lt
  constructor
  · apply UInt8.toNat_inj.mp
    rw [UInt8.toNat_ofNat']
    omega
  · apply UInt8.toNat_inj.mp
    rw [UInt8.toNat_ofNat']
    omega

theorem standardDecodeString_eq_some (bytes : List UInt8) (s : ByteString) (rest : List UInt8) :
    standardDecodeString bytes = some (s, rest) ↔
      s.length ≤ maxStringLength ∧ bytes = @Libnioev.encodeString .standard s ++ rest := by
  constructor
  · intro h
    unfold standardDecodeString at h
    split at h
    · next hi lo bytes =>
        obtain ⟨hle, heq⟩ := Option.ite_none_right_eq_some.mp h
        obtain ⟨rfl, rfl⟩ := Prod.mk.inj (Option.some.inj heq)
        have hlength := List.length_take_of_le hle
        obtain ⟨hhi, hlo⟩ := length_of_bytes hi lo
        constructor
        · have hhi := hi.toNat_lt
          have hlo := lo.toNat_lt
          rw [hlength, maxStringLength]
          omega
        · show hi :: lo :: bytes = UInt8.ofNat (_ / 256) :: UInt8.ofNat _ :: (_ ++ _)
          rw [hlength, hhi, hlo, List.take_append_drop]
    · cases h
  · rintro ⟨hle, rfl⟩
    have hlength : (UInt8.ofNat (s.length / 256)).toNat * 256 + (UInt8.ofNat s.length).toNat =
        s.length := by
      rw [UInt8.toNat_ofNat', UInt8.toNat_ofNat']
      rw [maxStringLength] at hle
      omega
    show (if _ ≤ (s ++ rest).length then some ((s ++ rest).take _, (s ++ rest).drop _) else none) = _
    rw [hlength, if_pos (by rw [List.length_append]; exact Nat.le_add_right _ _), List.take_left,
      List.drop_left]

theorem standard_decode2Bytes (x : UInt16) (rest : List UInt8) :
    standard.decode2Bytes (bigEndianBytes x ++ rest) = some (x, rest) := by
  refine congrArg (fun x : UInt16 => some (x, rest)) ?_
  have hlt := x.toNat_lt
  have hhi : (x >>> 8).toUInt8.toNat = x.toNat / 256 % 256 := by
    rw [UInt16.toNat_toUInt8, UInt16.toNat_shiftRight]
    exact congrArg (· % 256) (Nat.shiftRight_eq_div_pow _ 8)
  apply UInt16.toNat_inj.mp
  rw [hhi, UInt16.toNat_toUInt8, UInt16.toNat_ofNat']
  omega

theorem standard_lawful : @LawfulBinaryDecoder .standard .standard :=
  @LawfulBinaryDecoder.mk .standard .standard (fun _ _ => rfl) standard_decode2Bytes
    standardDecodeString_eq_some standardDecodeString_eq_some

theorem standard_strict : @StrictBinaryDecoder .standard :=
  @StrictBinaryDecoder.mk .standard rfl fun
    | [], _ => rfl
    | [_], _ => rfl
    | _ :: _ :: rest, h => absurd h (Nat.not_lt.mpr (Nat.le_add_left 2 rest.length))

end BinaryDecoder

end NioevMqtt
