-- SUMMARY: The byte ranges `constructIOVecs` offers for a partially sent packet, and when they are the packet's remaining bytes.
import NioevMqtt.Packet.EncodedPacket

/-!
# Partial sends

`EncodedPacket::constructIOVecs` describes the bytes of a packet from an offset
on, as ranges of the packet's four pieces. A range is read the way the kernel
reads it; a range that leaves the object it points into reads as nothing.
-/

namespace NioevMqtt

/-- The object an `iov_base` points into. -/
inductive Piece where
  | prelude
  | middle
  | packetId
  | end_
deriving DecidableEq, Repr

/-- One entry of an `iovec` array. The base is null or a byte offset into an
object. -/
structure IOVec where
  iov_base : Option (Piece × Nat) := none
  iov_len : Nat := 0
deriving DecidableEq, Repr

namespace EncodedPacket

/-! ## The entries -/

/-- The caller zeroes the array; entries that are not assigned stay zero. The
list is as long as the count the source returns. -/
def constructIOVecs (p : EncodedPacket) (offset : Nat) : List IOVec :=
  let prelude : IOVec := ⟨some (.prelude, offset), p.mPreludeLength - offset⟩
  let inMiddle := offset - p.mPreludeLength
  let inPacketId := offset - p.mPreludeLength - p.mMiddle.length
  match p.mType with
  | .singleByteWithLen => [prelude]
  | .singleByteWithLenAndMiddle =>
    if offset < p.mPreludeLength then
      [prelude, ⟨some (.middle, 0), p.mMiddle.length⟩]
    else
      [{}, ⟨some (.middle, inMiddle), p.mMiddle.length - inMiddle⟩]
  | .singleByteWithLenAndMiddleAndEnd =>
    if offset < p.mPreludeLength then
      [prelude, ⟨some (.middle, 0), p.mMiddle.length⟩, ⟨some (.end_, 0), p.mEnd.length⟩]
    else if offset < p.mPreludeLength + p.mMiddle.length then
      [{}, ⟨some (.middle, inMiddle), p.mMiddle.length - inMiddle⟩,
        ⟨some (.end_, 0), p.mEnd.length⟩]
    else
      [{}, {}, ⟨some (.end_, inPacketId), p.mEnd.length - inPacketId⟩]
  | .full =>
    if offset < p.mPreludeLength then
      [prelude, ⟨some (.middle, 0), p.mMiddle.length⟩, ⟨some (.packetId, 0), 2⟩,
        ⟨some (.end_, 0), p.mEnd.length⟩]
    else if offset < p.mPreludeLength + p.mMiddle.length then
      [{}, ⟨some (.middle, inMiddle), p.mMiddle.length - inMiddle⟩, ⟨some (.packetId, 0), 2⟩,
        ⟨some (.end_, 0), p.mEnd.length⟩]
    else if offset < p.mPreludeLength + p.mMiddle.length + 2 then
      -- `&mPacketId.value()` points to a `uint16_t`: adding `n` moves it by `2 * n` bytes.
      [{}, {}, ⟨some (.packetId, 2 * inPacketId), 2 - inPacketId⟩,
        ⟨some (.end_, 0), p.mEnd.length⟩]
    else
      [{}, {}, {}, ⟨some (.end_, inPacketId - 2), p.mEnd.length - (inPacketId - 2)⟩]

/-! ## Reading entries -/

/-- The bytes of the object a base points into. -/
def pieceBytes (p : EncodedPacket) : Piece → List UInt8
  | .prelude => p.mPrelude.bytes
  | .middle => p.mMiddle
  | .packetId => p.packetIdBytes
  | .end_ => p.mEnd

/-- The bytes of one entry, or `none` where it reaches outside its object. -/
def readIOVec (p : EncodedPacket) (v : IOVec) : Option (List UInt8) :=
  match v.iov_base with
  | none => if v.iov_len = 0 then some [] else none
  | some (piece, start) =>
    if start + v.iov_len ≤ (p.pieceBytes piece).length then
      some (((p.pieceBytes piece).drop start).take v.iov_len)
    else none

/-- The bytes of all entries, one after another. -/
def gather (p : EncodedPacket) (vecs : List IOVec) : Option (List UInt8) :=
  (vecs.mapM p.readIOVec).map List.flatten

@[simp] theorem readIOVec_null (p : EncodedPacket) : p.readIOVec {} = some [] := rfl

/-- An entry for the rest of an object. -/
theorem readIOVec_rest (p : EncodedPacket) (piece : Piece) {start : Nat}
    (h : start ≤ (p.pieceBytes piece).length) :
    p.readIOVec ⟨some (piece, start), (p.pieceBytes piece).length - start⟩ =
      some ((p.pieceBytes piece).drop start) := by
  simp only [readIOVec]
  rw [if_pos (by omega), List.take_of_length_le (by simp)]

theorem readIOVec_prelude (p : EncodedPacket) {offset : Nat} (h : offset ≤ p.mPreludeLength) :
    p.readIOVec ⟨some (.prelude, offset), p.mPreludeLength - offset⟩ =
      some ((p.mPrelude.bytes.take p.mPreludeLength).drop offset) := by
  have hle := p.mPreludeLength_le
  simp only [readIOVec, pieceBytes, Prelude.length_bytes]
  rw [if_pos (by omega), List.drop_take]

@[simp] theorem readIOVec_middle (p : EncodedPacket) :
    p.readIOVec ⟨some (.middle, 0), p.mMiddle.length⟩ = some p.mMiddle :=
  p.readIOVec_rest .middle (Nat.zero_le _)

@[simp] theorem readIOVec_end (p : EncodedPacket) :
    p.readIOVec ⟨some (.end_, 0), p.mEnd.length⟩ = some p.mEnd :=
  p.readIOVec_rest .end_ (Nat.zero_le _)

theorem readIOVec_packetId (p : EncodedPacket) (h : p.packetIdSize = 2) :
    p.readIOVec ⟨some (.packetId, 0), 2⟩ = some p.packetIdBytes := by
  have hlen : (p.pieceBytes .packetId).length = 2 := p.length_packetIdBytes.trans h
  have hread := p.readIOVec_rest .packetId (Nat.zero_le _)
  rwa [hlen] at hread

/-- One byte past the first of the identifier, the pointer has left it. -/
theorem readIOVec_packetId_past (p : EncodedPacket) (h : p.packetIdSize = 2) :
    p.readIOVec ⟨some (.packetId, 2), 1⟩ = none := by
  simp only [readIOVec, pieceBytes, length_packetIdBytes, h]
  rfl

/-! ## The remaining bytes -/

/-- The offset lies between the two bytes of the packet identifier. -/
def SplitsPacketId (p : EncodedPacket) (offset : Nat) : Prop :=
  p.mType = .full ∧ offset = p.mPreludeLength + p.mMiddle.length + 1

instance (p : EncodedPacket) (offset : Nat) : Decidable (p.SplitsPacketId offset) :=
  inferInstanceAs (Decidable (_ ∧ _))

theorem packetIdSize_full {p : EncodedPacket} (h : p.mType = .full) : p.packetIdSize = 2 := by
  have hfits := p.fits
  rw [h] at hfits
  exact if_pos hfits

/-- What is left of the pieces after `offset` bytes. -/
theorem drop_segments (p : EncodedPacket) (offset : Nat) :
    Segments.drop offset p.segments =
      [(p.mPrelude.bytes.take p.mPreludeLength).drop offset,
        p.mMiddle.drop (offset - p.mPreludeLength),
        p.packetIdBytes.drop (offset - p.mPreludeLength - p.mMiddle.length),
        p.mEnd.drop (offset - p.mPreludeLength - p.mMiddle.length - p.packetIdSize)] := by
  simp only [segments, Segments.drop_cons, Segments.drop_nil, length_prelude, length_packetIdBytes]

theorem drop_prelude {p : EncodedPacket} {offset : Nat} (h : p.mPreludeLength ≤ offset) :
    (p.mPrelude.bytes.take p.mPreludeLength).drop offset = [] :=
  List.drop_eq_nil_of_le (by rwa [length_prelude])

/-- The entries are the pieces of the packet, with `offset` bytes dropped. -/
theorem gather_constructIOVecs {p : EncodedPacket} {offset : Nat} (hoffset : offset < p.fullSize)
    (hsplit : ¬ p.SplitsPacketId offset) :
    p.gather (p.constructIOVecs offset) = some (Segments.drop offset p.segments).flatten := by
  have hmiddle : ∀ k ≤ p.mMiddle.length,
      p.readIOVec ⟨some (.middle, k), p.mMiddle.length - k⟩ = some (p.mMiddle.drop k) :=
    fun k hk => p.readIOVec_rest .middle hk
  have hend : ∀ k ≤ p.mEnd.length,
      p.readIOVec ⟨some (.end_, k), p.mEnd.length - k⟩ = some (p.mEnd.drop k) :=
    fun k hk => p.readIOVec_rest .end_ hk
  have hfits := p.fits
  rw [drop_segments]
  cases htype : p.mType with
  | singleByteWithLen =>
      rw [htype] at hfits
      obtain ⟨hm, hid, he⟩ := hfits
      have hp : offset < p.mPreludeLength := by
        simpa [fullSize, packetIdSize, hm, hid, he] using hoffset
      simp [gather, constructIOVecs, htype, readIOVec_prelude p hp.le, packetIdBytes, hm, hid, he]
  | singleByteWithLenAndMiddle =>
      rw [htype] at hfits
      obtain ⟨hid, he⟩ := hfits
      have hsize : offset < p.mPreludeLength + p.mMiddle.length := by
        simpa [fullSize, packetIdSize, hid, he] using hoffset
      by_cases hp : offset < p.mPreludeLength
      · simp [gather, constructIOVecs, htype, hp, readIOVec_prelude p hp.le, packetIdBytes, hid, he,
          Nat.sub_eq_zero_of_le hp.le]
      · have hm := hmiddle (offset - p.mPreludeLength) (by omega)
        simp [gather, constructIOVecs, htype, hp, hm, drop_prelude (not_lt.mp hp), packetIdBytes,
          hid, he]
  | singleByteWithLenAndMiddleAndEnd =>
      rw [htype] at hfits
      have hid : p.packetIdBytes = [] := by rw [packetIdBytes, hfits]
      have hidSize : p.packetIdSize = 0 := by rw [← length_packetIdBytes, hid]; rfl
      simp only [fullSize, hidSize] at hoffset
      by_cases hp : offset < p.mPreludeLength
      · simp [gather, constructIOVecs, htype, hp, readIOVec_prelude p hp.le, hid, hidSize,
          Nat.sub_eq_zero_of_le hp.le]
      by_cases hm : offset < p.mPreludeLength + p.mMiddle.length
      · have hread := hmiddle (offset - p.mPreludeLength) (by omega)
        have hzero : offset - p.mPreludeLength - p.mMiddle.length = 0 := by omega
        simp [gather, constructIOVecs, htype, hp, hm, hread, drop_prelude (not_lt.mp hp), hid,
          hidSize, hzero]
      · have hread := hend (offset - p.mPreludeLength - p.mMiddle.length) (by omega)
        have hdrop : p.mMiddle.drop (offset - p.mPreludeLength) = [] :=
          List.drop_eq_nil_of_le (by omega)
        simp [gather, constructIOVecs, htype, hp, hm, hread, drop_prelude (not_lt.mp hp), hdrop,
          hid, hidSize]
  | full =>
      have hidSize := packetIdSize_full htype
      have hidRead := p.readIOVec_packetId hidSize
      simp only [fullSize, hidSize] at hoffset
      by_cases hp : offset < p.mPreludeLength
      · simp [gather, constructIOVecs, htype, hp, readIOVec_prelude p hp.le, hidRead, hidSize,
          Nat.sub_eq_zero_of_le hp.le]
      by_cases hm : offset < p.mPreludeLength + p.mMiddle.length
      · -- The middle is cut; the identifier and the end are whole.
        have hread := hmiddle (offset - p.mPreludeLength) (by omega)
        have hzero : offset - p.mPreludeLength - p.mMiddle.length = 0 := by omega
        simp [gather, constructIOVecs, htype, hp, hm, hread, hidRead, drop_prelude (not_lt.mp hp),
          hidSize, hzero]
      have hdrop : p.mMiddle.drop (offset - p.mPreludeLength) = [] :=
        List.drop_eq_nil_of_le (by omega)
      by_cases hi : offset < p.mPreludeLength + p.mMiddle.length + 2
      · -- Not between its two bytes, so at the start of the identifier.
        have hzero : offset - p.mPreludeLength - p.mMiddle.length = 0 := by
          have hne : offset ≠ p.mPreludeLength + p.mMiddle.length + 1 :=
            fun heq => hsplit ⟨htype, heq⟩
          omega
        simp [gather, constructIOVecs, htype, hp, hm, hi, hidRead, drop_prelude (not_lt.mp hp),
          hdrop, hidSize, hzero]
      · have hread := hend (offset - p.mPreludeLength - p.mMiddle.length - 2) (by omega)
        have hdropId : p.packetIdBytes.drop (offset - p.mPreludeLength - p.mMiddle.length) = [] :=
          List.drop_eq_nil_of_le (by rw [length_packetIdBytes, hidSize]; omega)
        simp [gather, constructIOVecs, htype, hp, hm, hi, hread, drop_prelude (not_lt.mp hp), hdrop,
          hdropId, hidSize]

/-- Between the two bytes of the identifier, the third entry starts behind it. -/
theorem gather_splitsPacketId {p : EncodedPacket} {offset : Nat} (h : p.SplitsPacketId offset) :
    p.gather (p.constructIOVecs offset) = none := by
  obtain ⟨htype, rfl⟩ := h
  have hid : p.mPreludeLength + p.mMiddle.length + 1 - p.mPreludeLength - p.mMiddle.length = 1 := by
    omega
  have hpast := p.readIOVec_packetId_past (packetIdSize_full htype)
  simp [gather, constructIOVecs, htype, hid, hpast, show ¬ p.mPreludeLength + p.mMiddle.length + 1 <
    p.mPreludeLength by omega]

/-- The entries from `offset` on read as the wire bytes without the first
`offset`, unless the offset splits the packet identifier. -/
theorem gather_eq_drop_wireBytes_iff (p : EncodedPacket) (offset : Nat)
    (hoffset : offset < p.fullSize) :
    p.gather (p.constructIOVecs offset) = some (p.wireBytes.drop offset) ↔
      ¬ p.SplitsPacketId offset := by
  constructor
  · intro hread hsplit
    rw [gather_splitsPacketId hsplit] at hread
    cases hread
  · intro hsplit
    rw [gather_constructIOVecs hoffset hsplit, Segments.flatten_drop, wireBytes]

/-! ## The number of bytes -/

/-- How many bytes the entries offer, wherever they point. -/
def offeredLength (p : EncodedPacket) (offset : Nat) : Nat :=
  ((p.constructIOVecs offset).map IOVec.iov_len).sum

/-- Also where they point behind the identifier, there are as many as remain. -/
theorem offeredLength_eq {p : EncodedPacket} {offset : Nat} (hoffset : offset < p.fullSize) :
    p.offeredLength offset = p.fullSize - offset := by
  have hfits := p.fits
  cases htype : p.mType with
  | singleByteWithLen =>
      rw [htype] at hfits
      obtain ⟨hm, hid, he⟩ := hfits
      simp [offeredLength, constructIOVecs, htype, fullSize, packetIdSize, hm, hid, he]
  | singleByteWithLenAndMiddle =>
      rw [htype] at hfits
      obtain ⟨hid, he⟩ := hfits
      simp only [fullSize, packetIdSize, hid, he, Option.isSome_none, Bool.false_eq_true, if_false,
        List.length_nil, Nat.add_zero] at hoffset ⊢
      simp only [offeredLength, constructIOVecs, htype]
      split_ifs <;> simp only [List.map_cons, List.map_nil, List.sum_cons, List.sum_nil] <;> omega
  | singleByteWithLenAndMiddleAndEnd =>
      rw [htype] at hfits
      have hid : p.mPacketId = none := hfits
      simp only [fullSize, packetIdSize, hid, Option.isSome_none, Bool.false_eq_true,
        if_false] at hoffset ⊢
      simp only [offeredLength, constructIOVecs, htype]
      split_ifs <;> simp only [List.map_cons, List.map_nil, List.sum_cons, List.sum_nil] <;> omega
  | full =>
      simp only [fullSize, packetIdSize_full htype] at hoffset ⊢
      simp only [offeredLength, constructIOVecs, htype]
      split_ifs <;> simp only [List.map_cons, List.map_nil, List.sum_cons, List.sum_nil] <;> omega

/-- `PUBLISH` at QoS 1 of `h` on topic `t`, with identifier 2. -/
def publishExample : EncodedPacket :=
  @fromComponentsWithId Libnioev.standard 0x32 [0, 1, 0x74] 2 [0x68]

/-- Five bytes are accepted: the identifier is still whole. -/
theorem gather_publishExample :
    publishExample.gather (publishExample.constructIOVecs 5) =
      some (publishExample.wireBytes.drop 5) :=
  (gather_eq_drop_wireBytes_iff publishExample 5 (by decide +kernel)).mpr (by decide +kernel)

/-- Six bytes are accepted: the second byte of the identifier is not offered. -/
theorem gather_publishExample_ne :
    6 < publishExample.fullSize ∧
      publishExample.gather (publishExample.constructIOVecs 6) ≠
        some (publishExample.wireBytes.drop 6) := by
  decide +kernel

end EncodedPacket

end NioevMqtt
