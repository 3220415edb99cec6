-- SUMMARY: Frames written by the packet factories and read back by the receive loop: the lengths for which the round trip works.
import NioevMqtt.Connection.ReceiveLoop

/-!
# Frame round trip

What the factories of `EncodedPacket` put on the wire, fed to the receive loop.
The loop rejects a remaining length of four bytes: it checks the multiplier
before it looks at the continuation bit.
-/

namespace NioevMqtt

/-- A call of one of the factories of `EncodedPacket`. -/
inductive Frame where
  | fromFirstByte (firstByte : UInt8)
  | fromData (firstByte : UInt8) (buffer : SharedBuffer)
  | fromComponents (firstByte : UInt8) (middle end_ : SharedBuffer)
  | fromComponentsWithId (firstByte : UInt8) (middle : SharedBuffer) (packetId : UInt16)
      (end_ : SharedBuffer)
deriving DecidableEq, Repr

namespace Frame

def firstByte : Frame → UInt8
  | fromFirstByte firstByte => firstByte
  | fromData firstByte _ => firstByte
  | fromComponents firstByte _ _ => firstByte
  | fromComponentsWithId firstByte _ _ _ => firstByte

/-- What follows the remaining length. -/
def body : Frame → List UInt8
  | fromFirstByte _ => []
  | fromData _ buffer => buffer
  | fromComponents _ middle end_ => middle ++ end_
  | fromComponentsWithId _ middle packetId end_ => middle ++ bigEndianBytes packetId ++ end_

variable [Libnioev]

/-- The packet the factory builds. -/
def packet : Frame → EncodedPacket
  | fromFirstByte firstByte => .fromFirstByte firstByte
  | fromData firstByte buffer => .fromData firstByte buffer
  | fromComponents firstByte middle end_ => .fromComponents firstByte middle end_
  | fromComponentsWithId firstByte middle packetId end_ =>
    .fromComponentsWithId firstByte middle packetId end_

/-- A frame is its first byte, the base-128 length of the body, and the body. -/
theorem wireBytes_packet [LawfulLibnioev] (f : Frame) (h : f.body.length ≤ maxVarByteInt) :
    f.packet.wireBytes = f.firstByte :: (Base128.encode f.body.length ++ f.body) := by
  have hbytes : ∀ n, n = f.body.length →
      (Libnioev.encodeVarByteInt n).bytes = Base128.encode f.body.length := by
    intro n hn
    rw [hn, LawfulLibnioev.bytes_encodeVarByteInt _ h]
  cases f with
  | fromFirstByte firstByte =>
      have hzero : Base128.encode 0 = [0] := Base128.encode_of_lt (by decide)
      rw [packet, EncodedPacket.wireBytes_fromFirstByte]
      show [firstByte, 0] = firstByte :: (Base128.encode 0 ++ [])
      rw [hzero]
      rfl
  | fromData firstByte buffer =>
      rw [packet, EncodedPacket.wireBytes_fromData, hbytes _ (LawfulLibnioev.sizeAfterMove_eq buffer)]
      rfl
  | fromComponents firstByte middle end_ =>
      have hlen : end_.length + middle.length = (middle ++ end_).length := by
        rw [List.length_append, Nat.add_comm]
      rw [packet, EncodedPacket.wireBytes_fromComponents, hbytes _ hlen]
      rfl
  | fromComponentsWithId firstByte middle packetId end_ =>
      have hlen : end_.length + middle.length + 2 =
          (middle ++ bigEndianBytes packetId ++ end_).length := by
        simp only [List.length_append, bigEndianBytes, List.length_cons, List.length_nil]
        omega
      rw [packet, EncodedPacket.wireBytes_fromComponentsWithId, hbytes _ hlen]
      rfl

end Frame

section

variable [Libnioev] {σ : Type*} (handlePacketReceived : PacketHandler σ)

/-! ## Consuming a part of the stream -/

/-- The loop goes over `bytes` from `s` to `s'`, whatever comes behind them. -/
def Consumes (bytes : List UInt8) (s s' : LoopState σ) : Prop :=
  ∀ rest, receiveLoop handlePacketReceived (bytes ++ rest) s =
    receiveLoop handlePacketReceived rest s'

variable {handlePacketReceived}

theorem Consumes.trans {xs ys : List UInt8} {s t u : LoopState σ}
    (hxs : Consumes handlePacketReceived xs s t) (hys : Consumes handlePacketReceived ys t u) :
    Consumes handlePacketReceived (xs ++ ys) s u := by
  intro rest
  rw [List.append_assoc, hxs, hys]

/-- An iteration that takes the byte and goes on without a call. -/
theorem consumes_next {s : LoopState σ} {b : UInt8} {after : PacketReceiveData}
    (h : ∀ bytes, receiveIteration s.recvData b bytes = .next after 1) :
    Consumes handlePacketReceived [b] s
      { s with recvData := after, position := s.position + 1 } := by
  intro rest
  rw [List.singleton_append, receiveLoop_cons, iterate, h]
  rfl

/-- An iteration that takes the bytes and makes a call that returns. -/
theorem consumes_packet {s : LoopState σ} {b : UInt8} {bytes : List UInt8}
    {called after : PacketReceiveData} {world : σ}
    (hcall : handlePacketReceived called s.world = (world, none))
    (h : ∀ rest, receiveIteration s.recvData b (bytes ++ rest) =
      .packet called after (b :: bytes).length) :
    Consumes handlePacketReceived (b :: bytes) s
      { recvData := after
        position := s.position + (b :: bytes).length
        calls := s.calls ++ [called]
        world := world } := by
  intro rest
  rw [List.cons_append, receiveLoop_cons, iterate, h, ← List.cons_append]
  simp only [hcall, List.drop_left]
  rfl

end

/-! ## The remaining length -/

namespace PacketReceiveData

/-- The multiplier is `128 ^ k`, and lengths below `n` times it do not overflow. -/
structure LengthReady (recvData : PacketReceiveData) (k n : Nat) : Prop where
  recvState_eq : recvData.recvState = .receivingVarLength
  multiplier_eq : recvData.multiplier.toNat = 128 ^ k
  noOverflow : recvData.packetLength.toNat + n * 128 ^ k < 2 ^ 32

variable {recvData : PacketReceiveData} {k n : Nat} {b : UInt8}

theorem LengthReady.toNat_multiplier (h : recvData.LengthReady k n) (hk : k ≤ 3) (b : UInt8) :
    (recvData.addLength b).multiplier.toNat = 128 ^ (k + 1) := by
  have hpow : 128 ^ (k + 1) ≤ 128 ^ 4 := Nat.pow_le_pow_right (by decide) (by omega)
  have hlt : 128 ^ k * 128 < 2 ^ 32 := by rw [← pow_succ]; exact hpow.trans_lt (by decide)
  rw [addLength, UInt32.toNat_mul, h.multiplier_eq]
  exact (Nat.mod_eq_of_lt hlt).trans (pow_succ 128 k).symm

theorem LengthReady.toNat_packetLength (h : recvData.LengthReady k n) (hb : b.toNat % 128 ≤ n) :
    (recvData.addLength b).packetLength.toNat =
      recvData.packetLength.toNat + b.toNat % 128 * 128 ^ k := by
  have hmul : b.toNat % 128 * 128 ^ k ≤ n * 128 ^ k := Nat.mul_le_mul_right _ hb
  have hlt := h.noOverflow
  rw [addLength, UInt32.toNat_add, UInt32.toNat_mul, UInt8.toNat_toUInt32, Base128.toNat_and_127,
    h.multiplier_eq, Nat.mod_eq_of_lt (a := b.toNat % 128 * 128 ^ k) (by omega)]
  exact Nat.mod_eq_of_lt (by omega)

theorem LengthReady.not_long (h : recvData.LengthReady k n) (hk : k ≤ 2) (b : UInt8) :
    ¬ (recvData.addLength b).multiplier > 128 * 128 * 128 := by
  have hpow : 128 ^ (k + 1) ≤ 128 ^ 3 := Nat.pow_le_pow_right (by decide) (by omega)
  rw [gt_iff_lt, UInt32.lt_iff_toNat_lt, h.toNat_multiplier (by omega) b, not_lt]
  exact hpow

theorem LengthReady.addLength (h : recvData.LengthReady k n) (hk : k ≤ 2) :
    (recvData.addLength (UInt8.ofNat (n % 128 + 128))).LengthReady (k + 1) (n / 128) ∧
      (recvData.addLength (UInt8.ofNat (n % 128 + 128))).packetLength.toNat +
        n / 128 * 128 ^ (k + 1) = recvData.packetLength.toNat + n * 128 ^ k := by
  have hgroup : (UInt8.ofNat (n % 128 + 128)).toNat % 128 = n % 128 := by
    rw [Base128.continued_toNat]
    omega
  have hsplit : n % 128 * 128 ^ k + n / 128 * 128 ^ (k + 1) = n * 128 ^ k := by
    calc n % 128 * 128 ^ k + n / 128 * 128 ^ (k + 1)
        = (n % 128 + 128 * (n / 128)) * 128 ^ k := by ring
      _ = n * 128 ^ k := by rw [Nat.mod_add_div]
  have hlength := h.toNat_packetLength (by rw [hgroup]; exact Nat.mod_le _ _)
  rw [hgroup] at hlength
  have hsum : (recvData.addLength (UInt8.ofNat (n % 128 + 128))).packetLength.toNat +
      n / 128 * 128 ^ (k + 1) = recvData.packetLength.toNat + n * 128 ^ k := by
    rw [hlength, Nat.add_assoc, hsplit]
  exact ⟨⟨h.recvState_eq, h.toNat_multiplier (by omega) _, hsum ▸ h.noOverflow⟩, hsum⟩

variable [Libnioev]

/-- A fourth length byte is one too many. -/
theorem LengthReady.violation (h : recvData.LengthReady 3 n) (b : UInt8) (bytes : List UInt8) :
    receiveIteration recvData b bytes =
      .violation "Invalid message length" (recvData.addLength b) := by
  have hlong : (recvData.addLength b).multiplier > 128 * 128 * 128 := by
    rw [gt_iff_lt, UInt32.lt_iff_toNat_lt, h.toNat_multiplier (by decide) b]
    decide
  simp only [receiveIteration, h.recvState_eq, receiveVarLength, if_pos hlong]

/-- Before that, a continued byte adds its group. -/
theorem LengthReady.continued (h : recvData.LengthReady k n) (hk : k ≤ 2) (bytes : List UInt8) :
    receiveIteration recvData (UInt8.ofNat (n % 128 + 128)) bytes =
      .next (recvData.addLength (UInt8.ofNat (n % 128 + 128))) 1 := by
  have hmore : ¬ UInt8.ofNat (n % 128 + 128) &&& 0x80 = 0 := by
    rw [Base128.and_0x80_eq_zero_iff, Base128.continued_toNat]
    omega
  simp only [receiveIteration, h.recvState_eq, receiveVarLength, if_neg (h.not_long hk _),
    if_neg hmore]

end PacketReceiveData

/-- What of a call the sender can compare with what it sent. -/
def PacketReceiveData.received (recvData : PacketReceiveData) : UInt8 × List UInt8 :=
  (recvData.firstByte, recvData.currentReceiveBuffer)

section

variable [Libnioev] {σ : Type*} {handlePacketReceived : PacketHandler σ}

/-- From `s` to `s'`, a remaining length that is not zero has been read. -/
structure BodyNext (value : Nat) (s s' : LoopState σ) : Prop where
  recvState_eq : s'.recvData.recvState = .receivingData
  packetLength_eq : s'.recvData.packetLength.toNat = value
  received_eq : s'.recvData.received = s.recvData.received
  messageType_eq : s'.recvData.messageType = s.recvData.messageType
  calls_eq : s'.calls = s.calls
  world_eq : s'.world = s.world

/-- The last byte of the length. -/
theorem consumes_lastLength {s : LoopState σ} {k n : Nat} (h : s.recvData.LengthReady k n)
    (hk : k ≤ 2) (hn : n < 128) (hpos : s.recvData.packetLength.toNat + n * 128 ^ k ≠ 0) :
    ∃ s', Consumes handlePacketReceived [UInt8.ofNat n] s s' ∧
      BodyNext (s.recvData.packetLength.toNat + n * 128 ^ k) s s' := by
  have hbyte := Base128.last_toNat hn
  have hmod : (UInt8.ofNat n).toNat % 128 = n := by rw [hbyte, Nat.mod_eq_of_lt hn]
  have hlast : UInt8.ofNat n &&& 0x80 = 0 := by
    rw [Base128.and_0x80_eq_zero_iff, hbyte]
    exact hn
  have hlength := h.toNat_packetLength hmod.le
  rw [hmod] at hlength
  have hzero : ¬ (s.recvData.addLength (UInt8.ofNat n)).packetLength = 0 := by
    intro hzero
    rw [hzero] at hlength
    exact hpos hlength.symm
  have hiter : ∀ bytes, receiveIteration s.recvData (UInt8.ofNat n) bytes =
      .next { s.recvData.addLength (UInt8.ofNat n) with recvState := .receivingData } 1 := by
    intro bytes
    simp only [receiveIteration, h.recvState_eq, receiveVarLength, if_neg (h.not_long hk _),
      if_pos hlast, if_neg hzero]
  exact ⟨_, consumes_next hiter, rfl, hlength, rfl, rfl, rfl, rfl⟩

/-- A length of at most three bytes is read. -/
theorem consumes_positiveLength {s : LoopState σ} {k n : Nat} (h : s.recvData.LengthReady k n)
    (hk : k ≤ 2) (hn : n < 128 ^ (3 - k)) (hpos : s.recvData.packetLength.toNat + n * 128 ^ k ≠ 0) :
    ∃ s', Consumes handlePacketReceived (Base128.encode n) s s' ∧
      BodyNext (s.recvData.packetLength.toNat + n * 128 ^ k) s s' := by
  induction n using Base128.encode.induct generalizing k s with
  | case1 n hlast =>
      rw [Base128.encode_of_lt hlast]
      exact consumes_lastLength h hk hlast hpos
  | case2 n hmore ih =>
      obtain ⟨hready, hsum⟩ := h.addLength hk
      have hk' : k + 1 ≤ 2 := by
        by_contra hlarge
        obtain rfl : k = 2 := by omega
        exact hmore (by simpa using hn)
      have hdiv : n / 128 < 128 ^ (3 - (k + 1)) := by
        rw [Nat.div_lt_iff_lt_mul (by decide), ← pow_succ]
        rwa [show 3 - (k + 1) + 1 = 3 - k by omega]
      obtain ⟨s', hconsumes, hnext⟩ := ih
        (s := { s with
          recvData := s.recvData.addLength (UInt8.ofNat (n % 128 + 128))
          position := s.position + 1 }) hready hk' hdiv (hsum ▸ hpos)
      rw [Base128.encode_of_le (by omega)]
      refine ⟨s', (consumes_next (h.continued hk)).trans hconsumes, ?_⟩
      rw [← hsum]
      exact ⟨hnext.recvState_eq, hnext.packetLength_eq, hnext.received_eq, hnext.messageType_eq,
        hnext.calls_eq, hnext.world_eq⟩

/-- The length of a packet without a body. -/
theorem consumes_zeroLength {f : PacketReceiveData → σ → σ} {s : LoopState σ} {k : Nat}
    (h : s.recvData.LengthReady k 0) (hk : k ≤ 2) (hzero : s.recvData.packetLength.toNat = 0) :
    ∃ s', Consumes (.returning f) (Base128.encode 0) s s' ∧ s'.recvData.recvState = .idle ∧
      s'.calls.map (·.received) = s.calls.map (·.received) ++ [s.recvData.received] := by
  have hlength := h.toNat_packetLength (b := 0) le_rfl
  have hempty : (s.recvData.addLength 0).packetLength = 0 :=
    UInt32.toNat_inj.mp (hlength.trans (by rw [hzero]; exact (Nat.zero_add _).trans (Nat.zero_mul _)))
  have hiter : ∀ rest, receiveIteration s.recvData 0 ([] ++ rest) =
      .packet { s.recvData.addLength 0 with recvState := .idle }
        { s.recvData.addLength 0 with recvState := .idle } 1 := by
    intro rest
    simp only [receiveIteration, h.recvState_eq, receiveVarLength, if_neg (h.not_long hk _),
      if_pos hempty]
    rfl
  rw [Base128.encode_of_lt (by decide)]
  refine ⟨_, consumes_packet rfl hiter, rfl, ?_⟩
  rw [List.map_append]
  rfl

/-- A longer one is a protocol violation. -/
theorem receiveLoop_longLength {s : LoopState σ} {k n : Nat}
    (h : s.recvData.LengthReady k n) (hk : k ≤ 3) (hn : 128 ^ (3 - k) ≤ n) (rest : List UInt8) :
    ∃ stop, stop.exception = .protocolViolation "Invalid message length" ∧
      receiveLoop handlePacketReceived (Base128.encode n ++ rest) s = .error stop := by
  rcases Nat.lt_or_ge k 3 with hlt | hge
  · have hlong : 128 ≤ n := by
      calc 128 = 128 ^ 1 := rfl
        _ ≤ 128 ^ (3 - k) := Nat.pow_le_pow_right (by decide) (by omega)
        _ ≤ n := hn
    have hdiv : 128 ^ (3 - (k + 1)) ≤ n / 128 := by
      rw [Nat.le_div_iff_mul_le (by decide), ← pow_succ]
      rwa [show 3 - (k + 1) + 1 = 3 - k by omega]
    rw [Base128.encode_of_le hlong]
    have hnext : Consumes handlePacketReceived _ s _ := consumes_next (h.continued (by omega))
    rw [List.cons_append, ← List.singleton_append, hnext]
    exact receiveLoop_longLength (h.addLength (by omega)).1 (by omega) hdiv rest
  · obtain rfl : k = 3 := by omega
    obtain ⟨b, bytes, hbytes⟩ := List.exists_cons_of_ne_nil (Base128.encode_ne_nil n)
    rw [hbytes, List.cons_append, receiveLoop_cons, iterate, h.violation]
    exact ⟨_, rfl, rfl⟩
termination_by 3 - k

/-! ## One frame -/

theorem consumes_start {s : LoopState σ} (hidle : s.recvData.recvState = .idle) {b : UInt8}
    (hb : ValidType b) :
    Consumes handlePacketReceived [b] s
      { s with recvData := .start {} b, position := s.position + 1 } := by
  refine consumes_next fun bytes => ?_
  have hvalid : ¬ (Libnioev.messageTypeCount ≤ (b >>> 4).toNat ∨ b >>> 4 = 0) := by
    rw [not_or, not_le]
    exact hb
  simp only [receiveIteration, hidle, receiveIdle, if_neg hvalid]

omit [Libnioev] in
/-- The loop is ready for a length up to the largest one. -/
theorem lengthReady_start (b : UInt8) {n : Nat} (h : n ≤ maxVarByteInt) :
    (PacketReceiveData.start {} b).LengthReady 0 n where
  recvState_eq := rfl
  multiplier_eq := rfl
  noOverflow := by
    show 0 + n * 128 ^ 0 < 2 ^ 32
    simp only [maxVarByteInt] at h
    omega

/-- The body of a packet, as a whole. -/
theorem consumes_body {s : LoopState σ} {bytes : List UInt8} {world : σ}
    (hstate : s.recvData.recvState = .receivingData) (hbuffer : s.recvData.currentReceiveBuffer = [])
    (hlength : s.recvData.packetLength.toNat = bytes.length) (hne : bytes ≠ [])
    (hcall : handlePacketReceived { s.recvData with currentReceiveBuffer := bytes } s.world =
      (world, none)) :
    ∃ s', Consumes handlePacketReceived bytes s s' ∧ s'.recvData.recvState = .idle ∧
      s'.calls.map (·.received) = s.calls.map (·.received) ++ [(s.recvData.firstByte, bytes)] ∧
      s'.world = world := by
  obtain ⟨b, bytes, rfl⟩ := List.exists_cons_of_ne_nil hne
  have hfill : ∀ rest, s.recvData.fill (b :: bytes ++ rest) =
      { s.recvData with currentReceiveBuffer := b :: bytes } := by
    intro rest
    simp only [PacketReceiveData.fill, hbuffer, hlength, List.length_nil, Nat.sub_zero,
      List.nil_append, List.take_left]
  have hiter : ∀ rest, receiveIteration s.recvData b (bytes ++ rest) =
      .packet { s.recvData with currentReceiveBuffer := b :: bytes }
        { s.recvData with currentReceiveBuffer := b :: bytes, recvState := .idle }
        (b :: bytes).length := by
    intro rest
    have hdata := @receiveData_of_ge s.recvData (b :: bytes ++ rest)
      (by rw [hbuffer]; exact Nat.zero_le _)
      (by rw [hbuffer, hlength, List.length_append, List.length_nil]; omega)
    rw [hfill, hbuffer, hlength] at hdata
    rw [receiveIteration, hstate]
    exact hdata
  refine ⟨_, consumes_packet hcall hiter, rfl, ?_, rfl⟩
  rw [List.map_append]
  rfl

variable [LawfulLibnioev]

/-- The longest body the loop receives: the remaining length has three bytes. -/
def maxReceivedLength : Nat := 128 ^ 3 - 1

/-- A frame with a body is handed over once. -/
theorem consumes_frameWithBody {s : LoopState σ} (hidle : s.recvData.recvState = .idle)
    {frame : Frame} (htype : ValidType frame.firstByte)
    (hlength : frame.body.length ≤ maxReceivedLength) (hne : frame.body ≠ []) :
    ∃ called : PacketReceiveData, called.received = (frame.firstByte, frame.body) ∧
      called.messageType = .ofUInt8 (frame.firstByte >>> 4) ∧
      ∀ world, handlePacketReceived called s.world = (world, none) →
        ∃ s', Consumes handlePacketReceived frame.packet.wireBytes s s' ∧
          s'.recvData.recvState = .idle ∧
          s'.calls.map (·.received) =
            s.calls.map (·.received) ++ [(frame.firstByte, frame.body)] ∧
          s'.world = world := by
  have hmax : frame.body.length ≤ maxVarByteInt := hlength.trans (by decide)
  have hstart : Consumes handlePacketReceived _ s _ := consumes_start hidle htype
  have hvalue : (PacketReceiveData.start {} frame.firstByte).packetLength.toNat +
      frame.body.length * 128 ^ 0 = frame.body.length := by
    show 0 + frame.body.length * 1 = frame.body.length
    omega
  have hpositive : ∃ t, Consumes handlePacketReceived _ _ t ∧ BodyNext _ _ t :=
    consumes_positiveLength
      (s := { s with recvData := .start {} frame.firstByte, position := s.position + 1 })
      (lengthReady_start frame.firstByte hmax) (by decide) (hlength.trans_lt (by decide))
      (by rw [hvalue]; exact fun hzero => hne (List.eq_nil_of_length_eq_zero hzero))
  obtain ⟨t, hlen, hnext⟩ := hpositive
  rw [hvalue] at hnext
  obtain ⟨hfirst, hbuffer⟩ := Prod.mk.injEq .. ▸ hnext.received_eq
  refine ⟨{ t.recvData with currentReceiveBuffer := frame.body }, congrArg (·, frame.body) hfirst,
    hnext.messageType_eq, fun world hcall => ?_⟩
  rw [← hnext.world_eq] at hcall
  obtain ⟨s', hbody, hs', hcalls, hworld⟩ :=
    consumes_body hnext.recvState_eq hbuffer hnext.packetLength_eq hne hcall
  rw [frame.wireBytes_packet hmax, ← List.singleton_append]
  refine ⟨s', hstart.trans (hlen.trans hbody), hs', ?_, hworld⟩
  rw [hcalls, hnext.calls_eq, hfirst]
  rfl

theorem consumes_frame (f : PacketReceiveData → σ → σ) {s : LoopState σ}
    (hidle : s.recvData.recvState = .idle) {frame : Frame} (htype : ValidType frame.firstByte)
    (hlength : frame.body.length ≤ maxReceivedLength) :
    ∃ s', Consumes (.returning f) frame.packet.wireBytes s s' ∧ s'.recvData.recvState = .idle ∧
      s'.calls.map (·.received) =
        s.calls.map (·.received) ++ [(frame.firstByte, frame.body)] := by
  by_cases hbody : frame.body = []
  · have hmax : frame.body.length ≤ maxVarByteInt := hlength.trans (by decide)
    have hstart : Consumes (.returning f) _ s _ := consumes_start hidle htype
    obtain ⟨t, hlen, ht, hcalls⟩ := consumes_zeroLength (f := f)
      (s := { s with recvData := .start {} frame.firstByte, position := s.position + 1 })
      (lengthReady_start frame.firstByte (Nat.zero_le _)) (by decide) rfl
    refine ⟨t, ?_, ht, ?_⟩
    · rw [frame.wireBytes_packet hmax, ← List.singleton_append, hbody, List.append_nil]
      exact hstart.trans hlen
    · rw [hcalls, hbody]
      rfl
  · have hframe : ∃ called : PacketReceiveData, _ ∧ _ ∧
        ∀ world, PacketHandler.returning f called s.world = (world, none) → _ :=
      consumes_frameWithBody hidle htype hlength hbody
    obtain ⟨called, -, -, hconsumes⟩ := hframe
    obtain ⟨s', hs', hidle', hcalls, -⟩ := hconsumes (f called s.world) rfl
    exact ⟨s', hs', hidle', hcalls⟩

/-- A frame with a longer body is a protocol violation. -/
theorem receiveLoop_longFrame {s : LoopState σ} (hidle : s.recvData.recvState = .idle)
    {frame : Frame} (htype : ValidType frame.firstByte) (hmax : frame.body.length ≤ maxVarByteInt)
    (hlength : maxReceivedLength < frame.body.length) (rest : List UInt8) :
    ∃ stop, stop.exception = .protocolViolation "Invalid message length" ∧
      receiveLoop handlePacketReceived (frame.packet.wireBytes ++ rest) s = .error stop := by
  have hstart : Consumes handlePacketReceived _ s _ := consumes_start hidle htype
  have hlong : 128 ^ (3 - 0) ≤ frame.body.length := by
    simp only [maxReceivedLength] at hlength
    omega
  rw [frame.wireBytes_packet hmax, ← List.singleton_append, List.append_assoc, hstart,
    List.append_assoc]
  exact receiveLoop_longLength (lengthReady_start frame.firstByte hmax) (by decide) hlong _

/-! ## Lists of frames -/

/-- The type is one the loop knows, and the body fits a remaining length of four
bytes. -/
structure Frame.Valid (frame : Frame) : Prop where
  type : ValidType frame.firstByte
  length_le : frame.body.length ≤ maxVarByteInt

/-- The bytes of the packets, one after another. -/
def wireOf (frames : List Frame) : List UInt8 :=
  (frames.map fun frame => frame.packet.wireBytes).flatten

/-- What the receiver should see. -/
def Frame.sent (frame : Frame) : UInt8 × List UInt8 := (frame.firstByte, frame.body)

/-- From `s`, the loop hands over what was sent, in order, and ends idle. -/
def Yields (frames : List Frame) (s : LoopState σ)
    (result : Except (Stop σ) (LoopState σ)) : Prop :=
  ∃ s', result = .ok s' ∧ s'.recvData.recvState = .idle ∧
    s'.calls.map (·.received) = s.calls.map (·.received) ++ frames.map Frame.sent

theorem yields_receiveLoop_iff (f : PacketReceiveData → σ → σ) {s : LoopState σ}
    (hidle : s.recvData.recvState = .idle) (frames : List Frame)
    (hvalid : ∀ frame ∈ frames, frame.Valid) :
    Yields frames s (receiveLoop (.returning f) (wireOf frames) s) ↔
      ∀ frame ∈ frames, frame.body.length ≤ maxReceivedLength := by
  induction frames generalizing s with
  | nil =>
      refine iff_of_true ⟨s, ?_, hidle, ?_⟩ ?_
      · exact receiveLoop_nil _ _
      · rw [List.map_nil, List.append_nil]
      · intro frame hframe
        cases hframe
  | cons frame frames ih =>
      obtain ⟨hframe, hframes⟩ := List.forall_mem_cons.mp hvalid
      have hwire : wireOf (frame :: frames) = frame.packet.wireBytes ++ wireOf frames := rfl
      rw [hwire, List.forall_mem_cons]
      rcases Nat.lt_or_ge maxReceivedLength frame.body.length with hlong | hshort
      · have hlongFrame : ∃ stop, _ ∧ receiveLoop (.returning f) _ s = .error stop :=
          receiveLoop_longFrame hidle hframe.type hframe.length_le hlong (wireOf frames)
        obtain ⟨stop, -, hstop⟩ := hlongFrame
        rw [hstop]
        refine iff_of_false ?_ ?_
        · rintro ⟨s', h, -⟩
          cases h
        · rintro ⟨h, -⟩
          exact absurd h (not_le.mpr hlong)
      · obtain ⟨t, hconsumes, ht, hcalls⟩ := consumes_frame f hidle hframe.type hshort
        have hyields : ∀ result, Yields (frame :: frames) s result ↔ Yields frames t result := by
          intro result
          simp only [Yields, hcalls, List.map_cons, List.append_assoc, List.singleton_append]
          rfl
        rw [hconsumes, hyields, ih ht hframes]
        exact ⟨fun h => ⟨hshort, h⟩, fun h => h.2⟩

/-- The framer hands over the frames it is sent, however they arrive, exactly if no
body is longer than three length bytes can say. -/
theorem yields_receiveChunks_iff (f : PacketReceiveData → σ → σ) (world : σ)
    (frames : List Frame) (hvalid : ∀ frame ∈ frames, frame.Valid) (chunks : List (List UInt8))
    (hchunks : chunks.flatten = wireOf frames) :
    Yields frames { world := world } (receiveChunks (.returning f) chunks { world := world }) ↔
      ∀ frame ∈ frames, frame.body.length ≤ maxReceivedLength := by
  have hidle : ({ world := world } : LoopState σ).recvData.Framed := trivial
  rw [receiveChunks, (elementwise_receiveLoop _).foldlM_flatten chunks hidle, hchunks]
  exact yields_receiveLoop_iff f rfl frames hvalid

end

/-- A `PINGRESP` and a `PUBLISH`, cut inside the second one. -/
theorem yields_pingresp_publish :
    Yields [.fromFirstByte 0xD0, .fromData 0x30 [0x00, 0x01, 0x74]] { world := () }
      (@receiveChunks .standard Unit (.returning fun _ world => world)
        [[0xD0, 0x00, 0x30], [0x03, 0x00, 0x01, 0x74]] { world := () }) := by
  refine (@yields_receiveChunks_iff .standard Unit Libnioev.standard_lawful (fun _ world => world)
    () [.fromFirstByte 0xD0, .fromData 0x30 [0x00, 0x01, 0x74]] ?_ _ (by decide +kernel)).mpr ?_
  · intro frame hframe
    simp only [List.mem_cons, List.not_mem_nil, or_false] at hframe
    rcases hframe with rfl | rfl
    · exact @Frame.Valid.mk .standard _ (by decide) (by decide)
    · exact @Frame.Valid.mk .standard _ (by decide) (by decide)
  · decide

/-- A `PUBLISH` whose remaining length takes four bytes. -/
def longPublish : Frame := .fromData 0x30 (List.replicate 2097152 0)

/-- It is within the range of the protocol, and the loop rejects it. -/
theorem not_yields_longPublish :
    @Frame.Valid .standard longPublish ∧
      ¬ Yields [longPublish] { world := () }
        (@receiveChunks .standard Unit (.returning fun _ world => world)
          [(@Frame.packet .standard longPublish).wireBytes] { world := () }) := by
  have hlength : longPublish.body.length = 2097152 := List.length_replicate
  have hvalid : @Frame.Valid .standard longPublish :=
    @Frame.Valid.mk .standard _ (by decide) (by rw [hlength]; decide)
  refine ⟨hvalid, ?_⟩
  rintro ⟨s', hs', -⟩
  obtain ⟨stop, -, hstop⟩ := @receiveLoop_longFrame .standard Unit
    (.returning fun _ world => world) Libnioev.standard_lawful { world := () } rfl longPublish
    (@Frame.Valid.type .standard _ hvalid) (@Frame.Valid.length_le .standard _ hvalid)
    (by rw [hlength]; decide) []
  rw [List.append_nil] at hstop
  rw [@receiveChunks.eq_1 .standard, List.foldlM_cons, hstop] at hs'
  cases hs'

end NioevMqtt
