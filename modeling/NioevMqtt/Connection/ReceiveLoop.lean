-- SUMMARY: The packet framer of a connection: one iteration of the receive loop, the loop over a chunk, and its independence of the chunking.
import NioevMqtt.Connection.Types
import NioevMqtt.Library.Chunks
import NioevMqtt.Library.Runs

/-!
# The receive loop

The loop of `ClientThreadManager::receiverThreadFunction` over the bytes of one
`recv`. `receiveIteration` is the body of the loop up to the call of
`handlePacketReceived`; what the handler does to the rest of the program is a
parameter.
-/

namespace NioevMqtt

/-! ## One iteration -/

/-- How the body of the loop goes on. `advance` is what is added to `i`. -/
inductive Iteration where
  | next (recvData : PacketReceiveData) (advance : Nat)
  /-- `handlePacketReceived` is called with `recvData`. If it returns, the state
  is `after`. -/
  | packet (recvData after : PacketReceiveData) (advance : Nat)
  | violation (reason : String) (recvData : PacketReceiveData)
  /-- The `assert` fails. -/
  | assertionFailed
deriving DecidableEq, Repr

/-- The type of a packet is acceptable. -/
def ValidType [Libnioev] (b : UInt8) : Prop :=
  (b >>> 4).toNat < Libnioev.messageTypeCount ∧ b >>> 4 ≠ 0

instance [Libnioev] (b : UInt8) : Decidable (ValidType b) :=
  inferInstanceAs (Decidable (_ ∧ _))

/-- The packet whose first byte is `b`. -/
def PacketReceiveData.start (recvData : PacketReceiveData) (b : UInt8) : PacketReceiveData :=
  { recvData with
    firstByte := b
    messageType := .ofUInt8 (b >>> 4)
    recvState := .receivingVarLength }

/-- `case IDLE`. -/
def receiveIdle [Libnioev] (b : UInt8) : Iteration :=
  let recvData : PacketReceiveData := {}
  let packetTypeId := b >>> 4
  if Libnioev.messageTypeCount ≤ packetTypeId.toNat ∨ packetTypeId = 0 then
    .violation "Invalid message type" recvData
  else
    .next (recvData.start b) 1

/-- Seven more bits of the packet length. -/
def PacketReceiveData.addLength (recvData : PacketReceiveData) (encodedByte : UInt8) :
    PacketReceiveData :=
  { recvData with
    packetLength := recvData.packetLength + (encodedByte &&& 127).toUInt32 * recvData.multiplier
    multiplier := recvData.multiplier * 128 }

/-- `case RECEIVING_VAR_LENGTH`. -/
def receiveVarLength (recvData : PacketReceiveData) (encodedByte : UInt8) : Iteration :=
  let recvData := recvData.addLength encodedByte
  if recvData.multiplier > 128 * 128 * 128 then
    .violation "Invalid message length" recvData
  else if encodedByte &&& 0x80 = 0 then
    if recvData.packetLength = 0 then
      let recvData := { recvData with recvState := .idle }
      .packet recvData recvData 1
    else
      .next { recvData with recvState := .receivingData } 1
  else
    .next recvData 1

/-- `case RECEIVING_DATA`, with the bytes from `i` on. The subtraction is the one
of `size_t`, which the assertion keeps from wrapping. -/
def receiveData (recvData : PacketReceiveData) (bytes : List UInt8) : Iteration :=
  let packetLength := recvData.packetLength.toNat
  if recvData.currentReceiveBuffer.length ≤ packetLength then
    let room := packetLength - recvData.currentReceiveBuffer.length
    let advance := if bytes.length ≤ room then bytes.length else room
    let recvData :=
      { recvData with
        currentReceiveBuffer := recvData.currentReceiveBuffer ++ bytes.take advance }
    if recvData.currentReceiveBuffer.length = packetLength then
      .packet recvData { recvData with recvState := .idle } advance
    else
      .next recvData advance
  else
    .assertionFailed

/-- The body of the loop at `bytes.at(i) = b`, with the bytes after it. -/
def receiveIteration [Libnioev] (recvData : PacketReceiveData) (b : UInt8) (bytes : List UInt8) :
    Iteration :=
  match recvData.recvState with
  | .idle => receiveIdle b
  | .receivingVarLength => receiveVarLength recvData b
  | .receivingData => receiveData recvData (b :: bytes)

/-! ### What an iteration does -/

/-- The received bytes do not fill the packet. -/
theorem receiveData_of_lt {recvData : PacketReceiveData} {bytes : List UInt8}
    (h : recvData.currentReceiveBuffer.length + bytes.length < recvData.packetLength.toNat) :
    receiveData recvData bytes =
      .next { recvData with currentReceiveBuffer := recvData.currentReceiveBuffer ++ bytes }
        bytes.length := by
  unfold receiveData
  have hassert : recvData.currentReceiveBuffer.length ≤ recvData.packetLength.toNat := by omega
  have hall : bytes.length ≤
      recvData.packetLength.toNat - recvData.currentReceiveBuffer.length := by omega
  have hne : ¬ recvData.currentReceiveBuffer.length + bytes.length =
      recvData.packetLength.toNat := by omega
  simp only [hassert, hall, if_true, List.take_length, List.length_append, hne, if_false]

/-- The packet with its buffer filled from `bytes`. -/
def PacketReceiveData.fill (recvData : PacketReceiveData) (bytes : List UInt8) :
    PacketReceiveData :=
  { recvData with
    currentReceiveBuffer := recvData.currentReceiveBuffer ++
      bytes.take (recvData.packetLength.toNat - recvData.currentReceiveBuffer.length) }

/-- The received bytes complete the packet. -/
theorem receiveData_of_ge {recvData : PacketReceiveData} {bytes : List UInt8}
    (hassert : recvData.currentReceiveBuffer.length ≤ recvData.packetLength.toNat)
    (h : recvData.packetLength.toNat ≤ recvData.currentReceiveBuffer.length + bytes.length) :
    receiveData recvData bytes =
      .packet (recvData.fill bytes) { recvData.fill bytes with recvState := .idle }
        (recvData.packetLength.toNat - recvData.currentReceiveBuffer.length) := by
  unfold receiveData PacketReceiveData.fill
  have hadvance : (if bytes.length ≤
      recvData.packetLength.toNat - recvData.currentReceiveBuffer.length then bytes.length
      else recvData.packetLength.toNat - recvData.currentReceiveBuffer.length) =
      recvData.packetLength.toNat - recvData.currentReceiveBuffer.length := by
    split <;> omega
  have hfull : recvData.currentReceiveBuffer.length +
      min (recvData.packetLength.toNat - recvData.currentReceiveBuffer.length) bytes.length =
      recvData.packetLength.toNat := by omega
  simp only [hassert, if_true, hadvance, List.length_append, List.length_take, hfull]

/-- The ways through the body of the loop, with what leads to each. -/
inductive PacketReceiveData.Iterates [Libnioev] (recvData : PacketReceiveData) (b : UInt8)
    (bytes : List UInt8) : Iteration → Prop where
  | invalidType : recvData.recvState = .idle → ¬ ValidType b →
      Iterates recvData b bytes (.violation "Invalid message type" {})
  | start : recvData.recvState = .idle → ValidType b →
      Iterates recvData b bytes (.next (PacketReceiveData.start {} b) 1)
  | invalidLength : recvData.recvState = .receivingVarLength →
      128 * 128 * 128 < recvData.multiplier * 128 →
      Iterates recvData b bytes (.violation "Invalid message length" (recvData.addLength b))
  | emptyBody : recvData.recvState = .receivingVarLength →
      recvData.multiplier * 128 ≤ 128 * 128 * 128 → b &&& 0x80 = 0 →
      (recvData.addLength b).packetLength = 0 →
      Iterates recvData b bytes (.packet { recvData.addLength b with recvState := .idle }
        { recvData.addLength b with recvState := .idle } 1)
  | lastLength : recvData.recvState = .receivingVarLength →
      recvData.multiplier * 128 ≤ 128 * 128 * 128 → b &&& 0x80 = 0 →
      (recvData.addLength b).packetLength ≠ 0 →
      Iterates recvData b bytes (.next { recvData.addLength b with recvState := .receivingData } 1)
  | moreLength : recvData.recvState = .receivingVarLength →
      recvData.multiplier * 128 ≤ 128 * 128 * 128 → b &&& 0x80 ≠ 0 →
      Iterates recvData b bytes (.next (recvData.addLength b) 1)
  | partialBody : recvData.recvState = .receivingData →
      recvData.currentReceiveBuffer.length + (b :: bytes).length < recvData.packetLength.toNat →
      Iterates recvData b bytes
        (.next { recvData with currentReceiveBuffer := recvData.currentReceiveBuffer ++ b :: bytes }
          (b :: bytes).length)
  | fullBody : recvData.recvState = .receivingData →
      recvData.currentReceiveBuffer.length ≤ recvData.packetLength.toNat →
      recvData.packetLength.toNat ≤ recvData.currentReceiveBuffer.length + (b :: bytes).length →
      Iterates recvData b bytes
        (.packet (recvData.fill (b :: bytes)) { recvData.fill (b :: bytes) with recvState := .idle }
          (recvData.packetLength.toNat - recvData.currentReceiveBuffer.length))
  | assertionFailed : recvData.recvState = .receivingData →
      recvData.packetLength.toNat < recvData.currentReceiveBuffer.length →
      Iterates recvData b bytes .assertionFailed

theorem iterates_receiveIteration [Libnioev] (recvData : PacketReceiveData) (b : UInt8)
    (bytes : List UInt8) : recvData.Iterates b bytes (receiveIteration recvData b bytes) := by
  cases hstate : recvData.recvState with
  | idle =>
      simp only [receiveIteration, hstate, receiveIdle]
      split
      · next h => exact .invalidType hstate (fun hvalid => by
          rcases h with h | h
          · exact absurd hvalid.1 (not_lt.mpr h)
          · exact hvalid.2 h)
      · next h =>
          rw [not_or, not_le] at h
          exact .start hstate h
  | receivingVarLength =>
      simp only [receiveIteration, hstate, receiveVarLength]
      split
      · next hlong => exact .invalidLength hstate hlong
      · next hlong =>
          have hfits : recvData.multiplier * 128 ≤ 128 * 128 * 128 := UInt32.not_lt.mp hlong
          split
          · next hlast =>
              split
              · next hzero => exact .emptyBody hstate hfits hlast hzero
              · next hpos => exact .lastLength hstate hfits hlast hpos
          · next hmore => exact .moreLength hstate hfits hmore
  | receivingData =>
      simp only [receiveIteration, hstate]
      by_cases hassert : recvData.currentReceiveBuffer.length ≤ recvData.packetLength.toNat
      · by_cases hfull : recvData.packetLength.toNat ≤
            recvData.currentReceiveBuffer.length + (b :: bytes).length
        · rw [receiveData_of_ge hassert hfull]
          exact .fullBody hstate hassert hfull
        · rw [receiveData_of_lt (not_le.mp hfull)]
          exact .partialBody hstate (not_le.mp hfull)
      · rw [receiveData, if_neg hassert]
        exact .assertionFailed hstate (not_le.mp hassert)

/-! ## The loop -/

/-- What makes the receive loop end early. A failed assertion ends the program. -/
inductive ReceiveException where
  | protocolViolation (reason : String)
  | cleanDisconnect
  | runtimeError (what : String)
  | assertionFailed
deriving DecidableEq, Repr

/-- `handlePacketReceived`: what it does to the rest of the program, and the
exception it leaves by. -/
abbrev PacketHandler (σ : Type*) := PacketReceiveData → σ → σ × Option ReceiveException

/-- A handler that does not throw. -/
def PacketHandler.returning {σ : Type*} (f : PacketReceiveData → σ → σ) : PacketHandler σ :=
  fun recvData world => (f recvData world, none)

/-- The state of the loop between two iterations. -/
structure LoopState (σ : Type*) where
  recvData : PacketReceiveData := {}
  /-- How many bytes of the connection's stream have been passed. -/
  position : Nat := 0
  /-- The arguments of all calls of `handlePacketReceived`. -/
  calls : List PacketReceiveData := []
  world : σ
deriving DecidableEq, Repr

/-- The exception and the state it leaves behind. -/
structure Stop (σ : Type*) where
  exception : ReceiveException
  state : LoopState σ
deriving DecidableEq, Repr

section

variable [Libnioev] {σ : Type*} (handlePacketReceived : PacketHandler σ)

/-- One iteration, and the bytes of the chunk that are left. -/
def iterate (b : UInt8) (bytes : List UInt8) (s : LoopState σ) :
    Except (Stop σ) (List UInt8 × LoopState σ) :=
  match receiveIteration s.recvData b bytes with
  | .next recvData advance =>
    .ok ((b :: bytes).drop advance,
      { s with recvData := recvData, position := s.position + advance })
  | .packet recvData after advance =>
    let s :=
      { s with
        recvData := recvData
        position := s.position + advance
        calls := s.calls ++ [recvData] }
    match handlePacketReceived recvData s.world with
    | (world, some e) => .error ⟨e, { s with world := world }⟩
    | (world, none) =>
      .ok ((b :: bytes).drop advance, { s with recvData := after, world := world })
  | .violation reason recvData =>
    .error ⟨.protocolViolation reason, { s with recvData := recvData }⟩
  | .assertionFailed => .error ⟨.assertionFailed, s⟩

/-- Twice the bytes left, and one more where the next iteration may take none. -/
def iterationsLeft (bytes : List UInt8) (s : LoopState σ) : Nat :=
  2 * bytes.length + if s.recvData.recvState = .receivingData then 1 else 0

variable {handlePacketReceived}

/-- The ways an iteration goes on that does not end the loop. -/
theorem iterate_ok {b : UInt8} {bytes rest : List UInt8} {s s' : LoopState σ}
    (h : iterate handlePacketReceived b bytes s = .ok (rest, s')) :
    ∃ after advance, s'.recvData = after ∧ rest = (b :: bytes).drop advance ∧
      (s.recvData.Iterates b bytes (.next after advance) ∨
        ∃ called, s.recvData.Iterates b bytes (.packet called after advance)) := by
  have hiterates := iterates_receiveIteration s.recvData b bytes
  unfold iterate at h
  cases hiter : receiveIteration s.recvData b bytes with
  | next recvData advance =>
      rw [hiter] at h hiterates
      cases h
      exact ⟨recvData, advance, rfl, rfl, .inl hiterates⟩
  | packet called after advance =>
      rw [hiter] at h hiterates
      rcases hcall : handlePacketReceived called s.world with ⟨world, _ | e⟩
      · simp only [hcall] at h
        cases h
        exact ⟨after, advance, rfl, rfl, .inr ⟨called, hiterates⟩⟩
      · simp only [hcall] at h
        cases h
  | violation reason recvData =>
      rw [hiter] at h
      cases h
  | assertionFailed =>
      rw [hiter] at h
      cases h

/-- Every iteration advances the position or leaves the data state. -/
theorem iterate_progress {b : UInt8} {bytes rest : List UInt8} {s s' : LoopState σ}
    (h : iterate handlePacketReceived b bytes s = .ok (rest, s')) :
    rest.length < (b :: bytes).length ∨
      rest = b :: bytes ∧ s.recvData.recvState = .receivingData ∧ s'.recvData.recvState = .idle := by
  obtain ⟨after, advance, hafter, rfl, hnext | ⟨called, hpacket⟩⟩ := iterate_ok h
  · have hpos : 0 < advance := by cases hnext <;> exact Nat.succ_pos _
    exact .inl (by rw [List.length_drop, List.length_cons]; omega)
  · cases hpacket with
    | emptyBody => exact .inl (by simp)
    | fullBody hstate hassert hfull =>
        rcases Nat.eq_zero_or_pos (s.recvData.packetLength.toNat -
          s.recvData.currentReceiveBuffer.length) with hzero | hpos
        · rw [hzero]
          exact .inr ⟨rfl, hstate, by rw [hafter]⟩
        · exact .inl (by rw [List.length_drop, List.length_cons]; omega)

theorem iterationsLeft_lt {b : UInt8} {bytes rest : List UInt8} {s s' : LoopState σ}
    (h : iterate handlePacketReceived b bytes s = .ok (rest, s')) :
    iterationsLeft rest s' < iterationsLeft (b :: bytes) s := by
  unfold iterationsLeft
  rcases iterate_progress h with hlt | ⟨rfl, hdata, hidle⟩
  · split <;> split <;> omega
  · simp [hdata, hidle]

variable (handlePacketReceived)

/-- The loop over the bytes of one chunk. -/
def receiveLoop (bytes : List UInt8) (s : LoopState σ) : Except (Stop σ) (LoopState σ) :=
  match bytes with
  | [] => .ok s
  | b :: bytes =>
    match _h : iterate handlePacketReceived b bytes s with
    | .error stop => .error stop
    | .ok (rest, s') => receiveLoop rest s'
termination_by iterationsLeft bytes s
decreasing_by exact iterationsLeft_lt _h

/-- The chunks of a stream, one `recv` after another. -/
def receiveChunks (chunks : List (List UInt8)) (s : LoopState σ) :
    Except (Stop σ) (LoopState σ) :=
  chunks.foldlM (fun s bytes => receiveLoop handlePacketReceived bytes s) s

@[simp] theorem receiveLoop_nil (s : LoopState σ) :
    receiveLoop handlePacketReceived [] s = .ok s := by
  rw [receiveLoop]

theorem receiveLoop_cons (b : UInt8) (bytes : List UInt8) (s : LoopState σ) :
    receiveLoop handlePacketReceived (b :: bytes) s =
      (iterate handlePacketReceived b bytes s >>=
        fun next => receiveLoop handlePacketReceived next.1 next.2) := by
  rw [receiveLoop]
  cases iterate handlePacketReceived b bytes s with
  | error stop => rfl
  | ok next => rfl

end

/-! ## The buffer -/

/-- There is nothing in the buffer before the body, and room for more in it. -/
def PacketReceiveData.Framed (recvData : PacketReceiveData) : Prop :=
  match recvData.recvState with
  | .idle => True
  | .receivingVarLength => recvData.currentReceiveBuffer = []
  | .receivingData => recvData.currentReceiveBuffer.length < recvData.packetLength.toNat

namespace PacketReceiveData

variable {recvData : PacketReceiveData}

theorem framed_idle (recvData : PacketReceiveData) :
    Framed { recvData with recvState := .idle } := trivial

theorem Framed.length_lt (h : recvData.Framed) (hstate : recvData.recvState = .receivingData) :
    recvData.currentReceiveBuffer.length < recvData.packetLength.toNat := by
  rwa [Framed, hstate] at h

theorem Framed.buffer_eq (h : recvData.Framed)
    (hstate : recvData.recvState = .receivingVarLength) :
    recvData.currentReceiveBuffer = [] := by
  rwa [Framed, hstate] at h

variable [Libnioev] {after called : PacketReceiveData} {b : UInt8} {bytes : List UInt8}
  {advance : Nat}

theorem Framed.next (h : recvData.Framed) (hiter : recvData.Iterates b bytes (.next after advance)) :
    after.Framed := by
  cases hiter with
  | start => exact rfl
  | lastLength hstate hfits hlast hpos =>
      have hbuffer := h.buffer_eq hstate
      show (recvData.addLength b).currentReceiveBuffer.length < _
      simp only [addLength, hbuffer, List.length_nil]
      exact Nat.pos_of_ne_zero fun hzero => hpos (UInt32.toNat_inj.mp hzero)
  | moreLength hstate =>
      have hbuffer := h.buffer_eq hstate
      simpa only [Framed, addLength, hstate] using hbuffer
  | partialBody hstate hroom =>
      simpa only [Framed, hstate, List.length_append] using hroom

theorem Framed.packet (hiter : recvData.Iterates b bytes (.packet called after advance)) :
    after.Framed := by
  cases hiter with
  | emptyBody => exact framed_idle _
  | fullBody => exact framed_idle _

end PacketReceiveData

section

variable [Libnioev] {σ : Type*} {handlePacketReceived : PacketHandler σ}

theorem framed_iterate {b : UInt8} {bytes rest : List UInt8} {s s' : LoopState σ}
    (hs : s.recvData.Framed) (h : iterate handlePacketReceived b bytes s = .ok (rest, s')) :
    s'.recvData.Framed := by
  obtain ⟨after, advance, rfl, -, hnext | ⟨called, hpacket⟩⟩ := iterate_ok h
  · exact hs.next hnext
  · exact PacketReceiveData.Framed.packet hpacket

theorem framed_receiveLoop {bytes : List UInt8} {s s' : LoopState σ}
    (hs : s.recvData.Framed) (h : receiveLoop handlePacketReceived bytes s = .ok s') :
    s'.recvData.Framed := by
  induction bytes, s using receiveLoop.induct handlePacketReceived with
  | case1 s =>
      rw [receiveLoop_nil] at h
      cases h
      exact hs
  | case2 s b bytes stop hiter =>
      rw [receiveLoop_cons, hiter] at h
      cases h
  | case3 s b bytes rest t hiter ih =>
      rw [receiveLoop_cons, hiter] at h
      exact ih (framed_iterate hs hiter) h

/-! ## Independence of the chunking -/

theorem receiveIteration_of_ne_data {recvData : PacketReceiveData}
    (h : recvData.recvState ≠ .receivingData) (b : UInt8) (bytes : List UInt8) :
    receiveIteration recvData b bytes = receiveIteration recvData b [] := by
  unfold receiveIteration
  cases hstate : recvData.recvState with
  | idle => rfl
  | receivingVarLength => rfl
  | receivingData => exact absurd hstate h

/-- The iteration takes one byte, if it goes on at all. -/
def Iteration.TakesOne : Iteration → Prop
  | .next _ advance => advance = 1
  | .packet _ _ advance => advance = 1
  | .violation _ _ => True
  | .assertionFailed => True

theorem takesOne_of_ne_data {recvData : PacketReceiveData}
    (h : recvData.recvState ≠ .receivingData) (b : UInt8) :
    (receiveIteration recvData b []).TakesOne := by
  have hiter := iterates_receiveIteration recvData b []
  generalize receiveIteration recvData b [] = iteration at hiter ⊢
  cases hiter with
  | partialBody hstate => exact absurd hstate h
  | fullBody hstate => exact absurd hstate h
  | assertionFailed hstate => exact absurd hstate h
  | invalidType => trivial
  | invalidLength => trivial
  | start => exact rfl
  | emptyBody => exact rfl
  | lastLength => exact rfl
  | moreLength => exact rfl

/-- The other bytes wait while an iteration takes one. -/
theorem receiveLoop_of_takesOne {s : LoopState σ} {b : UInt8} {bytes : List UInt8}
    (hone : receiveIteration s.recvData b bytes = receiveIteration s.recvData b [])
    (htakes : (receiveIteration s.recvData b []).TakesOne) :
    receiveLoop handlePacketReceived (b :: bytes) s =
      (receiveLoop handlePacketReceived [b] s >>= receiveLoop handlePacketReceived bytes) := by
  rw [receiveLoop_cons, receiveLoop_cons, iterate, iterate, hone]
  cases hiter : receiveIteration s.recvData b [] with
  | next after advance =>
      obtain rfl : advance = 1 := by rwa [hiter] at htakes
      simp [bind, Except.bind]
  | packet called after advance =>
      obtain rfl : advance = 1 := by rwa [hiter] at htakes
      rcases hcall : handlePacketReceived called s.world with ⟨world, _ | e⟩ <;>
        simp [hcall, bind, Except.bind]
  | violation reason recvData => rfl
  | assertionFailed => rfl

/-- The state of the loop after a part of a packet's body. -/
def LoopState.addBody (s : LoopState σ) (bytes : List UInt8) : LoopState σ :=
  { s with
    recvData :=
      { s.recvData with currentReceiveBuffer := s.recvData.currentReceiveBuffer ++ bytes }
    position := s.position + bytes.length }

/-- A part of the body is taken as a whole. -/
theorem receiveLoop_part {s : LoopState σ} (hstate : s.recvData.recvState = .receivingData)
    (bytes : List UInt8)
    (hroom : s.recvData.currentReceiveBuffer.length + bytes.length <
      s.recvData.packetLength.toNat) :
    receiveLoop handlePacketReceived bytes s = .ok (s.addBody bytes) := by
  cases bytes with
  | nil => simp [LoopState.addBody]
  | cons b bytes =>
      rw [receiveLoop_cons, iterate, receiveIteration, hstate]
      simp only [receiveData_of_lt hroom, List.drop_length]
      exact receiveLoop_nil _ _

/-- The bytes that complete the body may come in two parts. -/
theorem iterate_addBody {s : LoopState σ} (hstate : s.recvData.recvState = .receivingData)
    {b c : UInt8} {bytes : List UInt8}
    (hroom : s.recvData.currentReceiveBuffer.length + 1 < s.recvData.packetLength.toNat)
    (hfull : s.recvData.packetLength.toNat ≤
      s.recvData.currentReceiveBuffer.length + (b :: c :: bytes).length) :
    iterate handlePacketReceived b (c :: bytes) s =
      iterate handlePacketReceived c bytes (s.addBody [b]) := by
  obtain ⟨k, hk⟩ : ∃ k, s.recvData.packetLength.toNat =
      s.recvData.currentReceiveBuffer.length + 1 + k := Nat.exists_eq_add_of_le hroom.le
  have hlen : s.recvData.packetLength.toNat - s.recvData.currentReceiveBuffer.length = k + 1 := by
    omega
  have hlen' : s.recvData.packetLength.toNat -
      (s.recvData.currentReceiveBuffer ++ [b]).length = k := by
    rw [List.length_append, List.length_singleton]
    omega
  have hwhole := @receiveData_of_ge s.recvData (b :: c :: bytes) (by omega) hfull
  have hpart := @receiveData_of_ge (s.addBody [b]).recvData (c :: bytes)
    (by simp only [LoopState.addBody, List.length_append, List.length_singleton]; omega)
    (by
      simp only [LoopState.addBody, List.length_append, List.length_cons, List.length_nil]
        at hfull ⊢
      omega)
  have hfill : (s.addBody [b]).recvData.fill (c :: bytes) = s.recvData.fill (b :: c :: bytes) := by
    simp only [LoopState.addBody, PacketReceiveData.fill, hlen, hlen', List.take_succ_cons,
      List.append_assoc, List.singleton_append]
  have hposition : s.position + (k + 1) = (s.addBody [b]).position + k := by
    simp only [LoopState.addBody, List.length_singleton]
    omega
  have hstate' : (s.addBody [b]).recvData.recvState = .receivingData := hstate
  have hrest : (s.addBody [b]).recvData.packetLength.toNat -
      (s.addBody [b]).recvData.currentReceiveBuffer.length = k := hlen'
  simp only [iterate, receiveIteration, hstate, hstate', hwhole, hpart, hfill, hlen, hrest,
    hposition, List.drop_succ_cons]
  rfl

/-- The loop takes its chunk byte by byte. -/
theorem receiveLoop_split (b : UInt8) (bytes : List UInt8) {s : LoopState σ}
    (hs : s.recvData.Framed) :
    receiveLoop handlePacketReceived (b :: bytes) s =
      (receiveLoop handlePacketReceived [b] s >>= receiveLoop handlePacketReceived bytes) := by
  by_cases hstate : s.recvData.recvState = .receivingData
  · have hroom := hs.length_lt hstate
    by_cases hlast : s.recvData.currentReceiveBuffer.length + 1 < s.recvData.packetLength.toNat
    · rw [receiveLoop_part hstate [b] hlast]
      show _ = receiveLoop handlePacketReceived bytes (s.addBody [b])
      by_cases hfull : s.recvData.packetLength.toNat ≤
          s.recvData.currentReceiveBuffer.length + (b :: bytes).length
      · cases bytes with
        | nil => exact absurd hfull (by simpa using hlast)
        | cons c bytes =>
            rw [receiveLoop_cons, iterate_addBody hstate hlast hfull, receiveLoop_cons]
      · have hrest : (s.addBody [b]).recvData.currentReceiveBuffer.length + bytes.length <
            (s.addBody [b]).recvData.packetLength.toNat := by
          simp only [LoopState.addBody, List.length_append, List.length_cons, List.length_nil]
            at hfull ⊢
          omega
        have hstate' : (s.addBody [b]).recvData.recvState = .receivingData := hstate
        rw [receiveLoop_part hstate _ (not_le.mp hfull), receiveLoop_part hstate' _ hrest]
        simp [LoopState.addBody, Nat.add_assoc, Nat.add_comm 1]
    · -- The first byte completes the packet, and the others come after it.
      have hlen : s.recvData.packetLength.toNat - s.recvData.currentReceiveBuffer.length = 1 := by
        omega
      have hone : ∀ bytes, receiveIteration s.recvData b bytes =
          .packet (s.recvData.fill [b]) { s.recvData.fill [b] with recvState := .idle } 1 := by
        intro bytes
        rw [receiveIteration, hstate]
        show receiveData s.recvData (b :: bytes) = _
        rw [receiveData_of_ge hroom.le (by rw [List.length_cons]; omega), hlen]
        simp only [PacketReceiveData.fill, hlen, List.take_succ_cons, List.take_zero]
      refine receiveLoop_of_takesOne (by rw [hone, hone]) ?_
      rw [hone]
      exact rfl
  · exact receiveLoop_of_takesOne (receiveIteration_of_ne_data hstate b bytes)
      (takesOne_of_ne_data hstate b)

variable (handlePacketReceived)

theorem elementwise_receiveLoop :
    Chunks.Elementwise (fun s : LoopState σ => s.recvData.Framed)
      (receiveLoop handlePacketReceived) where
  nil := receiveLoop_nil handlePacketReceived
  cons := fun b bytes _ hs => receiveLoop_split b bytes hs
  preserves := fun _ _ _ hs h => framed_receiveLoop hs h

/-! ## Every iteration

The iterations of the loop one after another, with the chunks that arrive in
between. -/

/-- `recv` brings a chunk, or the loop takes one more turn. -/
inductive LoopEvent where
  | recv (bytes : List UInt8)
  | iteration
deriving DecidableEq, Repr

/-- The loop goes from one state, with the bytes left in the chunk, to another. -/
inductive LoopStep : List UInt8 × LoopState σ → LoopEvent → List UInt8 × LoopState σ → Prop where
  | recv (bytes : List UInt8) (s : LoopState σ) : LoopStep ([], s) (.recv bytes) (bytes, s)
  | iteration {b : UInt8} {bytes : List UInt8} {s : LoopState σ}
      {next : List UInt8 × LoopState σ} :
      iterate handlePacketReceived b bytes s = .ok next → LoopStep (b :: bytes, s) .iteration next

/-- The buffer holds no more than the packet's body. -/
def BufferFits (c : List UInt8 × LoopState σ) : Prop :=
  c.2.recvData.recvState = .receivingData →
    c.2.recvData.currentReceiveBuffer.length ≤ c.2.recvData.packetLength.toNat

/-- A loop that ends consists of iterations. -/
theorem isRun_receiveLoop {bytes : List UInt8} {s s' : LoopState σ}
    (h : receiveLoop handlePacketReceived bytes s = .ok s') :
    ∃ run, Runs.IsRun (LoopStep handlePacketReceived) (bytes, s) run ∧
      Runs.last (bytes, s) run = ([], s') := by
  induction bytes, s using receiveLoop.induct handlePacketReceived with
  | case1 s =>
      rw [receiveLoop_nil] at h
      cases h
      exact ⟨[], Runs.isRun_nil _, rfl⟩
  | case2 s b bytes stop hiter =>
      rw [receiveLoop_cons, hiter] at h
      cases h
  | case3 s b bytes rest t hiter ih =>
      rw [receiveLoop_cons, hiter] at h
      obtain ⟨run, hrun, hlast⟩ := ih h
      exact ⟨(.iteration, (rest, t)) :: run, ⟨.iteration hiter, hrun⟩, hlast⟩

theorem bufferFits_of_isRun (world : σ) {run : List (LoopEvent × (List UInt8 × LoopState σ))}
    (hrun : Runs.IsRun (LoopStep handlePacketReceived) ([], { world := world }) run) :
    Runs.AllStates BufferFits run := by
  have hframed : Runs.AllStates (fun c : List UInt8 × LoopState σ => c.2.recvData.Framed) run := by
    refine hrun.invariant (fun c event c' hc hstep => ?_) trivial
    cases hstep with
    | recv bytes s => exact hc
    | iteration hiter => exact framed_iterate hc hiter
  intro x hx hstate
  exact ((hframed x hx).length_lt hstate).le

/-- The framer does the same with a stream however it is cut into chunks: the
calls of the handler, the state in the end or the violation, and where it is. The
buffer never outgrows the packet, and no iteration stands still. -/
theorem receiveChunks_framing (world : σ) :
    (∀ xs ys : List (List UInt8), xs.flatten = ys.flatten →
      receiveChunks handlePacketReceived xs { world := world } =
        receiveChunks handlePacketReceived ys { world := world }) ∧
    (∀ run, Runs.IsRun (LoopStep handlePacketReceived) ([], { world := world }) run →
      Runs.AllStates BufferFits run) ∧
    (∀ (b : UInt8) (bytes rest : List UInt8) (s s' : LoopState σ),
      iterate handlePacketReceived b bytes s = .ok (rest, s') →
      rest.length < (b :: bytes).length ∨
        s.recvData.recvState = .receivingData ∧ s'.recvData.recvState ≠ .receivingData) := by
  refine ⟨fun xs ys hstream => ?_, fun run hrun => ?_, fun b bytes rest s s' hiter => ?_⟩
  · have hidle : ({ world := world } : LoopState σ).recvData.Framed := trivial
    exact (elementwise_receiveLoop handlePacketReceived).chunking_independent hidle hstream
  · exact bufferFits_of_isRun handlePacketReceived world hrun
  · rcases iterate_progress hiter with hlt | ⟨-, hdata, hidle⟩
    · exact .inl hlt
    · exact .inr ⟨hdata, by rw [hidle]; decide⟩

end

/-- A `PINGREQ` that arrives in two chunks, and in one: the chunk as received,
and its first iteration. -/
theorem receiveChunks_framing_pingreq :
    let handler : PacketHandler Unit := .returning fun _ world => world
    let s : LoopState Unit := { world := () }
    let s' : LoopState Unit := { s with recvData := .start {} 0xC0, position := 1 }
    @receiveChunks .standard Unit handler [[0xC0], [0x00]] s =
      @receiveChunks .standard Unit handler [[0xC0, 0x00]] s ∧
    Runs.AllStates BufferFits [(LoopEvent.recv [0xC0, 0x00], ([0xC0, 0x00], s))] ∧
    ([0x00].length < [0xC0, 0x00].length ∨
      s.recvData.recvState = .receivingData ∧ s'.recvData.recvState ≠ .receivingData) := by
  have h := @receiveChunks_framing .standard Unit (.returning fun _ world => world) ()
  exact ⟨h.1 _ _ rfl, h.2.1 _ ⟨@LoopStep.recv .standard _ _ _ _, trivial⟩,
    h.2.2 0xC0 [0x00] [0x00] _ _ rfl⟩

end NioevMqtt
