-- SUMMARY: Outbound data of a connection: scatter sends, the queue of unfinished packets, and the integrity of the byte stream.
import NioevMqtt.Connection.Types
import NioevMqtt.Packet.IOVecs
import NioevMqtt.Library.Runs
import NioevMqtt.Library.Segments

/-!
# The send queue

`TcpClientConnection::sendScatter`, `MQTTClientConnection::sendData` and the
`EPOLLOUT` branch of `ClientThreadManager::receiverThreadFunction`. A packet is
written to the socket at once while nothing is queued; what the socket does not
take stays in `mSendTasks` with an offset, and later packets queue up behind it.
-/

namespace NioevMqtt

/-! ## Sending -/

/-- What `::sendmsg` returned: a byte count, `EAGAIN`, or another error. A closed
descriptor counts as an error. -/
inductive SendmsgResult where
  | accepted (n : Nat)
  | wouldBlock
  | failed
deriving DecidableEq, Repr

inductive SendException where
  | cleanDisconnect
  | errno
deriving DecidableEq, Repr

/-- The answers to an offer of `size` bytes that are not failures: a positive
count up to the offer, or that the call would block. -/
def SendmsgResult.Admits (size : Nat) : SendmsgResult → Prop
  | .accepted n => 0 < n ∧ n ≤ size
  | .wouldBlock => True
  | .failed => False

/-- The system limit on the entries of one `sendmsg`. -/
def UIO_MAXIOV : Nat := 1024

/-- The loop of `sendScatter` that spreads the accepted byte count over the
packets. It returns the packets and what is left of the count. -/
def advanceOffsets : List InTransitEncodedPacket → Nat → List InTransitEncodedPacket × Nat
  | [], result => ([], result)
  | p :: packets, result =>
    let remainingPacketSize := p.packet.fullSize - p.offset
    if remainingPacketSize ≤ result then
      let (packets, result) := advanceOffsets packets (result - remainingPacketSize)
      ({ p with offset := p.packet.fullSize } :: packets, result)
    else
      ({ p with offset := p.offset + result } :: packets, 0)

/-- `sendScatter(packets, encodedPacketCount)` on the whole of `packets`, with
what `::sendmsg` answers. It returns its leftover count and the packets. -/
def sendScatter (packets : List InTransitEncodedPacket) (result : SendmsgResult) :
    Except SendException (Nat × List InTransitEncodedPacket) :=
  let encodedPacketCount := min packets.length (UIO_MAXIOV / 4)
  match result with
  | .accepted 0 => .error .cleanDisconnect
  | .wouldBlock => .ok (0, packets)
  | .failed => .error .errno
  | .accepted n =>
    let (sent, leftover) := advanceOffsets (packets.take encodedPacketCount) n
    .ok (leftover, sent ++ packets.drop encodedPacketCount)

/-- The send side of a connection and of its socket. -/
structure SendState where
  mSendTasks : List InTransitEncodedPacket := []
  mSendError : Bool := false
  /-- All bytes the socket has accepted. -/
  accepted : List UInt8 := []
  /-- The wire bytes of all packets given to `sendData`. -/
  handed : List UInt8 := []
  /-- What the last `sendScatter` returned. -/
  leftover : Nat := 0

namespace SendState

/-- The bytes queued but not yet accepted, in order. -/
def unsent (s : SendState) : List UInt8 :=
  (s.mSendTasks.map InTransitEncodedPacket.remaining).flatten

section

/-! The bytes `constructIOVecs` presents for a packet from an offset on. -/
variable (present : EncodedPacket → Nat → List UInt8)

/-- What one `sendScatter` on `packets` offers to the socket. -/
def offered (packets : List InTransitEncodedPacket) : List UInt8 :=
  ((packets.take (UIO_MAXIOV / 4)).map fun p => present p.packet p.offset).flatten

/-- The bytes taken from what was offered. -/
def taken (packets : List InTransitEncodedPacket) : SendmsgResult → List UInt8
  | .accepted n => (offered present packets).take n
  | _ => []

/-- `MQTTClientConnection::sendData`. -/
def sendData (packet : EncodedPacket) (result : SendmsgResult) (s : SendState) : SendState :=
  let packet : InTransitEncodedPacket := { packet := packet }
  let s := { s with handed := s.handed ++ packet.packet.wireBytes }
  if s.mSendTasks.isEmpty then
    match sendScatter [packet] result with
    | .error _ => { s with mSendError := true }
    | .ok (leftover, packets) =>
      let s := { s with accepted := s.accepted ++ taken present [packet] result, leftover := leftover }
      let packet := packets.headD packet
      if packet.isDone then s else { s with mSendTasks := s.mSendTasks ++ [packet] }
  else
    { s with mSendTasks := s.mSendTasks ++ [packet] }

/-- The `EPOLLOUT` branch of `receiverThreadFunction`, with the exception it
leaves by. -/
def flushSendTasks (state : ConnectionState) (result : SendmsgResult) (s : SendState) :
    SendState × Option SendException :=
  if s.mSendTasks.isEmpty then (s, none)
  else
    match sendScatter s.mSendTasks result with
    | .error e => (s, some e)
    | .ok (leftover, sendTasks) =>
      let donePackets := (sendTasks.takeWhile InTransitEncodedPacket.isDone).length
      let s :=
        { s with
          mSendTasks := sendTasks.drop donePackets
          accepted := s.accepted ++ taken present s.mSendTasks result
          leftover := leftover }
      if s.mSendTasks.isEmpty && state == .invalidProtocolVersion then (s, some .cleanDisconnect)
      else (s, none)

end

end SendState

/-! ## Runs of one connection -/

/-- What happens on the send side of a connection. -/
inductive SendOp where
  | sendData (packet : EncodedPacket) (result : SendmsgResult)
  | flush (state : ConnectionState) (result : SendmsgResult)

namespace SendOp

/-- The packets the operation offers to the socket. -/
def offers (s : SendState) : SendOp → List InTransitEncodedPacket
  | sendData packet _ => if s.mSendTasks.isEmpty then [{ packet := packet }] else []
  | flush _ _ => s.mSendTasks

def result : SendOp → SendmsgResult
  | sendData _ result => result
  | flush _ result => result

/-- Where the operation sends at all, `::sendmsg` does not fail. -/
def Admissible (present : EncodedPacket → Nat → List UInt8) (s : SendState) (op : SendOp) : Prop :=
  op.offers s ≠ [] → op.result.Admits (SendState.offered present (op.offers s)).length

/-- The state after an operation. -/
def run (present : EncodedPacket → Nat → List UInt8) (s : SendState) : SendOp → SendState
  | sendData packet result => s.sendData present packet result
  | flush state result => (s.flushSendTasks present state result).1

/-- One step of a run without a failing send. -/
def Step (present : EncodedPacket → Nat → List UInt8) (s : SendState) (op : SendOp)
    (t : SendState) : Prop :=
  op.Admissible present s ∧ op.run present s = t

end SendOp

/-! ## The queue -/

/-- Every queued packet has bytes to send, and only the first has started. -/
structure OnlyHeadStarted (q : List InTransitEncodedPacket) : Prop where
  pending : ∀ p ∈ q, p.offset < p.packet.fullSize
  untouched : ∀ p ∈ q.tail, p.offset = 0

namespace OnlyHeadStarted

theorem tail_offset {p : InTransitEncodedPacket} {q : List InTransitEncodedPacket}
    (h : OnlyHeadStarted (p :: q)) : OnlyHeadStarted q where
  pending := fun p hp => h.pending p (List.mem_cons_of_mem _ hp)
  untouched := fun p hp => h.untouched p (List.mem_of_mem_tail hp)

theorem not_isDone {p : InTransitEncodedPacket} {q : List InTransitEncodedPacket}
    (h : OnlyHeadStarted q) (hp : p ∈ q) : p.isDone = false := by
  simpa [InTransitEncodedPacket.isDone] using h.pending p hp

theorem dropWhile_isDone {q : List InTransitEncodedPacket} (h : OnlyHeadStarted q) :
    q.dropWhile InTransitEncodedPacket.isDone = q := by
  cases q with
  | nil => rfl
  | cons p q => simp [h.not_isDone List.mem_cons_self]

theorem append_fresh {q : List InTransitEncodedPacket} (h : OnlyHeadStarted q)
    (packet : EncodedPacket) : OnlyHeadStarted (q ++ [{ packet := packet }]) where
  pending := by
    intro p hp
    rcases List.mem_append.mp hp with hp | hp
    · exact h.pending p hp
    · rw [List.mem_singleton.mp hp]
      exact packet.fullSize_pos
  untouched := by
    intro p hp
    cases q with
    | nil => simp at hp
    | cons p' q =>
        rcases List.mem_append.mp hp with hp | hp
        · exact h.untouched p hp
        · rw [List.mem_singleton.mp hp]

theorem nil : OnlyHeadStarted [] := ⟨by simp, by simp⟩

end OnlyHeadStarted

open InTransitEncodedPacket (remaining isDone length_remaining remaining_of_isDone)

/-- The bytes left in packets of which a prefix is done are those of the rest. -/
theorem flatten_remaining_dropWhile (q : List InTransitEncodedPacket) :
    ((q.dropWhile isDone).map remaining).flatten = (q.map remaining).flatten := by
  induction q with
  | nil => rfl
  | cons p q ih =>
      cases hp : p.isDone with
      | true => simp [hp, ih, remaining_of_isDone hp]
      | false => simp [hp]

/-! ## Spreading the accepted bytes -/

/-- The packets lose the accepted bytes from the front of their concatenation. -/
theorem map_remaining_advanceOffsets (q : List InTransitEncodedPacket) (n : Nat) :
    (advanceOffsets q n).1.map remaining = Segments.drop n (q.map remaining) := by
  induction q generalizing n with
  | nil => rfl
  | cons p q ih =>
      rw [advanceOffsets, List.map_cons, Segments.drop_cons, length_remaining]
      split
      · next hle =>
          have hdone : p.remaining.drop n = [] :=
            List.drop_eq_nil_of_le (by rwa [length_remaining])
          have hfull : remaining { p with offset := p.packet.fullSize } = [] :=
            remaining_of_isDone (by simp [isDone])
          simp only [List.map_cons, hfull, hdone, ih]
      · next hlt =>
          have hzero : n - (p.packet.fullSize - p.offset) = 0 := by omega
          have hdrop : remaining { p with offset := p.offset + n } = p.remaining.drop n := by
            simp only [remaining, List.drop_drop]
          simp only [List.map_cons, hdrop, hzero, Segments.drop_zero]

theorem length_advanceOffsets (q : List InTransitEncodedPacket) (n : Nat) :
    (advanceOffsets q n).1.length = q.length := by
  induction q generalizing n with
  | nil => rfl
  | cons p q ih =>
      rw [advanceOffsets]
      split
      · simp only [List.length_cons, ih]
      · rfl

/-- Packets behind the offered ones keep their offsets, and nothing is left of a
count that was offered. -/
theorem advanceOffsets_append {q : List InTransitEncodedPacket}
    (behind : List InTransitEncodedPacket) {n : Nat}
    (hn : n ≤ (q.map remaining).flatten.length)
    (hbehind : ∀ p ∈ behind, p.offset < p.packet.fullSize) :
    advanceOffsets (q ++ behind) n = ((advanceOffsets q n).1 ++ behind, 0) := by
  induction q generalizing n with
  | nil =>
      obtain rfl : n = 0 := by simpa using hn
      cases behind with
      | nil => rfl
      | cons p behind =>
          have hp := hbehind p List.mem_cons_self
          simp [advanceOffsets, show ¬ p.packet.fullSize - p.offset ≤ 0 by omega]
  | cons p q ih =>
      simp only [List.map_cons, List.flatten_cons, List.length_append, length_remaining] at hn
      simp only [List.cons_append, advanceOffsets]
      split
      · rw [ih (by omega)]
        rfl
      · rfl

/-- After the finished packets are erased, again only the first has started. -/
theorem OnlyHeadStarted.advanceOffsets {q : List InTransitEncodedPacket} (h : OnlyHeadStarted q)
    (n : Nat) : OnlyHeadStarted ((advanceOffsets q n).1.dropWhile isDone) := by
  induction q generalizing n with
  | nil => exact .nil
  | cons p q ih =>
      rw [NioevMqtt.advanceOffsets]
      split
      · next hle =>
          have hdone : isDone { p with offset := p.packet.fullSize } = true := by simp [isDone]
          simp only [List.dropWhile_cons, hdone, if_true]
          exact ih h.tail_offset _
      · next hlt =>
          have hnot : isDone { p with offset := p.offset + n } = false := by
            simp [isDone]; omega
          simp only [List.dropWhile_cons, hnot, Bool.false_eq_true, if_false]
          refine ⟨?_, h.untouched⟩
          intro p' hp'
          rcases List.mem_cons.mp hp' with rfl | hp'
          · simp only; omega
          · exact h.pending p' (List.mem_cons_of_mem _ hp')

/-! ## One scatter send -/

/-- The count passed to the loop is the length, up to the limit. -/
theorem take_min_length {α : Type*} (q : List α) (k : Nat) : q.take (min q.length k) = q.take k := by
  rcases Nat.le_total q.length k with h | h
  · rw [Nat.min_eq_left h, List.take_length, List.take_of_length_le h]
  · rw [Nat.min_eq_right h]

theorem drop_min_length {α : Type*} (q : List α) (k : Nat) : q.drop (min q.length k) = q.drop k := by
  rcases Nat.le_total q.length k with h | h
  · rw [Nat.min_eq_left h, List.drop_length, List.drop_eq_nil_of_le h]
  · rw [Nat.min_eq_right h]

/-- Erasing the finished packets at the front. -/
theorem drop_length_takeWhile {α : Type*} (P : α → Bool) (q : List α) :
    q.drop (q.takeWhile P).length = q.dropWhile P := by
  have hsplit := List.takeWhile_append_dropWhile (p := P) (l := q)
  calc q.drop (q.takeWhile P).length
      = (q.takeWhile P ++ q.dropWhile P).drop (q.takeWhile P).length := by rw [hsplit]
    _ = q.dropWhile P := List.drop_left

namespace SendState

variable {present : EncodedPacket → Nat → List UInt8}

/-- `constructIOVecs` presents exactly the bytes from the offset on. -/
def PresentsRest (present : EncodedPacket → Nat → List UInt8) : Prop :=
  ∀ p offset, offset < p.fullSize → present p offset = p.wireBytes.drop offset

/-- What is offered are the unsent bytes of the first packets. -/
theorem offered_eq (hpresent : PresentsRest present) {q : List InTransitEncodedPacket}
    (hq : OnlyHeadStarted q) :
    offered present q = ((q.take (UIO_MAXIOV / 4)).map remaining).flatten := by
  have hmap : ∀ p ∈ q.take (UIO_MAXIOV / 4), present p.packet p.offset = p.remaining :=
    fun p hp => hpresent _ _ (hq.pending p (List.mem_of_mem_take hp))
  rw [offered, List.map_congr_left hmap]

/-- A count that was offered is spread over the packets, and nothing is left of it. -/
theorem sendScatter_accepted {q : List InTransitEncodedPacket} (hq : OnlyHeadStarted q) {n : Nat}
    (hpos : 0 < n) (hle : n ≤ ((q.take (UIO_MAXIOV / 4)).map remaining).flatten.length) :
    sendScatter q (.accepted n) = .ok (0, (advanceOffsets q n).1) := by
  have hsplit := advanceOffsets_append (q.drop (UIO_MAXIOV / 4)) hle
    (fun p hp => hq.pending p (List.mem_of_mem_drop hp))
  rw [List.take_append_drop] at hsplit
  have hleft : (advanceOffsets (q.take (UIO_MAXIOV / 4)) n).2 = 0 := by
    have hnil := advanceOffsets_append [] hle (by simp)
    rw [List.append_nil] at hnil
    rw [hnil]
  obtain ⟨n, rfl⟩ := Nat.exists_eq_succ_of_ne_zero hpos.ne'
  simp only [sendScatter, take_min_length, drop_min_length, hleft, hsplit]

/-- A send that does not fail takes a prefix of the unsent bytes and leaves no
count over. -/
theorem sendScatter_spec (hpresent : PresentsRest present) {q : List InTransitEncodedPacket}
    (hq : OnlyHeadStarted q) {result : SendmsgResult}
    (hresult : result.Admits (offered present q).length) :
    ∃ sent, sendScatter q result = .ok (0, sent) ∧ sent.length = q.length ∧
      taken present q result ++ (sent.map remaining).flatten = (q.map remaining).flatten ∧
      OnlyHeadStarted (sent.dropWhile isDone) := by
  cases result with
  | failed => exact hresult.elim
  | wouldBlock =>
      refine ⟨q, rfl, rfl, rfl, ?_⟩
      rwa [hq.dropWhile_isDone]
  | accepted n =>
      obtain ⟨hpos, hle⟩ := hresult
      have hoffered := offered_eq hpresent hq
      rw [hoffered] at hle
      have hsent : taken present q (.accepted n) = ((q.map remaining).flatten).take n := by
        rw [taken, hoffered]
        conv_rhs => rw [← List.take_append_drop (UIO_MAXIOV / 4) q, List.map_append,
          List.flatten_append, List.take_append_of_le_length hle]
      refine ⟨_, sendScatter_accepted hq hpos hle, length_advanceOffsets q n, ?_,
        hq.advanceOffsets n⟩
      rw [hsent, map_remaining_advanceOffsets, Segments.flatten_drop, List.take_append_drop]

/-! ## Integrity of the stream -/

/-- The bytes accepted so far and the unsent ones are the packets handed over, in
order; at most the first packet is partly sent, and no send left a count over. -/
structure Intact (s : SendState) : Prop where
  stream : s.accepted ++ s.unsent = s.handed
  queue : OnlyHeadStarted s.mSendTasks
  leftover_eq : s.leftover = 0

theorem intact_initial : Intact {} := ⟨rfl, .nil, rfl⟩

/-- Behind queued packets a packet waits. -/
theorem sendData_queued {s : SendState} (hne : s.mSendTasks ≠ []) (packet : EncodedPacket)
    (result : SendmsgResult) :
    s.sendData present packet result =
      { s with
        handed := s.handed ++ packet.wireBytes
        mSendTasks := s.mSendTasks ++ [{ packet := packet }] } := by
  have hqueue : s.mSendTasks.isEmpty = false := by simpa using hne
  simp only [SendState.sendData, hqueue, Bool.false_eq_true, if_false]

/-- With nothing queued a packet is sent, and queued if it is not done. -/
theorem sendData_sent {s : SendState} (hempty : s.mSendTasks = []) {packet : EncodedPacket}
    {result : SendmsgResult} {leftover : Nat} {p : InTransitEncodedPacket}
    (hsend : sendScatter [{ packet := packet }] result = .ok (leftover, [p])) :
    s.sendData present packet result =
      { s with
        mSendTasks := [p].dropWhile isDone
        accepted := s.accepted ++ taken present [{ packet := packet }] result
        handed := s.handed ++ packet.wireBytes
        leftover := leftover } := by
  cases hdone : p.isDone <;> simp [SendState.sendData, hempty, hsend, hdone]

/-- A flush erases the packets it has finished. -/
theorem flushSendTasks_sent {s : SendState} (hne : s.mSendTasks ≠ []) {state : ConnectionState}
    {result : SendmsgResult} {leftover : Nat} {sent : List InTransitEncodedPacket}
    (hsend : sendScatter s.mSendTasks result = .ok (leftover, sent)) :
    (s.flushSendTasks present state result).1 =
      { s with
        mSendTasks := sent.dropWhile isDone
        accepted := s.accepted ++ taken present s.mSendTasks result
        leftover := leftover } := by
  have hqueue : s.mSendTasks.isEmpty = false := by simpa using hne
  simp only [SendState.flushSendTasks, hqueue, Bool.false_eq_true, if_false, hsend,
    drop_length_takeWhile]
  split <;> rfl

theorem Intact.sendData (hpresent : PresentsRest present) {s : SendState} (h : s.Intact)
    {packet : EncodedPacket} {result : SendmsgResult}
    (hresult : (SendOp.sendData packet result).Admissible present s) :
    (s.sendData present packet result).Intact := by
  obtain ⟨hstream, hqueue, hleft⟩ := h
  cases hempty : s.mSendTasks with
  | cons p q =>
      have hqueue' := hqueue.append_fresh packet
      rw [sendData_queued (by rw [hempty]; exact List.cons_ne_nil p q)]
      refine ⟨?_, hqueue', hleft⟩
      simp only [unsent] at hstream ⊢
      simp [← hstream, remaining]
  | nil =>
      have hfresh : OnlyHeadStarted [{ packet := packet }] := by
        simpa using OnlyHeadStarted.nil.append_fresh packet
      have hadmits : result.Admits (offered present [{ packet := packet }]).length := by
        have hoffers : (SendOp.sendData packet result).offers s = [{ packet := packet }] := by
          simp [SendOp.offers, hempty]
        rw [SendOp.Admissible, hoffers] at hresult
        exact hresult (by simp)
      obtain ⟨sent, hsend, hlen, htaken, hsent⟩ := sendScatter_spec hpresent hfresh hadmits
      obtain ⟨p, rfl⟩ := List.length_eq_one_iff.mp hlen
      rw [sendData_sent hempty hsend]
      refine ⟨?_, hsent, rfl⟩
      simp only [unsent, hempty, List.map_nil, List.flatten_nil, List.append_nil] at hstream
      simp only [unsent, flatten_remaining_dropWhile, List.append_assoc, htaken, hstream]
      simp [remaining]

theorem Intact.flushSendTasks (hpresent : PresentsRest present) {s : SendState} (h : s.Intact)
    {state : ConnectionState} {result : SendmsgResult}
    (hresult : (SendOp.flush state result).Admissible present s) :
    (s.flushSendTasks present state result).1.Intact := by
  obtain ⟨hstream, hqueue, hleft⟩ := h
  by_cases hempty : s.mSendTasks = []
  · simp only [SendState.flushSendTasks, hempty, List.isEmpty_nil, if_true]
    exact ⟨hstream, hqueue, hleft⟩
  · have hadmits : result.Admits (offered present s.mSendTasks).length := hresult hempty
    obtain ⟨sent, hsend, -, htaken, hsent⟩ := sendScatter_spec hpresent hqueue hadmits
    rw [flushSendTasks_sent hempty hsend]
    refine ⟨?_, hsent, rfl⟩
    simp only [unsent, flatten_remaining_dropWhile, List.append_assoc, htaken]
    exact hstream

/-- The outbound stream of a connection stays intact over every run of sends and
flushes none of which throws. -/
theorem intact_of_isRun (hpresent : PresentsRest present) {run : List (SendOp × SendState)}
    (hrun : Runs.IsRun (SendOp.Step present) {} run) : Runs.AllStates Intact run := by
  refine hrun.invariant (fun s op t hs hstep => ?_) intact_initial
  obtain ⟨hresult, rfl⟩ := hstep
  cases op with
  | sendData packet result => exact hs.sendData hpresent hresult
  | flush state result => exact hs.flushSendTasks hpresent hresult

/-- A packet of eight bytes, of which the socket takes three and then the rest. -/
theorem intact_publishExample :
    let present : EncodedPacket → Nat → List UInt8 := fun p offset => p.wireBytes.drop offset
    let send := SendOp.sendData .publishExample (.accepted 3)
    let flush := SendOp.flush .connected (.accepted 5)
    let s := send.run present {}
    Runs.AllStates Intact [(send, s), (flush, flush.run present s)] :=
  intact_of_isRun (fun _ _ _ => rfl)
    ⟨⟨fun _ => ⟨by decide, by decide +kernel⟩, rfl⟩,
      ⟨fun _ => ⟨by decide, by decide +kernel⟩, rfl⟩, trivial⟩

end SendState

end NioevMqtt
