-- SUMMARY: The read events of one connection as a transition system: the replay of buffered packets, the receive loop and the login on another thread.
import NioevMqtt.Connection.ReceiveLoop

/-!
# Read events

The `EPOLLIN` branch of `ClientThreadManager::receiverThreadFunction`, in small
steps: an event first replays the packets buffered while the login was pending,
then reads chunks until the socket is empty. The login executes on the worker
thread, between any two steps. An exception ends the event; the logout it
requests is executed later, and until then further events may come.

What `handlePacketReceived` does is modelled as far as the connection itself is
concerned. Whether a handler throws is left open.
-/

namespace NioevMqtt

/-- A packet with its number on the connection. The first packet is number 1. -/
structure NumberedPacket where
  number : Nat
  packet : PacketReceiveData
deriving DecidableEq, Repr

/-- Where the thread is in a read event. -/
inductive EventPhase where
  | idle
  /-- In `handlePacketsReceivedWhileConnecting`, before the packet at the index. -/
  | replaying (index : Nat)
  /-- In the receive loop, with the bytes of the chunk that are left. -/
  | receiving (bytes : List UInt8)
deriving DecidableEq, Repr

/-- How `handlePacketReceived` ends. Only a `CONNECT` can be turned down for its
protocol version. -/
inductive HandlerOutcome where
  | returns
  | rejectsVersion
  | throws (e : ReceiveException)
deriving DecidableEq, Repr

/-- A connection as its receiver sees it. -/
structure Receiver where
  mState : ConnectionState := .initial
  recvData : PacketReceiveData := {}
  packetsReceivedWhileConnecting : List NumberedPacket := []
  phase : EventPhase := .idle
  /-- The bytes in the socket. -/
  unread : List UInt8 := []
  loginRequested : Bool := false
  loginExecuted : Bool := false
  /-- How many packets have been started. -/
  started : Nat := 0
  /-- The packets passed to `handlePacketReceived` by the receive loop. -/
  received : List Nat := []
  /-- The packets passed to `handlePacketReceived` by the replay. -/
  replayed : List Nat := []
  /-- The packets handled as those of a connected client. -/
  handled : List Nat := []
  handledBeforeLogin : Bool := false
  /-- Processing the bytes of the connection has thrown. -/
  thrown : Bool := false
  /-- The replay has thrown. -/
  replayThrown : Bool := false
  /-- `handlePacketReceived` was called after something had thrown. -/
  calledAfterThrow : Bool := false
deriving DecidableEq, Repr

namespace Receiver

/-! ## Handling a packet -/

/-- `handlePacketReceived` under the given connection state. -/
def handlePacketReceived (s : Receiver) (state : ConnectionState) (p : NumberedPacket)
    (outcome : HandlerOutcome) : Receiver × Option ReceiveException :=
  match state with
  | .initial =>
    if p.packet.messageType = .connect then
      match outcome with
      | .returns => ({ s with mState := .connecting, loginRequested := true }, none)
      | .rejectsVersion => ({ s with mState := .invalidProtocolVersion }, none)
      | .throws e => (s, some e)
    else
      (s, some (.protocolViolation "Packet not allowed here"))
  | .connecting =>
    ({ s with packetsReceivedWhileConnecting := s.packetsReceivedWhileConnecting ++ [p] }, none)
  | .connected =>
    let s :=
      { s with
        handled := s.handled ++ [p.number]
        handledBeforeLogin := s.handledBeforeLogin || !s.loginExecuted }
    match outcome with
    | .throws e => (s, some e)
    | _ => (s, none)
  | .invalidProtocolVersion => (s, none)

/-- The ways a call of `handlePacketReceived` ends. -/
inductive Handles (s : Receiver) (p : NumberedPacket) :
    ConnectionState → Receiver → Option ReceiveException → Prop where
  | connect : Handles s p .initial { s with mState := .connecting, loginRequested := true } none
  | rejectVersion : Handles s p .initial { s with mState := .invalidProtocolVersion } none
  | initialThrows (e : ReceiveException) : Handles s p .initial s (some e)
  | buffer : Handles s p .connecting
      { s with packetsReceivedWhileConnecting := s.packetsReceivedWhileConnecting ++ [p] } none
  | handle : Handles s p .connected
      { s with
        handled := s.handled ++ [p.number]
        handledBeforeLogin := s.handledBeforeLogin || !s.loginExecuted } none
  | handleThrows (e : ReceiveException) : Handles s p .connected
      { s with
        handled := s.handled ++ [p.number]
        handledBeforeLogin := s.handledBeforeLogin || !s.loginExecuted } (some e)
  | ignore : Handles s p .invalidProtocolVersion s none

theorem handles_of_handlePacketReceived {s t : Receiver} {state : ConnectionState}
    {p : NumberedPacket} {outcome : HandlerOutcome} {exception : Option ReceiveException}
    (h : s.handlePacketReceived state p outcome = (t, exception)) :
    s.Handles p state t exception := by
  unfold handlePacketReceived at h
  cases state with
  | initial =>
      simp only at h
      split at h
      · cases outcome with
        | returns => cases h; exact .connect
        | rejectsVersion => cases h; exact .rejectVersion
        | throws e => cases h; exact .initialThrows e
      · cases h; exact .initialThrows _
  | connecting => cases h; exact .buffer
  | connected =>
      cases outcome with
      | returns => cases h; exact .handle
      | rejectsVersion => cases h; exact .handle
      | throws e => cases h; exact .handleThrows e
  | invalidProtocolVersion => cases h; exact .ignore

namespace Handles

variable {s t : Receiver} {p : NumberedPacket} {state : ConnectionState}
  {exception : Option ReceiveException}

/-! A handler leaves the receive side of the connection alone. -/

theorem started_eq (h : s.Handles p state t exception) : t.started = s.started := by
  cases h <;> rfl

theorem phase_eq (h : s.Handles p state t exception) : t.phase = s.phase := by
  cases h <;> rfl

theorem received_eq (h : s.Handles p state t exception) : t.received = s.received := by
  cases h <;> rfl

theorem replayed_eq (h : s.Handles p state t exception) : t.replayed = s.replayed := by
  cases h <;> rfl

theorem loginExecuted_eq (h : s.Handles p state t exception) :
    t.loginExecuted = s.loginExecuted := by
  cases h <;> rfl

theorem replayThrown_eq (h : s.Handles p state t exception) : t.replayThrown = s.replayThrown := by
  cases h <;> rfl

theorem thrown_eq (h : s.Handles p state t exception) : t.thrown = s.thrown := by
  cases h <;> rfl

theorem calledAfterThrow_eq (h : s.Handles p state t exception) :
    t.calledAfterThrow = s.calledAfterThrow := by
  cases h <;> rfl

/-- At most, the packet is buffered. -/
theorem buffered (h : s.Handles p state t exception) :
    t.packetsReceivedWhileConnecting = s.packetsReceivedWhileConnecting ∨
      t.packetsReceivedWhileConnecting = s.packetsReceivedWhileConnecting ++ [p] := by
  cases h with
  | buffer => exact .inr rfl
  | _ => exact .inl rfl

end Handles

/-- The `catch` blocks: the event is over, and `recvData` stays as it is. The rest
of the chunk is lost. -/
def catchException (s : Receiver) : Receiver := { s with phase := .idle, thrown := true }

/-! ## Steps -/

/-- What happens next on the connection. -/
inductive Event where
  /-- Bytes arrive at the socket. -/
  | arrive (bytes : List UInt8)
  /-- The login request is executed. -/
  | login
  | beginEvent
  | replayNext (outcome : HandlerOutcome)
  | replayDone
  /-- `recv` returns the given number of bytes. -/
  | recv (n : Nat)
  /-- The body of the receive loop. -/
  | iterate (outcome : HandlerOutcome)
  /-- `recv` finds the socket empty. -/
  | endEvent
deriving DecidableEq, Repr

/-- The end of `ApplicationState::operator()(ChangeRequestLoginClient)`. -/
def login (s : Receiver) : Option Receiver :=
  if s.loginRequested ∧ ¬ s.loginExecuted then
    some { s with mState := .connected, loginExecuted := true }
  else none

/-- One turn of the loop in `handlePacketsReceivedWhileConnecting`. -/
def replayNext (s : Receiver) (outcome : HandlerOutcome) : Option Receiver :=
  match s.phase with
  | .replaying index =>
    match s.packetsReceivedWhileConnecting[index]? with
    | some p =>
      let s :=
        { s with
          replayed := s.replayed ++ [p.number]
          calledAfterThrow := s.calledAfterThrow || s.thrown }
      match s.handlePacketReceived .connected p outcome with
      | (s, some _) => some { s.catchException with replayThrown := true }
      | (s, none) => some { s with phase := .replaying (index + 1) }
    | none => none
  | _ => none

/-- The end of `handlePacketsReceivedWhileConnecting`. -/
def replayDone (s : Receiver) : Option Receiver :=
  match s.phase with
  | .replaying index =>
    if s.packetsReceivedWhileConnecting.length ≤ index then
      some { s with packetsReceivedWhileConnecting := [], phase := .receiving [] }
    else none
  | _ => none

/-- The receive loop passes a packet on. -/
def pass (s : Receiver) (recvData : PacketReceiveData) : Receiver :=
  { s with
    recvData := recvData
    received := s.received ++ [s.started]
    calledAfterThrow := s.calledAfterThrow || s.thrown }

section

variable [Libnioev]

/-- One iteration of the receive loop. -/
def iterate (s : Receiver) (outcome : HandlerOutcome) : Option Receiver :=
  match s.phase with
  | .receiving (b :: bytes) =>
    match receiveIteration s.recvData b bytes with
    | .next recvData advance =>
      some { s with
        recvData := recvData
        started := if s.recvData.recvState = .idle then s.started + 1 else s.started
        phase := .receiving ((b :: bytes).drop advance) }
    | .packet recvData after advance =>
      match (s.pass recvData).handlePacketReceived s.mState ⟨s.started, recvData⟩ outcome with
      | (s, some _) => some s.catchException
      | (s, none) =>
        some { s with recvData := after, phase := .receiving ((b :: bytes).drop advance) }
    | .violation _ recvData => some { s with recvData := recvData }.catchException
    | .assertionFailed => none
  | _ => none

/-- The state after an event, where the event is possible. -/
def step (s : Receiver) : Event → Option Receiver
  | .arrive bytes => if bytes = [] then none else some { s with unread := s.unread ++ bytes }
  | .login => s.login
  | .beginEvent => if s.phase = .idle then some { s with phase := .replaying 0 } else none
  | .replayNext outcome => s.replayNext outcome
  | .replayDone => s.replayDone
  | .recv n =>
    if s.phase = .receiving [] ∧ 0 < n ∧ n ≤ s.unread.length then
      some { s with phase := .receiving (s.unread.take n), unread := s.unread.drop n }
    else none
  | .iterate outcome => s.iterate outcome
  | .endEvent =>
    if s.phase = .receiving [] ∧ s.unread = [] then some { s with phase := .idle } else none

/-! ## What a step does -/

/-- The replay passes a packet on, and it is handled. -/
def replay (s : Receiver) (p : NumberedPacket) : Receiver :=
  { s with
    replayed := s.replayed ++ [p.number]
    calledAfterThrow := s.calledAfterThrow || s.thrown
    handled := s.handled ++ [p.number]
    handledBeforeLogin := s.handledBeforeLogin || !s.loginExecuted }

/-- The steps of a connection, with what leads to each. -/
inductive Transition (s : Receiver) : Event → Receiver → Prop where
  | arrive (bytes : List UInt8) :
      Transition s (.arrive bytes) { s with unread := s.unread ++ bytes }
  | login : s.loginRequested = true → s.loginExecuted = false →
      Transition s .login { s with mState := .connected, loginExecuted := true }
  | beginEvent : s.phase = .idle →
      Transition s .beginEvent { s with phase := .replaying 0 }
  | replayReturns {index : Nat} {p : NumberedPacket} {outcome : HandlerOutcome} :
      s.phase = .replaying index → s.packetsReceivedWhileConnecting[index]? = some p →
      Transition s (.replayNext outcome) { s.replay p with phase := .replaying (index + 1) }
  | replayThrows {index : Nat} {p : NumberedPacket} {outcome : HandlerOutcome} :
      s.phase = .replaying index → s.packetsReceivedWhileConnecting[index]? = some p →
      Transition s (.replayNext outcome) { (s.replay p).catchException with replayThrown := true }
  | replayDone {index : Nat} :
      s.phase = .replaying index → s.packetsReceivedWhileConnecting.length ≤ index →
      Transition s .replayDone
        { s with packetsReceivedWhileConnecting := [], phase := .receiving [] }
  | recv {n : Nat} : s.phase = .receiving [] →
      Transition s (.recv n)
        { s with phase := .receiving (s.unread.take n), unread := s.unread.drop n }
  | next {b : UInt8} {bytes : List UInt8} {after : PacketReceiveData} {advance : Nat}
      {outcome : HandlerOutcome} :
      s.phase = .receiving (b :: bytes) → s.recvData.Iterates b bytes (.next after advance) →
      Transition s (.iterate outcome)
        { s with
          recvData := after
          started := if s.recvData.recvState = .idle then s.started + 1 else s.started
          phase := .receiving ((b :: bytes).drop advance) }
  | packetReturns {b : UInt8} {bytes : List UInt8} {called after : PacketReceiveData}
      {advance : Nat} {outcome : HandlerOutcome} {t : Receiver} :
      s.phase = .receiving (b :: bytes) →
      s.recvData.Iterates b bytes (.packet called after advance) →
      (s.pass called).Handles ⟨s.started, called⟩ s.mState t none →
      Transition s (.iterate outcome)
        { t with recvData := after, phase := .receiving ((b :: bytes).drop advance) }
  | packetThrows {b : UInt8} {bytes : List UInt8} {called after : PacketReceiveData}
      {advance : Nat} {outcome : HandlerOutcome} {e : ReceiveException} {t : Receiver} :
      s.phase = .receiving (b :: bytes) →
      s.recvData.Iterates b bytes (.packet called after advance) →
      (s.pass called).Handles ⟨s.started, called⟩ s.mState t (some e) →
      Transition s (.iterate outcome) t.catchException
  | violation {b : UInt8} {bytes : List UInt8} {reason : String} {recvData : PacketReceiveData}
      {outcome : HandlerOutcome} :
      s.phase = .receiving (b :: bytes) →
      s.recvData.Iterates b bytes (.violation reason recvData) →
      Transition s (.iterate outcome) { s with recvData := recvData }.catchException
  | endEvent : s.phase = .receiving [] → s.unread = [] →
      Transition s .endEvent { s with phase := .idle }

theorem transition_replayNext {s t : Receiver} {outcome : HandlerOutcome}
    (h : s.replayNext outcome = some t) : s.Transition (.replayNext outcome) t := by
  unfold replayNext at h
  cases hphase : s.phase with
  | idle => simp only [hphase] at h; cases h
  | receiving bytes => simp only [hphase] at h; cases h
  | replaying index =>
      simp only [hphase] at h
      cases hp : s.packetsReceivedWhileConnecting[index]? with
      | none => simp only [hp] at h; cases h
      | some p =>
          simp only [hp] at h
          cases outcome with
          | returns => cases h; exact .replayReturns hphase hp
          | rejectsVersion => cases h; exact .replayReturns hphase hp
          | throws e => cases h; exact .replayThrows hphase hp

theorem transition_iterate {s t : Receiver} {outcome : HandlerOutcome}
    (h : s.iterate outcome = some t) : s.Transition (.iterate outcome) t := by
  unfold iterate at h
  cases hphase : s.phase with
  | idle => simp only [hphase] at h; cases h
  | replaying index => simp only [hphase] at h; cases h
  | receiving bytes =>
      cases bytes with
      | nil => simp only [hphase] at h; cases h
      | cons b bytes =>
          have hiterates := iterates_receiveIteration s.recvData b bytes
          simp only [hphase] at h
          cases hiter : receiveIteration s.recvData b bytes with
          | next after advance =>
              rw [hiter] at h hiterates
              cases h
              exact .next hphase hiterates
          | packet called after advance =>
              rw [hiter] at h hiterates
              rcases hcall : (s.pass called).handlePacketReceived s.mState ⟨s.started, called⟩
                outcome with ⟨t', _ | e⟩
              · simp only [hcall] at h
                cases h
                exact .packetReturns hphase hiterates (handles_of_handlePacketReceived hcall)
              · simp only [hcall] at h
                cases h
                exact .packetThrows hphase hiterates (handles_of_handlePacketReceived hcall)
          | violation reason recvData =>
              rw [hiter] at h hiterates
              cases h
              exact .violation hphase hiterates
          | assertionFailed =>
              rw [hiter] at h
              cases h

theorem transition_of_step {s t : Receiver} {event : Event} (h : s.step event = some t) :
    s.Transition event t := by
  cases event with
  | arrive bytes =>
      simp only [step] at h
      split at h <;> cases h
      exact .arrive bytes
  | login =>
      simp only [step, login] at h
      split at h
      · next hlogin =>
          cases h
          exact .login hlogin.1 (by simpa using hlogin.2)
      · cases h
  | beginEvent =>
      simp only [step] at h
      split at h
      · next hbegin =>
          cases h
          exact .beginEvent hbegin
      · cases h
  | replayNext outcome => exact transition_replayNext h
  | replayDone =>
      simp only [step, replayDone] at h
      split at h
      · next index hphase =>
          split at h
          · next hlen =>
              cases h
              exact .replayDone hphase hlen
          · cases h
      · cases h
  | recv n =>
      simp only [step] at h
      split at h
      · next hrecv =>
          cases h
          exact .recv hrecv.1
      · cases h
  | iterate outcome => exact transition_iterate h
  | endEvent =>
      simp only [step] at h
      split at h
      · next hend =>
          cases h
          exact .endEvent hend.1 hend.2
      · cases h

end

/-! ## Numbers -/

/-- The number of the packet in work, or of the last one. -/
def currentNumber (s : Receiver) : Nat :=
  s.received.length + if s.recvData.recvState = .idle then 0 else 1

/-- The packets are numbered in the order they are received in. -/
structure Numbered (s : Receiver) : Prop where
  received_eq : s.received = List.range' 1 s.received.length
  started_eq : s.started = s.currentNumber

/-- The buffered packets that are not replayed yet. -/
def pending (s : Receiver) : List Nat :=
  match s.phase with
  | .replaying index => (s.packetsReceivedWhileConnecting.drop index).map NumberedPacket.number
  | _ => s.packetsReceivedWhileConnecting.map NumberedPacket.number

theorem pending_replaying {s : Receiver} {index : Nat} (h : s.phase = .replaying index) :
    s.pending = (s.packetsReceivedWhileConnecting.drop index).map NumberedPacket.number := by
  rw [pending, h]

theorem pending_receiving {s : Receiver} {bytes : List UInt8} (h : s.phase = .receiving bytes) :
    s.pending = s.packetsReceivedWhileConnecting.map NumberedPacket.number := by
  rw [pending, h]

theorem pending_idle {s : Receiver} (h : s.phase = .idle) :
    s.pending = s.packetsReceivedWhileConnecting.map NumberedPacket.number := by
  rw [pending, h]

/-- The packet the replay comes to is the first of the pending ones. -/
theorem pending_replay {s : Receiver} {index : Nat} {p : NumberedPacket}
    (hphase : s.phase = .replaying index)
    (hp : s.packetsReceivedWhileConnecting[index]? = some p) :
    s.pending = p.number ::
      (s.packetsReceivedWhileConnecting.drop (index + 1)).map NumberedPacket.number := by
  obtain ⟨hlt, rfl⟩ := List.getElem?_eq_some_iff.mp hp
  rw [pending_replaying hphase, List.drop_eq_getElem_cons hlt, List.map_cons]

end Receiver

/-! ## Packets that are completed -/

/-- The byte `b` and those after it in the chunk complete a packet. -/
def PacketReceiveData.Completes (recvData : PacketReceiveData) (b : UInt8) (bytes : List UInt8) :
    Prop :=
  match recvData.recvState with
  | .idle => False
  | .receivingVarLength =>
    recvData.multiplier * 128 ≤ 128 * 128 * 128 ∧ b &&& 0x80 = 0 ∧
      (recvData.addLength b).packetLength = 0
  | .receivingData =>
    recvData.currentReceiveBuffer.length ≤ recvData.packetLength.toNat ∧
      recvData.packetLength.toNat ≤ recvData.currentReceiveBuffer.length + (b :: bytes).length

instance (recvData : PacketReceiveData) (b : UInt8) (bytes : List UInt8) :
    Decidable (recvData.Completes b bytes) := by
  unfold PacketReceiveData.Completes
  cases recvData.recvState with
  | idle => exact instDecidableFalse
  | receivingVarLength => exact instDecidableAnd
  | receivingData => exact instDecidableAnd

section

variable [Libnioev] {recvData called after : PacketReceiveData} {b : UInt8} {bytes : List UInt8}
  {advance : Nat}

theorem PacketReceiveData.Iterates.completes
    (h : recvData.Iterates b bytes (.packet called after advance)) :
    recvData.Completes b bytes := by
  cases h with
  | emptyBody hstate hfits hlast hzero =>
      rw [Completes, hstate]
      exact ⟨hfits, hlast, hzero⟩
  | fullBody hstate hassert hfull =>
      rw [Completes, hstate]
      exact ⟨hassert, hfull⟩

theorem PacketReceiveData.Iterates.not_completes
    (h : recvData.Iterates b bytes (.next after advance)) : ¬ recvData.Completes b bytes := by
  intro hcompletes
  cases h with
  | start hstate => rwa [Completes, hstate] at hcompletes
  | lastLength hstate _ _ hpos =>
      rw [Completes, hstate] at hcompletes
      exact hpos hcompletes.2.2
  | moreLength hstate _ hmore =>
      rw [Completes, hstate] at hcompletes
      exact hmore hcompletes.2.1
  | partialBody hstate hroom =>
      rw [Completes, hstate] at hcompletes
      exact absurd hcompletes.2 (not_le.mpr hroom)

theorem PacketReceiveData.Iterates.not_completes_violation {reason : String}
    (h : recvData.Iterates b bytes (.violation reason after)) :
    ¬ recvData.Completes b bytes := by
  intro hcompletes
  cases h with
  | invalidType hstate => rwa [Completes, hstate] at hcompletes
  | invalidLength hstate hlong =>
      rw [Completes, hstate] at hcompletes
      exact absurd hlong (UInt32.not_lt.mpr hcompletes.1)

/-- The packet is over when the handler is called. -/
theorem PacketReceiveData.Iterates.packet_state
    (h : recvData.Iterates b bytes (.packet called after advance)) :
    recvData.recvState ≠ .idle ∧ after.recvState = .idle := by
  cases h with
  | emptyBody hstate => exact ⟨by rw [hstate]; decide, rfl⟩
  | fullBody hstate => exact ⟨by rw [hstate]; decide, rfl⟩

theorem PacketReceiveData.Iterates.next_state
    (h : recvData.Iterates b bytes (.next after advance)) : after.recvState ≠ .idle := by
  cases h with
  | start => exact fun hidle => by cases hidle
  | lastLength => exact fun hidle => by cases hidle
  | moreLength hstate => exact fun hidle => by rw [addLength, hstate] at hidle; cases hidle
  | partialBody hstate => exact fun hidle => by rw [hstate] at hidle; cases hidle

end

end NioevMqtt
