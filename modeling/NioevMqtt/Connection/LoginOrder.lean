-- SUMMARY: The order in which packets are handled around the login of their connection, over every interleaving of the two.
import NioevMqtt.Connection.AfterThrow

/-!
# Packets around the login

The packets that follow the `CONNECT` are to be handled once, in order, and after
the login. The replay does not ask whether the login has been executed, nothing
replays the buffer when it has, and the buffer is only emptied when the replay
returns. The runs in which none of this matters keep the order.
-/

namespace NioevMqtt

namespace Receiver

/-! ## The property and its condition -/

/-- The packets after the `CONNECT` are handled one after another, after the login.
When the login is executed and the connection has come to rest without an
exception, all of them are. -/
structure HandledInOrder (s : Receiver) : Prop where
  handled_eq : s.handled = List.range' 2 s.handled.length
  afterLogin : s.handledBeforeLogin = false
  complete : s.phase = .idle → s.unread = [] → s.loginExecuted = true → s.thrown = false →
    s.received.length = s.handled.length + 1

instance : DecidablePred HandledInOrder := fun s =>
  decidable_of_iff (s.handled = List.range' 2 s.handled.length ∧ s.handledBeforeLogin = false ∧
      (s.phase = .idle → s.unread = [] → s.loginExecuted = true → s.thrown = false →
        s.received.length = s.handled.length + 1))
    ⟨fun h => ⟨h.1, h.2.1, h.2.2⟩, fun h => ⟨h.1, h.2, h.3⟩⟩

/-- A read event is about to replay the whole buffer. -/
def BeforeReplay (s : Receiver) : Prop :=
  match s.phase with
  | .idle => s.unread ≠ []
  | .replaying _ => True
  | .receiving _ => False

/-- The login finds nothing buffered, or a read event that has yet to replay the
buffer. Packets are replayed after the login, and no more once one of them has
thrown. After an exception no packet is completed. -/
def ServesInOrder (s : Receiver) : Event → Prop
  | .login => s.thrown = true ∨ s.packetsReceivedWhileConnecting = [] ∨ s.BeforeReplay
  | .replayNext _ => s.loginExecuted = true ∧ s.replayThrown = false
  | .iterate _ => s.thrown = true → ¬ s.CompletesPacket
  | _ => True

instance : DecidablePred BeforeReplay
  | { phase := .idle, unread, .. } => inferInstanceAs (Decidable (unread ≠ []))
  | { phase := .replaying _, .. } => isTrue trivial
  | { phase := .receiving _, .. } => isFalse id

instance (s : Receiver) : DecidablePred s.ServesInOrder
  | .login => inferInstanceAs (Decidable (_ ∨ _ ∨ _))
  | .replayNext _ => inferInstanceAs (Decidable (_ ∧ _))
  | .iterate _ => inferInstanceAs (Decidable (_ → ¬ _))
  | .arrive _ | .beginEvent | .replayDone | .recv _ | .endEvent => isTrue trivial

/-! ## The invariant -/

/-- The packets received are the `CONNECT` and those handled or waiting. -/
def Accounted (s : Receiver) : Prop :=
  match s.mState with
  | .initial => s.received = [] ∧ s.handled ++ s.pending = []
  | .invalidProtocolVersion => s.handled ++ s.pending = []
  | _ => s.received.length = (s.handled ++ s.pending).length + 1

/-- Once connected, nothing waits in the buffer unless a replay is to come. -/
def Settled (s : Receiver) : Prop :=
  s.mState = .connected → s.packetsReceivedWhileConnecting = [] ∨ s.BeforeReplay

/-- The state of a connection whose packets are served in order. -/
structure Orderly (s : Receiver) : Prop where
  connected_iff : s.mState = .connected ↔ s.loginExecuted = true
  connecting : s.loginRequested = true → s.loginExecuted = false → s.mState = .connecting
  handled_eq : s.handled = List.range' 2 s.handled.length
  afterLogin : s.handledBeforeLogin = false
  queue : s.replayThrown = false → ∃ m, s.handled ++ s.pending = List.range' 2 m
  unthrown : s.thrown = false →
    s.replayThrown = false ∧ s.Numbered ∧ s.Accounted ∧ s.Settled

theorem orderly_initial : Orderly {} where
  connected_iff := by decide
  connecting := by decide
  handled_eq := rfl
  afterLogin := rfl
  queue := fun _ => ⟨0, rfl⟩
  unthrown := fun _ => ⟨rfl, ⟨rfl, rfl⟩, ⟨rfl, rfl⟩, fun h => by cases h⟩

/-- A prefix of a list of consecutive numbers. -/
theorem eq_range'_of_append {k m : Nat} {l r : List Nat} (h : l ++ r = List.range' k m) :
    l = List.range' k l.length := by
  have hlen : l.length ≤ m := by
    have hsum := congrArg List.length h
    rw [List.length_append, List.length_range'] at hsum
    omega
  rw [← List.take_range'_of_length_ge hlen, ← h, List.take_left]

section

variable {s t : Receiver}

theorem Orderly.handledInOrder (h : s.Orderly) : s.HandledInOrder where
  handled_eq := h.handled_eq
  afterLogin := h.afterLogin
  complete := by
    intro hidle hunread hlogin hthrown
    obtain ⟨-, -, haccounted, hsettled⟩ := h.unthrown hthrown
    have hconnected := h.connected_iff.mpr hlogin
    rw [Accounted, hconnected, pending_idle hidle] at haccounted
    have hempty : s.packetsReceivedWhileConnecting = [] := by
      refine (hsettled hconnected).resolve_right fun hbefore => ?_
      rw [BeforeReplay, hidle] at hbefore
      exact hbefore hunread
    rw [hempty, List.map_nil, List.append_nil] at haccounted
    exact haccounted

/-- A step that moves no packet. -/
theorem Orderly.congr (h : s.Orderly) (hsame : s.SamePackets t)
    (hunthrown : t.thrown = false → s.thrown = false ∧ (s.Numbered → t.Numbered) ∧
      (s.Settled → t.Settled)) : t.Orderly where
  connected_iff := by rw [hsame.mState_eq, hsame.loginExecuted_eq]; exact h.connected_iff
  connecting := by
    rw [hsame.loginRequested_eq, hsame.loginExecuted_eq, hsame.mState_eq]
    exact h.connecting
  handled_eq := by rw [hsame.handled_eq]; exact h.handled_eq
  afterLogin := by rw [hsame.handledBeforeLogin_eq]; exact h.afterLogin
  queue := by rw [hsame.replayThrown_eq, hsame.handled_eq, hsame.pending_eq]; exact h.queue
  unthrown := by
    intro hthrown
    obtain ⟨hs, hnumbered, hsettled⟩ := hunthrown hthrown
    obtain ⟨hno, hn, haccounted, hset⟩ := h.unthrown hs
    refine ⟨hsame.replayThrown_eq.trans hno, hnumbered hn, ?_, hsettled hset⟩
    rw [Accounted, hsame.mState_eq, hsame.received_eq, hsame.handled_eq, hsame.pending_eq]
    exact haccounted

theorem Orderly.passive (h : s.Orderly) (hpassive : s.Passive t)
    (hsettled : s.Settled → t.Settled) : t.Orderly :=
  h.congr hpassive.toSamePackets fun hthrown =>
    ⟨hpassive.thrown_eq.symm.trans hthrown, hpassive.numbered, hsettled⟩

theorem Orderly.login (h : s.Orderly) (hserves : s.ServesInOrder .login)
    (hrequested : s.loginRequested = true) (hexecuted : s.loginExecuted = false) :
    Orderly { s with mState := .connected, loginExecuted := true } where
  connected_iff := iff_of_true rfl rfl
  connecting := fun _ hno => by cases hno
  handled_eq := h.handled_eq
  afterLogin := h.afterLogin
  queue := h.queue
  unthrown := by
    intro hthrown
    obtain ⟨hno, hnumbered, haccounted, -⟩ := h.unthrown hthrown
    rw [Accounted, h.connecting hrequested hexecuted] at haccounted
    refine ⟨hno, hnumbered.congr rfl rfl rfl, haccounted, fun _ => ?_⟩
    exact hserves.resolve_left (by rw [hthrown]; decide)

/-- A replayed packet is the next one to be handled. -/
theorem Orderly.replay (h : s.Orderly) (hexecuted : s.loginExecuted = true)
    (hno : s.replayThrown = false) {index : Nat} {p : NumberedPacket}
    (hphase : s.phase = .replaying index)
    (hp : s.packetsReceivedWhileConnecting[index]? = some p) :
    Orderly { s.replay p with phase := .replaying (index + 1) } := by
  have hpending : (s.handled ++ [p.number]) ++
      (s.packetsReceivedWhileConnecting.drop (index + 1)).map NumberedPacket.number =
      s.handled ++ s.pending := by
    rw [pending_replay hphase hp, ← List.append_cons]
  obtain ⟨m, hm⟩ := h.queue hno
  constructor
  · exact h.connected_iff
  · exact h.connecting
  · exact eq_range'_of_append (hpending.trans hm)
  · show (s.handledBeforeLogin || !s.loginExecuted) = false
    rw [h.afterLogin, hexecuted]
    rfl
  · exact fun _ => ⟨m, hpending.trans hm⟩
  · intro hthrown
    obtain ⟨-, hnumbered, haccounted, -⟩ := h.unthrown hthrown
    refine ⟨hno, hnumbered.congr rfl rfl rfl, ?_, fun _ => .inr trivial⟩
    rw [Accounted, h.connected_iff.mpr hexecuted, ← hpending] at haccounted
    rw [Accounted]
    simp only [Receiver.replay, h.connected_iff.mpr hexecuted]
    exact haccounted

/-- An exception changes nothing that counts behind it. -/
theorem Orderly.catchException (h : s.Orderly) (recvData : PacketReceiveData)
    (hphase : ∃ bytes, s.phase = .receiving bytes) :
    Orderly { s with recvData := recvData }.catchException := by
  obtain ⟨bytes, hphase⟩ := hphase
  have hpending : pending { s with recvData := recvData }.catchException = s.pending := by
    rw [pending_receiving hphase]
    rfl
  exact h.congr ⟨rfl, rfl, rfl, rfl, rfl, rfl, rfl, rfl, hpending⟩ fun hthrown => by cases hthrown

/-- The packet in work is the one after those handled and waiting. -/
theorem Orderly.append_started (h : s.Orderly) (hno : s.replayThrown = false)
    (haccounted : s.received.length = (s.handled ++ s.pending).length + 1)
    (hstarted : s.started = s.received.length + 1) :
    ∃ m, s.handled ++ s.pending ++ [s.started] = List.range' 2 m := by
  obtain ⟨m, hm⟩ := h.queue hno
  have hlength : (s.handled ++ s.pending).length = m := by rw [hm, List.length_range']
  refine ⟨m + 1, ?_⟩
  rw [List.range'_concat, hm, hstarted, haccounted, hlength, Nat.one_mul, Nat.add_comm 2 m]

/-- While a connected client's bytes are received, nothing is buffered. -/
theorem Settled.receiving (h : s.Settled) (hconnected : s.mState = .connected) {bytes : List UInt8}
    (hphase : s.phase = .receiving bytes) : s.packetsReceivedWhileConnecting = [] := by
  refine (h hconnected).resolve_right fun hbefore => ?_
  rwa [BeforeReplay, hphase] at hbefore

/-- What makes a state orderly where nothing has thrown. -/
theorem orderly_of_queue (hconnected : s.mState = .connected ↔ s.loginExecuted = true)
    (hconnecting : s.loginRequested = true → s.loginExecuted = false → s.mState = .connecting)
    (hbefore : s.handledBeforeLogin = false) {m : Nat}
    (hqueue : s.handled ++ s.pending = List.range' 2 m) (hno : s.replayThrown = false)
    (hnumbered : s.Numbered) (haccounted : s.Accounted) (hsettled : s.Settled) : s.Orderly where
  connected_iff := hconnected
  connecting := hconnecting
  handled_eq := eq_range'_of_append hqueue
  afterLogin := hbefore
  queue := fun _ => ⟨m, hqueue⟩
  unthrown := fun _ => ⟨hno, hnumbered, haccounted, hsettled⟩

theorem BeforeReplay.arrive (bytes : List UInt8) (h : s.BeforeReplay) :
    BeforeReplay { s with unread := s.unread ++ bytes } := by
  unfold BeforeReplay at h ⊢
  cases hphase : s.phase with
  | idle =>
      simp only [hphase] at h ⊢
      exact fun hnil => h (List.append_eq_nil_iff.mp hnil).1
  | replaying index => trivial
  | receiving bytes => rw [hphase] at h; exact h

/-! ## A packet in the receive loop -/

/-- The receive loop has passed on the packet in work. -/
structure Passed (s u : Receiver) : Prop where
  received_eq : u.received = s.received ++ [s.started]
  numbered : u.Numbered
  loginExecuted_eq : u.loginExecuted = s.loginExecuted
  replayThrown_eq : u.replayThrown = false
  pending_eq : u.pending = u.packetsReceivedWhileConnecting.map NumberedPacket.number

theorem Passed.length_received {u : Receiver} (h : s.Passed u) :
    u.received.length = s.received.length + 1 := by
  rw [h.received_eq, List.length_append, List.length_singleton]

variable {u : Receiver} {bytes : List UInt8}

/-- The `CONNECT` itself, the first packet. -/
theorem Orderly.passConnect (h : s.Orderly) (hpassed : s.Passed u)
    (haccounted : s.received = [] ∧ s.handled ++ s.pending = []) (hinitial : s.mState = .initial)
    (hmState : u.mState = .connecting) (hhandled : u.handled = s.handled)
    (hbefore : u.handledBeforeLogin = s.handledBeforeLogin) (hpending : u.pending = s.pending) :
    u.Orderly := by
  have hlogin : u.loginExecuted = false := by
    rw [hpassed.loginExecuted_eq, Bool.eq_false_iff]
    intro hlogin
    rw [← h.connected_iff, hinitial] at hlogin
    cases hlogin
  have hqueue : u.handled ++ u.pending = [] := by rw [hhandled, hpending, haccounted.2]
  refine orderly_of_queue (m := 0) ?_ ?_ ?_ hqueue hpassed.replayThrown_eq hpassed.numbered ?_ ?_
  · rw [hmState, hlogin]
    decide
  · exact fun _ _ => hmState
  · rw [hbefore]
    exact h.afterLogin
  · rw [Accounted, hmState]
    simp only
    rw [hqueue, hpassed.length_received, haccounted.1]
  · intro hconnected
    rw [hmState] at hconnected
    cases hconnected

/-- A connection that is not to be served. -/
theorem Orderly.passIgnored (h : s.Orderly) (hpassed : s.Passed u)
    (hempty : s.handled ++ s.pending = []) (hne : s.mState ≠ .connecting ∧ s.mState ≠ .connected)
    (hmState : u.mState = .invalidProtocolVersion) (hhandled : u.handled = s.handled)
    (hbefore : u.handledBeforeLogin = s.handledBeforeLogin)
    (hrequested : u.loginRequested = s.loginRequested) (hpending : u.pending = s.pending) :
    u.Orderly := by
  have hlogin : u.loginExecuted = false := by
    rw [hpassed.loginExecuted_eq, Bool.eq_false_iff]
    exact fun hlogin => hne.2 (h.connected_iff.mpr hlogin)
  have hqueue : u.handled ++ u.pending = [] := by rw [hhandled, hpending, hempty]
  refine orderly_of_queue (m := 0) ?_ ?_ ?_ hqueue hpassed.replayThrown_eq hpassed.numbered ?_ ?_
  · rw [hmState, hlogin]
    decide
  · rw [hrequested, hpassed.loginExecuted_eq]
    exact fun hr he => absurd (h.connecting hr he) hne.1
  · rw [hbefore]
    exact h.afterLogin
  · rw [Accounted, hmState]
    exact hqueue
  · intro hconnected
    rw [hmState] at hconnected
    cases hconnected

/-- A packet is buffered behind the others, or handled with none waiting: in both
ways it comes after them. -/
theorem Orderly.passNext (h : s.Orderly) (hpassed : s.Passed u) (hno : s.replayThrown = false)
    (hstarted : s.started = s.received.length + 1)
    (haccounted : s.received.length = (s.handled ++ s.pending).length + 1)
    (hstate : s.mState = .connecting ∨ s.mState = .connected) (hmState : u.mState = s.mState)
    (hbefore : u.handledBeforeLogin = false) (hrequested : u.loginRequested = s.loginRequested)
    (hqueue : u.handled ++ u.pending = s.handled ++ s.pending ++ [s.started])
    (hsettled : u.Settled) : u.Orderly := by
  obtain ⟨m, hm⟩ := h.append_started hno haccounted hstarted
  have hlength : u.received.length = (u.handled ++ u.pending).length + 1 := by
    rw [hpassed.length_received, hqueue, List.length_append, haccounted]
    rfl
  refine orderly_of_queue ?_ ?_ hbefore (hqueue.trans hm) hpassed.replayThrown_eq hpassed.numbered
    ?_ hsettled
  · rw [hmState, hpassed.loginExecuted_eq]
    exact h.connected_iff
  · rw [hrequested, hpassed.loginExecuted_eq, hmState]
    exact h.connecting
  · rw [Accounted, hmState]
    rcases hstate with hstate | hstate <;> rw [hstate] <;> exact hlength

/-- The receive loop passes on the next packet: it is counted, buffered or handled. -/
theorem Orderly.packetReturns (h : s.Orderly) (hthrown : s.thrown = false)
    (hphase : s.phase = .receiving bytes) (hstate : s.recvData.recvState ≠ .idle)
    {called after : PacketReceiveData} (hidle : after.recvState = .idle)
    (hhandles : (s.pass called).Handles ⟨s.started, called⟩ s.mState t none) :
    Orderly { t with recvData := after } := by
  obtain ⟨hno, hnumbered, haccounted, hsettled⟩ := h.unthrown hthrown
  have hstarted := hnumbered.started_eq_succ hstate
  have hpending := pending_receiving hphase
  have hpassed : s.Passed { t with recvData := after } :=
    { received_eq := hhandles.received_eq
      numbered := hnumbered.packet hstate hhandles.received_eq hhandles.started_eq hidle
      loginExecuted_eq := hhandles.loginExecuted_eq
      replayThrown_eq := hhandles.replayThrown_eq.trans hno
      pending_eq := pending_receiving (hhandles.phase_eq.trans hphase) }
  have hpending' := hpassed.pending_eq
  rw [Accounted] at haccounted
  generalize hm : s.mState = state at hhandles haccounted
  cases hhandles with
  | connect =>
      exact h.passConnect hpassed haccounted hm rfl rfl rfl (hpending'.trans hpending.symm)
  | rejectVersion =>
      refine h.passIgnored hpassed haccounted.2 ?_ rfl rfl rfl rfl (hpending'.trans hpending.symm)
      rw [hm]
      decide
  | ignore =>
      refine h.passIgnored hpassed haccounted ?_ hm rfl rfl rfl (hpending'.trans hpending.symm)
      rw [hm]
      decide
  | buffer =>
      refine h.passNext hpassed hno hstarted haccounted (.inl hm) rfl h.afterLogin rfl ?_ ?_
      · rw [hpending', hpending, List.append_assoc]
        exact congrArg (s.handled ++ ·) List.map_append
      · intro hconnected
        cases hm.symm.trans hconnected
  | handle =>
      have hempty := hsettled.receiving hm hphase
      have hlogin := h.connected_iff.mp hm
      refine h.passNext hpassed hno hstarted haccounted (.inr hm) rfl ?_ rfl ?_ ?_
      · show (s.handledBeforeLogin || !s.loginExecuted) = false
        rw [h.afterLogin, hlogin]
        rfl
      · rw [hpending', hpending]
        show (s.handled ++ [s.started]) ++ s.packetsReceivedWhileConnecting.map _ = _
        rw [hempty]
        simp
      · exact fun _ => .inl hempty

/-- The handler of the packet throws, after it was counted or handled. -/
theorem Orderly.packetThrows (h : s.Orderly) (hthrown : s.thrown = false)
    (hphase : s.phase = .receiving bytes) (hstate : s.recvData.recvState ≠ .idle)
    {called : PacketReceiveData} {e : ReceiveException}
    (hhandles : (s.pass called).Handles ⟨s.started, called⟩ s.mState t (some e)) :
    t.catchException.Orderly := by
  obtain ⟨hno, hnumbered, haccounted, hsettled⟩ := h.unthrown hthrown
  have hstarted := hnumbered.started_eq_succ hstate
  have hpending := pending_receiving hphase
  rw [Accounted] at haccounted
  generalize hm : s.mState = state at hhandles haccounted
  cases hhandles with
  | initialThrows e =>
      obtain ⟨m, hqueue⟩ := h.queue hno
      refine ⟨h.connected_iff, h.connecting, h.handled_eq, h.afterLogin, ?_, fun hno => by cases hno⟩
      intro _
      rw [hpending] at hqueue
      exact ⟨m, hqueue⟩
  | handleThrows e =>
      have hempty := hsettled.receiving hm hphase
      have hlogin := h.connected_iff.mp hm
      obtain ⟨m, hqueue⟩ := h.append_started hno haccounted hstarted
      rw [hpending, hempty, List.map_nil, List.append_nil] at hqueue
      refine ⟨h.connected_iff, h.connecting, ?_, ?_, ?_, fun hno => by cases hno⟩
      · exact eq_range'_of_append ((List.append_nil _).trans hqueue)
      · show (s.handledBeforeLogin || !s.loginExecuted) = false
        rw [h.afterLogin, hlogin]
        rfl
      · intro _
        refine ⟨m, ?_⟩
        show (s.handled ++ [s.started]) ++ s.packetsReceivedWhileConnecting.map _ = _
        rw [hempty, List.map_nil, List.append_nil]
        exact hqueue

end

/-! ## Runs -/

section

variable [Libnioev] {s t : Receiver} {event : Event}

theorem orderly_transition (h : s.Orderly) (hserves : s.ServesInOrder event)
    (hstep : s.Transition event t) : t.Orderly := by
  cases hstep with
  | arrive bytes =>
      refine h.passive (passive_arrive s bytes) fun hsettled hconnected => ?_
      exact (hsettled hconnected).imp_right (BeforeReplay.arrive bytes)
  | login hrequested hexecuted => exact h.login hserves hrequested hexecuted
  | beginEvent hphase =>
      exact h.passive (passive_beginEvent hphase) fun _ _ => .inr trivial
  | replayReturns hphase hp => exact h.replay hserves.1 hserves.2 hphase hp
  | replayThrows hphase hp =>
      have hreplay := h.replay hserves.1 hserves.2 hphase hp
      exact ⟨hreplay.1, hreplay.2, hreplay.3, hreplay.4, fun hno => (by cases hno),
        fun hno => (by cases hno)⟩
  | replayDone hphase hlen =>
      exact h.passive (passive_replayDone hphase hlen) fun _ _ => .inl rfl
  | recv hphase =>
      refine h.passive (passive_receiving hphase fun _ heq => by cases heq) ?_
      exact fun hsettled hconnected => .inl (hsettled.receiving hconnected hphase)
  | next hphase hiter =>
      refine h.passive (passive_next hphase hiter) ?_
      exact fun hsettled hconnected => .inl (hsettled.receiving hconnected hphase)
  | @packetReturns b bytes called after advance outcome t hphase hiter hhandles =>
      have hthrown : s.thrown = false := by
        rw [Bool.eq_false_iff]
        intro hthrown
        exact hserves hthrown ((completesPacket_receiving hphase).mpr hiter.completes)
      have hpacket := h.packetReturns hthrown hphase hiter.packet_state.1 hiter.packet_state.2 hhandles
      have hphase' : Receiver.phase { t with recvData := after } = .receiving (b :: bytes) :=
        hhandles.phase_eq.trans hphase
      refine hpacket.passive (passive_receiving hphase' fun _ heq => by cases heq) ?_
      exact fun hsettled hconnected => .inl (hsettled.receiving hconnected hphase')
  | packetThrows hphase hiter hhandles =>
      have hthrown : s.thrown = false := by
        rw [Bool.eq_false_iff]
        intro hthrown
        exact hserves hthrown ((completesPacket_receiving hphase).mpr hiter.completes)
      exact h.packetThrows hthrown hphase hiter.packet_state.1 hhandles
  | violation hphase hiter => exact h.catchException _ ⟨_, hphase⟩
  | endEvent hphase hunread =>
      refine h.passive (passive_receiving hphase fun _ heq => by cases heq) ?_
      exact fun hsettled hconnected => .inl (hsettled.receiving hconnected hphase)

/-- Over every run of a new connection whose login finds the buffer empty or before
its replay, whose replays follow the login and do not follow a replay that threw,
and that completes no packet after an exception: the packets after the `CONNECT`
are handled once each, in order, after the login. -/
theorem handledInOrder_of_servesInOrder {run : List (Event × Receiver)}
    (hrun : Runs.IsRun (Runs.StepOf step) {} run) (hserves : Runs.AllSteps ServesInOrder {} run) :
    Runs.AllStates HandledInOrder run := by
  have horderly : Runs.AllStates Orderly run :=
    hrun.invariant_of_allSteps
      (fun s event t hs hevent hstep => orderly_transition hs hevent (transition_of_step hstep))
      orderly_initial hserves
  exact fun x hx => (horderly x hx).handledInOrder

end

/-! ## Around a login -/

/-- The `CONNECT` of an MQTT 3.1.1 client with a clean session and no client id. -/
def connectBytes : List UInt8 :=
  [0x10, 0x0C, 0x00, 0x04, 0x4D, 0x51, 0x54, 0x54, 0x04, 0x02, 0x00, 0x00, 0x00, 0x00]

/-- It arrives and is accepted. -/
def connectEvents : List Event :=
  [.arrive connectBytes, .beginEvent, .replayDone, .recv 14, .iterate .returns, .iterate .returns,
    .iterate .returns]

/-- The login is executed, and then a `PINGREQ` comes. -/
def pingreqEvents : List Event :=
  connectEvents ++ [.endEvent, .login, .arrive [0xC0, 0x00], .beginEvent, .replayDone, .recv 2,
    .iterate .returns, .iterate .returns, .endEvent]

theorem handledInOrder_pingreq :
    (Runs.runOf (@step .standard) {} pingreqEvents).length = 16 ∧
      Runs.AllStates HandledInOrder (Runs.runOf (@step .standard) {} pingreqEvents) :=
  ⟨by decide +kernel, @handledInOrder_of_servesInOrder .standard _
    (Runs.isRun_runOf (@step .standard) {} pingreqEvents) (by decide +kernel)⟩

/-- A `PINGREQ` that arrives before the login is handled before it, when the first
byte of the next packet comes. -/
theorem not_handledInOrder_pingreq :
    ∃ run, Runs.IsRun (Runs.StepOf (@step .standard)) {} run ∧
      ¬ Runs.AllStates HandledInOrder run := by
  refine ⟨_, Runs.isRun_runOf (@step .standard) {} (connectEvents ++
    [.arrive [0xC0, 0x00], .recv 2, .iterate .returns, .iterate .returns, .endEvent,
      .arrive [0xC0], .beginEvent, .replayNext .returns]), ?_⟩
  decide +kernel

end Receiver

end NioevMqtt
