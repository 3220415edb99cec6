-- SUMMARY: What happens on a connection after processing its bytes has thrown, and when every packet is passed on at most once.
import NioevMqtt.Connection.ReadEvents

/-!
# After an exception

An exception leaves the receive state as it is and only requests a logout. Bytes
that arrive before the logout is executed go through the same state: a full buffer
is handed over once more, and the framer goes on behind a violation.
-/

namespace NioevMqtt

namespace Receiver

/-! ## The property and its condition -/

/-- Nothing is passed to `handlePacketReceived` after an exception, and nothing is
passed twice, neither by the receive loop nor by the replay. -/
structure PassedOnce (s : Receiver) : Prop where
  quiet : s.calledAfterThrow = false
  received_nodup : s.received.Nodup
  replayed_nodup : s.replayed.Nodup

instance : DecidablePred PassedOnce := fun s =>
  decidable_of_iff (s.calledAfterThrow = false ∧ s.received.Nodup ∧ s.replayed.Nodup)
    ⟨fun h => ⟨h.1, h.2.1, h.2.2⟩, fun h => ⟨h.1, h.2, h.3⟩⟩

/-- The bytes at hand complete a packet. -/
def CompletesPacket (s : Receiver) : Prop :=
  match s.phase with
  | .receiving (b :: bytes) => s.recvData.Completes b bytes
  | _ => False

instance (s : Receiver) : Decidable s.CompletesPacket := by
  unfold CompletesPacket
  split <;> infer_instance

theorem completesPacket_receiving {s : Receiver} {b : UInt8} {bytes : List UInt8}
    (h : s.phase = .receiving (b :: bytes)) :
    s.CompletesPacket ↔ s.recvData.Completes b bytes := by
  rw [CompletesPacket, h]

/-- Once something has thrown, the bytes that arrive complete no packet, and there
is no buffered packet to replay. -/
def StaysQuiet (s : Receiver) : Event → Prop
  | .iterate _ => s.thrown = true → ¬ s.CompletesPacket
  | .replayNext _ => s.thrown = false
  | _ => True

instance (s : Receiver) (event : Event) : Decidable (s.StaysQuiet event) := by
  unfold StaysQuiet
  split <;> infer_instance

/-! ## The invariant -/

/-- Packets are replayed in the order of their numbers. -/
structure ReplayOrdered (s : Receiver) : Prop where
  sorted : (s.replayed ++ s.pending).Pairwise (· < ·)
  received : ∀ n ∈ s.replayed ++ s.pending, n ≤ s.received.length

/-- As long as nothing has thrown, packets are numbered and replayed in order. -/
def InOrder (s : Receiver) : Prop := s.thrown = false → s.Numbered ∧ s.ReplayOrdered

theorem inOrder_initial : InOrder {} :=
  fun _ => ⟨⟨rfl, rfl⟩, ⟨List.Pairwise.nil, by intro n hn; cases hn⟩⟩

section

variable {s t : Receiver}

theorem Numbered.congr (h : s.Numbered) (hreceived : t.received = s.received)
    (hstarted : t.started = s.started)
    (hstate : t.recvData.recvState = s.recvData.recvState) : t.Numbered where
  received_eq := by rw [hreceived]; exact h.received_eq
  started_eq := by rw [hstarted, h.started_eq, currentNumber, currentNumber, hreceived, hstate]

theorem ReplayOrdered.congr (h : s.ReplayOrdered)
    (hreplay : t.replayed ++ t.pending = s.replayed ++ s.pending)
    (hreceived : s.received.length ≤ t.received.length) : t.ReplayOrdered where
  sorted := by rw [hreplay]; exact h.sorted
  received := by
    intro n hn
    rw [hreplay] at hn
    exact (h.received n hn).trans hreceived

/-- What has become of the packets, and of the connection they came over, is the same. -/
structure SamePackets (s t : Receiver) : Prop where
  mState_eq : t.mState = s.mState
  loginRequested_eq : t.loginRequested = s.loginRequested
  loginExecuted_eq : t.loginExecuted = s.loginExecuted
  received_eq : t.received = s.received
  replayed_eq : t.replayed = s.replayed
  replayThrown_eq : t.replayThrown = s.replayThrown
  handled_eq : t.handled = s.handled
  handledBeforeLogin_eq : t.handledBeforeLogin = s.handledBeforeLogin
  pending_eq : t.pending = s.pending

/-- A step that passes no packet on. -/
structure Passive (s t : Receiver) : Prop extends SamePackets s t where
  thrown_eq : t.thrown = s.thrown
  numbered : s.Numbered → t.Numbered

theorem passive_of_pending {unread : List UInt8} {phase : EventPhase} {buffer : List NumberedPacket}
    (hpending : pending { s with
      unread := unread, phase := phase, packetsReceivedWhileConnecting := buffer } = s.pending) :
    s.Passive { s with
      unread := unread, phase := phase, packetsReceivedWhileConnecting := buffer } :=
  ⟨⟨rfl, rfl, rfl, rfl, rfl, rfl, rfl, rfl, hpending⟩, rfl, fun h => h.congr rfl rfl rfl⟩

theorem passive_arrive (s : Receiver) (bytes : List UInt8) :
    s.Passive { s with unread := s.unread ++ bytes } := passive_of_pending rfl

theorem passive_beginEvent (hphase : s.phase = .idle) :
    s.Passive { s with phase := .replaying 0 } := by
  refine passive_of_pending ?_
  rw [pending_idle hphase]
  rfl

theorem passive_replayDone {index : Nat} (hphase : s.phase = .replaying index)
    (hlen : s.packetsReceivedWhileConnecting.length ≤ index) :
    s.Passive { s with packetsReceivedWhileConnecting := [], phase := .receiving [] } := by
  refine passive_of_pending ?_
  rw [pending_replaying hphase, List.drop_eq_nil_of_le hlen]
  rfl

/-- The bytes of a read event change, or it ends. -/
theorem passive_receiving {bytes unread : List UInt8} {phase : EventPhase}
    (hphase : s.phase = .receiving bytes) (hnext : ∀ index, phase ≠ .replaying index) :
    s.Passive { s with unread := unread, phase := phase } := by
  refine passive_of_pending ?_
  rw [pending_receiving hphase]
  cases phase with
  | idle => rfl
  | replaying index => exact absurd rfl (hnext index)
  | receiving bytes => rfl

/-- A packet that is passed on gets the next number. -/
theorem Numbered.started_eq_succ (h : s.Numbered) (hstate : s.recvData.recvState ≠ .idle) :
    s.started = s.received.length + 1 := by
  rw [h.started_eq, currentNumber, if_neg hstate]

theorem Numbered.received_append (h : s.Numbered) (hstate : s.recvData.recvState ≠ .idle) :
    s.received ++ [s.started] = List.range' 1 (s.received.length + 1) := by
  rw [List.range'_concat, ← h.received_eq, h.started_eq_succ hstate, Nat.one_mul, Nat.add_comm]

/-- The receive loop numbers the packet it passes on. -/
theorem Numbered.packet (h : s.Numbered) (hstate : s.recvData.recvState ≠ .idle)
    (hreceived : t.received = s.received ++ [s.started]) (hstarted : t.started = s.started)
    (hidle : t.recvData.recvState = .idle) : t.Numbered where
  received_eq := by
    rw [hreceived, h.received_append hstate, List.length_range']
  started_eq := by
    rw [hstarted, currentNumber, if_pos hidle, hreceived, List.length_append,
      h.started_eq_succ hstate]
    rfl

/-- A packet that is buffered is the last one to be replayed. -/
theorem ReplayOrdered.packet (h : s.ReplayOrdered) (hnumber : s.started = s.received.length + 1)
    (hreceived : t.received = s.received ++ [s.started]) (hreplayed : t.replayed = s.replayed)
    (hpending : t.pending = s.pending ∨ t.pending = s.pending ++ [s.started]) :
    t.ReplayOrdered := by
  have hlength : t.received.length = s.received.length + 1 := by
    rw [hreceived, List.length_append, List.length_singleton]
  rcases hpending with hpending | hpending
  · exact h.congr (by rw [hreplayed, hpending]) (by omega)
  · have hreplay : t.replayed ++ t.pending = (s.replayed ++ s.pending) ++ [s.started] := by
      rw [hreplayed, hpending, List.append_assoc]
    constructor
    · rw [hreplay, List.pairwise_append]
      refine ⟨h.sorted, List.pairwise_singleton _ _, fun m hm n hn => ?_⟩
      rw [List.mem_singleton.mp hn, hnumber]
      exact Nat.lt_succ_of_le (h.received m hm)
    · intro n hn
      rw [hreplay] at hn
      rcases List.mem_append.mp hn with hn | hn
      · exact (h.received n hn).trans (by omega)
      · rw [List.mem_singleton.mp hn, hnumber, hlength]

/-- Passing a packet on is right exactly if nothing has thrown. -/
theorem passedOnce_packet_iff (h : s.InOrder) (hs : s.PassedOnce)
    (hstate : s.recvData.recvState ≠ .idle) (hreceived : t.received = s.received ++ [s.started])
    (hreplayed : t.replayed = s.replayed)
    (hquiet : t.calledAfterThrow = (s.calledAfterThrow || s.thrown)) :
    t.PassedOnce ↔ s.thrown = false := by
  constructor
  · intro ht
    have hcalled := ht.quiet
    rw [hquiet, hs.quiet, Bool.false_or] at hcalled
    exact hcalled
  · intro hthrown
    refine ⟨by rw [hquiet, hs.quiet, hthrown]; rfl, ?_, by rw [hreplayed]; exact hs.3⟩
    rw [hreceived, (h hthrown).1.received_append hstate]
    exact List.nodup_range'

/-- So is replaying one. -/
theorem passedOnce_replay_iff (h : s.InOrder) (hs : s.PassedOnce) {index : Nat}
    {p : NumberedPacket} (hphase : s.phase = .replaying index)
    (hp : s.packetsReceivedWhileConnecting[index]? = some p) (hreceived : t.received = s.received)
    (hreplayed : t.replayed = s.replayed ++ [p.number])
    (hquiet : t.calledAfterThrow = (s.calledAfterThrow || s.thrown)) :
    t.PassedOnce ↔ s.thrown = false := by
  constructor
  · intro ht
    have hcalled := ht.quiet
    rw [hquiet, hs.quiet, Bool.false_or] at hcalled
    exact hcalled
  · intro hthrown
    refine ⟨by rw [hquiet, hs.quiet, hthrown]; rfl, by rw [hreceived]; exact hs.2, ?_⟩
    have hsorted := (h hthrown).2.sorted
    rw [pending_replay hphase hp, List.append_cons] at hsorted
    rw [hreplayed]
    exact (List.pairwise_append.mp hsorted).1.imp fun hlt => hlt.ne

end

section

variable [Libnioev] {s t : Receiver} {event : Event}

theorem Numbered.next (h : s.Numbered) {b : UInt8} {bytes : List UInt8}
    {after : PacketReceiveData} {advance : Nat}
    (hiter : s.recvData.Iterates b bytes (.next after advance)) (phase : EventPhase) :
    Numbered { s with
      recvData := after
      started := if s.recvData.recvState = .idle then s.started + 1 else s.started
      phase := phase } where
  received_eq := h.received_eq
  started_eq := by
    have hstarted := h.started_eq
    simp only [currentNumber, if_neg hiter.next_state] at hstarted ⊢
    split
    · next hidle => rw [hstarted, if_pos hidle]
    · next hidle => rw [hstarted, if_neg hidle]

theorem passive_next {b : UInt8} {bytes : List UInt8} {after : PacketReceiveData} {advance : Nat}
    (hphase : s.phase = .receiving (b :: bytes))
    (hiter : s.recvData.Iterates b bytes (.next after advance)) :
    s.Passive { s with
      recvData := after
      started := if s.recvData.recvState = .idle then s.started + 1 else s.started
      phase := .receiving ((b :: bytes).drop advance) } where
  mState_eq := rfl
  loginRequested_eq := rfl
  loginExecuted_eq := rfl
  received_eq := rfl
  replayed_eq := rfl
  replayThrown_eq := rfl
  handled_eq := rfl
  handledBeforeLogin_eq := rfl
  pending_eq := by
    rw [pending_receiving hphase]
    rfl
  thrown_eq := rfl
  numbered := fun h => h.next hiter _

omit [Libnioev] in
theorem InOrder.passive (h : s.InOrder) (hpassive : s.Passive t) : t.InOrder := by
  intro hthrown
  obtain ⟨hnumbered, hreplay⟩ := h (hpassive.thrown_eq.symm.trans hthrown)
  refine ⟨hpassive.numbered hnumbered, hreplay.congr ?_ (congrArg List.length hpassive.received_eq).ge⟩
  rw [hpassive.replayed_eq, hpassive.pending_eq]

theorem inOrder_transition (h : s.InOrder) (hstep : s.Transition event t) : t.InOrder := by
  cases hstep with
  | arrive bytes => exact h.passive (passive_arrive s bytes)
  | login =>
      intro hthrown
      obtain ⟨hnumbered, hreplay⟩ := h hthrown
      exact ⟨hnumbered.congr rfl rfl rfl, hreplay.congr rfl le_rfl⟩
  | beginEvent hphase => exact h.passive (passive_beginEvent hphase)
  | @replayReturns index p outcome hphase hp =>
      intro hthrown
      obtain ⟨hnumbered, hreplay⟩ := h hthrown
      refine ⟨hnumbered.congr rfl rfl rfl, hreplay.congr ?_ le_rfl⟩
      rw [pending_replay hphase hp, List.append_cons]
      rfl
  | replayThrows =>
      intro hthrown
      cases hthrown
  | replayDone hphase hlen => exact h.passive (passive_replayDone hphase hlen)
  | recv hphase => exact h.passive (passive_receiving hphase fun _ heq => by cases heq)
  | next hphase hiter => exact h.passive (passive_next hphase hiter)
  | packetReturns hphase hiter hhandles =>
      intro hthrown
      obtain ⟨hstate, hidle⟩ := hiter.packet_state
      obtain ⟨hnumbered, hreplay⟩ := h (hhandles.thrown_eq.symm.trans hthrown)
      refine ⟨hnumbered.packet hstate hhandles.received_eq hhandles.started_eq hidle,
        hreplay.packet (hnumbered.started_eq_succ hstate) hhandles.received_eq
          hhandles.replayed_eq ?_⟩
      rw [pending_receiving hphase, pending_receiving rfl]
      rcases hhandles.buffered with hbuffer | hbuffer
      · exact .inl (by rw [hbuffer]; rfl)
      · exact .inr (by rw [hbuffer, List.map_append]; rfl)
  | packetThrows =>
      intro hthrown
      cases hthrown
  | violation =>
      intro hthrown
      cases hthrown
  | endEvent hphase => exact h.passive (passive_receiving hphase fun _ heq => by cases heq)

/-! ## Exactness -/

/-- A step passes something on in the wrong way exactly if it breaks the condition. -/
theorem passedOnce_transition_iff (h : s.InOrder) (hs : s.PassedOnce)
    (hstep : s.Transition event t) : t.PassedOnce ↔ s.StaysQuiet event := by
  cases hstep with
  | replayReturns hphase hp => exact passedOnce_replay_iff h hs hphase hp rfl rfl rfl
  | replayThrows hphase hp => exact passedOnce_replay_iff h hs hphase hp rfl rfl rfl
  | next hphase hiter =>
      refine iff_of_true ⟨hs.1, hs.2, hs.3⟩ fun _ => ?_
      rw [completesPacket_receiving hphase]
      exact hiter.not_completes
  | violation hphase hiter =>
      refine iff_of_true ⟨hs.1, hs.2, hs.3⟩ fun _ => ?_
      rw [completesPacket_receiving hphase]
      exact hiter.not_completes_violation
  | packetReturns hphase hiter hhandles =>
      refine Iff.trans (passedOnce_packet_iff h hs hiter.packet_state.1 ?_ ?_ ?_) ?_
      · exact hhandles.received_eq
      · exact hhandles.replayed_eq
      · exact hhandles.calledAfterThrow_eq
      rw [StaysQuiet, completesPacket_receiving hphase, Bool.eq_false_iff]
      exact ⟨fun hthrown h => absurd h hthrown, fun hquiet h => hquiet h hiter.completes⟩
  | packetThrows hphase hiter hhandles =>
      refine Iff.trans (passedOnce_packet_iff h hs hiter.packet_state.1 ?_ ?_ ?_) ?_
      · exact hhandles.received_eq
      · exact hhandles.replayed_eq
      · exact hhandles.calledAfterThrow_eq
      rw [StaysQuiet, completesPacket_receiving hphase, Bool.eq_false_iff]
      exact ⟨fun hthrown h => absurd h hthrown, fun hquiet h => hquiet h hiter.completes⟩
  | _ => exact iff_of_true ⟨hs.1, hs.2, hs.3⟩ trivial

/-- Over every run of a new connection: nothing is passed on after an exception,
and nothing twice, exactly if after the exception no bytes complete a packet and
nothing is replayed. -/
theorem passedOnce_iff_staysQuiet {run : List (Event × Receiver)}
    (hrun : Runs.IsRun (Runs.StepOf step) {} run) :
    Runs.AllStates PassedOnce run ↔ Runs.AllSteps StaysQuiet {} run := by
  refine hrun.allStates_iff_allSteps ?_ ?_ inOrder_initial ⟨rfl, List.nodup_nil, List.nodup_nil⟩
  · intro s event t hs _ _ hstep
    exact inOrder_transition hs (transition_of_step hstep)
  · intro s event t hs hpassed hstep
    exact passedOnce_transition_iff hs hpassed (transition_of_step hstep)

end

/-! ## A packet handed over twice -/

/-- The first packet is no `CONNECT`, and its handler throws. -/
def publishEvents : List Event :=
  [.arrive [0x30, 0x01, 0x00], .beginEvent, .replayDone, .recv 3, .iterate .returns,
    .iterate .returns, .iterate .returns]

theorem passedOnce_publishEvents :
    (Runs.runOf (@step .standard) {} publishEvents).length = 7 ∧
      Runs.AllStates PassedOnce (Runs.runOf (@step .standard) {} publishEvents) :=
  ⟨by decide +kernel,
    (@passedOnce_iff_staysQuiet .standard _ (Runs.isRun_runOf (@step .standard) {} publishEvents)).mpr
      (by decide +kernel)⟩

/-- One more byte, and the same packet is handed over again. -/
theorem not_passedOnce_publishEvents :
    ∃ run, Runs.IsRun (Runs.StepOf (@step .standard)) {} run ∧ ¬ Runs.AllStates PassedOnce run := by
  refine ⟨_, Runs.isRun_runOf (@step .standard) {} (publishEvents ++
    [.arrive [0x00], .beginEvent, .replayDone, .recv 1, .iterate .returns]), ?_⟩
  decide +kernel

end Receiver

end NioevMqtt
