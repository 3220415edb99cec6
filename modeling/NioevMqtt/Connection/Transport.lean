-- SUMMARY: A connection as a channel: over every run of sends, flushes and reads, the framer at the other end has been handed the packets that have arrived as a whole, in order.
import NioevMqtt.Connection.FrameRoundTrip
import NioevMqtt.Connection.WriteEdges

/-!
# Transport

The send side of a connection, and the receive loop on what its socket has accepted.
Sends are cut short, packets queue up and are flushed, and the other end reads what is
there in pieces of any size, in any order of these.
-/

namespace NioevMqtt

/-! ## A part of a stream -/

section

variable [Libnioev] {σ : Type*} {handlePacketReceived : PacketHandler σ}

/-- An iteration makes a call and is idle, or makes none and is not. -/
theorem calls_iterate {b : UInt8} {bytes rest : List UInt8} {s s' : LoopState σ}
    (h : iterate handlePacketReceived b bytes s = .ok (rest, s')) :
    s'.calls = s.calls ∧ s'.recvData.recvState ≠ .idle ∨
      ∃ called, s'.calls = s.calls ++ [called] := by
  have hiterates := iterates_receiveIteration s.recvData b bytes
  unfold iterate at h
  cases hiter : receiveIteration s.recvData b bytes with
  | next recvData advance =>
      rw [hiter] at h hiterates
      cases h
      refine .inl ⟨rfl, ?_⟩
      cases hiterates with
      | start => exact PacketReceiveState.noConfusion
      | lastLength => exact PacketReceiveState.noConfusion
      | moreLength hstate =>
          show s.recvData.recvState ≠ .idle
          rw [hstate]
          exact PacketReceiveState.noConfusion
      | partialBody hstate =>
          show s.recvData.recvState ≠ .idle
          rw [hstate]
          exact PacketReceiveState.noConfusion
  | packet called after advance =>
      rw [hiter] at h
      rcases hcall : handlePacketReceived called s.world with ⟨world, _ | e⟩
      · simp only [hcall] at h
        cases h
        exact .inr ⟨called, rfl⟩
      · simp only [hcall] at h
        cases h
  | violation reason recvData =>
      rw [hiter] at h
      cases h
  | assertionFailed =>
      rw [hiter] at h
      cases h

/-- So the loop, over any bytes: it has made a call, is waiting for more, or was given
nothing. -/
theorem calls_receiveLoop {bytes : List UInt8} {s s' : LoopState σ}
    (h : receiveLoop handlePacketReceived bytes s = .ok s') :
    ∃ more, s'.calls = s.calls ++ more ∧
      (more = [] → bytes = [] ∨ s'.recvData.recvState ≠ .idle) := by
  induction bytes, s using receiveLoop.induct handlePacketReceived with
  | case1 s =>
      rw [receiveLoop_nil] at h
      cases h
      exact ⟨[], (List.append_nil _).symm, fun _ => .inl rfl⟩
  | case2 s b bytes stop hiter =>
      rw [receiveLoop_cons, hiter] at h
      cases h
  | case3 s b bytes rest t hiter ih =>
      rw [receiveLoop_cons, hiter] at h
      obtain ⟨more, hmore, hidle⟩ := ih h
      rcases calls_iterate hiter with ⟨hcalls, hstate⟩ | ⟨called, hcalls⟩
      · refine ⟨more, hcalls ▸ hmore, fun hnil => .inr ?_⟩
        rcases hidle hnil with rfl | hwaits
        · -- The iteration was the last one.
          have hlast : receiveLoop handlePacketReceived [] t = .ok s' := h
          rw [receiveLoop_nil] at hlast
          cases hlast
          exact hstate
        · exact hwaits
      · refine ⟨called :: more, ?_, fun hnil => by cases hnil⟩
        rw [hmore, hcalls, List.append_assoc]
        rfl

end

/-- A packet that the loop at the other end receives. -/
structure Frame.Sendable [Libnioev] (frame : Frame) : Prop where
  type : ValidType frame.firstByte
  length_le : frame.body.length ≤ maxReceivedLength

instance [Libnioev] (frame : Frame) : Decidable frame.Sendable :=
  decidable_of_iff (ValidType frame.firstByte ∧ frame.body.length ≤ maxReceivedLength)
    ⟨fun h => ⟨h.1, h.2⟩, fun h => ⟨h.type, h.length_le⟩⟩

/-- The packets of which the first `n` bytes of the stream have everything. -/
def wholeFrames [Libnioev] : List Frame → Nat → List Frame
  | [], _ => []
  | frame :: frames, n =>
    if frame.packet.fullSize ≤ n then
      frame :: wholeFrames frames (n - frame.packet.fullSize)
    else []

theorem wholeFrames_length_wireOf [Libnioev] (frames : List Frame) :
    wholeFrames frames (wireOf frames).length = frames := by
  induction frames with
  | nil => rfl
  | cons frame frames ih =>
      have hlength : (wireOf (frame :: frames)).length =
          frame.packet.fullSize + (wireOf frames).length := by
        rw [← EncodedPacket.length_wireBytes]
        exact List.length_append
      rw [wholeFrames, hlength, if_pos (Nat.le_add_right _ _), Nat.add_sub_cancel_left, ih]

section

variable [Libnioev] [LawfulLibnioev] {σ : Type*} (f : PacketReceiveData → σ → σ)

/-- A part of a packet is no call. -/
theorem receiveLoop_partialFrame {s : LoopState σ} (hidle : s.recvData.recvState = .idle)
    {frame : Frame} (hframe : frame.Sendable) {n : Nat} (hn : n < frame.packet.fullSize) :
    ∃ s', receiveLoop (.returning f) (frame.packet.wireBytes.take n) s = .ok s' ∧
      s'.calls = s.calls := by
  obtain ⟨t, hconsumes, ht, hcalls⟩ := consumes_frame f hidle hframe.type hframe.length_le
  have hframed : s.recvData.Framed := by
    unfold PacketReceiveData.Framed
    rw [hidle]
    trivial
  have hwhole := hconsumes []
  rw [List.append_nil, receiveLoop_nil, ← List.take_append_drop n frame.packet.wireBytes,
    (elementwise_receiveLoop _).append _ _ hframed] at hwhole
  have hrest : frame.packet.wireBytes.drop n ≠ [] := by
    rw [Ne, List.drop_eq_nil_iff, EncodedPacket.length_wireBytes, not_le]
    exact hn
  cases hpart : receiveLoop (.returning f) (frame.packet.wireBytes.take n) s with
  | error stop =>
      rw [hpart] at hwhole
      cases hwhole
  | ok s' =>
      rw [hpart] at hwhole
      refine ⟨s', rfl, ?_⟩
      obtain ⟨first, hfirst, -⟩ := calls_receiveLoop hpart
      obtain ⟨more, hmore, hwaits⟩ := calls_receiveLoop hwhole
      -- The packet is one call, and it is made by the rest.
      have hone : first.length + more.length = 1 := by
        have hlength := congrArg List.length hcalls
        rw [hmore, hfirst] at hlength
        simp only [List.length_map, List.length_append, List.length_singleton] at hlength
        omega
      have hnonempty : more ≠ [] := by
        intro hnil
        rcases hwaits hnil with hempty | hne
        · exact hrest hempty
        · exact hne ht
      have hpos := List.length_pos_iff.mpr hnonempty
      rw [hfirst, List.eq_nil_of_length_eq_zero (show first.length = 0 by omega), List.append_nil]

/-- Of the first bytes of a stream the loop hands over the packets that are whole. -/
theorem receiveLoop_take {s : LoopState σ} (hidle : s.recvData.recvState = .idle)
    {frames : List Frame} (hframes : ∀ frame ∈ frames, frame.Sendable) (n : Nat) :
    ∃ s', receiveLoop (.returning f) ((wireOf frames).take n) s = .ok s' ∧
      s'.calls.map (·.received) =
        s.calls.map (·.received) ++ (wholeFrames frames n).map Frame.sent := by
  induction frames generalizing s n with
  | nil =>
      refine ⟨s, ?_, (List.append_nil _).symm⟩
      rw [show (wireOf []).take n = [] from List.take_nil, receiveLoop_nil]
  | cons frame frames ih =>
      obtain ⟨hframe, hframes⟩ := List.forall_mem_cons.mp hframes
      have hwire : wireOf (frame :: frames) = frame.packet.wireBytes ++ wireOf frames := rfl
      have hlength := frame.packet.length_wireBytes
      by_cases hwhole : frame.packet.fullSize ≤ n
      · obtain ⟨t, hconsumes, ht, hcalls⟩ := consumes_frame f hidle hframe.type hframe.length_le
        obtain ⟨s', hs', hcalls'⟩ := ih ht hframes (n - frame.packet.fullSize)
        refine ⟨s', ?_, ?_⟩
        · rw [hwire, List.take_append, List.take_of_length_le (by rwa [hlength]), hlength,
            hconsumes]
          exact hs'
        · rw [hcalls', hcalls, wholeFrames, if_pos hwhole, List.append_assoc]
          rfl
      · obtain ⟨s', hs', hcalls⟩ := receiveLoop_partialFrame f hidle hframe (not_le.mp hwhole)
        refine ⟨s', ?_, ?_⟩
        · rw [hwire, List.take_append_of_le_length (by rw [hlength]; exact (not_le.mp hwhole).le)]
          exact hs'
        · rw [hcalls, wholeFrames, if_neg hwhole]
          exact (List.append_nil _).symm

end

/-! ## The entries of a scatter send -/

open InTransitEncodedPacket (remaining)

/-- What `::sendmsg` reads of a packet: its bytes, where all entries lie in its pieces. -/
def ReadsEntries (present : EncodedPacket → Nat → List UInt8) : Prop :=
  ∀ p offset bytes, p.gather (p.constructIOVecs offset) = some bytes → present p offset = bytes

/-- The bytes a packet should show. -/
def presentRest (p : EncodedPacket) (offset : Nat) : List UInt8 := p.wireBytes.drop offset

namespace SendState

variable {present : EncodedPacket → Nat → List UInt8} {s : SendState}

theorem presentsRest_presentRest : PresentsRest presentRest := fun _ _ _ => rfl

/-- No queued packet has been cut inside its identifier. -/
def Unsplit (s : SendState) : Prop :=
  ∀ p ∈ s.mSendTasks, ¬ p.packet.SplitsPacketId p.offset

instance (s : SendState) : Decidable s.Unsplit :=
  inferInstanceAs (Decidable (∀ p ∈ s.mSendTasks, _))

/-- A packet that has not started is not split. -/
theorem not_splitsPacketId_zero (p : EncodedPacket) : ¬ p.SplitsPacketId 0 := by
  rintro ⟨-, h⟩
  have hpos := p.mPreludeLength_pos
  omega

theorem taken_congr (hpresent : ReadsEntries present) {q : List InTransitEncodedPacket}
    (hq : OnlyHeadStarted q) (hsplit : ∀ p ∈ q, ¬ p.packet.SplitsPacketId p.offset)
    (result : SendmsgResult) : taken present q result = taken presentRest q result := by
  have hoffered : offered present q = offered presentRest q := by
    unfold offered
    refine congrArg List.flatten (List.map_congr_left fun p hp => ?_)
    have hmem := List.mem_of_mem_take hp
    have hread := EncodedPacket.gather_constructIOVecs (hq.pending p hmem) (hsplit p hmem)
    rw [Segments.flatten_drop] at hread
    exact hpresent _ _ _ hread
  cases result with
  | accepted n => simp only [taken, hoffered]
  | wouldBlock => rfl
  | failed => rfl

/-- Without split packets, what is sent is what should be. -/
theorem run_congr (hpresent : ReadsEntries present) (hintact : s.Intact) (op : SendOp)
    (hsplit : ∀ state result, op = .flush state result → s.Unsplit) :
    op.run present s = op.run presentRest s := by
  cases op with
  | sendData packet result =>
      have hfresh : OnlyHeadStarted [{ packet := packet }] := by
        simpa using OnlyHeadStarted.nil.append_fresh packet
      have htaken := taken_congr hpresent hfresh
        (fun p hp => by rw [List.mem_singleton.mp hp]; exact not_splitsPacketId_zero packet) result
      simp only [SendOp.run, sendData, htaken]
  | flush state result =>
      have htaken := taken_congr hpresent hintact.queue (hsplit state result rfl) result
      simp only [SendOp.run, flushSendTasks, htaken]

/-- What a step hands over, and that it takes nothing accepted back. -/
theorem handed_run (op : SendOp) :
    (op.run present s).handed = s.handed ++ (match op with
      | .sendData packet _ => packet.wireBytes
      | .flush _ _ => []) := by
  cases op with
  | sendData packet result =>
      simp only [SendOp.run, sendData]
      split
      · split
        · rfl
        · split
          · rfl
          · rfl
      · rfl
  | flush state result =>
      simp only [SendOp.run, flushSendTasks, List.append_nil]
      split
      · rfl
      · split
        · rfl
        · split
          · rfl
          · rfl

theorem accepted_run (op : SendOp) : ∃ more, (op.run present s).accepted = s.accepted ++ more := by
  cases op with
  | sendData packet result =>
      simp only [SendOp.run, sendData]
      split
      · split
        · exact ⟨[], (List.append_nil _).symm⟩
        · split
          · exact ⟨_, rfl⟩
          · exact ⟨_, rfl⟩
      · exact ⟨[], (List.append_nil _).symm⟩
  | flush state result =>
      simp only [SendOp.run, flushSendTasks]
      split
      · exact ⟨[], (List.append_nil _).symm⟩
      · split
        · exact ⟨[], (List.append_nil _).symm⟩
        · split
          · exact ⟨_, rfl⟩
          · exact ⟨_, rfl⟩

/-- The count that an answer may have is the one the entries offer. -/
theorem admissible_presentRest (hintact : s.Intact) {op : SendOp}
    (h : op.offers s ≠ [] → op.result.Admits (offeredSize (op.offers s))) :
    op.Admissible presentRest s := by
  intro hne
  have hoffers : OnlyHeadStarted (op.offers s) := by
    cases op with
    | sendData packet result =>
        simp only [SendOp.offers]
        split
        · simpa using OnlyHeadStarted.nil.append_fresh packet
        · exact .nil
    | flush state result => exact hintact.queue
  rw [offered_eq presentsRest_presentRest hoffers, ← WriteState.offeredSize_eq hoffers]
  exact h hne

theorem Intact.run (hpresent : ReadsEntries present) (hintact : s.Intact) {op : SendOp}
    (hsplit : ∀ state result, op = .flush state result → s.Unsplit)
    (h : op.offers s ≠ [] → op.result.Admits (offeredSize (op.offers s))) :
    (op.run present s).Intact := by
  have hadmissible := admissible_presentRest hintact h
  rw [run_congr hpresent hintact op hsplit]
  cases op with
  | sendData packet result => exact hintact.sendData presentsRest_presentRest hadmissible
  | flush state result => exact hintact.flushSendTasks presentsRest_presentRest hadmissible

end SendState

/-! ## Both ends -/

/-- The send side of a connection, and the framer that reads what its socket has accepted. -/
structure Transport (σ : Type*) where
  sender : SendState := {}
  /-- The packets given to `sendData`. -/
  frames : List Frame := []
  /-- How many of the accepted bytes have been read. -/
  read : Nat := 0
  receiver : Except (Stop σ) (LoopState σ)

inductive TransportOp where
  | sendData (frame : Frame) (result : SendmsgResult)
  | flush (state : ConnectionState) (result : SendmsgResult)
  /-- `recv` into a buffer of that size. -/
  | recv (size : Nat)

namespace Transport

variable {σ : Type*}

/-- Nothing has been sent. -/
def initial (world : σ) : Transport σ := { receiver := .ok { world := world } }

section

variable [Libnioev] (present : EncodedPacket → Nat → List UInt8) (f : PacketReceiveData → σ → σ)

/-- A send or a flush, where it sends with an answer that is not a failure. -/
def sends (t : Transport σ) (op : SendOp) : Option (Transport σ) :=
  if op.offers t.sender ≠ [] → op.result.Admits (offeredSize (op.offers t.sender)) then
    some { t with sender := op.run present t.sender }
  else none

def step (t : Transport σ) : TransportOp → Option (Transport σ)
  | .sendData frame result =>
    (t.sends present (.sendData frame.packet result)).map fun t =>
      { t with frames := t.frames ++ [frame] }
  | .flush state result => t.sends present (.flush state result)
  | .recv size =>
    let bytes := (t.sender.accepted.drop t.read).take size
    if bytes ≠ [] then
      some
        { t with
          read := t.read + bytes.length
          receiver := t.receiver >>= receiveLoop (.returning f) bytes }
    else none

/-- The packets can be received, and none is split when it is offered again. -/
def Suits (t : Transport σ) : TransportOp → Prop
  | .sendData frame _ => frame.Sendable
  | .flush _ _ => t.sender.Unsplit
  | .recv _ => True

instance decidableSuits (t : Transport σ) : (op : TransportOp) → Decidable (t.Suits op)
  | .sendData frame _ => inferInstanceAs (Decidable frame.Sendable)
  | .flush _ _ => inferInstanceAs (Decidable t.sender.Unsplit)
  | .recv _ => isTrue trivial

/-- The framer has been handed the packets that it has read as a whole. -/
structure InOrder (t : Transport σ) (s : LoopState σ) : Prop where
  receiver_eq : t.receiver = .ok s
  whole : s.calls.map (·.received) = (wholeFrames t.frames t.read).map Frame.sent
  /-- These are all, once nothing is on its way. -/
  all : t.sender.mSendTasks = [] → t.read = t.sender.accepted.length →
    s.calls.map (·.received) = t.frames.map Frame.sent

/-- What has been read of what has been sent. -/
structure Reads (world : σ) (t : Transport σ) : Prop where
  intact : t.sender.Intact
  handed_eq : t.sender.handed = wireOf t.frames
  sendable : ∀ frame ∈ t.frames, frame.Sendable
  read_le : t.read ≤ t.sender.accepted.length
  receiver_eq : t.receiver =
    receiveLoop (.returning f) (t.sender.accepted.take t.read) { world := world }

variable {present f} {t u : Transport σ} {world : σ}

theorem reads_initial (world : σ) : Reads f world (initial world) where
  intact := SendState.intact_initial
  handed_eq := rfl
  sendable := fun _ h => by cases h
  read_le := Nat.le_refl 0
  receiver_eq := (receiveLoop_nil _ _).symm

/-- The sender goes on, and what has been read stays. -/
theorem Reads.sends (hpresent : ReadsEntries present) (h : Reads f world t) {op : SendOp}
    (hsplit : ∀ state result, op = .flush state result → t.sender.Unsplit)
    (hsends : t.sends present op = some u) :
    u.frames = t.frames ∧ u.sender.Intact ∧ u.sender = op.run present t.sender ∧
      u.read ≤ u.sender.accepted.length ∧ u.receiver =
        receiveLoop (.returning f) (u.sender.accepted.take u.read) { world := world } := by
  unfold Transport.sends at hsends
  split at hsends
  · next hadmits =>
      cases hsends
      have hgrows : ∃ more, (op.run present t.sender).accepted = t.sender.accepted ++ more :=
        SendState.accepted_run op
      obtain ⟨more, hmore⟩ := hgrows
      refine ⟨rfl, h.intact.run hpresent hsplit hadmits, rfl, ?_, ?_⟩
      · rw [hmore, List.length_append]
        exact h.read_le.trans (Nat.le_add_right _ _)
      · rw [hmore, List.take_append_of_le_length h.read_le]
        exact h.receiver_eq
  · cases hsends

theorem Reads.step (hpresent : ReadsEntries present) {op : TransportOp} (h : Reads f world t)
    (hsuits : t.Suits op) (hstep : t.step present f op = some u) : Reads f world u := by
  cases op with
  | sendData frame result =>
      obtain ⟨v, hsends, rfl⟩ := Option.map_eq_some_iff.mp hstep
      obtain ⟨hframes, hintact, hsender, hread, hreceiver⟩ :=
        h.sends hpresent (fun _ _ heq => by cases heq) hsends
      refine ⟨hintact, ?_, ?_, hread, hreceiver⟩
      · show v.sender.handed = wireOf (v.frames ++ [frame])
        rw [hsender, SendState.handed_run, h.handed_eq, hframes, wireOf, wireOf, List.map_append,
          List.flatten_append]
        simp
      · intro frame' hmem
        rcases List.mem_append.mp hmem with hold | hnew
        · exact h.sendable frame' (hframes ▸ hold)
        · rw [List.mem_singleton.mp hnew]
          exact hsuits
  | flush state result =>
      obtain ⟨hframes, hintact, hsender, hread, hreceiver⟩ :=
        h.sends hpresent (fun _ _ _ => hsuits) hstep
      refine ⟨hintact, ?_, hframes ▸ h.sendable, hread, hreceiver⟩
      rw [hsender, SendState.handed_run, h.handed_eq, hframes]
      exact List.append_nil _
  | recv size =>
      simp only [Transport.step] at hstep
      split at hstep
      · cases hstep
        have hframed : ({ world := world } : LoopState σ).recvData.Framed := trivial
        have hstream : t.sender.accepted.take
            (t.read + ((t.sender.accepted.drop t.read).take size).length) =
            t.sender.accepted.take t.read ++ (t.sender.accepted.drop t.read).take size := by
          rw [List.take_add, List.length_take, ← List.take_eq_take_min]
        refine ⟨h.intact, h.handed_eq, h.sendable, ?_, ?_⟩
        · show t.read + ((t.sender.accepted.drop t.read).take size).length ≤ t.sender.accepted.length
          have hle := h.read_le
          rw [List.length_take, List.length_drop]
          omega
        · show t.receiver >>= _ = receiveLoop _ (t.sender.accepted.take _) _
          rw [hstream, h.receiver_eq, (elementwise_receiveLoop _).append _ _ hframed]
      · cases hstep

variable [LawfulLibnioev]

theorem Reads.inOrder (h : Reads f world t) : ∃ s, t.InOrder s := by
  have hprefix : t.sender.accepted.take t.read = (wireOf t.frames).take t.read := by
    rw [← h.handed_eq, ← h.intact.stream, List.take_append_of_le_length h.read_le]
  obtain ⟨s, hs, hcalls⟩ := receiveLoop_take f (s := { world := world }) rfl h.sendable t.read
  refine ⟨s, ?_, hcalls, fun hempty hread => ?_⟩
  · rw [h.receiver_eq, hprefix]
    exact hs
  · have hall : t.read = (wireOf t.frames).length := by
      rw [hread, ← h.handed_eq, ← h.intact.stream, SendState.unsent, hempty]
      simp
    rw [hcalls, hall, wholeFrames_length_wireOf]
    rfl

/-- Over every run the framer at the other end is handed the packets that were sent, in
order, each when all of it has been read. -/
theorem inOrder_of_isRun (hpresent : ReadsEntries present) {run : List (TransportOp × Transport σ)}
    (hrun : Runs.IsRun (Runs.StepOf fun t op => t.step present f op) (initial world) run)
    (hsuits : Runs.AllSteps Suits (initial world) run) :
    Runs.AllStates (fun t => ∃ s, t.InOrder s) run := by
  have hreads : Runs.AllStates (Reads f world) run :=
    hrun.invariant_of_allSteps (fun _ _ _ h hop hstep => h.step hpresent hop hstep)
      (reads_initial world) hsuits
  exact fun x hx => (hreads x hx).inOrder

end

/-- A `PUBLISH` of which three bytes are taken, a `PINGRESP` queued behind it, and the other
end, which reads before and after the flush. -/
theorem inOrder_publish_pingresp :
    let present : EncodedPacket → Nat → List UInt8 :=
      fun p offset => (p.gather (p.constructIOVecs offset)).getD []
    Runs.AllStates (fun t : Transport Unit => ∃ s, @InOrder Unit .standard t s)
      (Runs.runOf (fun t op => @step Unit .standard present (fun _ world => world) t op)
        (initial ())
        [.sendData (.fromComponentsWithId 0x32 [0, 1, 0x74] 2 [0x68]) (.accepted 3), .recv 2,
          .sendData (.fromFirstByte 0xD0) .wouldBlock, .flush .connected (.accepted 6), .recv 100,
          .flush .connected (.accepted 1), .recv 100]) := by
  intro present
  refine @inOrder_of_isRun Unit .standard present (fun _ world => world) () Libnioev.standard_lawful
    ?_ _ (Runs.isRun_runOf _ _ _) (@of_decide_eq_true _ (@Runs.decidableAllSteps _ _ _
      (@decidableSuits Unit .standard) _ _) (by decide +kernel))
  intro p offset bytes hread
  show (p.gather (p.constructIOVecs offset)).getD [] = bytes
  rw [hread]
  rfl

end Transport

end NioevMqtt
