-- SUMMARY: The broker and the transports of its connections together: over every run, what a client has received are the first of the packets that were sent to it, among them the messages of its session in their order.
import NioevMqtt.Broker.OrderedDelivery
import NioevMqtt.Connection.Transport

/-!
# Channels

Every packet the broker sends goes through the transport of its connection: the socket
takes a part of it, the rest is queued and flushed, and the client reads the bytes in pieces.
A step of the broker gives its packets to several connections, one after another.
-/

namespace NioevMqtt

open Outcome

/-! ## Factories -/

theorem memoryBytes_inj {x y : UInt16} (h : memoryBytes x = memoryBytes y) : x = y := by
  obtain ⟨hlow, hhigh⟩ : x.toUInt8 = y.toUInt8 ∧ (x >>> 8).toUInt8 = (y >>> 8).toUInt8 := by
    simpa [memoryBytes] using h
  apply UInt16.toNat_inj.mp
  have hlow' : x.toNat % 256 = y.toNat % 256 := congrArg UInt8.toNat hlow
  have hshift : ∀ z : UInt16, (z >>> 8).toUInt8.toNat = z.toNat / 256 := by
    intro z
    have hlt := z.toNat_lt
    have hdiv : (z >>> 8).toNat = z.toNat / 256 := by
      rw [UInt16.toNat_shiftRight]
      exact Nat.shiftRight_eq_div_pow _ _
    rw [UInt16.toNat_toUInt8, hdiv]
    omega
  have hhigh' := congrArg UInt8.toNat hhigh
  rw [hshift, hshift] at hhigh'
  omega

theorem htons_htons (id : UInt16) : htons (htons id) = id := by
  obtain ⟨hlow, hhigh⟩ : (htons id).toUInt8 = (id >>> 8).toUInt8 ∧
      (htons id >>> 8).toUInt8 = id.toUInt8 := by
    simpa [memoryBytes, bigEndianBytes] using memoryBytes_htons id
  apply memoryBytes_inj
  rw [memoryBytes_htons, bigEndianBytes, hlow, hhigh, memoryBytes]

/-- The call that builds the packet. -/
def Frame.of (p : EncodedPacket) : Frame :=
  match p.mType with
  | .singleByteWithLen => .fromFirstByte p.mPrelude.firstByte
  | .singleByteWithLenAndMiddle => .fromData p.mPrelude.firstByte p.mMiddle
  | .singleByteWithLenAndMiddleAndEnd => .fromComponents p.mPrelude.firstByte p.mMiddle p.mEnd
  | .full =>
    .fromComponentsWithId p.mPrelude.firstByte p.mMiddle (htons (p.mPacketId.getD 0)) p.mEnd

section

variable [Libnioev]

theorem Frame.of_packet (frame : Frame) : Frame.of frame.packet = frame := by
  cases frame with
  | fromComponentsWithId firstByte middle packetId end_ =>
      show Frame.fromComponentsWithId firstByte middle (htons (htons packetId)) end_ = _
      rw [htons_htons]
  | _ => rfl

namespace EncodedPacket

variable {p : EncodedPacket}

theorem Built.packet_of (h : p.Built) : (Frame.of p).packet = p := by
  obtain ⟨frame, rfl⟩ := h
  rw [Frame.of_packet]

theorem Built.setDupFlag (h : p.Built) : p.setDupFlag.Built := by
  obtain ⟨frame, rfl⟩ := h
  exact ⟨frame.dup, frame.packet_dup⟩

theorem built_freshPacket (b : MQTTPublishPacketBuilder) (request : PacketRequest) :
    (b.freshPacket request).Built := ⟨b.frame request, b.packet_frame request⟩

end EncodedPacket

theorem HandedMessage.built_resent (m : HandedMessage) : m.resent.Built := by
  rw [resent_eq]
  exact (EncodedPacket.built_freshPacket _ _).setDupFlag

end

/-! ## What a step sends -/

/-- Packets are sent one after another. -/
def sendAll (sent : ConnectionId → List EncodedPacket)
    (packets : List (ConnectionId × EncodedPacket)) : ConnectionId → List EncodedPacket :=
  packets.foldl (fun sent packet => sendTo sent (some packet)) sent

theorem sendAll_append (sent : ConnectionId → List EncodedPacket)
    (packets packets' : List (ConnectionId × EncodedPacket)) :
    sendAll sent (packets ++ packets') = sendAll (sendAll sent packets) packets' :=
  List.foldl_append

theorem sendAll_toList (sent : ConnectionId → List EncodedPacket)
    (packet : Option (ConnectionId × EncodedPacket)) :
    sendAll sent packet.toList = sendTo sent packet := by
  cases packet with
  | none => rfl
  | some packet => rfl

/-- A connection that is new has been sent nothing. -/
def opened (sent : ConnectionId → List EncodedPacket) :
    Option ConnectionId → ConnectionId → List EncodedPacket
  | some client => Function.update sent client []
  | none => sent

/-- They may all go to one connection. -/
theorem sendAll_one (sent : ConnectionId → List EncodedPacket) (client : ConnectionId)
    (packets : List EncodedPacket) :
    sendAll sent (packets.map (client, ·)) =
      Function.update sent client (sent client ++ packets) := by
  induction packets generalizing sent with
  | nil => rw [List.append_nil, Function.update_eq_self]; rfl
  | cons packet packets ih =>
      show sendAll (sendTo sent (some (client, packet))) (packets.map (client, ·)) = _
      rw [ih, sendTo_self, List.append_assoc, sendTo, Function.update_idem]
      rfl

namespace ApplicationState

variable {τ : Type} [Libnioev] {s t : ApplicationState τ} {client : ConnectionId} {action : Action}

/-- The packets of many deliveries. -/
def deliveredPackets : ApplicationState τ → List Delivery → List (ConnectionId × EncodedPacket)
  | _, [] => []
  | s, d :: deliveries =>
    (s.deliveredPacket d).toList ++
      match s.deliver d with
      | .error _ => []
      | .ok t => deliveredPackets t deliveries

theorem sentTo_deliverAll {deliveries : List Delivery}
    (hok : deliveries.foldlM deliver s = .ok t) :
    t.sentTo = sendAll s.sentTo (s.deliveredPackets deliveries) := by
  induction deliveries generalizing s with
  | nil =>
      cases hok
      rfl
  | cons d deliveries ih =>
      rw [List.foldlM_cons] at hok
      obtain ⟨u, hd, hrest⟩ := bind_eq_ok hok
      rw [deliveredPackets, hd, sendAll_append, sendAll_toList, ← sentTo_deliver hd]
      exact ih hrest

theorem built_deliveredPackets {deliveries : List Delivery} {packet : ConnectionId × EncodedPacket}
    (h : packet ∈ s.deliveredPackets deliveries) : packet.2.Built := by
  induction deliveries generalizing s with
  | nil => cases h
  | cons d deliveries ih =>
      rw [deliveredPackets] at h
      rcases List.mem_append.mp h with hfirst | hrest
      · obtain ⟨subscriber, topic, payload, qos, retained, properties⟩ := d
        cases subscriber with
        | other id => cases hfirst
        | session id =>
            obtain ⟨client, -, rfl⟩ := Option.map_eq_some_iff.mp (Option.mem_toList.mp hfirst)
            exact EncodedPacket.built_freshPacket _ _
      · split at hrest
        · cases hrest
        · exact ih hrest

variable [SubscriptionTree τ]

/-- What a step sends, in its order. -/
def sentPackets (s : ApplicationState τ) (action : Action) : List (ConnectionId × EncodedPacket) :=
  match s.executedLogin action with
  | some login => (s.loginPackets login).map (login.client, ·)
  | none =>
    (s.deliveries action).1.deliveredPackets (s.deliveries action).2 ++ (s.answer action).toList

/-- What has been sent before; a connection that is new has been sent nothing. -/
def sentBefore (s : ApplicationState τ) : Action → ConnectionId → List EncodedPacket
  | .newConnection .. => Function.update s.sentTo s.nextConnection []
  | _ => s.sentTo

theorem sentTo_stepOk (h : s.Linked) (hstep : s.stepOk action = some t) :
    t.sentTo = sendAll (s.sentBefore action) (s.sentPackets action) := by
  have hstep' := step_of_stepOk hstep
  by_cases hnew : ∃ remote now, action = .newConnection remote now
  · obtain ⟨remote, now, rfl⟩ := hnew
    cases steps_of_step hstep' with
    | newConnection =>
        exact funext fun c => Function.apply_update (fun _ => MQTTClientConnection.sent) _ _ _ c
  · have hbefore : s.sentBefore action = s.sentTo := by
      cases action with
      | newConnection remote now => exact absurd ⟨remote, now, rfl⟩ hnew
      | _ => rfl
    rw [hbefore]
    unfold sentPackets
    cases hlogin : s.executedLogin action with
    | some login =>
        rw [sendAll_one]
        exact sentTo_executedLogin h hstep hlogin
    | none =>
        obtain ⟨hbase, u, hu, hsent⟩ := sendsMade_step h
          (fun remote now heq => hnew ⟨remote, now, heq⟩) hlogin hstep'
        rw [sendAll_append, sendAll_toList, hsent, sentTo_deliverAll hu, hbase]

/-! ## Packets are built by the factories -/

omit [SubscriptionTree τ] in
theorem built_loginPackets {log : List HandedMessage} (h : s.Logged log) {login : Login}
    {packet : EncodedPacket} (hpacket : packet ∈ s.loginPackets login) : packet.Built := by
  by_cases hresumes : s.Resumes login
  · rw [loginPackets_of_resumes hresumes, h.orderedPackets_eq] at hpacket
    rcases List.mem_cons.mp hpacket with rfl | hrest
    · exact EncodedPacket.built_fromData _ _
    · rcases List.mem_append.mp hrest with hresent | hreleased
      · obtain ⟨m, -, rfl⟩ := List.mem_map.mp hresent
        exact m.built_resent
      · obtain ⟨id, -, rfl⟩ := List.mem_map.mp hreleased
        exact EncodedPacket.built_fromData _ _
  · rw [loginPackets_of_clean hresumes] at hpacket
    rw [List.mem_singleton.mp hpacket]
    exact EncodedPacket.built_fromData _ _

theorem built_sentPackets {log : List HandedMessage} (h : s.Logged log)
    (hanswers : ∀ thread client packet, .reply client packet ∈ s.work thread → packet.IsAnswer)
    {packet : ConnectionId × EncodedPacket} (hpacket : packet ∈ s.sentPackets action) :
    packet.2.Built := by
  unfold sentPackets at hpacket
  split at hpacket
  · obtain ⟨p, hp, rfl⟩ := List.mem_map.mp hpacket
    exact built_loginPackets h hp
  · rcases List.mem_append.mp hpacket with hdelivered | hanswer
    · exact built_deliveredPackets hdelivered
    · have hanswer' : s.answer action = some packet := Option.mem_toList.mp hanswer
      cases action with
      | rejectVersion client =>
          cases hanswer'
          exact EncodedPacket.built_fromData _ _
      | proceed thread lockTaken =>
          simp only [answer] at hanswer'
          split at hanswer'
          · next hwork =>
              cases hanswer'
              exact (hanswers thread _ _ (by rw [hwork]; exact List.mem_cons_self)).built
          · cases hanswer'
      | _ => cases hanswer'

end ApplicationState

namespace Publishers

variable {τ : Type} [Libnioev] [SubscriptionTree τ] {w w' : Publishers τ} {action : PublisherAction}

/-- What a step sends. -/
def sends (w : Publishers τ) : PublisherAction → List (ConnectionId × EncodedPacket)
  | .broker action => w.broker.sentPackets action
  | .deliver thread =>
    match (w.fanOut thread).2 with
    | d :: _ => (w.broker.deliveredPacket d).toList
    | [] => []
  | _ => []

/-- The connection a step makes. -/
def opens (w : Publishers τ) : PublisherAction → Option ConnectionId
  | .broker (.newConnection ..) => some w.broker.nextConnection
  | _ => none

/-- What has been sent before. -/
def sentBefore (w : Publishers τ) (action : PublisherAction) : ConnectionId → List EncodedPacket :=
  opened w.broker.sentTo (w.opens action)

theorem Sound.sentTo_step (h : w.Sound) (hstep : w.step action = some w') :
    w'.broker.sentTo = sendAll (w.sentBefore action) (w.sends action) := by
  cases action with
  | broker action =>
      simp only [Publishers.step] at hstep
      split at hstep
      · obtain ⟨t, hok, rfl⟩ := Option.map_eq_some_iff.mp hstep
        have hbefore : w.sentBefore (.broker action) = w.broker.sentBefore action := by
          cases action with
          | _ => rfl
        rw [hbefore]
        exact ApplicationState.sentTo_stepOk h.linked hok
      · cases hstep
  | beginPublish thread =>
      simp only [Publishers.step] at hstep
      split at hstep
      · split at hstep
        · cases hstep
        · obtain ⟨mMutex, -, rfl⟩ := Option.map_eq_some_iff.mp hstep
          rfl
      · cases hstep
  | deliver thread =>
      simp only [Publishers.step] at hstep
      split at hstep
      · next number d rest hfanOut =>
          split at hstep
          · cases hstep
          · next t hok =>
              cases hstep
              have hsends : w.sends (.deliver thread) = (w.broker.deliveredPacket d).toList := by
                unfold sends
                simp only [hfanOut]
              rw [hsends, sendAll_toList]
              exact ApplicationState.sentTo_deliver hok
      · cases hstep
  | endPublish thread =>
      simp only [Publishers.step] at hstep
      split at hstep
      · cases hstep
        rfl
      · cases hstep

theorem Sound.built_sends (h : w.Sound) {packet : ConnectionId × EncodedPacket}
    (hpacket : packet ∈ w.sends action) : packet.2.Built := by
  cases action with
  | broker action => exact ApplicationState.built_sentPackets h.logged h.answers hpacket
  | deliver thread =>
      unfold sends at hpacket
      simp only at hpacket
      split at hpacket
      · next d rest hfanOut =>
          have hone : packet ∈ w.broker.deliveredPackets [d] := by
            rw [ApplicationState.deliveredPackets]
            exact List.mem_append_left _ hpacket
          exact ApplicationState.built_deliveredPackets hone
      · cases hpacket
  | beginPublish thread => cases hpacket
  | endPublish thread => cases hpacket

end Publishers

/-! ## The broker and the transports -/

/-- The broker with its publishers, and the transport of every connection. -/
structure Channels (τ : Type) (σ : Type*) where
  publishers : Publishers τ
  transports : ConnectionId → Transport σ

inductive ChannelAction where
  /-- A step of the broker, and what `sendmsg` returns for its packets. -/
  | publisher (action : PublisherAction) (results : List SendmsgResult)
  /-- `EPOLLOUT` of the connection. -/
  | flush (client : ConnectionId) (result : SendmsgResult)
  /-- The client reads. -/
  | recv (client : ConnectionId) (size : Nat)

theorem wholeFrames_isPrefix [Libnioev] (frames : List Frame) (n : Nat) :
    wholeFrames frames n <+: frames := by
  induction frames generalizing n with
  | nil => exact List.nil_prefix
  | cons frame frames ih =>
      unfold wholeFrames
      split
      · exact List.cons_prefix_cons.mpr ⟨rfl, ih _⟩
      · exact List.nil_prefix

namespace Channels

variable {τ : Type} {σ : Type*}

section

variable [Libnioev] (present : EncodedPacket → Nat → List UInt8) (f : PacketReceiveData → σ → σ)

/-- Packets are sent one after another. -/
def sendPackets (transports : ConnectionId → Transport σ) :
    List (ConnectionId × EncodedPacket) → List SendmsgResult → Option (ConnectionId → Transport σ)
  | [], _ => some transports
  | (client, packet) :: packets, results =>
    ((transports client).step present f
      (.sendData (Frame.of packet) (results.headD .wouldBlock))).bind fun transport =>
        sendPackets (Function.update transports client transport) packets results.tail

/-- A connection that a step makes has a transport of its own. -/
def openTransport (world : σ) (transports : ConnectionId → Transport σ) :
    Option ConnectionId → ConnectionId → Transport σ
  | some client => Function.update transports client (.initial world)
  | none => transports

variable [SubscriptionTree τ] (world : σ)

def step (w : Channels τ σ) : ChannelAction → Option (Channels τ σ)
  | .publisher action results =>
    (w.publishers.step action).bind fun publishers =>
      (sendPackets present f (openTransport world w.transports (w.publishers.opens action))
        (w.publishers.sends action) results).map fun transports => { publishers, transports }
  | .flush client result =>
    ((w.transports client).step present f
      (.flush (w.publishers.broker.connections client).mState result)).map fun transport =>
        { w with transports := Function.update w.transports client transport }
  | .recv client size =>
    ((w.transports client).step present f (.recv size)).map fun transport =>
      { w with transports := Function.update w.transports client transport }

/-- The packets can be received, and none is split when it is offered again. -/
def Suits (w : Channels τ σ) : ChannelAction → Prop
  | .publisher action _ => ∀ packet ∈ w.publishers.sends action, (Frame.of packet.2).Sendable
  | .flush client _ => (w.transports client).sender.Unsplit
  | .recv _ _ => True

instance decidableSuits (w : Channels τ σ) : (action : ChannelAction) → Decidable (w.Suits action)
  | .publisher action _ =>
    inferInstanceAs (Decidable (∀ packet ∈ w.publishers.sends action, (Frame.of packet.2).Sendable))
  | .flush client _ => inferInstanceAs (Decidable (w.transports client).sender.Unsplit)
  | .recv _ _ => isTrue trivial

omit [Libnioev] in
def initial (retained : AList fun _ : ByteString => RetainedMessage) :
    Channels τ σ where
  publishers := .initial retained
  transports := fun _ => .initial world

end

/-! ## What arrives -/

section

variable [Libnioev] {present : EncodedPacket → Nat → List UInt8} {f : PacketReceiveData → σ → σ}
  {world : σ} {transports transports' : ConnectionId → Transport σ}
  {sent : ConnectionId → List EncodedPacket}

/-- The transports carry what has been sent to their connections. -/
structure Carries (f : PacketReceiveData → σ → σ) (world : σ)
    (transports : ConnectionId → Transport σ) (sent : ConnectionId → List EncodedPacket) : Prop where
  reads : ∀ client, (transports client).Reads f world
  frames : ∀ client, (transports client).frames.map Frame.packet = sent client

theorem Carries.update (h : Carries f world transports sent) {client : ConnectionId}
    {transport : Transport σ} {packets : List EncodedPacket} (hreads : transport.Reads f world)
    (hframes : transport.frames.map Frame.packet = packets) :
    Carries f world (Function.update transports client transport)
      (Function.update sent client packets) := by
  refine ⟨fun c => ?_, fun c => ?_⟩
  · by_cases hc : c = client
    · rw [hc, Function.update_self]
      exact hreads
    · rw [Function.update_of_ne hc]
      exact h.reads c
  · by_cases hc : c = client
    · rw [hc, Function.update_self, Function.update_self]
      exact hframes
    · rw [Function.update_of_ne hc, Function.update_of_ne hc]
      exact h.frames c

theorem Carries.send (hpresent : ReadsEntries present) (h : Carries f world transports sent)
    {client : ConnectionId} {packet : EncodedPacket} {result : SendmsgResult}
    {transport : Transport σ} (hbuilt : packet.Built) (hsendable : (Frame.of packet).Sendable)
    (hstep : (transports client).step present f (.sendData (Frame.of packet) result) =
      some transport) :
    Carries f world (Function.update transports client transport)
      (sendTo sent (some (client, packet))) := by
  have hsuits : (transports client).Suits (.sendData (Frame.of packet) result) := hsendable
  refine h.update ((h.reads client).step hpresent hsuits hstep) ?_
  obtain ⟨u, hsends, rfl⟩ := Option.map_eq_some_iff.mp hstep
  have hframes : u.frames = (transports client).frames := by
    unfold Transport.sends at hsends
    split at hsends
    · cases hsends
      rfl
    · cases hsends
  show (u.frames ++ [Frame.of packet]).map Frame.packet = _
  rw [List.map_append, hframes, h.frames, List.map_singleton, hbuilt.packet_of]

theorem Carries.sendPackets (hpresent : ReadsEntries present)
    (h : Carries f world transports sent) {packets : List (ConnectionId × EncodedPacket)}
    {results : List SendmsgResult} (hbuilt : ∀ packet ∈ packets, packet.2.Built)
    (hsendable : ∀ packet ∈ packets, (Frame.of packet.2).Sendable)
    (hsent : sendPackets present f transports packets results = some transports') :
    Carries f world transports' (sendAll sent packets) := by
  induction packets generalizing transports sent results with
  | nil =>
      cases hsent
      exact h
  | cons packet packets ih =>
      obtain ⟨client, packet⟩ := packet
      obtain ⟨hfirst, hrest⟩ := List.forall_mem_cons.mp hbuilt
      obtain ⟨hfirst', hrest'⟩ := List.forall_mem_cons.mp hsendable
      obtain ⟨transport, hstep, hlater⟩ := Option.bind_eq_some_iff.mp hsent
      exact ih (h.send hpresent hfirst hfirst' hstep) hrest hrest' hlater

theorem Carries.open (h : Carries f world transports sent) (client : Option ConnectionId) :
    Carries f world (openTransport world transports client) (opened sent client) := by
  cases client with
  | none => exact h
  | some client => exact h.update (Transport.reads_initial world) rfl

/-- A connection goes on without a packet. -/
theorem Carries.move (hpresent : ReadsEntries present) (h : Carries f world transports sent)
    {client : ConnectionId} {op : TransportOp} {transport : Transport σ}
    (hsuits : (transports client).Suits op)
    (hstep : (transports client).step present f op = some transport)
    (hframes : transport.frames = (transports client).frames) :
    Carries f world (Function.update transports client transport) sent := by
  have hcarries : Carries f world (Function.update transports client transport)
      (Function.update sent client (sent client)) :=
    h.update ((h.reads client).step hpresent hsuits hstep)
      ((congrArg (List.map Frame.packet) hframes).trans (h.frames client))
  rwa [Function.update_eq_self] at hcarries

variable [SubscriptionTree τ] {w w' : Channels τ σ} {action : ChannelAction}

/-- What holds in every state. -/
structure Sound (f : PacketReceiveData → σ → σ) (world : σ) (w : Channels τ σ) : Prop where
  publishers : w.publishers.Sound
  carries : Carries f world w.transports w.publishers.broker.sentTo

theorem Sound.step (hpresent : ReadsEntries present) (h : Sound f world w)
    (hsuits : w.Suits action) (hstep : w.step present f world action = some w') :
    Sound f world w' := by
  cases action with
  | publisher action results =>
      obtain ⟨publishers, hpublishers, hrest⟩ := Option.bind_eq_some_iff.mp hstep
      obtain ⟨transports, hsent, rfl⟩ := Option.map_eq_some_iff.mp hrest
      refine ⟨h.publishers.step hpublishers, ?_⟩
      show Carries f world transports publishers.broker.sentTo
      rw [h.publishers.sentTo_step hpublishers]
      exact (h.carries.open (w.publishers.opens action)).sendPackets hpresent
        (fun packet hpacket => h.publishers.built_sends hpacket) hsuits hsent
  | flush client result =>
      obtain ⟨transport, hmove, rfl⟩ := Option.map_eq_some_iff.mp hstep
      have hunsplit : (w.transports client).Suits
          (.flush (w.publishers.broker.connections client).mState result) := hsuits
      refine ⟨h.publishers, h.carries.move hpresent hunsplit hmove ?_⟩
      have hsends : (w.transports client).sends present _ = some transport := hmove
      unfold Transport.sends at hsends
      split at hsends
      · cases hsends
        rfl
      · cases hsends
  | recv client size =>
      obtain ⟨transport, hmove, rfl⟩ := Option.map_eq_some_iff.mp hstep
      have hreads : (w.transports client).Suits (.recv size) := trivial
      refine ⟨h.publishers, h.carries.move hpresent hreads hmove ?_⟩
      simp only [Transport.step] at hmove
      split at hmove
      · cases hmove
        rfl
      · cases hmove

/-- The framer of the client has been handed the first of the packets that were sent to the
connection, and all of them once nothing is on its way. -/
def Receives (w : Channels τ σ) (client : ConnectionId) : Prop :=
  ∃ (s : LoopState σ) (packets : List EncodedPacket),
    (w.transports client).receiver = .ok s ∧
      packets <+: w.publishers.broker.sentTo client ∧
      s.calls.map (·.received) = packets.map (fun p => (p.mPrelude.firstByte, p.body)) ∧
      ((w.transports client).sender.mSendTasks = [] →
        (w.transports client).read = (w.transports client).sender.accepted.length →
          packets = w.publishers.broker.sentTo client)

omit [SubscriptionTree τ] in
theorem sent_eq (frame : Frame) :
    frame.sent = (frame.packet.mPrelude.firstByte, frame.packet.body) := by
  cases frame with
  | fromFirstByte firstByte => rfl
  | fromData firstByte buffer => exact congrArg (Prod.mk firstByte) (List.append_nil _).symm
  | fromComponents firstByte middle end_ => rfl
  | fromComponentsWithId firstByte middle packetId end_ =>
      refine congrArg (Prod.mk firstByte) ?_
      show middle ++ bigEndianBytes packetId ++ end_ = middle ++ (memoryBytes (htons packetId) ++ end_)
      rw [memoryBytes_htons, List.append_assoc]

omit [SubscriptionTree τ] in
theorem Carries.receives [LawfulLibnioev]
    (h : Carries f world w.transports w.publishers.broker.sentTo) (client : ConnectionId) :
    w.Receives client := by
  obtain ⟨s, hreceiver, hwhole, hall⟩ := (h.reads client).inOrder
  have hsent : ∀ frames : List Frame, frames.map Frame.sent =
      (frames.map Frame.packet).map fun p => (p.mPrelude.firstByte, p.body) := by
    intro frames
    rw [List.map_map]
    exact List.map_congr_left fun frame _ => sent_eq frame
  have hlengths : ∀ {frames frames' : List Frame}, frames <+: frames' →
      frames.map Frame.sent = frames'.map Frame.sent → frames = frames' := by
    intro frames frames' hprefix hsame
    exact hprefix.eq_of_length (by simpa using congrArg List.length hsame)
  refine ⟨s, (wholeFrames (w.transports client).frames (w.transports client).read).map Frame.packet,
    hreceiver, ?_, hwhole.trans (hsent _), fun hempty hread => ?_⟩
  · rw [← h.frames]
    exact (wholeFrames_isPrefix _ _).map _
  · rw [hlengths (wholeFrames_isPrefix _ _) (hwhole.symm.trans (hall hempty hread)), h.frames]

/-- Over every run in which no send fails, no packet is too long and none is split when it
is offered again: the messages are handed out in order, and every client receives the first
of the packets that were sent to its connection. -/
theorem receives_of_isRun [LawfulLibnioev] (hpresent : ReadsEntries present)
    {retained : AList fun _ : ByteString => RetainedMessage}
    {run : List (ChannelAction × Channels τ σ)}
    (hrun : Runs.IsRun (Runs.StepOf fun w action => w.step present f world action)
      (initial world retained) run)
    (hsuits : Runs.AllSteps Suits (initial world retained) run) :
    Runs.AllStates (fun w => w.publishers.InOrder ∧ ∀ client, w.Receives client) run := by
  have hinitial : Sound f world (initial world retained : Channels τ σ) :=
    ⟨Publishers.sound_initial retained, fun _ => Transport.reads_initial world, fun _ => rfl⟩
  have hsound : Runs.AllStates (Sound f world) run :=
    hrun.invariant_of_allSteps (fun _ _ _ h hc hstep => h.step hpresent hc hstep) hinitial hsuits
  exact fun x hx => ⟨(hsound x hx).publishers.inOrder, (hsound x hx).carries.receives⟩

end

/-- The `CONNACK` is cut short, and a `SUBACK` and three messages queue up behind it. -/
theorem receives_overtaken :
    let present : EncodedPacket → Nat → List UInt8 :=
      fun p offset => (p.gather (p.constructIOVecs offset)).getD []
    let run := Runs.runOf (fun w action =>
      @step SubscriptionList Unit .standard present (fun _ world => world) _ () w action)
      (@initial SubscriptionList Unit _ () ∅)
      (Publishers.overtaken.map (ChannelAction.publisher · [.accepted 3]) ++
        [.recv 0 2, .flush 0 (.accepted 26), .recv 0 100, .flush 0 (.accepted 7), .recv 0 100])
    ((Runs.last (initial () ∅) run).transports 0).receiver.toOption.map
        (fun s => s.calls.map (·.firstByte)) = some [0x20, 0x90, 0x32, 0x32, 0x32] ∧
      Runs.AllStates (fun w => @Publishers.InOrder SubscriptionList .standard w.publishers ∧
        ∀ client, w.Receives client) run := by
  intro present run
  refine ⟨by decide +kernel, ?_⟩
  refine @receives_of_isRun SubscriptionList Unit .standard present (fun _ world => world) () _
    Libnioev.standard_lawful ?_ ∅ run (Runs.isRun_runOf _ _ _) (@of_decide_eq_true _
      (@Runs.decidableAllSteps _ _ _ (@decidableSuits SubscriptionList Unit .standard _) _ _)
      (by decide +kernel))
  intro p offset bytes hread
  show (p.gather (p.constructIOVecs offset)).getD [] = bytes
  rw [hread]
  rfl

end Channels

end NioevMqtt
