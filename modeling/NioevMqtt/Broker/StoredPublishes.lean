-- SUMMARY: What sessions have stored: in every state of the broker each packet that waits for its acknowledgement is a PUBLISH of some builder.
import NioevMqtt.Broker.Resumption
import NioevMqtt.Connection.PublishRoundTrip

/-!
# Stored packets

A packet gets into a session's table by a delivery only, and a delivery builds a
`PUBLISH`. An acknowledgement and a clean login take packets away.
-/

namespace NioevMqtt

open Outcome

/-- A packet of a builder, by its first byte. -/
def EncodedPacket.IsPublish (p : EncodedPacket) : Prop :=
  ∃ retained qos, p.mPrelude.firstByte = MQTTPublishPacketBuilder.firstByte retained qos

/-- All packets of a session are such packets. -/
def Outgoing.StoresPublishes (o : Outgoing) : Prop :=
  ∀ id storage, o.packets.lookup id = some storage → storage.mPacket.IsPublish

theorem MQTTPublishPacketBuilder.isPublish_getPacket [Libnioev] (topic : ByteString)
    (payload : List UInt8) (retained : Retained) (properties : PropertyList)
    (request : PacketRequest) :
    ((new topic payload retained properties).getPacket request.qos request.packetId
      request.version).1.IsPublish := by
  rw [((caches_new topic payload retained properties).getPacket request).1, ← packet_frame]
  refine ⟨retained, request.qos, ?_⟩
  have hfirst := firstByte_frame (new topic payload retained properties) request
  generalize (new topic payload retained properties).frame request = frame at hfirst
  cases frame with
  | _ => exact hfirst

namespace Outgoing

variable {o : Outgoing}

theorem storesPublishes_empty : StoresPublishes ⟨∅, ∅⟩ := fun _ _ h => by cases h

theorem StoresPublishes.erase (h : o.StoresPublishes) (id : UInt16) (released : Finset UInt16) :
    StoresPublishes ⟨o.packets.erase id, released⟩ := by
  intro id' storage hlookup
  by_cases hid : id' = id
  · subst hid
    rw [AList.lookup_erase] at hlookup
    cases hlookup
  · exact h id' storage (AList.lookup_erase_ne hid ▸ hlookup)

theorem StoresPublishes.received (h : o.StoresPublishes) (packet : ClientPacket) :
    (o.received packet).StoresPublishes := by
  cases packet with
  | pubAck id => exact h.erase id _
  | pubRec id => exact h.erase id _
  | _ => exact h

theorem StoresPublishes.emplace (h : o.StoresPublishes) {id : UInt16}
    {storage : HighQoSRetainStorage} (hstorage : storage.mPacket.IsPublish) :
    StoresPublishes { o with packets := o.packets.emplace id storage } := by
  intro id' storage' hlookup
  by_cases hid : id' = id
  · subst hid
    unfold SendingPackets.emplace at hlookup
    simp only at hlookup
    split at hlookup
    · exact h id' storage' hlookup
    · rw [AList.lookup_insert] at hlookup
      cases hlookup
      exact hstorage
  · exact h id' storage' (SendingPackets.lookup_emplace_of_ne hid ▸ hlookup)

end Outgoing

namespace ApplicationState

variable {τ : Type} [Libnioev] {s t : ApplicationState τ} {action : Action} {session : SessionId}

/-- Every session stores packets of builders. -/
def StoresPublishes (s : ApplicationState τ) : Prop :=
  ∀ session, (s.outgoing session).StoresPublishes

omit [Libnioev] in
theorem StoresPublishes.keeps (h : s.StoresPublishes) (hkeeps : s.KeepsOutgoing t) :
    t.StoresPublishes := fun session => hkeeps.outgoing_eq ▸ h session

omit [Libnioev] in
theorem StoresPublishes.update (h : s.StoresPublishes) {o : Outgoing}
    (houtgoing : t.outgoing = Function.update s.outgoing session o) (ho : o.StoresPublishes) :
    t.StoresPublishes := by
  intro session'
  rw [houtgoing]
  by_cases hsession : session' = session
  · rw [hsession, Function.update_self]
    exact ho
  · rw [Function.update_of_ne hsession]
    exact h session'

/-- A delivery hands over what a builder has built. -/
theorem isPublish_of_handed {d : Delivery} {id : UInt16} {storage : HighQoSRetainStorage}
    (h : s.handed d = some (session, id, storage)) : storage.mPacket.IsPublish := by
  obtain ⟨subscriber, topic, payload, qos, retained, properties⟩ := d
  cases subscriber with
  | other id => cases h
  | session session' =>
      simp only [handed, Option.ite_none_left_eq_some, Option.some.injEq] at h
      obtain ⟨-, heq⟩ := h
      cases heq
      exact MQTTPublishPacketBuilder.isPublish_getPacket topic payload retained properties
        ⟨qos, _, _⟩

theorem StoresPublishes.deliver (h : s.StoresPublishes) {d : Delivery} (hok : s.deliver d = .ok t) :
    t.StoresPublishes := by
  cases hhanded : s.handed d with
  | none => exact h.keeps (keepsOutgoing_deliver hok hhanded)
  | some m =>
      obtain ⟨session, id, storage⟩ := m
      obtain ⟨houtgoing, -⟩ := stores_deliver hok hhanded
      exact h.update houtgoing ((h session).emplace (isPublish_of_handed hhanded))

variable [SubscriptionTree τ]

theorem storesPublishes_stepOk (hlinked : s.Linked) (h : s.StoresPublishes)
    (hstep : s.stepOk action = some t) : t.StoresPublishes := by
  cases hlogin : s.executedLogin action with
  | some login =>
      have houtgoing := (sendsLogin_of_executedLogin hlinked hstep hlogin).outgoing_eq
      split at houtgoing
      · exact fun session => houtgoing ▸ h session
      · exact h.update houtgoing Outgoing.storesPublishes_empty
  | none =>
      have hstep' := step_of_stepOk hstep
      by_cases hpacket : ∃ client packet, action = .packet client packet
      · obtain ⟨client, packet, rfl⟩ := hpacket
        cases steps_of_step hstep'
        cases hattached : (s.connections client).mPersistentClientState with
        | none => exact h.keeps (keepsOutgoing_handlePacketReceived hattached packet)
        | some session =>
            exact h.update (outgoing_handlePacketReceived hattached packet).1
              ((h session).received packet)
      · obtain ⟨hbase, u, hmade, hkept⟩ := delivers_step hlinked
          (fun client packet heq => hpacket ⟨client, packet, heq⟩) hlogin hstep'
        have hdelivered : u.StoresPublishes :=
          foldlM_invariant (fun _ _ _ hv hok => StoresPublishes.deliver hv hok) hmade (h.keeps hbase)
        exact hdelivered.keeps hkept

omit [Libnioev] in
theorem storesPublishes_initial (retained : AList fun _ : ByteString => RetainedMessage) :
    (initial retained : ApplicationState τ).StoresPublishes :=
  fun _ => Outgoing.storesPublishes_empty

/-- In every state of the broker a login sends its packets, and what is stored are packets
of builders. -/
theorem sendsLogin_of_isRun {retained : AList fun _ : ByteString => RetainedMessage}
    {run : List (Action × ApplicationState τ)}
    (hrun : Runs.IsRun (Runs.StepOf stepOk) (initial retained) run)
    (hs : Runs.last (initial retained) run = s) (hstep : s.stepOk action = some t) {login : Login}
    (hlogin : s.executedLogin action = some login) :
    (t.connections login.client).sent =
        (s.connections login.client).sent ++ s.loginPackets login ∧ s.StoresPublishes := by
  obtain ⟨hlinked, hstores⟩ : s.Linked ∧ s.StoresPublishes := by
    rw [← hs]
    refine hrun.invariant_last (I := fun u => u.Linked ∧ u.StoresPublishes) ?_
      ⟨linked_initial retained, storesPublishes_initial retained⟩
    rintro u action v ⟨hlinked, hstores⟩ hstep
    exact ⟨linked_stepOk hlinked hstep, storesPublishes_stepOk hlinked hstores hstep⟩
  exact ⟨(sendsLogin_of_executedLogin hlinked hstep hlogin).sent_eq, hstores⟩

end ApplicationState

end NioevMqtt
