-- SUMMARY: Resumed sessions: over every run a login is sent what its session owes it, in order, exactly as long as no login resumes a session with identifiers to release.
import NioevMqtt.Broker.LastLogins
import NioevMqtt.Broker.LoginPackets

/-!
# Resumption

Beside the broker stand the outboxes of the sessions, made of what is published to them
and of what their clients acknowledge, and what the last login under each client id has
asked for. Every login that is executed is written down with what it has sent.
-/

namespace NioevMqtt

open Outcome

open ApplicationState (connack pubrel)

/-! ## Acknowledgements -/

namespace Outbox

/-- What a packet of the client acknowledges. -/
def received (box : Outbox) : ClientPacket → Outbox
  | .pubAck id => box.pubAck id
  | .pubRec id => box.pubRec id
  | .pubComp id => box.pubComp id
  | _ => box

/-- A `PUBACK` is none for a message at QoS 2, and a `PUBREC` none for a message at QoS 1
or for the identifier 0. -/
def Acknowledges (box : Outbox) : ClientPacket → Prop
  | .pubAck id => ¬ box.Owes id .qos2
  | .pubRec id => id ≠ 0 ∧ ¬ box.Owes id .qos1
  | _ => True

instance (box : Outbox) : (packet : ClientPacket) → Decidable (box.Acknowledges packet)
  | .pubAck id => inferInstanceAs (Decidable (¬ box.Owes id .qos2))
  | .pubRec id => inferInstanceAs (Decidable (id ≠ 0 ∧ ¬ box.Owes id .qos1))
  | .publish .. | .pubRel .. | .pubComp .. | .subscribe .. | .unsubscribe .. | .pingReq |
    .disconnect => isTrue trivial

end Outbox

/-- What the same packet does to the tables. -/
def Outgoing.received (o : Outgoing) : ClientPacket → Outgoing
  | .pubAck id => { o with packets := o.packets.erase id }
  | .pubRec id => ⟨o.packets.erase id, insert id o.pubrecReceived⟩
  | .pubComp id => { o with pubrecReceived := o.pubrecReceived.erase id }
  | _ => o

theorem Outbox.Holds.received {o : Outgoing} {count : Nat} {box : Outbox} (h : Holds o count box)
    {packet : ClientPacket} (hpacket : box.Acknowledges packet) :
    Holds (o.received packet) count (box.received packet) := by
  cases packet with
  | pubAck id =>
      refine h.acknowledge hpacket fun qos hzero hone => ?_
      cases qos with
      | qos0 => exact absurd rfl hzero
      | qos1 => exact absurd rfl hone
      | qos2 => rfl
  | pubRec id =>
      have hacknowledged : Holds { o with packets := o.packets.erase id } count
          (box.acknowledge id .qos2) := by
        refine h.acknowledge hpacket.2 fun qos hzero htwo => ?_
        cases qos with
        | qos0 => exact absurd rfl hzero
        | qos1 => rfl
        | qos2 => exact absurd rfl htwo
      exact hacknowledged.release (insert id)
  | pubComp id => exact h.release (·.erase id)
  | _ => exact h

namespace ApplicationState

variable {τ : Type} [Libnioev] {s : ApplicationState τ} {client : ConnectionId} {session : SessionId}

omit [Libnioev] in
theorem outgoing_withSession (hattached : (s.connections client).mPersistentClientState = some session)
    (f : PersistentClientState → PersistentClientState × List Work) :
    (s.withSession client f).outgoing =
        Function.update s.outgoing session (f (s.sessions session)).1.outgoing ∧
      (s.withSession client f).globalOrderCounter = s.globalOrderCounter := by
  unfold withSession
  rw [hattached]
  exact ⟨outgoing_updateSession s session fun _ => (f (s.sessions session)).1, rfl⟩

/-- A packet changes the tables of its own session, by what it acknowledges. -/
theorem outgoing_handlePacketReceived
    (hattached : (s.connections client).mPersistentClientState = some session)
    (packet : ClientPacket) :
    (s.handlePacketReceived client packet).outgoing =
        Function.update s.outgoing session ((s.outgoing session).received packet) ∧
      (s.handlePacketReceived client packet).globalOrderCounter = s.globalOrderCounter := by
  have hsame : Function.update s.outgoing session (s.outgoing session) = s.outgoing :=
    Function.update_eq_self session s.outgoing
  cases packet with
  | publish packet id =>
      simp only [handlePacketReceived]
      cases packet.qos with
      | qos0 => exact ⟨hsame.symm, rfl⟩
      | qos1 => exact ⟨hsame.symm, rfl⟩
      | qos2 => exact outgoing_withSession hattached _
  | pubAck id => exact outgoing_withSession hattached _
  | pubRel id => exact outgoing_withSession hattached _
  | pubRec id => exact outgoing_withSession hattached _
  | pubComp id => exact outgoing_withSession hattached _
  | _ => exact ⟨hsame.symm, rfl⟩

/-- Without a session there is nothing to acknowledge. -/
theorem keepsOutgoing_handlePacketReceived
    (hattached : (s.connections client).mPersistentClientState = none) (packet : ClientPacket) :
    s.KeepsOutgoing (s.handlePacketReceived client packet) := by
  have hthrows : ∀ f, s.KeepsOutgoing (s.withSession client f) := by
    intro f
    unfold withSession
    rw [hattached]
    exact ⟨rfl, rfl⟩
  cases packet with
  | publish packet id =>
      simp only [handlePacketReceived]
      cases packet.qos with
      | qos0 => exact ⟨rfl, rfl⟩
      | qos1 => exact ⟨rfl, rfl⟩
      | qos2 => exact hthrows _
  | pubAck id =>
      simp only [handlePacketReceived]
      exact hthrows _
  | pubRel id =>
      simp only [handlePacketReceived]
      exact hthrows _
  | pubRec id =>
      simp only [handlePacketReceived]
      exact hthrows _
  | pubComp id =>
      simp only [handlePacketReceived]
      exact hthrows _
  | _ => exact ⟨rfl, rfl⟩

end ApplicationState

/-! ## Histories -/

/-- A login that has been executed. -/
structure LoginRecord where
  session : SessionId
  /-- What the login before it under the same client id has asked for. -/
  previous : Option CleanSession
  cleanSession : CleanSession
  version : MQTTVersion
  /-- What its session owes its client. -/
  box : Outbox
  sent : List EncodedPacket

namespace LoginRecord

/-- Neither of the two has asked for a clean session. -/
def Resumes (r : LoginRecord) : Prop := r.previous = some .no ∧ r.cleanSession = .no

instance (r : LoginRecord) : Decidable r.Resumes := inferInstanceAs (Decidable (_ ∧ _))

variable [Libnioev]

/-- The `CONNACK`, and the messages that have not been acknowledged. -/
def firstPackets (r : LoginRecord) : List EncodedPacket :=
  connack r.version .yes :: r.box.owed.map (·.2.mPacket.setDupFlag)

/-- What the connection is sent: if the session is resumed, the messages and then a
`PUBREL` for every identifier that has been received and not completed. -/
def Right (r : LoginRecord) : Prop :=
  if r.Resumes then
    r.firstPackets <+: r.sent ∧
      (r.sent.drop r.firstPackets.length : Multiset EncodedPacket) = r.box.released.val.map pubrel
  else r.sent = [connack r.version .no]

instance (r : LoginRecord) : Decidable r.Right :=
  inferInstanceAs (Decidable (if r.Resumes then _ ∧ _ else _ = _))

end LoginRecord

/-- A broker, what its sessions owe their clients, and the logins it has executed. -/
structure Resumptions (τ : Type) where
  broker : ApplicationState τ
  boxes : SessionId → Outbox := fun _ => {}
  lastLogin : ByteString → Option CleanSession := fun _ => none
  logins : List LoginRecord := []

namespace Resumptions

section

variable {τ : Type}

/-- A message is handed to a session. -/
def handOver (boxes : SessionId → Outbox) (m : SessionId × UInt16 × HighQoSRetainStorage) :
    SessionId → Outbox :=
  Function.update boxes m.1 ((boxes m.1).publish m.2)

/-- No message for the session gets an identifier that is in use. -/
def Fresh (session : SessionId) (boxes : SessionId → Outbox) :
    List (SessionId × UInt16 × HighQoSRetainStorage) → Prop
  | [] => True
  | m :: messages =>
    (m.1 = session → ¬ (boxes session).InUse m.2.1) ∧ Fresh session (handOver boxes m) messages

instance decidableFresh (session : SessionId) : (boxes : SessionId → Outbox) →
    (messages : List (SessionId × UInt16 × HighQoSRetainStorage)) →
      Decidable (Fresh session boxes messages)
  | _, [] => isTrue trivial
  | boxes, m :: messages =>
    have := decidableFresh session (handOver boxes m) messages
    inferInstanceAs (Decidable ((_ → ¬ _) ∧ Fresh session (handOver boxes m) messages))

def Resumes (w : Resumptions τ) (login : Login) : Prop :=
  w.lastLogin login.clientId = some .no ∧ login.cleanSession = .no

instance (w : Resumptions τ) (login : Login) : Decidable (w.Resumes login) :=
  inferInstanceAs (Decidable (_ ∧ _))

/-- A login, with what it has sent by the time the broker is `t`. -/
def loginRecord (w : Resumptions τ) (t : ApplicationState τ) (login : Login) : LoginRecord where
  session := w.broker.sessionFor login
  previous := w.lastLogin login.clientId
  cleanSession := login.cleanSession
  version := (w.broker.connections login.client).mMQTTVersion
  box := w.boxes (w.broker.sessionFor login)
  sent := (t.connections login.client).sent.drop (w.broker.connections login.client).sent.length

/-- The packet a step handles, and the session of its connection. -/
def sessionPacket (s : ApplicationState τ) :
    ApplicationState.Action → Option (SessionId × ClientPacket)
  | .packet client packet =>
    (s.connections client).mPersistentClientState.map fun session => (session, packet)
  | _ => none

variable [Libnioev] [SubscriptionTree τ]

/-- The messages a step hands to sessions, in their order. -/
def messages (s : ApplicationState τ) (action : ApplicationState.Action) :
    List (SessionId × UInt16 × HighQoSRetainStorage) :=
  (s.deliveries action).1.handedAll (s.deliveries action).2

/-- The outboxes after a step. A login that resumes nothing empties one. -/
def boxesAfter (w : Resumptions τ) (action : ApplicationState.Action) : SessionId → Outbox :=
  match sessionPacket w.broker action, w.broker.executedLogin action with
  | some (session, packet), _ => Function.update w.boxes session ((w.boxes session).received packet)
  | none, some login =>
    if w.Resumes login then w.boxes else Function.update w.boxes (w.broker.sessionFor login) {}
  | none, none => (messages w.broker action).foldl handOver w.boxes

def step (w : Resumptions τ) (action : ApplicationState.Action) : Option (Resumptions τ) :=
  (w.broker.stepOk action).map fun t =>
    { broker := t
      boxes := w.boxesAfter action
      lastLogin := lastLoginsAfter w.lastLogin (w.broker.executedLogin action)
      logins := w.logins ++ ((w.broker.executedLogin action).map (w.loginRecord t)).toList }

def initial (retained : AList fun _ : ByteString => RetainedMessage) : Resumptions τ where
  broker := .initial retained

/-- Acknowledgements for the session are of the right kind, and it is assigned no
identifier that is in use. -/
def Regular (session : SessionId) (w : Resumptions τ) (action : ApplicationState.Action) : Prop :=
  (∀ answer ∈ sessionPacket w.broker action,
    answer.1 = session → (w.boxes session).Acknowledges answer.2) ∧
      Fresh session w.boxes (messages w.broker action)

instance (session : SessionId) (w : Resumptions τ) (action : ApplicationState.Action) :
    Decidable (w.Regular session action) :=
  inferInstanceAs (Decidable ((∀ answer ∈ sessionPacket w.broker action, _ → _) ∧ Fresh _ _ _))

omit [SubscriptionTree τ] in
/-- Every login to the session has been sent what it is to be sent. -/
def AllRight (session : SessionId) (w : Resumptions τ) : Prop :=
  ∀ r ∈ w.logins, r.session = session → r.Right

omit [SubscriptionTree τ] in
instance (session : SessionId) : DecidablePred (AllRight (τ := τ) session) := fun w =>
  inferInstanceAs (Decidable (∀ r ∈ w.logins, _ → r.Right))

omit [Libnioev] [SubscriptionTree τ] in
/-- A login that is to resume the session finds no identifiers to release. -/
def ReleasesNone (session : SessionId) (w : Resumptions τ) (action : ApplicationState.Action) :
    Prop :=
  ∀ login ∈ w.broker.executedLogin action, w.broker.sessionFor login = session →
    w.Resumes login → (w.boxes session).released = ∅

omit [Libnioev] [SubscriptionTree τ] in
instance (session : SessionId) (w : Resumptions τ) (action : ApplicationState.Action) :
    Decidable (w.ReleasesNone session action) :=
  inferInstanceAs (Decidable (∀ login ∈ w.broker.executedLogin action, _ → _ → _ = ∅))

/-! ## The invariant -/

variable {w w' : Resumptions τ} {s t : ApplicationState τ} {action : ApplicationState.Action}
  {boxes : SessionId → Outbox} {session : SessionId}

/-- The tables of the session hold its outbox. -/
def HoldsBox (session : SessionId) (s : ApplicationState τ) (boxes : SessionId → Outbox) : Prop :=
  Outbox.Holds (s.outgoing session) s.globalOrderCounter (boxes session)

/-- What holds of the broker, the last logins and the outbox of a session. -/
structure Sound (session : SessionId) (w : Resumptions τ) : Prop where
  tabled : w.broker.Tabled
  remembers : w.broker.registry.Remembers w.lastLogin
  holds : HoldsBox session w.broker w.boxes
  nonzero : 0 ∉ (w.boxes session).released

omit [Libnioev] [SubscriptionTree τ] in
theorem HoldsBox.keeps (h : HoldsBox session s boxes) (hkeeps : s.KeepsOutgoing t) :
    HoldsBox session t boxes := by
  unfold HoldsBox
  rw [hkeeps.outgoing_eq, hkeeps.globalOrderCounter_eq]
  exact h

omit [Libnioev] [SubscriptionTree τ] in
/-- A session changes, this or another. -/
theorem HoldsBox.update (h : HoldsBox session s boxes) {changed : SessionId} {o : Outgoing}
    {box : Outbox} {count : Nat} (houtgoing : t.outgoing = Function.update s.outgoing changed o)
    (hcount : t.globalOrderCounter = count) (hle : s.globalOrderCounter ≤ count)
    (hbox : changed = session → Outbox.Holds o count box) :
    HoldsBox session t (Function.update boxes changed box) := by
  unfold HoldsBox
  rw [houtgoing, hcount]
  by_cases hchanged : session = changed
  · rw [hchanged, Function.update_self, Function.update_self]
    exact hbox hchanged.symm
  · rw [Function.update_of_ne hchanged, Function.update_of_ne hchanged]
    exact Outbox.Holds.mono h hle

omit [SubscriptionTree τ] in
/-- A delivery hands its message over. -/
theorem HoldsBox.deliver (h : HoldsBox session s boxes) {d : Delivery} (hok : s.deliver d = .ok t)
    (hfresh : Fresh session boxes (s.handed d).toList) :
    HoldsBox session t ((s.handed d).toList.foldl handOver boxes) := by
  cases hhanded : s.handed d with
  | none => exact h.keeps (ApplicationState.keepsOutgoing_deliver hok hhanded)
  | some m =>
      obtain ⟨changed, id, storage⟩ := m
      rw [hhanded] at hfresh
      obtain ⟨hfree, -⟩ := hfresh
      obtain ⟨houtgoing, hcounter, horder, hqos⟩ := ApplicationState.stores_deliver hok hhanded
      refine h.update houtgoing hcounter (Nat.le_succ _) fun hchanged => ?_
      subst hchanged
      exact Outbox.Holds.publish h (hfree rfl) horder hqos

omit [Libnioev] [SubscriptionTree τ] in
theorem fresh_append (messages messages' : List (SessionId × UInt16 × HighQoSRetainStorage)) :
    Fresh session boxes (messages ++ messages') ↔
      Fresh session boxes messages ∧ Fresh session (messages.foldl handOver boxes) messages' := by
  induction messages generalizing boxes with
  | nil => exact ⟨fun h => ⟨trivial, h⟩, And.right⟩
  | cons m messages ih =>
      simp only [List.cons_append, Fresh, List.foldl_cons, ih, and_assoc]

omit [SubscriptionTree τ] in
/-- So do many, one after another. -/
theorem HoldsBox.foldlM_deliver (h : HoldsBox session s boxes) {deliveries : List Delivery}
    (hok : deliveries.foldlM ApplicationState.deliver s = .ok t)
    (hfresh : Fresh session boxes (s.handedAll deliveries)) :
    HoldsBox session t ((s.handedAll deliveries).foldl handOver boxes) := by
  induction deliveries generalizing s boxes with
  | nil =>
      cases hok
      exact h
  | cons d deliveries ih =>
      obtain ⟨v, hdeliver, hrest⟩ := bind_eq_ok hok
      simp only [ApplicationState.handedAll, hdeliver] at hfresh ⊢
      rw [fresh_append] at hfresh
      rw [List.foldl_append]
      exact ih (h.deliver hdeliver hfresh.1) hrest hfresh.2

/-- What the tables hold after a step. -/
theorem holdsBox_boxesAfter (h : w.Sound session) (hregular : w.Regular session action)
    (hstep : w.broker.stepOk action = some t) : HoldsBox session t (w.boxesAfter action) := by
  obtain ⟨hacknowledges, hfresh⟩ := hregular
  have hstep' := ApplicationState.step_of_stepOk hstep
  unfold boxesAfter
  cases hanswer : sessionPacket w.broker action with
  | some answer =>
      -- A packet of a client that has a session, which may be another one.
      obtain ⟨answering, packet⟩ := answer
      cases action with
      | packet client packet' =>
          obtain ⟨session', hattached, heq⟩ := Option.map_eq_some_iff.mp hanswer
          cases heq
          cases ApplicationState.steps_of_step hstep'
          obtain ⟨houtgoing, hcounter⟩ :=
            ApplicationState.outgoing_handlePacketReceived hattached packet
          refine h.holds.update houtgoing hcounter le_rfl fun hanswering => ?_
          subst hanswering
          exact Outbox.Holds.received h.holds (hacknowledges _ hanswer rfl)
      | _ => cases hanswer
  | none =>
      cases hlogin : w.broker.executedLogin action with
      | some login =>
          have hsends := ApplicationState.sendsLogin_of_executedLogin h.tabled.linked hstep hlogin
          have houtgoing := hsends.outgoing_eq
          have hresumes := ApplicationState.resumes_iff_lastLogin h.remembers login
          simp only
          split
          · next hresumed =>
              rw [if_pos (hresumes.mpr hresumed)] at houtgoing
              exact h.holds.keeps ⟨houtgoing, hsends.globalOrderCounter_eq⟩
          · next hclean =>
              rw [if_neg fun hresumed => hclean (hresumes.mp hresumed)] at houtgoing
              exact h.holds.update houtgoing hsends.globalOrderCounter_eq le_rfl
                fun _ => Outbox.holds_empty _
      | none =>
          by_cases hpacket : ∃ client packet, action = .packet client packet
          · obtain ⟨client, packet, rfl⟩ := hpacket
            have hattached := Option.map_eq_none_iff.mp hanswer
            cases ApplicationState.steps_of_step hstep'
            exact h.holds.keeps
              (ApplicationState.keepsOutgoing_handlePacketReceived hattached packet)
          · obtain ⟨hbase, u, hmade, hkept⟩ := ApplicationState.delivers_step h.tabled.linked
              (fun client packet heq => hpacket ⟨client, packet, heq⟩) hlogin hstep'
            exact ((h.holds.keeps hbase).foldlM_deliver hmade hfresh).keeps hkept

omit [SubscriptionTree τ] [Libnioev] in
theorem released_foldl_handOver (messages : List (SessionId × UInt16 × HighQoSRetainStorage))
    (session : SessionId) :
    (messages.foldl handOver boxes session).released = (boxes session).released := by
  induction messages generalizing boxes with
  | nil => rfl
  | cons m messages ih =>
      rw [List.foldl_cons, ih, handOver]
      by_cases hsession : session = m.1
      · rw [hsession, Function.update_self]
        rfl
      · rw [Function.update_of_ne hsession]

theorem nonzero_boxesAfter (h : w.Sound session) (hregular : w.Regular session action) :
    0 ∉ (w.boxesAfter action session).released := by
  have hupdate : ∀ changed box, (changed = session → 0 ∉ Outbox.released box) →
      0 ∉ (Function.update w.boxes changed box session).released := by
    intro changed box hbox
    by_cases hchanged : session = changed
    · rw [hchanged, Function.update_self]
      exact hbox hchanged.symm
    · rw [Function.update_of_ne hchanged]
      exact h.nonzero
  unfold boxesAfter
  cases hanswer : sessionPacket w.broker action with
  | some answer =>
      obtain ⟨answering, packet⟩ := answer
      apply hupdate answering
      rintro rfl
      have hacknowledges := hregular.1 _ hanswer rfl
      cases packet with
      | pubRec id =>
          rw [show ((w.boxes answering).received (.pubRec id)).released =
            insert id (w.boxes answering).released from rfl, Finset.mem_insert, not_or]
          exact ⟨fun heq => hacknowledges.1 heq.symm, h.nonzero⟩
      | pubComp id => exact fun hmem => h.nonzero (Finset.mem_of_mem_erase hmem)
      | _ => exact h.nonzero
  | none =>
      cases w.broker.executedLogin action with
      | some login =>
          simp only
          split
          · exact h.nonzero
          · exact hupdate _ _ fun _ => Finset.notMem_empty 0
      | none =>
          simp only
          rw [released_foldl_handOver]
          exact h.nonzero

theorem Sound.step (h : w.Sound session) (hregular : w.Regular session action)
    (hstep : w.step action = some w') : w'.Sound session := by
  obtain ⟨t, hok, rfl⟩ := Option.map_eq_some_iff.mp hstep
  have hstep' := ApplicationState.step_of_stepOk hok
  exact ⟨h.tabled.step hstep', ApplicationState.remembers_step h.tabled h.remembers hstep',
    holdsBox_boxesAfter h hregular hok, nonzero_boxesAfter h hregular⟩

omit [Libnioev] in
theorem sound_initial (retained : AList fun _ : ByteString => RetainedMessage) :
    (initial retained : Resumptions τ).Sound session where
  tabled := ApplicationState.tabled_initial retained
  remembers := fun _ => ⟨fun _ hkeeps => (by cases hkeeps), fun _ heq => (by cases heq)⟩
  holds := Outbox.holds_empty _
  nonzero := Finset.notMem_empty 0

/-! ## Logins -/

/-- A login is sent what its session owes it, unless it is to resume a session with
identifiers to release. -/
theorem right_loginRecord_iff (h : w.Sound session) (hok : w.broker.stepOk action = some t)
    {login : Login} (hlogin : w.broker.executedLogin action = some login)
    (hsession : w.broker.sessionFor login = session) :
    (w.loginRecord t login).Right ↔ (w.Resumes login → (w.boxes session).released = ∅) := by
  have hsends := ApplicationState.sendsLogin_of_executedLogin h.tabled.linked hok hlogin
  have hsent : (w.loginRecord t login).sent = w.broker.loginPackets login := by
    have hsent := hsends.sent_eq
    exact (congrArg (List.drop _) hsent).trans List.drop_left
  have hresumes := ApplicationState.resumes_iff_lastLogin h.remembers login
  subst hsession
  unfold LoginRecord.Right
  rw [hsent]
  by_cases hresumed : w.Resumes login
  · have hrecord : (w.loginRecord t login).Resumes := hresumed
    have hfirst : ∀ rest, connack (w.broker.connections login.client).mMQTTVersion .yes ::
        (((w.boxes (w.broker.sessionFor login)).owed.map (·.2)).map (·.mPacket.setDupFlag) ++ rest) =
          (w.loginRecord t login).firstPackets ++ rest := by
      intro rest
      rw [List.map_map]
      rfl
    rw [if_pos hrecord, ApplicationState.loginPackets_of_resumes (hresumes.mpr hresumed),
      Outbox.orderedPackets_eq h.holds, hfirst, List.drop_left,
      and_iff_right (List.prefix_append _ _)]
    have hreleased : (w.broker.sessions (w.broker.sessionFor login)).mQos2pubrecReceived =
        (w.boxes (w.broker.sessionFor login)).released := h.holds.released_eq
    have hzero : 0 ∉ (w.broker.sessions (w.broker.sessionFor login)).mQos2pubrecReceived := by
      rw [hreleased]
      exact h.nonzero
    -- The loop runs to the number of the bits that are set, and never reaches the last of them.
    have hiff := Outbox.pubrelIdentifiers_eq_iff pubrel hzero
    rw [hreleased] at hiff
    exact hiff.trans ⟨fun hnone _ => hnone, fun hnone => hnone hresumed⟩
  · have hrecord : ¬ (w.loginRecord t login).Resumes := hresumed
    rw [if_neg hrecord,
      ApplicationState.loginPackets_of_clean fun hr => hresumed (hresumes.mp hr)]
    exact iff_of_true rfl fun hr => absurd hr hresumed

theorem allRight_step_iff (h : w.Sound session) (hright : w.AllRight session)
    (hstep : w.step action = some w') : w'.AllRight session ↔ w.ReleasesNone session action := by
  obtain ⟨t, hok, rfl⟩ := Option.map_eq_some_iff.mp hstep
  have hold : ∀ r ∈ w.logins, r.session = session → r.Right := hright
  refine List.forall_mem_append.trans ?_
  rw [and_iff_right hold, ReleasesNone]
  cases hlogin : w.broker.executedLogin action with
  | none => exact iff_of_true (fun _ hr => by cases hr) fun _ hr => by cases hr
  | some login =>
      simp only [Option.map_some, Option.toList_some, List.forall_mem_singleton,
        Option.mem_some_iff, forall_eq']
      exact forall_congr' fun hsession => right_loginRecord_iff h hok hlogin hsession

/-- For every session, over every run in which its acknowledgements are regular and its
identifiers fresh: its logins are sent what they are to be sent exactly if none resumes it
with identifiers to release. -/
theorem allRight_iff_of_isRun (session : SessionId)
    {retained : AList fun _ : ByteString => RetainedMessage}
    {run : List (ApplicationState.Action × Resumptions τ)}
    (hrun : Runs.IsRun (Runs.StepOf step) (initial retained) run)
    (hregular : Runs.AllSteps (Regular session) (initial retained) run) :
    Runs.AllStates (AllRight session) run ↔
      Runs.AllSteps (ReleasesNone session) (initial retained) run := by
  refine (hrun.guarded hregular).allStates_iff_allSteps (I := Sound session) ?_ ?_
    (sound_initial retained) fun _ hr => by cases hr
  · rintro w action w' h - - ⟨hreg, hstep⟩
    exact h.step hreg hstep
  · rintro w action w' h hright ⟨-, hstep⟩
    exact allRight_step_iff h hright hstep

end

/-- A client logs in and subscribes. -/
def subscribed : List ApplicationState.Action :=
  ApplicationState.Action.requestLogin 0 [0x61] .no ApplicationState.Action.kept_of_id ++
    [.execute []] ++
    ApplicationState.Action.requestSubscribe 0 [0x74] .qos2 ++ [.execute []]

/-- A message is published to it. -/
def published (qos : QoS) : List ApplicationState.Action :=
  [.start 0 (.publish ⟨[0x74], [0x68, 0x69], qos, .no, []⟩), .proceed (.other 0) false]

/-- It leaves, and logs in again. -/
def reconnected : List ApplicationState.Action :=
  ApplicationState.Action.requestLogout 0 ++ [.execute []] ++
    ApplicationState.Action.requestLogin 1 [0x61] .no ApplicationState.Action.kept_of_id ++ [.execute []]

/-- Two messages are not acknowledged before the client leaves. -/
def resumed : List ApplicationState.Action :=
  subscribed ++ published .qos1 ++ published .qos2 ++ reconnected

theorem allRight_resumed :
    (Runs.last (initial ∅) (Runs.runOf (@step SubscriptionList .standard _) (initial ∅)
        resumed)).logins.map (fun r => (r.previous, r.box.owed.length)) =
      [(none, 0), (some .no, 2)] ∧
      Runs.AllStates (@AllRight SubscriptionList .standard 0)
        (Runs.runOf (@step SubscriptionList .standard _) (initial ∅) resumed) :=
  ⟨by decide +kernel, (@allRight_iff_of_isRun SubscriptionList .standard _ 0 _ _
    (Runs.isRun_runOf (@step SubscriptionList .standard _) _ _)
    (by decide +kernel)).mpr (by decide +kernel)⟩

/-- A message at QoS 2 is received, and the client leaves before it is released. -/
def releaseLost : List ApplicationState.Action :=
  subscribed ++ published .qos2 ++ [.packet 0 (.pubRec 2), .proceed (.receiver 0) false] ++
    reconnected

/-- Its login resumes the session, and the identifier is not released. -/
theorem not_allRight_releaseLost :
    Runs.AllSteps (@Regular SubscriptionList .standard _ 0) (initial ∅)
        (Runs.runOf (@step SubscriptionList .standard _) (initial ∅) releaseLost) ∧
      ¬ Runs.AllStates (@AllRight SubscriptionList .standard 0)
        (Runs.runOf (@step SubscriptionList .standard _) (initial ∅) releaseLost) := by
  decide +kernel

end Resumptions

end NioevMqtt
