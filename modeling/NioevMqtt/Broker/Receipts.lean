-- SUMMARY: Packets received at QoS 2: over every run, each is passed on exactly once between clean starts and releases of its identifier, and is acknowledged.
import NioevMqtt.Broker.SessionTable
import NioevMqtt.Broker.CleanStart

/-!
# Receipts at QoS 2

A history of what each client has sent at QoS 2 stands beside the broker: for every
client id its `PUBLISH` and `PUBREL` packets and its clean starts, over all its
connections, with the work the broker made of each packet.
-/

namespace NioevMqtt

open Outcome

/-- What a client has sent at QoS 2 with a packet identifier, and the work its thread was
left with; or a login that resumed nothing. -/
inductive Receipt where
  | cleanStart
  | publish (client : ConnectionId) (version : MQTTVersion) (packet : MQTTPacket) (id : UInt16)
      (work : List Work)
  | pubRel (client : ConnectionId) (version : MQTTVersion) (id : UInt16) (work : List Work)

namespace Receipt

/-- After it the identifier is free. -/
def frees (id : UInt16) : Receipt → Bool
  | .cleanStart => true
  | .publish .. => false
  | .pubRel _ _ released _ => released = id

def publishes (id : UInt16) : Receipt → Bool
  | .publish _ _ _ published _ => published = id
  | _ => false

/-- A `PUBLISH` with the identifier has been handled since the later of the last clean
start and the last `PUBREL` for it. The last receipt comes first. -/
def Received (log : List Receipt) (id : UInt16) : Prop :=
  ∃ receipt ∈ log.takeWhile fun receipt => !receipt.frees id, receipt.publishes id

instance (log : List Receipt) (id : UInt16) : Decidable (Received log id) :=
  inferInstanceAs (Decidable (∃ receipt ∈ _, _))

/-- What MQTT 3.1.1 asks for after those receipts: a `PUBREC`, and the message passed on
unless it has been received; or a `PUBCOMP`. -/
def Answered [Libnioev] (earlier : List Receipt) : Receipt → Prop
  | .cleanStart => True
  | .publish client version packet id work => version = .v4 →
    work = .reply client (.fromData 0x50 (bigEndianBytes id)) ::
      if Received earlier id then [] else [.publish packet]
  | .pubRel client version id work => version = .v4 →
    work = [.reply client (.fromData 0x70 (bigEndianBytes id))]

/-- Every receipt has been answered after those before it. -/
def AllAnswered [Libnioev] : List Receipt → Prop
  | [] => True
  | receipt :: earlier => receipt.Answered earlier ∧ AllAnswered earlier

variable {log : List Receipt} {id : UInt16}

theorem not_received_of_frees {receipt : Receipt} (h : receipt.frees id = true) :
    ¬ Received (receipt :: log) id := by
  rintro ⟨receipt', hmem, -⟩
  rw [List.takeWhile_cons_of_neg (by rw [h]; exact Bool.false_ne_true)] at hmem
  cases hmem

theorem received_cons {receipt : Receipt} (h : receipt.frees id = false) :
    Received (receipt :: log) id ↔ receipt.publishes id = true ∨ Received log id := by
  unfold Received
  rw [List.takeWhile_cons_of_pos (by rw [h]; rfl)]
  simp only [List.mem_cons, exists_eq_or_imp]

variable {client : ConnectionId} {version : MQTTVersion} {packet : MQTTPacket} {i : UInt16}
  {work : List Work}

theorem received_publish :
    Received (.publish client version packet i work :: log) id ↔ id = i ∨ Received log id := by
  rw [received_cons rfl, publishes, decide_eq_true_iff, eq_comm]

theorem received_pubRel :
    Received (.pubRel client version i work :: log) id ↔ id ≠ i ∧ Received log id := by
  by_cases h : i = id
  · subst h
    exact iff_of_false (not_received_of_frees (decide_eq_true rfl)) fun hne => hne.1 rfl
  · have hkept : (Receipt.pubRel client version i work).frees id = false := decide_eq_false h
    have hother : (Receipt.pubRel client version i work).publishes id = false := rfl
    rw [received_cons hkept, hother, and_iff_right (Ne.symm h)]
    simp only [Bool.false_eq_true, false_or]

end Receipt

/-! ## Histories -/

/-- A broker and what its clients have sent at QoS 2, by client id. -/
structure Receipts (τ : Type) where
  broker : ApplicationState τ
  log : ByteString → List Receipt := fun _ => []

namespace Receipts

section

variable {τ : Type}

def record (log : ByteString → List Receipt) (clientId : ByteString) (receipt : Receipt) :
    ByteString → List Receipt :=
  Function.update log clientId (receipt :: log clientId)

/-- The receipt of a packet, with the work it has left to its thread. -/
def receiptOf (client : ConnectionId) (version : MQTTVersion) (work : List Work) :
    ClientPacket → Option Receipt
  | .publish packet id =>
    if packet.qos = .qos2 then some (.publish client version packet id work) else none
  | .pubRel id => some (.pubRel client version id work)
  | _ => none

/-- The client id of a connection that has its session. -/
def clientIdOf (s : ApplicationState τ) (client : ConnectionId) : Option ByteString :=
  (s.connections client).mPersistentClientState.map fun session => (s.sessions session).mClientID

/-- What a step from `s` to `t` adds. -/
def recordStep (s t : ApplicationState τ) (action : ApplicationState.Action)
    (log : ByteString → List Receipt) : ByteString → List Receipt :=
  match action with
  | .packet client packet =>
    match clientIdOf s client,
      receiptOf client (s.connections client).mMQTTVersion (t.work (.receiver client)) packet with
    | some clientId, some receipt => record log clientId receipt
    | _, _ => log
  | action =>
    match s.executedLogin action with
    | none => log
    | some login => if s.Resumes login then log else record log login.clientId .cleanStart

variable [Libnioev] [SubscriptionTree τ]

def step (r : Receipts τ) (action : ApplicationState.Action) : Option (Receipts τ) :=
  (r.broker.stepOk action).map fun t => ⟨t, recordStep r.broker t action r.log⟩

def initial (retained : AList fun _ : ByteString => RetainedMessage) : Receipts τ :=
  ⟨ApplicationState.initial retained, fun _ => []⟩

/-- Every client has been answered. -/
def Answered (r : Receipts τ) : Prop := ∀ clientId, Receipt.AllAnswered (r.log clientId)

/-! ## What is marked -/

/-- What the sessions have marked as received is what the histories of their clients say. -/
def Marks (r : Registry) (log : ByteString → List Receipt) : Prop :=
  ∀ clientId session, r.Keeps clientId session → ∀ id,
    id ∈ r.received session ↔ Receipt.Received (log clientId) id

variable {r r' : Registry} {log : ByteString → List Receipt} {client : ConnectionId}

omit [Libnioev] [SubscriptionTree τ] in
theorem Marks.narrows (h : Marks r log) (hnarrows : r.Narrows r') : Marks r' log := by
  intro clientId session hkeeps id
  rw [hnarrows.received_eq]
  exact h clientId session (hnarrows.keeps clientId session hkeeps) id

omit [Libnioev] [SubscriptionTree τ] in
/-- An identifier is marked or freed as the receipt says. -/
theorem Marks.updateReceiving (h : Marks r log) (hr : r.Registered) {session : SessionId}
    (hattached : r.attached client = some session) {f : Finset UInt16 → Finset UInt16}
    {receipt : Receipt}
    (hf : ∀ ids earlier, (∀ id, id ∈ ids ↔ Receipt.Received earlier id) →
      ∀ id, id ∈ f ids ↔ Receipt.Received (receipt :: earlier) id) :
    Marks (r.updateReceiving client f) (record log (r.sessions session).mClientID receipt) := by
  obtain ⟨hkept, hreceived⟩ := Registry.updateReceiving_of_attached hattached f
  have hstored := hr.keeps_of_attached hattached
  generalize (r.sessions session).mClientID = id₀ at hstored
  intro clientId s hkeeps id
  rw [hkept] at hkeeps
  rw [hreceived, record]
  by_cases hs : s = session
  · subst hs
    have hid : clientId = id₀ := (hr.named clientId s hkeeps).symm.trans (hr.named id₀ s hstored)
    rw [hid, Function.update_self, Function.update_self]
    exact hf _ _ (h id₀ s hstored) id
  · have hid : clientId ≠ id₀ := by
      rintro rfl
      exact hs (Option.some.inj (hkeeps.symm.trans hstored))
    rw [Function.update_of_ne hs, Function.update_of_ne hid]
    exact h clientId s hkeeps id

omit [Libnioev] [SubscriptionTree τ] in
theorem Marks.loginClient (h : Marks r log) (hr : r.Registered)
    (hout : (r.clients client).mLoggedOut = false) (clientId : ByteString)
    (cleanSession : CleanSession) :
    (r.Resumes clientId cleanSession → Marks (r.loginClient client clientId cleanSession) log) ∧
      (¬ r.Resumes clientId cleanSession →
        Marks (r.loginClient client clientId cleanSession) (record log clientId .cleanStart)) := by
  constructor
  · intro hresumes id session hkeeps i
    rcases Registry.received_loginClient hr hout hkeeps with ⟨-, hold, hsame⟩ | ⟨-, hclean, -⟩
    · rw [hsame]
      exact h id session hold i
    · exact absurd hresumes hclean
  · intro hclean id session hkeeps i
    rcases Registry.received_loginClient hr hout hkeeps with ⟨hne, hold, hsame⟩ | ⟨rfl, -, hempty⟩
    · rw [hsame, record, Function.update_of_ne (hne.resolve_right hclean)]
      exact h id session hold i
    · rw [hempty, record, Function.update_self]
      exact iff_of_false (Finset.notMem_empty i) (Receipt.not_received_of_frees rfl)

/-! ## Steps -/

variable {s t : ApplicationState τ} {action : ApplicationState.Action}

omit [Libnioev] [SubscriptionTree τ] in
theorem resumes_iff (s : ApplicationState τ) (login : Login) :
    s.Resumes login ↔ s.registry.Resumes login.clientId login.cleanSession := by
  refine exists_congr fun session => and_congr Iff.rfl ?_
  unfold Registry.replaceStyle
  split
  · next hyes =>
      refine iff_of_false (fun ⟨hlogin, hsession⟩ => ?_) ReplaceStyle.noConfusion
      rcases hyes with h | h
      · exact CleanSession.noConfusion (h.symm.trans hlogin)
      · exact CleanSession.noConfusion (h.symm.trans hsession)
  · next hno =>
      refine iff_of_true ⟨?_, ?_⟩ rfl
      · cases hlogin : login.cleanSession with
        | yes => exact absurd (.inl hlogin) hno
        | no => rfl
      · cases hsession : (s.sessions session).mCleanSession with
        | yes => exact absurd (.inr hsession) hno
        | no => rfl

omit [Libnioev] [SubscriptionTree τ] in
/-- A login that is executed is one of the registry. -/
theorem registryOp_of_executedLogin {login : Login} (h : s.executedLogin action = some login) :
    s.registryOp action = .loginClient login.client login.clientId login.cleanSession ∧
      (s.connections login.client).mLoggedOut = false := by
  unfold ApplicationState.executedLogin at h
  split at h
  · next randomChars =>
    split at h
    · next client clientId cleanSession thread queue hqueue =>
        split at h
        · cases h
        · next hin =>
            obtain ⟨generatedId, hgenerated, rfl⟩ := Option.map_eq_some_iff.mp h
            refine ⟨?_, Bool.eq_false_iff.mpr hin⟩
            simp only [ApplicationState.registryOp, hqueue, hgenerated, ApplicationState.changeOp]
    · cases h
  · cases h

omit [Libnioev] [SubscriptionTree τ] in
/-- A request that is executed and logs nobody in is nothing to the registry, a logout, or
the login of a connection that is logged out. -/
theorem registryOp_of_noLogin {randomChars : List ByteString}
    (h : s.executedLogin (.execute randomChars) = none) :
    s.registryOp (.execute randomChars) = .nothing ∨
      (∃ client, s.registryOp (.execute randomChars) = .logoutClient client) ∨
        ∃ client clientId cleanSession,
          s.registryOp (.execute randomChars) = .loginClient client clientId cleanSession ∧
            (s.registry.clients client).mLoggedOut = true := by
  cases hqueue : s.mQueue with
  | nil =>
      left
      simp only [ApplicationState.registryOp, hqueue]
  | cons request queue =>
      simp only [ApplicationState.registryOp, hqueue]
      cases hgenerated : s.generatedFor randomChars request.change with
      | none => exact .inl rfl
      | some generatedId =>
          cases hchange : request.change with
          | loginClient client clientId cleanSession =>
              refine .inr (.inr ⟨client, _, cleanSession, rfl, ?_⟩)
              rw [ApplicationState.executedLogin, hqueue] at h
              obtain ⟨change, thread⟩ := request
              cases hchange
              -- Otherwise the login is executed.
              by_contra hout
              have hin : (s.connections client).mLoggedOut = false := Bool.eq_false_iff.mpr hout
              simp only [hin, Bool.false_eq_true, if_false, Option.map_eq_none_iff] at h
              exact absurd (hgenerated.symm.trans h) (Option.some_ne_none _)
          | logoutClient client => exact .inr (.inl ⟨client, rfl⟩)
          | _ => exact .inl rfl

omit [Libnioev] [SubscriptionTree τ] in
/-- Unless it is a logout it leaves the registry alone. -/
theorem apply_of_noLogin {randomChars : List ByteString}
    (h : s.executedLogin (.execute randomChars) = none) :
    s.registry.apply (s.registryOp (.execute randomChars)) = s.registry ∨
      ∃ client, s.registryOp (.execute randomChars) = .logoutClient client := by
  rcases registryOp_of_noLogin h with hop | hlogout | ⟨client, _, _, hop, hout⟩
  · rw [hop]
    exact .inl rfl
  · exact .inr hlogout
  · rw [hop, Registry.apply, Registry.loginClient, if_pos hout]
    exact .inl rfl

omit [Libnioev] [SubscriptionTree τ] in
/-- Where no login is executed and no packet handled, no session receives anything. -/
theorem narrows_of_noLogin (h : s.executedLogin action = none)
    (hpacket : ∀ client packet, action ≠ .packet client packet) :
    s.registry.Narrows (s.registry.apply (s.registryOp action)) := by
  have hsame : s.registry.Narrows s.registry := ⟨fun _ _ hkeeps => hkeeps, rfl⟩
  cases action with
  | newConnection remote now => exact ⟨fun _ _ hkeeps => hkeeps, rfl⟩
  | connect client packet => exact ⟨fun _ _ hkeeps => hkeeps, rfl⟩
  | packet client packet => exact absurd rfl (hpacket client packet)
  | execute randomChars =>
      rcases apply_of_noLogin h with hkept | ⟨client, hlogout⟩
      · rw [hkept]
        exact hsame
      · rw [hlogout]
        exact Registry.narrows_logoutClient s.registry client
  | logoutSendError client => exact Registry.narrows_logoutClient s.registry client
  | timeout client now => exact Registry.narrows_logoutClient s.registry client
  | cleanup => exact ⟨fun _ _ hkeeps => hkeeps, rfl⟩
  | _ => exact hsame

omit [Libnioev] [SubscriptionTree τ] in
theorem work_withSession {session : SessionId}
    (hattached : (s.connections client).mPersistentClientState = some session)
    (f : PersistentClientState → PersistentClientState × List Work) :
    (s.withSession client f).work (.receiver client) = (f (s.sessions session)).2 := by
  unfold ApplicationState.withSession
  rw [hattached]
  exact Function.update_self _ _ _

omit [SubscriptionTree τ] in
/-- An acknowledgement in version 3.1.1 is the identifier alone. -/
theorem acknowledgement_v4 (type : MQTTMessageType) (flags : UInt8) (id : UInt16)
    (reason : Option UInt8) :
    ApplicationState.acknowledgement type flags .v4 id reason =
      .fromData (type.toUInt8 <<< 4 ||| flags) (bigEndianBytes id) := by
  unfold ApplicationState.acknowledgement
  rw [List.append_nil]

omit [SubscriptionTree τ] in
/-- The work a `PUBLISH` or `PUBREL` at QoS 2 leaves to the thread answers it. -/
theorem answered_handlePacketReceived {packet : ClientPacket} {session : SessionId}
    (hattached : (s.connections client).mPersistentClientState = some session) {receipt : Receipt}
    (hreceipt : receiptOf client (s.connections client).mMQTTVersion
      ((s.handlePacketReceived client packet).work (.receiver client)) packet = some receipt)
    {earlier : List Receipt} (hmarked : ∀ id,
      id ∈ (s.sessions session).mQoS2receivingPacketIds ↔ Receipt.Received earlier id) :
    receipt.Answered earlier := by
  cases packet with
  | publish packet id =>
      simp only [receiptOf, Option.ite_none_right_eq_some, Option.some.injEq] at hreceipt
      obtain ⟨hqos, rfl⟩ := hreceipt
      intro hversion
      simp only [ApplicationState.handlePacketReceived, hqos]
      rw [work_withSession hattached, hversion, acknowledgement_v4]
      simp only [PersistentClientState.receiveQoS2, decide_not, Bool.not_eq_true',
        decide_eq_false_iff_not, hmarked, ite_not]
      rfl
  | pubRel id =>
      cases hreceipt
      intro hversion
      simp only [ApplicationState.handlePacketReceived]
      rw [work_withSession hattached, hversion, acknowledgement_v4]
      rfl
  | _ => cases hreceipt

omit [Libnioev] [SubscriptionTree τ] in
/-- And what it marks. -/
theorem Marks.packet (h : Marks s.registry log) (hr : s.registry.Registered)
    {packet : ClientPacket} {session : SessionId}
    (hattached : (s.connections client).mPersistentClientState = some session) {receipt : Receipt}
    {version : MQTTVersion} {work : List Work}
    (hreceipt : receiptOf client version work packet = some receipt) :
    Marks (s.registry.apply (ApplicationState.packetOp client packet))
      (record log (s.sessions session).mClientID receipt) := by
  cases packet with
  | publish packet id =>
      simp only [receiptOf, Option.ite_none_right_eq_some, Option.some.injEq] at hreceipt
      obtain ⟨hqos, rfl⟩ := hreceipt
      simp only [ApplicationState.packetOp, if_pos hqos, Registry.apply]
      refine h.updateReceiving hr hattached fun ids earlier hids i => ?_
      rw [Finset.mem_insert, Receipt.received_publish, hids]
  | pubRel id =>
      cases hreceipt
      simp only [ApplicationState.packetOp, Registry.apply]
      refine h.updateReceiving hr hattached fun ids earlier hids i => ?_
      rw [Finset.mem_erase, Receipt.received_pubRel, hids]
  | _ => cases hreceipt

omit [Libnioev] [SubscriptionTree τ] in
/-- A packet without a receipt marks nothing. -/
theorem narrows_packet {packet : ClientPacket} (version : MQTTVersion) (work : List Work)
    (h : (s.connections client).mPersistentClientState = none ∨
      receiptOf client version work packet = none) :
    s.registry.Narrows (s.registry.apply (ApplicationState.packetOp client packet)) := by
  have hsame : s.registry.Narrows s.registry := ⟨fun _ _ hkeeps => hkeeps, rfl⟩
  have hunattached : ∀ f, (s.connections client).mPersistentClientState = none →
      s.registry.updateReceiving client f = s.registry := by
    intro f hnone
    unfold Registry.updateReceiving
    rw [show (s.registry.clients client).mPersistentClientState = none from hnone]
  cases packet with
  | publish packet id =>
      simp only [ApplicationState.packetOp]
      split
      · next hqos =>
          rcases h with hnone | hreceipt
          · rw [Registry.apply, hunattached _ hnone]
            exact hsame
          · rw [receiptOf, if_pos hqos] at hreceipt
            cases hreceipt
      · exact hsame
  | pubRel id =>
      rcases h with hnone | hreceipt
      · rw [ApplicationState.packetOp, Registry.apply, hunattached _ hnone]
        exact hsame
      · cases hreceipt
  | disconnect => exact ⟨fun _ _ hkeeps => hkeeps, rfl⟩
  | _ => exact hsame

omit [Libnioev] [SubscriptionTree τ] in
theorem recordStep_of_not_packet (hpacket : ∀ client packet, action ≠ .packet client packet) :
    recordStep s t action log =
      match s.executedLogin action with
      | none => log
      | some login => if s.Resumes login then log else record log login.clientId .cleanStart := by
  cases action with
  | packet client packet => exact absurd rfl (hpacket client packet)
  | _ => rfl

omit [Libnioev] [SubscriptionTree τ] in
theorem recordStep_packet (s t : ApplicationState τ) (client : ConnectionId) (packet : ClientPacket)
    (log : ByteString → List Receipt) :
    recordStep s t (.packet client packet) log =
      match clientIdOf s client,
        receiptOf client (s.connections client).mMQTTVersion (t.work (.receiver client)) packet with
      | some clientId, some receipt => record log clientId receipt
      | _, _ => log := rfl

theorem marks_recordStep (h : s.Tabled) (hmarks : Marks s.registry log)
    (hstep : s.stepOk action = some t) : Marks t.registry (recordStep s t action log) := by
  have hstep' := ApplicationState.step_of_stepOk hstep
  rw [(ApplicationState.registry_step h.linked h.registered hstep').1]
  by_cases hpacket : ∃ client packet, action = .packet client packet
  · obtain ⟨client, packet, rfl⟩ := hpacket
    rw [recordStep_packet]
    cases hattached : (s.connections client).mPersistentClientState with
    | none =>
        rw [clientIdOf, hattached]
        exact hmarks.narrows (narrows_packet .v4 [] (.inl hattached))
    | some session =>
        rw [clientIdOf, hattached]
        cases hreceipt : receiptOf client (s.connections client).mMQTTVersion
            (t.work (.receiver client)) packet with
        | none => exact hmarks.narrows (narrows_packet _ _ (.inr hreceipt))
        | some receipt => exact hmarks.packet h.registered hattached hreceipt
  · have hnot : ∀ client packet, action ≠ .packet client packet :=
      fun client packet heq => hpacket ⟨client, packet, heq⟩
    rw [recordStep_of_not_packet hnot]
    cases hlogin : s.executedLogin action with
    | none => exact hmarks.narrows (narrows_of_noLogin hlogin hnot)
    | some login =>
        obtain ⟨hop, hout⟩ := registryOp_of_executedLogin hlogin
        obtain ⟨hresumed, hclean⟩ :=
          hmarks.loginClient h.registered hout login.clientId login.cleanSession
        rw [hop]
        simp only
        split
        · next hresumes => exact hresumed ((resumes_iff s login).mp hresumes)
        · next hresumes => exact hclean fun hr => hresumes ((resumes_iff s login).mpr hr)

theorem allAnswered_recordStep (h : s.Tabled) (hmarks : Marks s.registry log)
    (hstep : s.stepOk action = some t) (hlog : ∀ clientId, Receipt.AllAnswered (log clientId))
    (clientId : ByteString) : Receipt.AllAnswered (recordStep s t action log clientId) := by
  have hrecord : ∀ {id receipt}, receipt.Answered (log id) →
      Receipt.AllAnswered (record log id receipt clientId) := by
    intro id receipt hanswered
    rw [record]
    by_cases heq : clientId = id
    · rw [heq, Function.update_self]
      exact ⟨hanswered, hlog id⟩
    · rw [Function.update_of_ne heq]
      exact hlog clientId
  by_cases hpacket : ∃ client packet, action = .packet client packet
  · obtain ⟨client, packet, rfl⟩ := hpacket
    have hsteps := ApplicationState.steps_of_step (ApplicationState.step_of_stepOk hstep)
    clear hstep
    cases hsteps
    rw [recordStep_packet]
    cases hattached : (s.connections client).mPersistentClientState with
    | none =>
        rw [clientIdOf, hattached]
        exact hlog clientId
    | some session =>
        rw [clientIdOf, hattached]
        split
        · next id receipt hid hreceipt =>
            cases hid
            have hmarked := hmarks _ session (h.registered.keeps_of_attached hattached)
            exact hrecord (answered_handlePacketReceived hattached hreceipt hmarked)
        · exact hlog clientId
  · rw [recordStep_of_not_packet fun client packet heq => hpacket ⟨client, packet, heq⟩]
    split
    · exact hlog clientId
    · split
      · exact hlog clientId
      · exact hrecord trivial

end

section

variable {τ : Type} [Libnioev] [SubscriptionTree τ] {r r' : Receipts τ}
  {action : ApplicationState.Action}

/-- The invariant of the histories. -/
structure Sound (r : Receipts τ) : Prop where
  tabled : r.broker.Tabled
  marks : Marks r.broker.registry r.log
  answered : r.Answered

theorem Sound.step (h : r.Sound) (hstep : r.step action = some r') : r'.Sound := by
  obtain ⟨t, hok, rfl⟩ := Option.map_eq_some_iff.mp hstep
  exact ⟨h.tabled.step (ApplicationState.step_of_stepOk hok), marks_recordStep h.tabled h.marks hok,
    allAnswered_recordStep h.tabled h.marks hok h.answered⟩

theorem sound_initial (retained : AList fun _ : ByteString => RetainedMessage) :
    (initial retained : Receipts τ).Sound where
  tabled := ApplicationState.tabled_initial retained
  marks := fun _ _ hkeeps => by cases hkeeps
  answered := fun _ => trivial

/-- Over every run: a packet received at QoS 2 is passed on exactly if none with its
identifier has been since the last clean start and the last release, and is answered. -/
theorem answered_of_isRun {retained : AList fun _ : ByteString => RetainedMessage}
    {run : List (ApplicationState.Action × Receipts τ)}
    (hrun : Runs.IsRun (Runs.StepOf step) (initial retained) run) : Runs.AllStates Answered run := by
  have hsound : Runs.AllStates Sound run :=
    hrun.invariant (fun _ _ _ h hstep => h.step hstep) (sound_initial retained)
  exact fun x hx => (hsound x hx).answered

end

/-- A message at QoS 2 is sent, sent again and released, and its identifier is used for
the next. -/
def publishTwice : List ApplicationState.Action :=
  let publish : ApplicationState.Action := .packet 0 (.publish ⟨[0x74], [0x68, 0x69], .qos2, .no, []⟩ 7)
  let proceed : ApplicationState.Action := .proceed (.receiver 0) false
  ApplicationState.Action.requestLogin 0 [0x61] .no ApplicationState.Action.kept_of_id ++
    [.execute [], publish, proceed, proceed, publish, proceed, .packet 0 (.pubRel 7), proceed,
      publish, proceed, proceed]

theorem answered_publishTwice :
    (Runs.runOf (@step SubscriptionList .standard _) (initial ∅) publishTwice).length = 14 ∧
      Runs.AllStates (@Answered SubscriptionList .standard)
        (Runs.runOf (@step SubscriptionList .standard _) (initial ∅) publishTwice) :=
  ⟨by decide +kernel, @answered_of_isRun SubscriptionList .standard _ _ _
    (Runs.isRun_runOf (@step SubscriptionList .standard _) _ _)⟩

end Receipts

end NioevMqtt
