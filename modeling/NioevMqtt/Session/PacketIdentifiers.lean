-- SUMMARY: Packet identifiers over the runs of one session: when every one is free and no message is lost before its acknowledgement.
import NioevMqtt.Session.PersistentClientState
import NioevMqtt.Library.Runs

/-!
# Packet identifiers

The counter behind the identifiers of a session has 16 bits and does not ask
whether the next identifier is in use. An acknowledgement removes whatever is
stored under its identifier, of either quality of service.
-/

namespace NioevMqtt

/-! ## Runs of one session -/

/-- A session with a ledger of its messages. -/
structure SessionRun where
  session : PersistentClientState
  globalOrderCounter : Nat := 0
  /-- The messages handed to the session that the client has not acknowledged. -/
  unacknowledged : List (UInt16 × HighQoSRetainStorage) := []
  /-- An identifier was assigned that is no identifier, or was in use. -/
  misassigned : Bool := false

namespace SessionRun

inductive Event where
  | publish (qos : QoS) (packetBuilder : MQTTPublishPacketBuilder)
  | pubAck (id : UInt16)
  | pubRec (id : UInt16)
  | pubComp (id : UInt16)
  | logout
  | login (client : ConnectionId) (cleanSession : CleanSession)

/-- A session that has just been started clean. -/
def started (s : PersistentClientState) (client : ConnectionId) (cleanSession : CleanSession)
    (globalOrderCounter : Nat) : SessionRun where
  session := s.replaceCurrentClient client cleanSession .cleanSession
  globalOrderCounter := globalOrderCounter

/-- The session uses the identifier. -/
def InUse (s : PersistentClientState) (id : UInt16) : Prop :=
  id ∈ s.mHighQoSSendingPackets ∨ id ∈ s.mQos2pubrecReceived

instance (s : PersistentClientState) (id : UInt16) : Decidable (InUse s id) :=
  inferInstanceAs (Decidable (_ ∨ _))

/-- How the session takes over a connection: resumed if neither side is clean. -/
def replaceStyle (s : PersistentClientState) (cleanSession : CleanSession) : ReplaceStyle :=
  if cleanSession = .yes ∨ s.mCleanSession = .yes then .cleanSession else .simpleReplace

variable [Libnioev] (version : ConnectionId → MQTTVersion)

/-- The message `publish` is given, under the identifier it chooses. -/
def handed (r : SessionRun) (qos : QoS) (packetBuilder : MQTTPublishPacketBuilder) :
    UInt16 × HighQoSRetainStorage :=
  (PersistentClientState.nextPacketId r.session.mPacketIdCounter,
    r.session.nextStorage version r.globalOrderCounter qos packetBuilder)

def step (r : SessionRun) : Event → Option SessionRun
  | .publish qos packetBuilder =>
    match r.session.publish version r.globalOrderCounter qos packetBuilder with
    | .error _ => none
    | .ok published =>
      let r' :=
        { r with
          session := published.session, globalOrderCounter := published.globalOrderCounter }
      if qos = .qos0 then some r'
      else
        let (id, storage) := r.handed version qos packetBuilder
        some { r' with
          unacknowledged := r.unacknowledged ++ [(id, storage)]
          misassigned := r.misassigned || decide (id = 0 ∨ InUse r.session id) }
  | .pubAck id =>
    some { r with
      session := r.session.pubAck id
      unacknowledged := r.unacknowledged.filter fun m => ¬ (m.1 = id ∧ m.2.mQoS = .qos1) }
  | .pubRec id =>
    some { r with
      session := r.session.pubRec id
      unacknowledged := r.unacknowledged.filter fun m => ¬ (m.1 = id ∧ m.2.mQoS = .qos2) }
  | .pubComp id => some { r with session := r.session.pubComp id }
  | .logout =>
    match r.session.dropCurrentClient with
    | .error _ => none
    | .ok (_, session) => some { r with session := session }
  | .login client cleanSession =>
    let style := replaceStyle r.session cleanSession
    some { r with
      session := r.session.replaceCurrentClient client cleanSession style
      unacknowledged := if style = .cleanSession then [] else r.unacknowledged }

/-! ## The steps, one by one -/

/-- The message is stored under the next identifier. -/
def handOver (r : SessionRun) (qos : QoS) (packetBuilder : MQTTPublishPacketBuilder) :
    SessionRun where
  session := r.session.store version r.globalOrderCounter qos packetBuilder
  globalOrderCounter := r.globalOrderCounter + 1
  unacknowledged := r.unacknowledged ++ [r.handed version qos packetBuilder]
  misassigned := r.misassigned ||
    decide (InUse r.session (PersistentClientState.nextPacketId r.session.mPacketIdCounter))

theorem step_publish {r : SessionRun} {qos : QoS} {packetBuilder : MQTTPublishPacketBuilder}
    (hqos : qos ≠ .qos0) :
    step version r (.publish qos packetBuilder) = some (r.handOver version qos packetBuilder) := by
  obtain ⟨published, hpublished⟩ :=
    (PersistentClientState.publish_isOk_iff r.session version r.globalOrderCounter qos
      packetBuilder).mpr fun heq => absurd heq hqos
  obtain ⟨hsession, hcounter⟩ := PersistentClientState.publish_highQoS hqos hpublished
  simp only [step, hpublished, if_neg hqos, hsession, hcounter]
  simp only [handed, PersistentClientState.nextPacketId_ne_zero, false_or]
  rfl

/-- All that a step can do. -/
inductive Transition (r : SessionRun) : Event → SessionRun → Prop
  | publishQoS0 {packetBuilder} : Transition r (.publish .qos0 packetBuilder) r
  | publish {qos packetBuilder} (hqos : qos ≠ .qos0) :
      Transition r (.publish qos packetBuilder)
        (r.handOver version qos packetBuilder)
  | pubAck {id} :
      Transition r (.pubAck id)
        { r with
          session := r.session.pubAck id
          unacknowledged := r.unacknowledged.filter fun m => ¬ (m.1 = id ∧ m.2.mQoS = .qos1) }
  | pubRec {id} :
      Transition r (.pubRec id)
        { r with
          session := r.session.pubRec id
          unacknowledged := r.unacknowledged.filter fun m => ¬ (m.1 = id ∧ m.2.mQoS = .qos2) }
  | pubComp {id} : Transition r (.pubComp id) { r with session := r.session.pubComp id }
  | logout :
      Transition r .logout { r with session := { r.session with mCurrentClient := none } }
  | loginClean {client cleanSession} :
      Transition r (.login client cleanSession)
        { r with
          session := r.session.replaceCurrentClient client cleanSession .cleanSession
          unacknowledged := [] }
  | loginResumed {client cleanSession} :
      Transition r (.login client cleanSession)
        { r with session := r.session.replaceCurrentClient client cleanSession .simpleReplace }

theorem transition_of_step {r r' : SessionRun} {event : Event}
    (h : Runs.StepOf (step version) r event r') : Transition version r event r' := by
  cases event with
  | publish qos packetBuilder =>
      by_cases hqos : qos = .qos0
      · subst hqos
        simp only [Runs.StepOf, step] at h
        split at h
        · cases h
        · next published hpublished =>
            obtain ⟨hsession, hcounter⟩ := PersistentClientState.publish_qos0 hpublished
            rw [if_pos trivial, hsession, hcounter] at h
            cases h
            exact .publishQoS0
      · rw [Runs.StepOf, step_publish version hqos] at h
        cases h
        exact .publish hqos
  | pubAck id =>
      cases h
      exact .pubAck
  | pubRec id =>
      cases h
      exact .pubRec
  | pubComp id =>
      cases h
      exact .pubComp
  | logout =>
      simp only [Runs.StepOf, step, PersistentClientState.dropCurrentClient] at h
      split at h
      · cases h
      · next hdropped =>
          split at hdropped
          · cases hdropped
          · cases hdropped
            cases h
            exact .logout
  | login client cleanSession =>
      simp only [Runs.StepOf, step, replaceStyle] at h
      split at h
      · cases h
        exact .loginClean
      · cases h
        exact .loginResumed

omit [Libnioev]

/-! ## The property and its condition -/

/-- Every identifier assigned so far was free, and every message that is not
acknowledged is stored. -/
structure KeepsMessages (r : SessionRun) : Prop where
  assigned : r.misassigned = false
  stored : ∀ m ∈ r.unacknowledged, r.session.mHighQoSSendingPackets.lookup m.1 = some m.2

/-- The counter comes to a free identifier, and nothing is acknowledged the way of
the other quality of service. -/
def Regular (r : SessionRun) : Event → Prop
  | .publish qos _ =>
    qos ≠ .qos0 → ¬ InUse r.session (PersistentClientState.nextPacketId r.session.mPacketIdCounter)
  | .pubAck id => (r.session.mHighQoSSendingPackets.lookup id).map (·.mQoS) ≠ some .qos2
  | .pubRec id => (r.session.mHighQoSSendingPackets.lookup id).map (·.mQoS) ≠ some .qos1
  | _ => True

/-- What is stored is a message in the ledger. -/
structure Accounted (r : SessionRun) : Prop where
  ledger : ∀ id storage, r.session.mHighQoSSendingPackets.lookup id = some storage →
    (id, storage) ∈ r.unacknowledged
  highQoS : ∀ id storage, r.session.mHighQoSSendingPackets.lookup id = some storage →
    storage.mQoS ≠ .qos0

theorem accounted_started (s : PersistentClientState) (client : ConnectionId)
    (cleanSession : CleanSession) (globalOrderCounter : Nat) :
    (started s client cleanSession globalOrderCounter).Accounted where
  ledger := fun _ _ hlookup => by cases hlookup
  highQoS := fun _ _ hlookup => by cases hlookup

theorem keepsMessages_started (s : PersistentClientState) (client : ConnectionId)
    (cleanSession : CleanSession) (globalOrderCounter : Nat) :
    (started s client cleanSession globalOrderCounter).KeepsMessages where
  assigned := rfl
  stored := fun _ hm => by cases hm

section

variable {r r' : SessionRun} {event : Event} {id : UInt16}

/-- Nothing stored is added, and nothing that is still stored leaves the ledger. -/
theorem Accounted.mono (h : r.Accounted)
    (hledger : ∀ id storage, r'.session.mHighQoSSendingPackets.lookup id = some storage →
      r.session.mHighQoSSendingPackets.lookup id = some storage ∧
        ((id, storage) ∈ r.unacknowledged → (id, storage) ∈ r'.unacknowledged)) :
    r'.Accounted where
  ledger := by
    intro id storage hlookup
    obtain ⟨hbefore, hkept⟩ := hledger id storage hlookup
    exact hkept (h.ledger id storage hbefore)
  highQoS := fun id storage hlookup => h.highQoS id storage (hledger id storage hlookup).1

/-- An acknowledgement takes what is stored under its identifier, and the messages
of its quality of service out of the ledger. -/
structure Acknowledges (r : SessionRun) (id : UInt16) (qos : QoS) (r' : SessionRun) : Prop where
  packets_eq :
    r'.session.mHighQoSSendingPackets = r.session.mHighQoSSendingPackets.erase id
  unacknowledged_eq :
    r'.unacknowledged = r.unacknowledged.filter fun m => ¬ (m.1 = id ∧ m.2.mQoS = qos)
  misassigned_eq : r'.misassigned = r.misassigned

theorem Acknowledges.mem_unacknowledged {qos : QoS} (hack : r.Acknowledges id qos r')
    (m : UInt16 × HighQoSRetainStorage) :
    m ∈ r'.unacknowledged ↔ m ∈ r.unacknowledged ∧ ¬ (m.1 = id ∧ m.2.mQoS = qos) := by
  rw [hack.unacknowledged_eq, List.mem_filter, decide_eq_true_iff]

theorem Acknowledges.accounted {qos : QoS} (hack : r.Acknowledges id qos r')
    (h : r.Accounted) : r'.Accounted := by
  refine h.mono fun id' storage hlookup => ?_
  rw [hack.packets_eq] at hlookup
  have hne : id' ≠ id := by
    rintro rfl
    rw [AList.lookup_erase] at hlookup
    cases hlookup
  rw [AList.lookup_erase_ne hne] at hlookup
  refine ⟨hlookup, fun hmem => ?_⟩
  rw [hack.mem_unacknowledged]
  exact ⟨hmem, fun heq => hne heq.1⟩

/-- An acknowledgement loses nothing exactly when no message of the other quality
of service is stored under its identifier. -/
theorem Acknowledges.keepsMessages_iff {qos other : QoS} (hack : r.Acknowledges id qos r')
    (hqos : ∀ q : QoS, q ≠ .qos0 → q ≠ qos → q = other) (hother : other ≠ qos)
    (h : r.Accounted) (hkeeps : r.KeepsMessages) :
    r'.KeepsMessages ↔
      (r.session.mHighQoSSendingPackets.lookup id).map (·.mQoS) ≠ some other := by
  constructor
  · intro hkeeps' hstored
    obtain ⟨storage, hlookup, rfl⟩ := Option.map_eq_some_iff.mp hstored
    have hmem : (id, storage) ∈ r'.unacknowledged := by
      rw [hack.mem_unacknowledged]
      exact ⟨h.ledger id storage hlookup, fun heq => hother heq.2⟩
    have hlost := hkeeps'.stored _ hmem
    rw [hack.packets_eq, AList.lookup_erase] at hlost
    cases hlost
  · intro hfree
    refine ⟨hack.misassigned_eq.trans hkeeps.assigned, fun m hm => ?_⟩
    obtain ⟨hmem, hkept⟩ := (hack.mem_unacknowledged m).mp hm
    have hlookup := hkeeps.stored m hmem
    have hne : m.1 ≠ id := by
      intro heq
      refine hfree ?_
      rw [← heq, hlookup]
      exact congrArg some (hqos _ (h.highQoS _ _ hlookup) fun hq => hkept ⟨heq, hq⟩)
    rw [hack.packets_eq, AList.lookup_erase_ne hne]
    exact hlookup

section

variable [Libnioev] {version : ConnectionId → MQTTVersion} {qos : QoS}
  {packetBuilder : MQTTPublishPacketBuilder}

/-- A message handed to the session is stored unless the identifier is in use. -/
theorem KeepsMessages.handOver_iff (hkeeps : r.KeepsMessages) :
    (r.handOver version qos packetBuilder).KeepsMessages ↔
      ¬ InUse r.session (PersistentClientState.nextPacketId r.session.mPacketIdCounter) := by
  constructor
  · intro hkeeps' hused
    have hassigned : (r.misassigned || decide _) = false := hkeeps'.assigned
    rw [decide_eq_true hused, Bool.or_true] at hassigned
    cases hassigned
  · intro hfree
    refine ⟨?_, fun m hm => ?_⟩
    · show (r.misassigned || decide _) = false
      rw [hkeeps.assigned, decide_eq_false hfree]
      rfl
    · rcases List.mem_append.mp hm with hold | hnew
      · have hlookup := hkeeps.stored m hold
        have hne : m.1 ≠ PersistentClientState.nextPacketId r.session.mPacketIdCounter := by
          intro heq
          refine hfree (.inl ?_)
          rw [← heq, ← AList.lookup_isSome, hlookup]
          rfl
        exact (SendingPackets.lookup_emplace_of_ne hne).trans hlookup
      · rw [List.mem_singleton.mp hnew]
        exact SendingPackets.lookup_emplace fun hmem => hfree (.inl hmem)

theorem Accounted.handOver (hqos : qos ≠ .qos0) (h : r.Accounted)
    (hfree : ¬ InUse r.session (PersistentClientState.nextPacketId r.session.mPacketIdCounter)) :
    (r.handOver version qos packetBuilder).Accounted := by
  have hnew : ∀ id storage,
      (r.handOver version qos packetBuilder).session.mHighQoSSendingPackets.lookup id =
        some storage →
      (id, storage) = r.handed version qos packetBuilder ∨
        r.session.mHighQoSSendingPackets.lookup id = some storage := by
    intro id storage hlookup
    by_cases heq : id = PersistentClientState.nextPacketId r.session.mPacketIdCounter
    · subst heq
      have hstored : _ = some (r.handed version qos packetBuilder).2 :=
        SendingPackets.lookup_emplace fun hmem => hfree (.inl hmem)
      left
      exact Prod.ext rfl (Option.some.inj (hlookup.symm.trans hstored))
    · right
      exact (SendingPackets.lookup_emplace_of_ne heq).symm.trans hlookup
  constructor
  · intro id storage hlookup
    refine List.mem_append.mpr ?_
    rcases hnew id storage hlookup with heq | hold
    · exact .inr (List.mem_singleton.mpr heq)
    · exact .inl (h.ledger id storage hold)
  · intro id storage hlookup
    rcases hnew id storage hlookup with heq | hold
    · cases heq
      exact hqos
    · exact h.highQoS id storage hold

end

end

/-! ## Runs -/

section

variable [Libnioev] {version : ConnectionId → MQTTVersion} {r r' : SessionRun} {event : Event}

theorem Accounted.transition (h : r.Accounted) (hregular : r.Regular event)
    (hstep : Transition version r event r') : r'.Accounted := by
  cases hstep with
  | publishQoS0 => exact h
  | publish hqos => exact h.handOver hqos (hregular hqos)
  | pubAck => exact Acknowledges.accounted ⟨rfl, rfl, rfl⟩ h
  | pubRec => exact Acknowledges.accounted ⟨rfl, rfl, rfl⟩ h
  | pubComp => exact h.mono fun _ _ hlookup => ⟨hlookup, fun hm => hm⟩
  | logout => exact h.mono fun _ _ hlookup => ⟨hlookup, fun hm => hm⟩
  | loginClean => exact h.mono fun _ _ hlookup => by cases hlookup
  | loginResumed => exact h.mono fun _ _ hlookup => ⟨hlookup, fun hm => hm⟩

/-- A step keeps the messages exactly when it is regular. -/
theorem keepsMessages_transition_iff (h : r.Accounted) (hkeeps : r.KeepsMessages)
    (hstep : Transition version r event r') : r'.KeepsMessages ↔ r.Regular event := by
  cases hstep with
  | publishQoS0 => exact iff_of_true hkeeps fun hne => absurd rfl hne
  | publish hqos =>
      rw [hkeeps.handOver_iff]
      exact (imp_iff_right hqos).symm
  | pubAck =>
      refine Acknowledges.keepsMessages_iff ⟨rfl, rfl, rfl⟩ (fun q => ?_) (by decide) h hkeeps
      cases q <;> decide
  | pubRec =>
      refine Acknowledges.keepsMessages_iff ⟨rfl, rfl, rfl⟩ (fun q => ?_) (by decide) h hkeeps
      cases q <;> decide
  | pubComp => exact iff_of_true ⟨hkeeps.assigned, hkeeps.stored⟩ trivial
  | logout => exact iff_of_true ⟨hkeeps.assigned, hkeeps.stored⟩ trivial
  | loginClean => exact iff_of_true ⟨hkeeps.assigned, fun _ hm => by cases hm⟩ trivial
  | loginResumed => exact iff_of_true ⟨hkeeps.assigned, hkeeps.stored⟩ trivial

/-- Over every run of a session from a clean start: all identifiers assigned are
free, and all messages stored until they are acknowledged, exactly when the counter
always comes to a free identifier and no message is removed by an acknowledgement
of the other kind. -/
theorem keepsMessages_iff_regular {s : PersistentClientState} {client : ConnectionId}
    {cleanSession : CleanSession} {globalOrderCounter : Nat} {run : List (Event × SessionRun)}
    (hrun : Runs.IsRun (Runs.StepOf (step version))
      (started s client cleanSession globalOrderCounter) run) :
    Runs.AllStates KeepsMessages run ↔
      Runs.AllSteps Regular (started s client cleanSession globalOrderCounter) run :=
  hrun.allStates_iff_allSteps
    (fun _ _ _ h _ hregular hstep => h.transition hregular (transition_of_step version hstep))
    (fun _ _ _ h hkeeps hstep => keepsMessages_transition_iff h hkeeps (transition_of_step version hstep))
    (accounted_started s client cleanSession globalOrderCounter)
    (keepsMessages_started s client cleanSession globalOrderCounter)

end

instance (r : SessionRun) (event : Event) : Decidable (r.Regular event) := by
  unfold Regular
  split <;> infer_instance

/-- A message to exchange. -/
def hello : MQTTPublishPacketBuilder where
  mTopic := [0x61]
  mPayload := [0x68, 0x69]
  mRetained := .no
  mProperties := []

/-- A message of either kind and their acknowledgements, and one that waits for the
client to come back. -/
def exchange : List Event :=
  [.publish .qos1 hello, .pubAck 2, .publish .qos2 hello, .pubRec 3, .pubComp 3, .logout,
    .publish .qos1 hello, .login 1 .no, .pubAck 4]

theorem keepsMessages_exchange :
    (Runs.runOf (@step .standard fun _ => .v4) (started {} 0 .no 0) exchange).length = 9 ∧
      Runs.AllStates KeepsMessages
        (Runs.runOf (@step .standard fun _ => .v4) (started {} 0 .no 0) exchange) :=
  ⟨by decide +kernel, (@keepsMessages_iff_regular .standard _ _ _ _ _ _
    (Runs.isRun_runOf (@step .standard fun _ => .v4) _ exchange)).mpr (by decide +kernel)⟩

/-! ## The counter wraps -/

/-- The identifiers from 2 to `n + 1` are stored, the last of them last. -/
structure Issued (n : Nat) (s : PersistentClientState) : Prop where
  counter_eq : s.mPacketIdCounter.toNat = n + 1
  stored : ∀ id : UInt16, 2 ≤ id.toNat → id.toNat ≤ n + 1 → id ∈ s.mHighQoSSendingPackets

theorem toNat_nextPacketId {counter : UInt16} (h : counter.toNat < 65535) :
    (PersistentClientState.nextPacketId counter).toNat = counter.toNat + 1 := by
  have hsucc : (counter + 1).toNat = counter.toNat + 1 := by
    rw [UInt16.toNat_add]
    exact Nat.mod_eq_of_lt (Nat.succ_lt_succ h)
  have hne : counter + 1 ≠ 0 := by
    intro heq
    rw [heq] at hsucc
    cases hsucc
  rw [PersistentClientState.nextPacketId, if_neg hne, hsucc]

section

variable [Libnioev] {version : ConnectionId → MQTTVersion} {qos : QoS}
  {packetBuilder : MQTTPublishPacketBuilder} {r : SessionRun}

theorem Issued.handOver {n : Nat} (h : Issued n r.session) (hn : n + 1 < 65535) :
    Issued (n + 1) (r.handOver version qos packetBuilder).session := by
  have hnext : (PersistentClientState.nextPacketId r.session.mPacketIdCounter).toNat = n + 2 := by
    rw [toNat_nextPacketId (by rw [h.counter_eq]; exact hn), h.counter_eq]
  refine ⟨hnext, fun id hlow hhigh => SendingPackets.mem_emplace.mpr ?_⟩
  rcases Nat.lt_or_ge id.toNat (n + 2) with hlt | hge
  · exact .inr (h.stored id hlow (Nat.le_of_lt_succ hlt))
  · exact .inl (UInt16.toNat_inj.mp ((Nat.le_antisymm hhigh hge).trans hnext.symm))

/-- When all identifiers but 1 are stored, the next two are 1 and 2. -/
theorem Issued.misassigned (h : Issued 65534 r.session) :
    ((r.handOver version qos packetBuilder).handOver version qos packetBuilder).misassigned =
      true := by
  have hcounter : r.session.mPacketIdCounter = 65535 := UInt16.toNat_inj.mp h.counter_eq
  have hone : (r.handOver version qos packetBuilder).session.mPacketIdCounter = 1 := by
    show PersistentClientState.nextPacketId r.session.mPacketIdCounter = 1
    rw [hcounter]
    decide
  have hused : InUse (r.handOver version qos packetBuilder).session
      (PersistentClientState.nextPacketId
        (r.handOver version qos packetBuilder).session.mPacketIdCounter) := by
    rw [hone]
    exact .inl (SendingPackets.mem_emplace.mpr (.inr (h.stored 2 (by decide) (by decide))))
  show (_ || decide _) = true
  rw [decide_eq_true hused, Bool.or_true]

theorem Issued.exists_misassigned {n k : Nat} (h : Issued n r.session) (hsum : n + k = 65534)
    (hqos : qos ≠ .qos0) :
    ∃ x ∈ Runs.runOf (step version) r (List.replicate (k + 2) (.publish qos packetBuilder)),
      x.2.misassigned = true := by
  induction k generalizing n r with
  | zero =>
      subst hsum
      let r₁ := r.handOver version qos packetBuilder
      let r₂ := r₁.handOver version qos packetBuilder
      have hrun : Runs.runOf (step version) r (List.replicate 2 (.publish qos packetBuilder)) =
          [(.publish qos packetBuilder, r₁), (.publish qos packetBuilder, r₂)] := by
        simp only [List.replicate_succ, List.replicate_zero, Runs.runOf, step_publish version hqos]
        rfl
      refine ⟨(.publish qos packetBuilder, r₂), ?_, h.misassigned⟩
      rw [hrun]
      exact List.mem_cons_of_mem _ List.mem_cons_self
  | succ k ih =>
      obtain ⟨x, hx, hmisassigned⟩ := ih (h.handOver (by omega)) (by omega)
      refine ⟨x, ?_, hmisassigned⟩
      rw [List.replicate_succ, Runs.runOf, step_publish version hqos]
      exact List.mem_cons_of_mem _ hx

end

/-- With 65536 messages and no acknowledgement, the identifier 2 is assigned twice. -/
theorem not_keepsMessages_wrap :
    ∃ run, Runs.IsRun (Runs.StepOf (@step .standard fun _ => .v4)) (started {} 0 .no 0) run ∧
      ¬ Runs.AllStates KeepsMessages run := by
  refine ⟨_, Runs.isRun_runOf (@step .standard fun _ => .v4) _
    (List.replicate 65536 (.publish .qos1 hello)), fun hkeeps => ?_⟩
  have hissued : Issued 0 (started {} 0 .no 0).session :=
    ⟨rfl, fun id hlow hhigh => by omega⟩
  obtain ⟨x, hx, hmisassigned⟩ :=
    @Issued.exists_misassigned .standard (fun _ => .v4) .qos1 hello _ 0 65534 hissued rfl (by decide)
  have hassigned := (hkeeps x hx).assigned
  rw [hmisassigned] at hassigned
  cases hassigned

end SessionRun

end NioevMqtt
