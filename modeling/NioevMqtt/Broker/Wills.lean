-- SUMMARY: Wills: over every run, which connections have theirs published when they end, exactly as long as no login takes a session over from a connection with a will.
import NioevMqtt.Broker.PublishedWills

/-!
# Wills

Beside the broker stands a record of every connection: the will of its `CONNECT`,
whether it has logged in, whether it has sent a `DISCONNECT`, and the messages that
`publishInternal` is called with in the step that logs it out. A connection whose session
is taken over is detached before it is logged out.
-/

namespace NioevMqtt

/-! ## Records -/

structure WillRecord where
  /-- The will of the `CONNECT`. -/
  will : Option MQTTPacket := none
  loggedIn : Bool := false
  /-- A `DISCONNECT` has been handled before the connection was logged out. -/
  disconnected : Bool := false
  published : List MQTTPacket := []

namespace WillRecord

/-- The will of a connection that has logged in is published once it is logged out, if it
has not sent a `DISCONNECT`, and nothing else is. -/
def Published (record : WillRecord) (loggedOut : Bool) : Prop :=
  record.published =
    if record.loggedIn = true ∧ loggedOut = true ∧ record.disconnected = false then
      record.will.toList
    else []

/-- What a step shows of a connection: the session it gets, and what is published while it
is logged out. -/
def observe (record : WillRecord) (before after : RegisteredClient) (published : List MQTTPacket) :
    WillRecord :=
  { record with
    loggedIn := record.loggedIn || after.mPersistentClientState.isSome
    published := record.published ++
      if before.mLoggedOut = false ∧ after.mLoggedOut = true then published else [] }

/-- What the record says of a connection that is not logged out. -/
structure Agrees (record : WillRecord) (entry : RegisteredClient) : Prop where
  unpublished : entry.mLoggedOut = false → record.published = []
  will : entry.mLoggedOut = false →
    entry.mWill = if record.disconnected then none else record.will
  loggedIn_iff : entry.mLoggedOut = false →
    (record.loggedIn = true ↔ entry.mPersistentClientState ≠ none)

/-! ### What happens to a connection -/

variable {record : WillRecord} {entry entry' : RegisteredClient}

/-- A connection that is logged out is not asked about. -/
theorem agrees_of_loggedOut (h : entry.mLoggedOut = true) : record.Agrees entry :=
  have hnot : ¬ entry.mLoggedOut = false := fun hfalse => Bool.noConfusion (h.symm.trans hfalse)
  ⟨fun hout => absurd hout hnot, fun hout => absurd hout hnot, fun hout => absurd hout hnot⟩

/-- Nothing is published of a connection that is not logged out. -/
theorem Agrees.published (h : record.Agrees entry) (hout : entry.mLoggedOut = false) :
    record.Published entry.mLoggedOut := by
  rw [Published, h.unpublished hout, if_neg]
  exact fun hall => Bool.noConfusion (hout.symm.trans hall.2.1)

theorem published_of_not_loggedIn (hloggedIn : record.loggedIn = false)
    (hpublished : record.published = []) (loggedOut : Bool) : record.Published loggedOut := by
  rw [Published, hpublished, if_neg]
  exact fun hall => Bool.noConfusion (hloggedIn.symm.trans hall.1)

/-- Nothing is seen of a connection that keeps its session and is not logged out. -/
theorem observe_of_kept
    (hattached : entry'.mPersistentClientState = entry.mPersistentClientState)
    (hout : entry'.mLoggedOut = entry.mLoggedOut)
    (hloggedIn : entry.mPersistentClientState ≠ none → record.loggedIn = true)
    (published : List MQTTPacket) : record.observe entry entry' published = record := by
  have hsame : (record.loggedIn || entry'.mPersistentClientState.isSome) = record.loggedIn := by
    rw [hattached]
    cases hstate : entry.mPersistentClientState with
    | none => exact Bool.or_false _
    | some session =>
        rw [hloggedIn (by rw [hstate]; exact Option.some_ne_none session)]
        rfl
  have hnothing : ¬ (entry.mLoggedOut = false ∧ entry'.mLoggedOut = true) :=
    fun hboth => Bool.noConfusion ((hout.symm.trans hboth.2).symm.trans hboth.1)
  unfold observe
  rw [hsame, if_neg hnothing, List.append_nil]

theorem Agrees.connects (h : entry.mPersistentClientState = none) (will : Option MQTTPacket) :
    WillRecord.Agrees { will := will } { entry with mWill := will } where
  unpublished := fun _ => rfl
  will := fun _ => rfl
  loggedIn_iff := fun _ => iff_of_false Bool.false_ne_true fun hne => hne h

theorem Agrees.disconnects (h : record.Agrees entry) :
    WillRecord.Agrees { record with disconnected := true } { entry with mWill := none } where
  unpublished := h.unpublished
  will := fun _ => rfl
  loggedIn_iff := h.loggedIn_iff

/-- A connection that is given a session is seen to log in. -/
theorem Agrees.logsIn (h : record.Agrees entry) (hout : entry.mLoggedOut = false)
    (session : SessionId) (id : ByteString) (published : List MQTTPacket) :
    (record.observe entry { entry with
      mPersistentClientState := some session
      mProperClientId := some id } published).Agrees { entry with
        mPersistentClientState := some session
        mProperClientId := some id } where
  unpublished := by
    intro _
    have hnothing : ¬ (entry.mLoggedOut = false ∧ entry.mLoggedOut = true) :=
      fun hboth => Bool.noConfusion (hout.symm.trans hboth.2)
    simp only [observe, if_neg hnothing, h.unpublished hout, List.append_nil]
  will := h.will
  loggedIn_iff := fun _ => iff_of_true (Bool.or_true _) (Option.some_ne_none session)

/-- A connection that is attached when it is logged out has its will published. -/
theorem Agrees.logsOut (h : record.Agrees entry) (hout : entry.mLoggedOut = false) :
    (record.observe entry { entry with
      mPersistentClientState := none
      mLoggedOut := true }
      (if entry.mPersistentClientState = none then none else entry.mWill).toList).Published true := by
  simp only [Published, observe, hout, h.unpublished hout, h.will hout, Option.isSome_none,
    Bool.or_false, and_self, if_true, true_and, List.nil_append]
  by_cases hattached : entry.mPersistentClientState = none
  · have hnot : ¬ record.loggedIn = true := fun hin => (h.loggedIn_iff hout).mp hin hattached
    rw [if_pos hattached, if_neg fun hboth => hnot hboth.1]
    rfl
  · have hin := (h.loggedIn_iff hout).mpr hattached
    rw [if_neg hattached, hin]
    cases record.disconnected with
    | true => rfl
    | false => rfl

/-- One that is logged out and nothing published has not. -/
theorem Agrees.takenOver (h : record.Agrees entry) (hout : entry.mLoggedOut = false)
    (hattached : entry.mPersistentClientState ≠ none) (entry' : RegisteredClient) :
    (record.observe entry entry' []).Published true ↔ entry.mWill = none := by
  have hin := (h.loggedIn_iff hout).mpr hattached
  simp only [Published, observe, h.unpublished hout, h.will hout, hin, ite_self, List.append_nil,
    Bool.true_or, true_and]
  cases record.disconnected with
  | true => exact iff_of_true rfl rfl
  | false =>
      cases record.will with
      | none => exact iff_of_true rfl rfl
      | some willMsg =>
          exact iff_of_false (List.cons_ne_nil willMsg []).symm (Option.some_ne_none willMsg)

end WillRecord

/-- A broker, the records of its connections, and the messages that were published while no
connection was logged out. -/
structure Wills (τ : Type) where
  broker : ApplicationState τ
  record : ConnectionId → WillRecord := fun _ => {}
  strays : List MQTTPacket := []

namespace Wills

section

variable {τ : Type}

/-- The messages that `publishInternal` is called with between two states. -/
def newlyPublished (s t : ApplicationState τ) : List MQTTPacket :=
  t.publishedInternally.drop s.publishedInternally.length

/-- What a step tells of its connection: the `CONNECT`, and a `DISCONNECT`. -/
def told (s : ApplicationState τ) (record : ConnectionId → WillRecord) :
    ApplicationState.Action → ConnectionId → WillRecord
  | .newConnection _ _ => Function.update record s.nextConnection {}
  | .connect client packet => Function.update record client { will := packet.will }
  | .packet client .disconnect =>
    if (s.connections client).mLoggedOut then record
    else Function.update record client { record client with disconnected := true }
  | _ => record

/-- What a step does to the records. -/
def recordStep (s t : ApplicationState τ) (record : ConnectionId → WillRecord)
    (action : ApplicationState.Action) : ConnectionId → WillRecord := fun client =>
  (told s record action client).observe (s.connections client).registered
    (t.connections client).registered (newlyPublished s t)

/-- What a step publishes without logging a connection out. -/
def strayed (s t : ApplicationState τ) : List MQTTPacket :=
  if ∃ client < s.nextConnection, (s.connections client).mLoggedOut = false ∧
      (t.connections client).mLoggedOut = true then []
  else newlyPublished s t

variable [Libnioev] [SubscriptionTree τ]

def step (w : Wills τ) (action : ApplicationState.Action) : Option (Wills τ) :=
  (w.broker.stepOk action).map fun t =>
    { broker := t
      record := recordStep w.broker t w.record action
      strays := w.strays ++ strayed w.broker t }

def initial (retained : AList fun _ : ByteString => RetainedMessage) : Wills τ where
  broker := ApplicationState.initial retained

/-- Every will is published that should be, once, and nothing else. -/
structure PublishesWills (w : Wills τ) : Prop where
  published : ∀ client, (w.record client).Published (w.broker.connections client).mLoggedOut
  strays : w.strays = []

/-- A login that is executed finds no connection with a will. -/
def FindsNoWill (w : Wills τ) (action : ApplicationState.Action) : Prop :=
  ∀ login ∈ w.broker.executedLogin action, ∀ old ∈ w.broker.takenOver login,
    (w.broker.connections old).mWill = none

/-- The invariant of the records. -/
structure Recorded (w : Wills τ) : Prop where
  tabled : w.broker.Tabled
  agrees : ∀ client, (w.record client).Agrees (w.broker.registry.clients client)
  strays : w.strays = []

end

/-! ## Steps -/

section

variable {τ : Type}

/-- A connection and its record, before and after. -/
structure Goes (record record' : WillRecord) (entry entry' : RegisteredClient) : Prop where
  agrees : record'.Agrees entry'
  published : record.Published entry.mLoggedOut → record'.Published entry'.mLoggedOut

variable {s t : ApplicationState τ} {record : ConnectionId → WillRecord} {client : ConnectionId}
  {action : ApplicationState.Action}

/-- A connection that keeps its session and is not logged out, with what the step tells. -/
theorem goes_of_kept {rec' : WillRecord} {c : ConnectionId} (htold : told s record action c = rec')
    (hattached : t.registry.attached c = s.registry.attached c)
    (hout : (t.registry.clients c).mLoggedOut = (s.registry.clients c).mLoggedOut)
    (hloggedIn : s.registry.attached c ≠ none → rec'.loggedIn = true)
    (hgoes : Goes (record c) rec' (s.registry.clients c) (t.registry.clients c)) :
    Goes (record c) (recordStep s t record action c) (s.registry.clients c)
      (t.registry.clients c) := by
  have hsame : recordStep s t record action c = rec' := by
    rw [← WillRecord.observe_of_kept hattached hout hloggedIn (newlyPublished s t), ← htold]
    rfl
  rw [hsame]
  exact hgoes

/-- The records know who has logged in. -/
theorem loggedIn_of_attached (hr : s.registry.Registered)
    (h : ∀ c, (record c).Agrees (s.registry.clients c)) (c : ConnectionId)
    (hattached : s.registry.attached c ≠ none) : (record c).loggedIn = true := by
  obtain ⟨session, hsome⟩ := Option.ne_none_iff_exists'.mp hattached
  exact ((h c).loggedIn_iff (hr.live c session hsome).2).mpr hattached

/-- A connection that stays as it is. -/
theorem goes_same (hr : s.registry.Registered) (h : ∀ c, (record c).Agrees (s.registry.clients c))
    {c : ConnectionId} (hclients : t.registry.clients c = s.registry.clients c)
    (htold : told s record action c = record c) :
    Goes (record c) (recordStep s t record action c) (s.registry.clients c)
      (t.registry.clients c) := by
  refine goes_of_kept htold ?_ ?_ (loggedIn_of_attached hr h c) ?_
  · unfold Registry.attached
    rw [hclients]
  · rw [hclients]
  · rw [hclients]
    exact ⟨h c, id⟩

/-- A connection whose will changes, and its record. -/
theorem goes_setWill (hr : s.registry.Registered)
    (h : ∀ c, (record c).Agrees (s.registry.clients c)) {will : Option MQTTPacket}
    (hregistry : t.registry = s.registry.setWill client will) {rec' : WillRecord}
    (htold : told s record action = Function.update record client rec')
    (hloggedIn : s.registry.attached client ≠ none → rec'.loggedIn = true)
    (hgoes : Goes (record client) rec' (s.registry.clients client)
      { s.registry.clients client with mWill := will }) (c : ConnectionId) :
    Goes (record c) (recordStep s t record action c) (s.registry.clients c)
      (t.registry.clients c) := by
  have hclients : t.registry.clients = Function.update s.registry.clients client
      { s.registry.clients client with mWill := will } := by
    rw [hregistry]
    rfl
  by_cases hc : c = client
  · rw [hc]
    have hself := congrFun hclients client
    rw [Function.update_self] at hself
    refine goes_of_kept (by rw [htold, Function.update_self]) ?_ ?_ hloggedIn ?_
    · unfold Registry.attached
      rw [hself]
    · rw [hself]
    · rw [hself]
      exact hgoes
  · refine goes_same hr h ?_ ?_
    · rw [hclients, Function.update_of_ne hc]
    · rw [htold, Function.update_of_ne hc]

/-- A connection is logged out, and the will it may have is published. -/
theorem goes_logout (hr : s.registry.Registered)
    (h : ∀ c, (record c).Agrees (s.registry.clients c))
    (hregistry : t.registry = s.registry.logoutClient client)
    (htold : told s record action = record)
    (hpublished : newlyPublished s t = (s.logoutWill client).toList) (c : ConnectionId) :
    Goes (record c) (recordStep s t record action c) (s.registry.clients c)
      (t.registry.clients c) := by
  have hclients := Registry.clients_logoutClient s.registry client
  rw [← hregistry] at hclients
  by_cases hlogout : c = client ∧ (s.connections client).mLoggedOut = false
  · obtain ⟨rfl, hout⟩ := hlogout
    have hentry : (s.registry.clients c).mLoggedOut = false := hout
    rw [if_neg (Bool.eq_false_iff.mp hentry)] at hclients
    have hself := congrFun hclients c
    rw [Function.update_self] at hself
    have hwill : s.logoutWill c =
        if (s.registry.clients c).mPersistentClientState = none then none
        else (s.registry.clients c).mWill := by
      unfold ApplicationState.logoutWill
      rw [hout]
      simp only [Bool.false_eq_true, false_or]
      rfl
    have hrecord : recordStep s t record action c =
        (record c).observe (s.registry.clients c) (t.registry.clients c)
          (s.logoutWill c).toList := by
      unfold recordStep
      rw [htold, hpublished]
      rfl
    rw [hrecord, hself, hwill]
    exact ⟨WillRecord.agrees_of_loggedOut rfl, fun _ => (h c).logsOut hentry⟩
  · -- Nothing happens to others, or the logout returns at once.
    refine goes_same hr h ?_ (by rw [htold])
    rw [hclients]
    split
    · rfl
    · next hin =>
        refine Function.update_of_ne ?_ _ _
        rintro rfl
        exact hlogout ⟨rfl, Bool.eq_false_iff.mpr hin⟩

/-- A login that is executed takes over the connection the registry says. -/
theorem takenOver_eq {login : Login} (hout : (s.connections login.client).mLoggedOut = false) :
    s.registry.takenOver login.client login.clientId = s.takenOver login := by
  unfold Registry.takenOver
  rw [if_neg]
  · rfl
  · rw [show (s.registry.clients login.client).mLoggedOut = false from hout]
    exact Bool.false_ne_true

/-- A connection logs in, and takes the session of no other. -/
theorem goes_login (hr : s.registry.Registered)
    (h : ∀ c, (record c).Agrees (s.registry.clients c)) {login : Login}
    (hout : (s.connections login.client).mLoggedOut = false)
    (hregistry : t.registry =
      s.registry.loginClient login.client login.clientId login.cleanSession)
    (htold : told s record action = record) {c : ConnectionId}
    (hc : s.takenOver login ≠ some c) :
    Goes (record c) (recordStep s t record action c) (s.registry.clients c)
      (t.registry.clients c) := by
  rw [← takenOver_eq hout] at hc
  by_cases heq : c = login.client
  · rw [heq] at hc ⊢
    obtain ⟨session, id, hself⟩ := Registry.clients_loginClient_self hout hc login.cleanSession
    rw [← hregistry] at hself
    have hin := (h login.client).logsIn hout session id (newlyPublished s t)
    have hrecord : recordStep s t record action login.client =
        (record login.client).observe (s.registry.clients login.client)
          (t.registry.clients login.client) (newlyPublished s t) := by
      unfold recordStep
      rw [htold]
      rfl
    rw [hrecord, hself]
    exact ⟨hin, fun _ => hin.published hout⟩
  · refine goes_same hr h ?_ (by rw [htold])
    rw [hregistry]
    exact Registry.clients_loginClient_of_ne heq hc

/-- A `DISCONNECT` discards the will. -/
theorem goes_disconnect (hr : s.registry.Registered)
    (h : ∀ c, (record c).Agrees (s.registry.clients c))
    (hregistry : t.registry = s.registry.setWill client none) (c : ConnectionId) :
    Goes (record c) (recordStep s t record (.packet client .disconnect) c) (s.registry.clients c)
      (t.registry.clients c) := by
  cases hout : (s.connections client).mLoggedOut with
  | true =>
      have htold : told s record (.packet client .disconnect) =
          Function.update record client (record client) := by
        simp only [told, hout, if_true]
        exact (Function.update_eq_self client record).symm
      have hgone : (record client).Agrees { s.registry.clients client with mWill := none } :=
        WillRecord.agrees_of_loggedOut hout
      exact goes_setWill hr h hregistry htold (loggedIn_of_attached hr h client) ⟨hgone, id⟩ c
  | false =>
      have htold : told s record (.packet client .disconnect) =
          Function.update record client { record client with disconnected := true } := by
        simp only [told, hout, Bool.false_eq_true, if_false]
      have hgone := (h client).disconnects
      exact goes_setWill hr h hregistry htold (loggedIn_of_attached hr h client)
        ⟨hgone, fun _ => hgone.published hout⟩ c

/-- A connection that is new has not logged in. -/
theorem goes_newConnection (hr : s.registry.Registered)
    (h : ∀ c, (record c).Agrees (s.registry.clients c))
    (hregistry : t.registry = s.registry.newConnection)
    (htold : told s record action = Function.update record s.nextConnection {}) (c : ConnectionId) :
    Goes (record c) (recordStep s t record action c) (s.registry.clients c)
      (t.registry.clients c) := by
  have hclients : t.registry.clients =
      Function.update s.registry.clients s.nextConnection {} := by
    rw [hregistry]
    rfl
  by_cases hc : c = s.nextConnection
  · have hself : t.registry.clients c = {} := by
      rw [hclients, hc, Function.update_self]
    have hrecord : recordStep s t record action c = {} := by
      show (told s record action c).observe (s.registry.clients c) (t.registry.clients c) _ = _
      rw [htold, hself, hc, Function.update_self]
      simp only [WillRecord.observe, Bool.false_eq_true, and_false, if_false, List.append_nil,
        Option.isSome_none, Bool.or_false]
    rw [hrecord, hself]
    exact ⟨⟨fun _ => rfl, fun _ => rfl, fun _ => iff_of_false Bool.false_ne_true fun hne => hne rfl⟩,
      fun _ => WillRecord.published_of_not_loggedIn rfl rfl _⟩
  · refine goes_same hr h ?_ ?_
    · rw [hclients, Function.update_of_ne hc]
    · rw [htold, Function.update_of_ne hc]

variable [Libnioev] [SubscriptionTree τ]

/-- A step publishes what `publishInternal` is called with in it. -/
theorem newlyPublished_step (htabled : s.Tabled) (hstep : s.step action = some (.ok t)) :
    newlyPublished s t = (s.publishedWills action).map Prod.snd := by
  unfold newlyPublished
  rw [ApplicationState.publishedInternally_step htabled.linked htabled.registered hstep]
  exact List.drop_left

/-- A message is published in the step that logs its connection out. -/
theorem strayed_step (htabled : s.Tabled) (hstep : s.step action = some (.ok t)) :
    strayed s t = [] := by
  unfold strayed
  split
  · rfl
  · next hnobody =>
      rw [newlyPublished_step htabled hstep]
      rcases ApplicationState.publishedWills_cases htabled.linked htabled.registered hstep with
        hnone | ⟨client, hop, hwills⟩
      · rw [hnone]
        rfl
      · cases hwill : s.logoutWill client with
        | none =>
            rw [hwills, hwill]
            rfl
        | some willMsg =>
            -- The connection has a session, so that it exists and is logged out now.
            obtain ⟨hlive, -⟩ := Option.ite_none_left_eq_some.mp hwill
            obtain ⟨hin, hattached⟩ := not_or.mp hlive
            obtain ⟨session, hsome⟩ := Option.ne_none_iff_exists'.mp hattached
            obtain ⟨hregistry, -⟩ :=
              ApplicationState.registry_step htabled.linked htabled.registered hstep
            rw [hop] at hregistry
            have hout : (t.registry.clients client).mLoggedOut = true := by
              rw [hregistry]
              exact Registry.mLoggedOut_logoutClient _ _
            exact absurd ⟨client, (htabled.registered.live client session hsome).1,
              Bool.eq_false_iff.mpr hin, hout⟩ hnobody

theorem newlyPublished_logout (htabled : s.Tabled) (hstep : s.step action = some (.ok t))
    (hop : s.registryOp action = .logoutClient client) :
    newlyPublished s t = (s.logoutWill client).toList := by
  rw [newlyPublished_step htabled hstep, ApplicationState.snd_publishedWills_logout hop]

/-- What becomes of a connection that no login takes the session of. -/
theorem goes_step (htabled : s.Tabled) (h : ∀ c, (record c).Agrees (s.registry.clients c))
    (hstep : s.step action = some (.ok t)) {c : ConnectionId}
    (hc : ∀ login ∈ s.executedLogin action, s.takenOver login ≠ some c) :
    Goes (record c) (recordStep s t record action c) (s.registry.clients c)
      (t.registry.clients c) := by
  have hr := htabled.registered
  obtain ⟨hregistry, -⟩ := ApplicationState.registry_step htabled.linked hr hstep
  have hsame : s.registry.apply (s.registryOp action) = s.registry →
      told s record action = record → Goes (record c) (recordStep s t record action c)
        (s.registry.clients c) (t.registry.clients c) := by
    intro hkept htold
    exact goes_same hr h (by rw [hregistry, hkept]) (by rw [htold])
  cases action with
  | newConnection remote now => exact goes_newConnection hr h hregistry rfl c
  | connect client packet =>
      -- It has not logged in: the thread handles the packet in the initial state only.
      have hattached : (s.connections client).mPersistentClientState = none := by
        cases ApplicationState.steps_of_step hstep with
        | connect hclient hidle hstate =>
            refine htabled.linked.view.unattached ?_
            rw [show s.view.mState client = .initial from hstate]
            decide
      exact goes_setWill hr h hregistry rfl (fun hne => absurd hattached hne)
        ⟨WillRecord.Agrees.connects hattached packet.will,
          fun _ => WillRecord.published_of_not_loggedIn rfl rfl _⟩ c
  | packet client packet =>
      cases packet with
      | disconnect => exact goes_disconnect hr h hregistry c
      | publish packet id =>
          refine goes_same hr h ?_ rfl
          rw [hregistry]
          simp only [ApplicationState.registryOp, ApplicationState.packetOp]
          split
          · exact congrFun (Registry.clients_updateReceiving _ _ _) c
          · rfl
      | pubRel id =>
          refine goes_same hr h ?_ rfl
          rw [hregistry]
          exact congrFun (Registry.clients_updateReceiving _ _ _) c
      | _ => exact hsame rfl rfl
  | execute randomChars =>
      cases hlogin : s.executedLogin (.execute randomChars) with
      | some login =>
          obtain ⟨hop, hout⟩ := Receipts.registryOp_of_executedLogin hlogin
          rw [hop] at hregistry
          exact goes_login hr h hout hregistry rfl (hc login hlogin)
      | none =>
          by_cases hlogout : ∃ client, s.registryOp (.execute randomChars) = .logoutClient client
          · obtain ⟨client, hop⟩ := hlogout
            have hpublished := newlyPublished_logout htabled hstep hop
            rw [hop] at hregistry
            exact goes_logout hr h hregistry rfl hpublished c
          · exact hsame ((Receipts.apply_of_noLogin hlogin).resolve_right hlogout) rfl
  | logoutSendError client =>
      exact goes_logout hr h hregistry rfl (newlyPublished_logout htabled hstep rfl) c
  | timeout client now =>
      exact goes_logout hr h hregistry rfl (newlyPublished_logout htabled hstep rfl) c
  | cleanup => exact goes_same hr h (by rw [hregistry]; rfl) rfl
  | _ => exact hsame rfl rfl

/-- What becomes of the connection a login takes the session of: its will is lost. -/
theorem published_takenOver_iff (htabled : s.Tabled)
    (h : ∀ c, (record c).Agrees (s.registry.clients c)) (hstep : s.step action = some (.ok t))
    {login : Login} (hlogin : s.executedLogin action = some login) {old : ConnectionId}
    (hold : s.takenOver login = some old) :
    (t.registry.clients old).mLoggedOut = true ∧
      ((recordStep s t record action old).Published true ↔ (s.connections old).mWill = none) := by
  obtain ⟨hregistry, hpermits⟩ :=
    ApplicationState.registry_step htabled.linked htabled.registered hstep
  obtain ⟨hop, hout⟩ := Receipts.registryOp_of_executedLogin hlogin
  rw [hop] at hregistry hpermits
  have htaken := (takenOver_eq hout).trans hold
  refine ⟨?_, ?_⟩
  · rw [hregistry]
    exact Registry.mLoggedOut_loginClient_takenOver htaken
  · obtain ⟨session, -, hcurrent⟩ := Option.bind_eq_some_iff.mp hold
    have hattached := (htabled.registered.inverse old session).mpr hcurrent
    have hpublished : newlyPublished s t = [] := by
      rw [newlyPublished_step htabled hstep,
        ApplicationState.publishedWills_login htabled.registered hpermits.1 hlogin]
      rfl
    have htold : told s record action = record := by
      cases action with
      | execute randomChars => rfl
      | _ => cases hlogin
    unfold recordStep
    rw [htold, hpublished]
    have hne : (s.registry.clients old).mPersistentClientState ≠ none := by
      rw [show (s.registry.clients old).mPersistentClientState = some session from hattached]
      exact Option.some_ne_none session
    exact (h old).takenOver (htabled.registered.live old session hattached).2 hne _

end

/-! ## Runs -/

section

variable {τ : Type} [Libnioev] [SubscriptionTree τ] {w w' : Wills τ}
  {action : ApplicationState.Action}

theorem Recorded.step (h : w.Recorded) (hstep : w.step action = some w') : w'.Recorded := by
  obtain ⟨t, hok, rfl⟩ := Option.map_eq_some_iff.mp hstep
  have hok := ApplicationState.step_of_stepOk hok
  refine ⟨h.tabled.step hok, fun client => ?_, ?_⟩
  · by_cases htaken : ∃ login ∈ w.broker.executedLogin action, w.broker.takenOver login = some client
    · obtain ⟨login, hlogin, hold⟩ := htaken
      exact WillRecord.agrees_of_loggedOut
        (published_takenOver_iff h.tabled h.agrees hok hlogin hold).1
    · exact (goes_step h.tabled h.agrees hok
        fun login hlogin hold => htaken ⟨login, hlogin, hold⟩).agrees
  · show w.strays ++ strayed w.broker t = []
    rw [h.strays, strayed_step h.tabled hok]
    rfl

/-- A step keeps the wills exactly where its login finds none. -/
theorem publishesWills_step_iff (h : w.Recorded) (hpublishes : w.PublishesWills)
    (hstep : w.step action = some w') : w'.PublishesWills ↔ w.FindsNoWill action := by
  have hrecorded := h.step hstep
  obtain ⟨t, hok, rfl⟩ := Option.map_eq_some_iff.mp hstep
  have hok := ApplicationState.step_of_stepOk hok
  constructor
  · intro hpublishes' login hlogin old hold
    obtain ⟨hout, hiff⟩ := published_takenOver_iff h.tabled h.agrees hok hlogin hold
    have hold' := hpublishes'.published old
    rw [show (t.connections old).mLoggedOut = true from hout] at hold'
    exact hiff.mp hold'
  · intro hfinds
    refine ⟨fun client => ?_, hrecorded.strays⟩
    by_cases htaken : ∃ login ∈ w.broker.executedLogin action, w.broker.takenOver login = some client
    · obtain ⟨login, hlogin, hold⟩ := htaken
      obtain ⟨hout, hiff⟩ := published_takenOver_iff h.tabled h.agrees hok hlogin hold
      show WillRecord.Published _ (t.connections client).mLoggedOut
      rw [show (t.connections client).mLoggedOut = true from hout]
      exact hiff.mpr (hfinds login hlogin client hold)
    · exact (goes_step h.tabled h.agrees hok
        fun login hlogin hold => htaken ⟨login, hlogin, hold⟩).published (hpublishes.published client)

omit [Libnioev] in
theorem recorded_initial (retained : AList fun _ : ByteString => RetainedMessage) :
    (initial retained : Wills τ).Recorded where
  tabled := ApplicationState.tabled_initial retained
  agrees := fun _ =>
    ⟨fun _ => rfl, fun _ => rfl, fun _ => iff_of_false Bool.false_ne_true fun hne => hne rfl⟩
  strays := rfl

/-- Over every run: every will is published that should be, exactly if no login that is
executed takes a session over from a connection with a will. -/
theorem publishesWills_iff_findsNoWill
    {retained : AList fun _ : ByteString => RetainedMessage}
    {run : List (ApplicationState.Action × Wills τ)}
    (hrun : Runs.IsRun (Runs.StepOf step) (initial retained) run) :
    Runs.AllStates PublishesWills run ↔ Runs.AllSteps FindsNoWill (initial retained) run :=
  hrun.allStates_iff_allSteps
    (fun _ _ _ h _ _ hstep => h.step hstep)
    (fun _ _ _ h hpublishes hstep => publishesWills_step_iff h hpublishes hstep)
    (recorded_initial retained)
    ⟨fun _ => WillRecord.published_of_not_loggedIn rfl rfl _, rfl⟩

instance (record : WillRecord) (loggedOut : Bool) : Decidable (record.Published loggedOut) :=
  inferInstanceAs (Decidable (record.published = _))

instance (w : Wills τ) (action : ApplicationState.Action) : Decidable (w.FindsNoWill action) :=
  inferInstanceAs (Decidable (∀ login ∈ w.broker.executedLogin action,
    ∀ old ∈ w.broker.takenOver login, (w.broker.connections old).mWill = none))

end

/-! ## A will that is lost -/

/-- A client logs in with a will. -/
def loginWithWill : List ApplicationState.Action :=
  [.newConnection [] 0,
    .connect 0 ⟨.v4, 60, [0x61], .no, some ⟨[0x74], [0x68, 0x69], .qos0, .no, []⟩,
      ApplicationState.Action.kept_of_id⟩,
    .proceed (.receiver 0) false, .execute []]

/-- It times out. -/
theorem publishesWills_timeout :
    (Runs.runOf (@step SubscriptionList .standard _) (initial ∅)
        (loginWithWill ++ [.timeout 0 120000000000, .cleanup])).length = 6 ∧
      Runs.AllStates PublishesWills (Runs.runOf (@step SubscriptionList .standard _) (initial ∅)
        (loginWithWill ++ [.timeout 0 120000000000, .cleanup])) :=
  ⟨by decide +kernel, (@publishesWills_iff_findsNoWill SubscriptionList .standard _ ∅ _
    (Runs.isRun_runOf (@step SubscriptionList .standard _) _ _)).mpr (by decide +kernel)⟩

/-- Another connection logs in with its client id. -/
theorem not_publishesWills_takeover :
    ∃ run, Runs.IsRun (Runs.StepOf (@step SubscriptionList .standard _)) (initial ∅) run ∧
      ¬ Runs.AllStates PublishesWills run := by
  refine ⟨_, Runs.isRun_runOf (@step SubscriptionList .standard _) _
    (loginWithWill ++
      ApplicationState.Action.requestLogin 1 [0x61] .no ApplicationState.Action.kept_of_id ++
        [.execute []]),
    fun h => ?_⟩
  have hfirst : Runs.AllStates (fun w : Wills SubscriptionList =>
      (w.record 0).Published (w.broker.connections 0).mLoggedOut) _ := fun x hx => (h x hx).published 0
  revert hfirst
  decide +kernel

end Wills

end NioevMqtt
