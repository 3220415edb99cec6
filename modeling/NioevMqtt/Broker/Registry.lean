-- SUMMARY: Who is logged in, as which client and with which session: the broker's logins and logouts without its messages, and what holds of them between operations.
import NioevMqtt.Broker.Attachment

/-!
# The registry

What logins and logouts read and change: of a connection its session, its client id,
its will and whether it is logged out; of a session its connection, its client id,
whether it is clean and which `PUBLISH` packets it has received at QoS 2. The
operations are those of the broker, less everything that is sent.
-/

namespace NioevMqtt

structure RegisteredClient where
  mPersistentClientState : Option SessionId := none
  mProperClientId : Option ByteString := none
  mWill : Option MQTTPacket := none
  mLoggedOut : Bool := false

structure RegisteredSession where
  mClientID : ByteString := []
  mCleanSession : CleanSession := .yes
  mCurrentClient : Option ConnectionId := none
  mQoS2receivingPacketIds : Finset UInt16 := ∅

structure Registry where
  clients : ConnectionId → RegisteredClient
  sessions : SessionId → RegisteredSession
  mClients : List ConnectionId
  nextConnection : ConnectionId
  nextSession : SessionId
  mPersistentClientStates : AList (fun _ : ByteString => SessionId)

namespace Registry

/-! ## Operations -/

def setClient (r : Registry) (client : ConnectionId) (entry : RegisteredClient) : Registry :=
  { r with clients := Function.update r.clients client entry }

def setSession (r : Registry) (session : SessionId) (entry : RegisteredSession) : Registry :=
  { r with sessions := Function.update r.sessions session entry }

def newConnection (r : Registry) : Registry :=
  { r with
    nextConnection := r.nextConnection + 1
    mClients := r.mClients ++ [r.nextConnection]
    clients := Function.update r.clients r.nextConnection {} }

def setWill (r : Registry) (client : ConnectionId) (will : Option MQTTPacket) : Registry :=
  r.setClient client { r.clients client with mWill := will }

/-- A packet identifier of a connection is marked as received, or forgotten. -/
def updateReceiving (r : Registry) (client : ConnectionId)
    (f : Finset UInt16 → Finset UInt16) : Registry :=
  match (r.clients client).mPersistentClientState with
  | none => r
  | some session => r.setSession session { r.sessions session with
      mQoS2receivingPacketIds := f (r.sessions session).mQoS2receivingPacketIds }

def setPersistentClientState (r : Registry) (client : ConnectionId) (state : Option SessionId) :
    Registry :=
  r.setClient client { r.clients client with mPersistentClientState := state }

/-- A connection and a session point at each other. -/
def link (r : Registry) (session : SessionId) (newConnection : ConnectionId)
    (cleanSession : CleanSession) (replaceStyle : ReplaceStyle) : Registry :=
  (r.setSession session { r.sessions session with
    mCurrentClient := some newConnection
    mCleanSession := cleanSession
    mQoS2receivingPacketIds :=
      match replaceStyle with
      | .simpleReplace => (r.sessions session).mQoS2receivingPacketIds
      | .cleanSession => ∅ }).setClient newConnection { r.clients newConnection with
    mPersistentClientState := some session
    mProperClientId := some (r.sessions session).mClientID }

def replaceCurrentClient (r : Registry) (session : SessionId) (newConnection : ConnectionId)
    (cleanSession : CleanSession) (replaceStyle : ReplaceStyle) : Registry :=
  match (r.sessions session).mCurrentClient with
  | some client =>
    (r.setPersistentClientState client none).link session newConnection cleanSession replaceStyle
  | none => r.link session newConnection cleanSession replaceStyle

def detach (r : Registry) (client : ConnectionId) (session : SessionId) : Registry :=
  (r.setPersistentClientState client none).setSession session
    { r.sessions session with mCurrentClient := none }

def deleteCleanSession (r : Registry) (session : SessionId) : Registry :=
  if (r.sessions session).mCleanSession = .yes then
    match r.mPersistentClientStates.entries.find? (·.2 = session) with
    | none => r
    | some actualState =>
      { r with mPersistentClientStates := r.mPersistentClientStates.erase actualState.1 }
  else r

def markLoggedOut (r : Registry) (client : ConnectionId) : Registry :=
  r.setClient client { r.clients client with mLoggedOut := true }

def logoutClient (r : Registry) (client : ConnectionId) : Registry :=
  if (r.clients client).mLoggedOut then r
  else
    match (r.clients client).mPersistentClientState with
    | none => r.markLoggedOut client
    | some session => ((r.markLoggedOut client).detach client session).deleteCleanSession session

def logoutExisting (r : Registry) : Option ConnectionId → Registry
  | none => r
  | some existingClient => r.logoutClient existingClient

/-- How a login that finds a session replaces its connection. -/
def replaceStyle (r : Registry) (session : SessionId) (cleanSession : CleanSession) :
    ReplaceStyle :=
  if cleanSession = .yes ∨ (r.sessions session).mCleanSession = .yes then .cleanSession
  else .simpleReplace

def openSession (r : Registry) (clientId : ByteString) : Registry :=
  { r with
    nextSession := r.nextSession + 1
    mPersistentClientStates := r.mPersistentClientStates.insert clientId r.nextSession
    sessions := Function.update r.sessions r.nextSession { mClientID := clientId } }

def loginClient (r : Registry) (client : ConnectionId) (clientId : ByteString)
    (cleanSession : CleanSession) : Registry :=
  if (r.clients client).mLoggedOut then r
  else
    match r.mPersistentClientStates.lookup clientId with
    | none =>
      (r.openSession clientId).replaceCurrentClient r.nextSession client cleanSession .cleanSession
    | some session =>
      (r.replaceCurrentClient session client cleanSession
        (r.replaceStyle session cleanSession)).logoutExisting (r.sessions session).mCurrentClient

def setClients (r : Registry) (clients : List ConnectionId) : Registry :=
  { r with mClients := clients }

inductive Op where
  | nothing
  | newConnection
  | setWill (client : ConnectionId) (will : Option MQTTPacket)
  | receiveQoS2 (client : ConnectionId) (id : UInt16)
  | pubRel (client : ConnectionId) (id : UInt16)
  | loginClient (client : ConnectionId) (clientId : ByteString) (cleanSession : CleanSession)
  | logoutClient (client : ConnectionId)
  | setClients (clients : List ConnectionId)

def apply (r : Registry) : Op → Registry
  | .nothing => r
  | .newConnection => r.newConnection
  | .setWill client will => r.setWill client will
  | .receiveQoS2 client id => r.updateReceiving client (insert id)
  | .pubRel client id => r.updateReceiving client (·.erase id)
  | .loginClient client clientId cleanSession => r.loginClient client clientId cleanSession
  | .logoutClient client => r.logoutClient client
  | .setClients clients => r.setClients clients

/-! ## What holds between operations -/

def attached (r : Registry) (client : ConnectionId) : Option SessionId :=
  (r.clients client).mPersistentClientState

def currentClient (r : Registry) (session : SessionId) : Option ConnectionId :=
  (r.sessions session).mCurrentClient

/-- The session is kept under the client id. -/
def Keeps (r : Registry) (clientId : ByteString) (session : SessionId) : Prop :=
  r.mPersistentClientStates.lookup clientId = some session

/-- Connections and sessions point at each other; those that do are kept. -/
structure Linked (r : Registry) : Prop where
  inverse : Links.Inverse r.attached r.currentClient
  stored : ∀ session client, r.currentClient session = some client → ∃ id, r.Keeps id session
  live : ∀ client session, r.attached client = some session →
    client < r.nextConnection ∧ (r.clients client).mLoggedOut = false
  kept : ∀ client < r.nextConnection, (r.clients client).mLoggedOut = false → client ∈ r.mClients
  named : ∀ id session, r.Keeps id session → (r.sessions session).mClientID = id
  given : ∀ client session, r.attached client = some session →
    (r.clients client).mProperClientId = some (r.sessions session).mClientID
  found : ∀ id session, r.Keeps id session → session < r.nextSession

/-- Besides, a clean session has a connection. -/
structure Registered (r : Registry) : Prop extends Linked r where
  clean : ∀ id session, r.Keeps id session → (r.sessions session).mCleanSession = .yes →
    r.currentClient session ≠ none

variable {r : Registry} {client : ConnectionId} {session : SessionId}

/-- The session of a connection is kept, under its client id. -/
theorem Linked.keeps_of_attached (h : r.Linked) (hattached : r.attached client = some session) :
    r.Keeps (r.sessions session).mClientID session := by
  obtain ⟨id, hid⟩ := h.stored session client ((h.inverse client session).mp hattached)
  rwa [h.named id session hid]

theorem attached_setClient (r : Registry) (client : ConnectionId) (entry : RegisteredClient) :
    (r.setClient client entry).attached =
      Function.update r.attached client entry.mPersistentClientState :=
  funext fun c => Function.apply_update (fun _ => RegisteredClient.mPersistentClientState) _ _ _ c

theorem currentClient_setSession (r : Registry) (session : SessionId) (entry : RegisteredSession) :
    (r.setSession session entry).currentClient =
      Function.update r.currentClient session entry.mCurrentClient :=
  funext fun id => Function.apply_update (fun _ => RegisteredSession.mCurrentClient) _ _ _ id

/-- The update of a connection that leaves its session. -/
theorem attached_setClient_of {entry : RegisteredClient}
    (h : entry.mPersistentClientState = r.attached client) :
    (r.setClient client entry).attached = r.attached := by
  rw [attached_setClient, h]
  exact Function.update_eq_self _ _

theorem currentClient_setSession_of {entry : RegisteredSession}
    (h : entry.mCurrentClient = r.currentClient session) :
    (r.setSession session entry).currentClient = r.currentClient := by
  rw [currentClient_setSession, h]
  exact Function.update_eq_self _ _

@[simp] theorem clients_setClient_self (r : Registry) (client : ConnectionId)
    (entry : RegisteredClient) : (r.setClient client entry).clients client = entry :=
  Function.update_self _ _ _

theorem clients_setClient_ne {entry : RegisteredClient} {c : ConnectionId} (hc : c ≠ client) :
    (r.setClient client entry).clients c = r.clients c := Function.update_of_ne hc _ _

/-- Something about a connection that its update has left alone. -/
theorem clients_setClient_of {α : Type} (f : RegisteredClient → α) {entry : RegisteredClient}
    (h : f entry = f (r.clients client)) (c : ConnectionId) :
    f ((r.setClient client entry).clients c) = f (r.clients c) := by
  by_cases hc : c = client
  · rw [hc]
    exact (congrArg f (Function.update_self _ _ _)).trans h
  · exact congrArg f (Function.update_of_ne hc _ _)

theorem sessions_setSession_of {α : Type} (f : RegisteredSession → α) {entry : RegisteredSession}
    (h : f entry = f (r.sessions session)) (id : SessionId) :
    f ((r.setSession session entry).sessions id) = f (r.sessions id) := by
  by_cases hid : id = session
  · rw [hid]
    exact (congrArg f (Function.update_self _ _ _)).trans h
  · exact congrArg f (Function.update_of_ne hid _ _)

/-! ## Updates that concern no link -/

theorem Registered.newConnection (h : r.Registered) : r.newConnection.Registered := by
  have hfree : r.attached r.nextConnection = none := by
    cases hattached : r.attached r.nextConnection with
    | none => rfl
    | some session => exact absurd (h.live _ _ hattached).1 (Nat.lt_irrefl _)
  have hattached : r.newConnection.attached = r.attached := attached_setClient_of hfree.symm
  have hold : ∀ c, c ≠ r.nextConnection → r.newConnection.clients c = r.clients c :=
    fun c hc => Function.update_of_ne hc _ _
  have hne : ∀ c id, r.attached c = some id → c ≠ r.nextConnection :=
    fun c id hc heq => absurd (heq ▸ (h.live c id hc).1) (Nat.lt_irrefl _)
  refine ⟨⟨hattached.symm ▸ h.inverse, h.stored, ?_, ?_, h.named, ?_, h.found⟩, h.clean⟩
  · intro c id hc
    rw [hattached] at hc
    rw [hold c (hne c id hc)]
    exact ⟨Nat.lt_succ_of_lt (h.live c id hc).1, (h.live c id hc).2⟩
  · intro c hlt hout
    refine List.mem_append.mpr ?_
    rcases Nat.lt_succ_iff_lt_or_eq.mp hlt with hlt | rfl
    · rw [hold c (Nat.ne_of_lt hlt)] at hout
      exact .inl (h.kept c hlt hout)
    · exact .inr List.mem_cons_self
  · intro c id hc
    rw [hattached] at hc
    rw [hold c (hne c id hc)]
    exact h.given c id hc

/-- The update of a connection that leaves its session and its client id, and logs it out
only if it has no session. -/
theorem Registered.setClient (h : r.Registered) {entry : RegisteredClient}
    (hstate : entry.mPersistentClientState = r.attached client)
    (hid : entry.mProperClientId = (r.clients client).mProperClientId)
    (hout : entry.mLoggedOut = (r.clients client).mLoggedOut ∨
      entry.mLoggedOut = true ∧ r.attached client = none) :
    (r.setClient client entry).Registered := by
  have hattached : (r.setClient client entry).attached = r.attached := attached_setClient_of hstate
  have hids : ∀ c, ((r.setClient client entry).clients c).mProperClientId =
      (r.clients c).mProperClientId :=
    clients_setClient_of RegisteredClient.mProperClientId hid
  have houts : ∀ c, ((r.setClient client entry).clients c).mLoggedOut = (r.clients c).mLoggedOut ∨
      ((r.setClient client entry).clients c).mLoggedOut = true ∧ r.attached c = none := by
    intro c
    by_cases heq : c = client
    · rw [heq, clients_setClient_self]
      exact hout
    · exact .inl (congrArg RegisteredClient.mLoggedOut (clients_setClient_ne heq))
  refine ⟨⟨hattached.symm ▸ h.inverse, h.stored, ?_, ?_, h.named, ?_, h.found⟩, h.clean⟩
  · intro c id hc
    rw [hattached] at hc
    refine ⟨(h.live c id hc).1, ?_⟩
    rcases houts c with hsame | ⟨-, hnone⟩
    · exact hsame.trans (h.live c id hc).2
    · exact absurd (hnone.symm.trans hc) (Option.some_ne_none id).symm
  · intro c hlt hfalse
    rcases houts c with hsame | ⟨htrue, -⟩
    · exact h.kept c hlt (hsame.symm.trans hfalse)
    · exact absurd (htrue.symm.trans hfalse) Bool.noConfusion
  · intro c id hc
    rw [hattached] at hc
    exact (hids c).trans (h.given c id hc)

theorem Registered.setWill (h : r.Registered) (client : ConnectionId) (will : Option MQTTPacket) :
    (r.setWill client will).Registered :=
  h.setClient rfl rfl (.inl rfl)

theorem Registered.setClients (h : r.Registered) {clients : List ConnectionId}
    (hkept : ∀ c ∈ r.mClients, (r.clients c).mLoggedOut = false → c ∈ clients) :
    (r.setClients clients).Registered :=
  ⟨⟨h.inverse, h.stored, h.live, fun c hlt hc => hkept c (h.kept c hlt hc) hc, h.named, h.given,
    h.found⟩, h.clean⟩

theorem Registered.updateReceiving (h : r.Registered) (client : ConnectionId)
    (f : Finset UInt16 → Finset UInt16) : (r.updateReceiving client f).Registered := by
  unfold Registry.updateReceiving
  split
  · exact h
  · next session _ =>
      let entry := { r.sessions session with
        mQoS2receivingPacketIds := f (r.sessions session).mQoS2receivingPacketIds }
      have hcurrent : (r.setSession session entry).currentClient = r.currentClient :=
        currentClient_setSession_of rfl
      have hid : ∀ id, ((r.setSession session entry).sessions id).mClientID =
          (r.sessions id).mClientID :=
        sessions_setSession_of RegisteredSession.mClientID rfl
      have hclean : ∀ id, ((r.setSession session entry).sessions id).mCleanSession =
          (r.sessions id).mCleanSession :=
        sessions_setSession_of RegisteredSession.mCleanSession rfl
      refine ⟨⟨hcurrent.symm ▸ h.inverse, hcurrent.symm ▸ h.stored, h.live, h.kept, ?_, ?_, h.found⟩, ?_⟩
      · exact fun id s hs => (hid s).trans (h.named id s hs)
      · exact fun c s hs => (h.given c s hs).trans (congrArg some (hid s).symm)
      · intro id s hs hyes
        rw [hcurrent]
        exact h.clean id s hs ((hclean s).symm.trans hyes)

/-! ## Logout -/

/-- A connection that is not attached is marked. -/
theorem Registered.markLoggedOut (h : r.Registered) (hclient : r.attached client = none) :
    (r.markLoggedOut client).Registered :=
  h.setClient rfl rfl (.inr ⟨rfl, hclient⟩)

theorem attached_logout (r : Registry) (client : ConnectionId) (session : SessionId) :
    ((r.markLoggedOut client).detach client session).attached =
      Function.update r.attached client none := by
  refine (attached_setClient _ _ _).trans ?_
  rw [show (r.markLoggedOut client).attached = r.attached from attached_setClient_of rfl]

/-- A connection that is attached is marked and detached, and its session may be a clean
one without a connection. -/
theorem Linked.logout (h : r.Linked) (hattached : r.attached client = some session) :
    ((r.markLoggedOut client).detach client session).Linked ∧
      ((r.markLoggedOut client).detach client session).currentClient =
        Function.update r.currentClient session none := by
  have hcurrent : ((r.markLoggedOut client).detach client session).currentClient =
      Function.update r.currentClient session none := currentClient_setSession _ _ _
  have hclients : ∀ c, c ≠ client →
      ((r.markLoggedOut client).detach client session).clients c = r.clients c :=
    fun c hc => (Function.update_of_ne hc _ _).trans (Function.update_of_ne hc _ _)
  have hid : ∀ id, (((r.markLoggedOut client).detach client session).sessions id).mClientID =
      (r.sessions id).mClientID :=
    sessions_setSession_of RegisteredSession.mClientID rfl
  have hother : ∀ c id, ((r.markLoggedOut client).detach client session).attached c = some id →
      c ≠ client ∧ r.attached c = some id := by
    intro c id hc
    rw [attached_logout] at hc
    by_cases heq : c = client
    · rw [heq, Function.update_self] at hc
      cases hc
    · rw [Function.update_of_ne heq] at hc
      exact ⟨heq, hc⟩
  refine ⟨⟨?_, ?_, ?_, ?_, ?_, ?_, h.found⟩, hcurrent⟩
  · rw [attached_logout, hcurrent]
    exact h.inverse.cut hattached
  · intro id c hc
    rw [hcurrent] at hc
    by_cases heq : id = session
    · rw [heq, Function.update_self] at hc
      cases hc
    · rw [Function.update_of_ne heq] at hc
      exact h.stored id c hc
  · intro c id hc
    obtain ⟨hne, hold⟩ := hother c id hc
    rw [hclients c hne]
    exact h.live c id hold
  · intro c hlt hout
    have hne : c ≠ client := by
      rintro rfl
      have hmarked : (((r.markLoggedOut c).detach c session).clients c).mLoggedOut = true := by
        simp [detach, setSession, setPersistentClientState, setClient, Registry.markLoggedOut]
      rw [hmarked] at hout
      cases hout
    rw [hclients c hne] at hout
    exact h.kept c hlt hout
  · exact fun id s hs => (hid s).trans (h.named id s hs)
  · intro c id hc
    obtain ⟨hne, hold⟩ := hother c id hc
    rw [hclients c hne, hid]
    exact h.given c id hold

theorem keeps_erase {clientId id : ByteString} {s : SessionId} :
    { r with mPersistentClientStates := r.mPersistentClientStates.erase clientId }.Keeps id s ↔
      id ≠ clientId ∧ r.Keeps id s := by
  by_cases heq : id = clientId
  · have hnone : (r.mPersistentClientStates.erase clientId).lookup id = none := by
      rw [heq]
      exact AList.lookup_erase _ _
    refine ⟨fun hs => ?_, fun hs => absurd heq hs.1⟩
    exact absurd (hnone.symm.trans hs) (Option.some_ne_none s).symm
  · have hsame : (r.mPersistentClientStates.erase clientId).lookup id =
        r.mPersistentClientStates.lookup id := AList.lookup_erase_ne heq
    exact ⟨fun hs => ⟨heq, hsame.symm.trans hs⟩, fun hs => hsame.trans hs.2⟩

/-- A clean session without a connection is deleted. -/
theorem Linked.deleteCleanSession (h : r.Linked) (hcurrent : r.currentClient session = none)
    (hclean : ∀ id s, s ≠ session → r.Keeps id s → (r.sessions s).mCleanSession = .yes →
      r.currentClient s ≠ none) : (r.deleteCleanSession session).Registered := by
  unfold Registry.deleteCleanSession
  split
  · split
    · next hfind =>
        refine ⟨h, fun id s hs => hclean id s ?_ hs⟩
        rintro rfl
        have hnot := List.find?_eq_none.mp hfind ⟨id, s⟩ (AList.mem_lookup_iff.mp hs)
        exact hnot (decide_eq_true rfl)
    · next e hfind =>
        have hsession : e.2 = session := by simpa using List.find?_some hfind
        have hkeeps : r.Keeps e.1 session := by
          rw [← hsession]
          exact AList.mem_lookup_iff.mpr (List.mem_of_find?_eq_some hfind)
        refine ⟨⟨h.inverse, ?_, h.live, h.kept, ?_, h.given, ?_⟩, ?_⟩
        · intro s c hc
          obtain ⟨id, hid⟩ := h.stored s c hc
          refine ⟨id, keeps_erase.mpr ⟨?_, hid⟩⟩
          -- the session that is erased has no connection
          rintro rfl
          have heq : some s = some session := hid.symm.trans hkeeps
          cases heq
          exact absurd (hcurrent.symm.trans hc) (Option.some_ne_none c).symm
        · exact fun id s hs => h.named id s (keeps_erase.mp hs).2
        · exact fun id s hs => h.found id s (keeps_erase.mp hs).2
        · intro id s hs
          obtain ⟨hne, hs⟩ := keeps_erase.mp hs
          refine hclean id s ?_ hs
          rintro rfl
          exact hne ((h.named id s hs).symm.trans (h.named e.1 s hkeeps))
  · next hno =>
      refine ⟨h, fun id s hs hyes => hclean id s ?_ hs hyes⟩
      rintro rfl
      exact hno hyes

theorem Registered.logoutClient (h : r.Registered) (client : ConnectionId) :
    (r.logoutClient client).Registered := by
  unfold Registry.logoutClient
  split
  · exact h
  · split
    · next hnone => exact h.markLoggedOut hnone
    · next session hattached =>
        obtain ⟨hlinked, hcurrent⟩ := h.toLinked.logout hattached
        refine hlinked.deleteCleanSession ?_ fun id s hs hkeeps hyes => ?_
        · rw [hcurrent, Function.update_self]
        · rw [hcurrent, Function.update_of_ne hs]
          refine h.clean id s hkeeps ?_
          exact (congrArg RegisteredSession.mCleanSession (Function.update_of_ne hs _ _)).symm.trans hyes

/-! ## Login -/

section

variable {cleanSession : CleanSession} {style : ReplaceStyle}

theorem attached_replaceCurrentClient :
    (r.replaceCurrentClient session client cleanSession style).attached =
      Function.update (Links.unlink r.attached (r.currentClient session)) client (some session) := by
  unfold replaceCurrentClient
  cases hcurrent : (r.sessions session).mCurrentClient with
  | none =>
      rw [show r.currentClient session = none from hcurrent]
      exact attached_setClient _ _ _
  | some old =>
      rw [show r.currentClient session = some old from hcurrent]
      refine (attached_setClient _ _ _).trans ?_
      exact congrArg (fun f : ConnectionId → Option SessionId =>
        Function.update f client (some session)) (attached_setClient _ _ _)

theorem currentClient_replaceCurrentClient :
    (r.replaceCurrentClient session client cleanSession style).currentClient =
      Function.update r.currentClient session (some client) := by
  unfold replaceCurrentClient
  cases hcurrent : (r.sessions session).mCurrentClient with
  | none => exact currentClient_setSession r session _
  | some old => exact currentClient_setSession (r.setPersistentClientState old none) session _

/-- What a connection keeps that is not the one that logs in. -/
theorem clients_replaceCurrentClient {α : Type} (f : RegisteredClient → α)
    (hf : ∀ entry state, f { entry with mPersistentClientState := state } = f entry)
    {c : ConnectionId} (hc : c ≠ client) :
    f ((r.replaceCurrentClient session client cleanSession style).clients c) = f (r.clients c) := by
  unfold replaceCurrentClient
  cases hcurrent : (r.sessions session).mCurrentClient with
  | none => exact congrArg f (Function.update_of_ne hc _ _)
  | some old =>
      refine (congrArg f (Function.update_of_ne hc _ _)).trans ?_
      exact clients_setClient_of f (hf _ none) c

theorem clients_replaceCurrentClient_self :
    (r.replaceCurrentClient session client cleanSession style).clients client =
      { r.clients client with
        mPersistentClientState := some session
        mProperClientId := some (r.sessions session).mClientID } := by
  unfold replaceCurrentClient
  cases hcurrent : (r.sessions session).mCurrentClient with
  | none => exact Function.update_self _ _ _
  | some old =>
      refine (Function.update_self _ _ _).trans ?_
      simp only [setPersistentClientState, setClient]
      by_cases hold : client = old
      · rw [hold, Function.update_self]
      · rw [Function.update_of_ne hold]

theorem sessions_replaceCurrentClient :
    (r.replaceCurrentClient session client cleanSession style).sessions =
      Function.update r.sessions session { r.sessions session with
        mCurrentClient := some client
        mCleanSession := cleanSession
        mQoS2receivingPacketIds :=
          match style with
          | .simpleReplace => (r.sessions session).mQoS2receivingPacketIds
          | .cleanSession => ∅ } := by
  unfold replaceCurrentClient
  cases hcurrent : (r.sessions session).mCurrentClient with
  | none => rfl
  | some old => rfl

variable (r client session cleanSession style) in
/-- What replacing a connection leaves alone. -/
theorem frame_replaceCurrentClient :
    (r.replaceCurrentClient session client cleanSession style).mClients = r.mClients ∧
      (r.replaceCurrentClient session client cleanSession style).nextConnection =
        r.nextConnection ∧
      (r.replaceCurrentClient session client cleanSession style).nextSession = r.nextSession ∧
      (r.replaceCurrentClient session client cleanSession style).mPersistentClientStates =
        r.mPersistentClientStates := by
  unfold replaceCurrentClient
  cases hcurrent : (r.sessions session).mCurrentClient with
  | none => exact ⟨rfl, rfl, rfl, rfl⟩
  | some old => exact ⟨rfl, rfl, rfl, rfl⟩

theorem keeps_replaceCurrentClient {id : ByteString} {s : SessionId} :
    (r.replaceCurrentClient session client cleanSession style).Keeps id s ↔ r.Keeps id s := by
  obtain ⟨-, -, -, htable⟩ := frame_replaceCurrentClient r client session cleanSession style
  rw [Keeps, htable]
  exact Iff.rfl

/-- Who has a session after that: the connection that got one, and others that had it. -/
theorem attached_replaceCurrentClient_eq_some {c : ConnectionId} {s : SessionId}
    (h : (r.replaceCurrentClient session client cleanSession style).attached c = some s) :
    c = client ∧ s = session ∨ c ≠ client ∧ r.attached c = some s := by
  rw [attached_replaceCurrentClient] at h
  by_cases heq : c = client
  · rw [heq, Function.update_self] at h
    exact .inl ⟨heq, (Option.some.inj h).symm⟩
  · rw [Function.update_of_ne heq] at h
    exact .inr ⟨heq, Links.unlink_eq_some h⟩

/-- A connection that has no session gets one that is kept. -/
theorem Linked.replaceCurrentClient (h : r.Linked) (cleanSession : CleanSession)
    (style : ReplaceStyle) (hclient : r.attached client = none)
    (hlt : client < r.nextConnection) (hout : (r.clients client).mLoggedOut = false)
    (hkeeps : ∃ id, r.Keeps id session)
    (hclean : ∀ id s, s ≠ session → r.Keeps id s → (r.sessions s).mCleanSession = .yes →
      r.currentClient s ≠ none) :
    (r.replaceCurrentClient session client cleanSession style).Registered := by
  obtain ⟨hmClients, hnext, hnextSession, -⟩ :=
    frame_replaceCurrentClient r client session cleanSession style
  have hid : ∀ s, ((r.replaceCurrentClient session client cleanSession style).sessions s).mClientID =
      (r.sessions s).mClientID := by
    rw [sessions_replaceCurrentClient]
    exact sessions_setSession_of RegisteredSession.mClientID rfl
  have hself : (r.replaceCurrentClient session client cleanSession style).clients client =
      { r.clients client with
        mPersistentClientState := some session
        mProperClientId := some (r.sessions session).mClientID } :=
    clients_replaceCurrentClient_self
  refine ⟨⟨?_, ?_, ?_, ?_, ?_, ?_, ?_⟩, ?_⟩
  · rw [attached_replaceCurrentClient, currentClient_replaceCurrentClient]
    exact h.inverse.replace hclient (b := session)
  · intro s c hc
    rw [currentClient_replaceCurrentClient] at hc
    simp only [keeps_replaceCurrentClient]
    by_cases heq : s = session
    · exact heq ▸ hkeeps
    · rw [Function.update_of_ne heq] at hc
      exact h.stored s c hc
  · intro c s hc
    rw [hnext]
    rcases attached_replaceCurrentClient_eq_some hc with ⟨rfl, rfl⟩ | ⟨hne, hc⟩
    · exact ⟨hlt, by rw [hself]; exact hout⟩
    · refine ⟨(h.live c s hc).1, ?_⟩
      exact (clients_replaceCurrentClient RegisteredClient.mLoggedOut (fun _ _ => rfl) hne).trans
        (h.live c s hc).2
  · intro c hc hfalse
    rw [hmClients]
    rw [hnext] at hc
    refine h.kept c hc ?_
    by_cases heq : c = client
    · exact heq ▸ hout
    · exact (clients_replaceCurrentClient RegisteredClient.mLoggedOut (fun _ _ => rfl) heq).symm.trans
        hfalse
  · exact fun id s hs => (hid s).trans (h.named id s (keeps_replaceCurrentClient.mp hs))
  · intro c s hc
    rw [hid]
    rcases attached_replaceCurrentClient_eq_some hc with ⟨rfl, rfl⟩ | ⟨hne, hc⟩
    · rw [hself]
    · exact (clients_replaceCurrentClient RegisteredClient.mProperClientId (fun _ _ => rfl) hne).trans
        (h.given c s hc)
  · intro id s hs
    rw [hnextSession]
    exact h.found id s (keeps_replaceCurrentClient.mp hs)
  · intro id s hs hyes
    rw [currentClient_replaceCurrentClient]
    by_cases heq : s = session
    · rw [heq, Function.update_self]
      exact Option.some_ne_none client
    · rw [sessions_replaceCurrentClient, Function.update_of_ne heq] at hyes
      rw [Function.update_of_ne heq]
      exact hclean id s heq (keeps_replaceCurrentClient.mp hs) hyes

/-- What is kept once a session is new: that one, and others that were kept before. -/
theorem keeps_openSession (h : r.Linked) {clientId id : ByteString} {s : SessionId}
    (hs : (r.openSession clientId).Keeps id s) :
    id = clientId ∧ s = r.nextSession ∨
      id ≠ clientId ∧ r.Keeps id s ∧ (r.openSession clientId).sessions s = r.sessions s := by
  by_cases heq : id = clientId
  · rw [heq] at hs
    exact .inl ⟨heq, Option.some.inj (hs.symm.trans (AList.lookup_insert _))⟩
  · have hold : r.Keeps id s := (AList.lookup_insert_ne heq).symm.trans hs
    have hne : s ≠ r.nextSession := Nat.ne_of_lt (h.found id s hold)
    exact .inr ⟨heq, hold, Function.update_of_ne hne _ _⟩

/-- A new session is kept, and has no connection yet. -/
theorem Registered.openSession (h : r.Registered) {clientId : ByteString}
    (hnew : r.mPersistentClientStates.lookup clientId = none) :
    (r.openSession clientId).Linked ∧ (r.openSession clientId).Keeps clientId r.nextSession ∧
      ∀ id s, s ≠ r.nextSession → (r.openSession clientId).Keeps id s →
        ((r.openSession clientId).sessions s).mCleanSession = .yes →
          (r.openSession clientId).currentClient s ≠ none := by
  have hfresh : r.currentClient r.nextSession = none := by
    cases hcurrent : r.currentClient r.nextSession with
    | none => rfl
    | some c =>
        obtain ⟨id, hid⟩ := h.stored _ c hcurrent
        exact absurd (h.found id _ hid) (Nat.lt_irrefl _)
  have hcurrent : (r.openSession clientId).currentClient = r.currentClient :=
    currentClient_setSession_of hfresh.symm
  refine ⟨⟨hcurrent.symm ▸ h.inverse, ?_, h.live, h.kept, ?_, ?_, ?_⟩, AList.lookup_insert _, ?_⟩
  · intro s c hc
    rw [hcurrent] at hc
    obtain ⟨id, hid⟩ := h.stored s c hc
    refine ⟨id, (AList.lookup_insert_ne ?_).trans hid⟩
    rintro rfl
    exact absurd (hnew.symm.trans hid) (Option.some_ne_none s).symm
  · intro id s hs
    rcases keeps_openSession h.toLinked hs with ⟨rfl, rfl⟩ | ⟨-, hold, hsame⟩
    · exact congrArg RegisteredSession.mClientID
        (Function.update_self r.nextSession { mClientID := id } r.sessions)
    · rw [hsame]
      exact h.named id s hold
  · intro c s hc
    have hne : s ≠ r.nextSession := Nat.ne_of_lt (h.found _ s (h.keeps_of_attached hc))
    refine (h.given c s hc).trans ?_
    exact congrArg (fun entry => some (RegisteredSession.mClientID entry))
      (Function.update_of_ne hne _ _).symm
  · intro id s hs
    rcases keeps_openSession h.toLinked hs with ⟨rfl, rfl⟩ | ⟨-, hold, -⟩
    · exact Nat.lt_succ_self _
    · exact Nat.lt_succ_of_lt (h.found id s hold)
  · intro id s hne hs hyes
    rcases keeps_openSession h.toLinked hs with ⟨-, rfl⟩ | ⟨-, hold, hsame⟩
    · exact absurd rfl hne
    · rw [hsame] at hyes
      rw [hcurrent]
      exact h.clean id s hold hyes

theorem Registered.loginClient (h : r.Registered) (hclient : r.attached client = none)
    (hlt : client < r.nextConnection) (clientId : ByteString) (cleanSession : CleanSession) :
    (r.loginClient client clientId cleanSession).Registered := by
  unfold Registry.loginClient
  split
  · exact h
  · next hout =>
      have hout : (r.clients client).mLoggedOut = false := Bool.eq_false_iff.mpr hout
      split
      · next hnew =>
          obtain ⟨hlinked, hkeeps, hclean⟩ := h.openSession hnew
          exact hlinked.replaceCurrentClient _ _ hclient hlt hout ⟨clientId, hkeeps⟩ hclean
      · next session hfound =>
          have hreplaced := h.toLinked.replaceCurrentClient cleanSession
            (r.replaceStyle session cleanSession) hclient hlt hout ⟨clientId, hfound⟩
            fun id s _ => h.clean id s
          cases (r.sessions session).mCurrentClient with
          | none => exact hreplaced
          | some existingClient => exact hreplaced.logoutClient existingClient

end

/-! ## All operations -/

/-- A connection logs in that has not, and only those that are logged out are erased. -/
def Permits (r : Registry) : Op → Prop
  | .loginClient client _ _ => r.attached client = none ∧ client < r.nextConnection
  | .setClients clients =>
    ∀ client ∈ r.mClients, (r.clients client).mLoggedOut = false → client ∈ clients
  | _ => True

theorem Registered.apply (h : r.Registered) {op : Op} (hop : r.Permits op) :
    (r.apply op).Registered := by
  cases op with
  | nothing => exact h
  | newConnection => exact h.newConnection
  | setWill client will => exact h.setWill client will
  | receiveQoS2 client id => exact h.updateReceiving client (insert id)
  | pubRel client id => exact h.updateReceiving client (·.erase id)
  | loginClient client clientId cleanSession => exact h.loginClient hop.1 hop.2 clientId cleanSession
  | logoutClient client => exact h.logoutClient client
  | setClients clients => exact h.setClients hop

/-! ## What becomes of the connections -/

theorem clients_updateReceiving (r : Registry) (client : ConnectionId)
    (f : Finset UInt16 → Finset UInt16) : (r.updateReceiving client f).clients = r.clients := by
  unfold Registry.updateReceiving
  split
  · rfl
  · rfl

theorem clients_deleteCleanSession (r : Registry) (session : SessionId) :
    (r.deleteCleanSession session).clients = r.clients := by
  unfold Registry.deleteCleanSession
  split
  · split
    · rfl
    · rfl
  · rfl

theorem clients_logoutClient (r : Registry) (client : ConnectionId) :
    (r.logoutClient client).clients =
      if (r.clients client).mLoggedOut then r.clients
      else Function.update r.clients client { r.clients client with
        mPersistentClientState := none
        mLoggedOut := true } := by
  unfold Registry.logoutClient
  split
  · rfl
  · split
    · next hnone =>
        exact congrArg (fun state => Function.update r.clients client { r.clients client with
          mPersistentClientState := state
          mLoggedOut := true }) hnone
    · rw [clients_deleteCleanSession]
      simp only [detach, setSession, setPersistentClientState, setClient, Registry.markLoggedOut,
        Function.update_self, Function.update_idem]

/-- A logout concerns its connection only. -/
theorem clients_logoutClient_of_ne {c : ConnectionId} (hc : c ≠ client) :
    (r.logoutClient client).clients c = r.clients c := by
  rw [clients_logoutClient]
  split
  · rfl
  · exact Function.update_of_ne hc _ _

theorem mLoggedOut_logoutClient (r : Registry) (client : ConnectionId) :
    ((r.logoutClient client).clients client).mLoggedOut = true := by
  rw [clients_logoutClient]
  split
  · next hout => exact hout
  · rw [Function.update_self]

/-- The connection a login takes the session of. -/
def takenOver (r : Registry) (client : ConnectionId) (clientId : ByteString) :
    Option ConnectionId :=
  if (r.clients client).mLoggedOut then none
  else (r.mPersistentClientStates.lookup clientId).bind r.currentClient

/-- A login logs out the connection it takes over from. -/
theorem mLoggedOut_loginClient_takenOver {clientId : ByteString} {cleanSession : CleanSession}
    {old : ConnectionId} (h : r.takenOver client clientId = some old) :
    ((r.loginClient client clientId cleanSession).clients old).mLoggedOut = true := by
  unfold takenOver at h
  unfold Registry.loginClient
  split at h
  · cases h
  · next hout =>
      rw [if_neg hout]
      obtain ⟨session, hfound, hcurrent⟩ := Option.bind_eq_some_iff.mp h
      have hcurrent' : (r.sessions session).mCurrentClient = some old := hcurrent
      simp only [hfound, hcurrent']
      exact mLoggedOut_logoutClient _ _

theorem clients_replaceCurrentClient_of_ne {cleanSession : CleanSession} {style : ReplaceStyle}
    {c : ConnectionId} (hc : c ≠ client) (hold : r.currentClient session ≠ some c) :
    (r.replaceCurrentClient session client cleanSession style).clients c = r.clients c := by
  unfold replaceCurrentClient
  cases hcurrent : (r.sessions session).mCurrentClient with
  | none => exact Function.update_of_ne hc _ _
  | some old =>
      have hne : c ≠ old := by
        rintro rfl
        exact hold hcurrent
      exact (Function.update_of_ne hc _ _).trans (Function.update_of_ne hne _ _)

/-- It leaves the others alone. -/
theorem clients_loginClient_of_ne {clientId : ByteString} {cleanSession : CleanSession}
    {c : ConnectionId} (hc : c ≠ client) (hold : r.takenOver client clientId ≠ some c) :
    (r.loginClient client clientId cleanSession).clients c = r.clients c := by
  unfold takenOver at hold
  unfold Registry.loginClient
  split
  · rfl
  · next hout =>
      rw [if_neg hout] at hold
      split
      · have hfree : (r.openSession clientId).currentClient r.nextSession = none := by
          simp only [currentClient, openSession, Function.update_self]
        refine clients_replaceCurrentClient_of_ne hc ?_
        rw [hfree]
        exact (Option.some_ne_none c).symm
      · next session hfound =>
          rw [hfound] at hold
          have hreplaced : (r.replaceCurrentClient session client cleanSession
              (r.replaceStyle session cleanSession)).clients c = r.clients c :=
            clients_replaceCurrentClient_of_ne hc hold
          cases hcurrent : (r.sessions session).mCurrentClient with
          | none => exact hreplaced
          | some old =>
              have hne : c ≠ old := by
                rintro rfl
                exact hold hcurrent
              exact (clients_logoutClient_of_ne hne).trans hreplaced

/-- It gives a session to its own connection. -/
theorem clients_loginClient_self {clientId : ByteString}
    (hout : (r.clients client).mLoggedOut = false) (hold : r.takenOver client clientId ≠ some client)
    (cleanSession : CleanSession) :
    ∃ session id, (r.loginClient client clientId cleanSession).clients client =
      { r.clients client with
        mPersistentClientState := some session
        mProperClientId := some id } := by
  have hout' : ¬ (r.clients client).mLoggedOut = true := Bool.eq_false_iff.mp hout
  unfold takenOver at hold
  rw [if_neg hout'] at hold
  unfold Registry.loginClient
  rw [if_neg hout']
  split
  · exact ⟨_, _, clients_replaceCurrentClient_self⟩
  · next session hfound =>
      rw [hfound] at hold
      cases hcurrent : (r.sessions session).mCurrentClient with
      | none => exact ⟨_, _, clients_replaceCurrentClient_self⟩
      | some old =>
          have hne : client ≠ old := by
            rintro rfl
            exact hold hcurrent
          exact ⟨_, _, (clients_logoutClient_of_ne hne).trans clients_replaceCurrentClient_self⟩

/-! ## Who is present -/

/-- A connection that has been given its client id and is not logged out has a session. -/
def Present (r : Registry) : Prop :=
  ∀ client, (r.clients client).mLoggedOut = false → (r.clients client).mProperClientId ≠ none →
    r.attached client ≠ none

theorem Present.setClient (h : r.Present) {entry : RegisteredClient}
    (hentry : entry.mLoggedOut = false → entry.mProperClientId ≠ none →
      entry.mPersistentClientState ≠ none) : (r.setClient client entry).Present := by
  intro c hout hid
  by_cases heq : c = client
  · rw [heq] at hout hid ⊢
    rw [attached_setClient, Function.update_self]
    rw [clients_setClient_self] at hout hid
    exact hentry hout hid
  · rw [attached_setClient, Function.update_of_ne heq]
    rw [clients_setClient_ne heq] at hout hid
    exact h c hout hid

/-- Connections that are as they were, logged out or attached. -/
theorem Present.of_clients (h : r.Present) {r' : Registry}
    (hclients : ∀ c, r'.clients c = r.clients c ∨ (r'.clients c).mLoggedOut = true ∨
      r'.attached c ≠ none) : r'.Present := by
  intro c hout hid
  rcases hclients c with hsame | htrue | hattached
  · rw [attached, hsame]
    rw [hsame] at hout hid
    exact h c hout hid
  · exact absurd (htrue.symm.trans hout) Bool.noConfusion
  · exact hattached

theorem Present.logoutClient (h : r.Present) (client : ConnectionId) :
    (r.logoutClient client).Present := by
  refine h.of_clients fun c => ?_
  by_cases hc : c = client
  · rw [hc]
    exact .inr (.inl (mLoggedOut_logoutClient r client))
  · exact .inl (clients_logoutClient_of_ne hc)

theorem Linked.takenOver_ne (h : r.Linked) (hclient : r.attached client = none)
    (clientId : ByteString) : r.takenOver client clientId ≠ some client := by
  intro hold
  unfold takenOver at hold
  split at hold
  · cases hold
  · obtain ⟨session, -, hcurrent⟩ := Option.bind_eq_some_iff.mp hold
    exact h.inverse.ne hclient hcurrent rfl

theorem Present.loginClient (h : r.Present) (hlinked : r.Linked)
    (hclient : r.attached client = none) (clientId : ByteString) (cleanSession : CleanSession) :
    (r.loginClient client clientId cleanSession).Present := by
  cases hout : (r.clients client).mLoggedOut with
  | true =>
      unfold Registry.loginClient
      rw [if_pos hout]
      exact h
  | false =>
      refine h.of_clients fun c => ?_
      by_cases hc : c = client
      · obtain ⟨session, id, hself⟩ :=
          clients_loginClient_self hout (hlinked.takenOver_ne hclient clientId) cleanSession
        refine .inr (.inr ?_)
        rw [hc, attached, hself]
        exact Option.some_ne_none session
      · by_cases hold : r.takenOver client clientId = some c
        · exact .inr (.inl (mLoggedOut_loginClient_takenOver hold))
        · exact .inl (clients_loginClient_of_ne hc hold)

theorem Present.apply (h : r.Present) (hr : r.Registered) {op : Op} (hop : r.Permits op) :
    (r.apply op).Present := by
  cases op with
  | nothing => exact h
  | newConnection =>
      have hset : (r.setClient r.nextConnection {}).Present := h.setClient fun _ hid => absurd rfl hid
      exact hset
  | setWill client will => exact h.setClient (h client)
  | receiveQoS2 client id =>
      exact h.of_clients fun c => .inl (congrFun (clients_updateReceiving r client _) c)
  | pubRel client id =>
      exact h.of_clients fun c => .inl (congrFun (clients_updateReceiving r client _) c)
  | loginClient client clientId cleanSession =>
      exact h.loginClient hr.toLinked hop.1 clientId cleanSession
  | logoutClient client => exact h.logoutClient client
  | setClients clients => exact h

/-! ## What becomes of the sessions -/

/-- The identifiers a session has received. -/
def received (r : Registry) (session : SessionId) : Finset UInt16 :=
  (r.sessions session).mQoS2receivingPacketIds

theorem received_setSession (r : Registry) (session : SessionId) (entry : RegisteredSession) :
    (r.setSession session entry).received =
      Function.update r.received session entry.mQoS2receivingPacketIds :=
  funext fun id =>
    Function.apply_update (fun _ => RegisteredSession.mQoS2receivingPacketIds) _ _ _ id

theorem updateReceiving_of_attached (hattached : r.attached client = some session)
    (f : Finset UInt16 → Finset UInt16) :
    (∀ id s, (r.updateReceiving client f).Keeps id s ↔ r.Keeps id s) ∧
      (r.updateReceiving client f).received =
        Function.update r.received session (f (r.received session)) := by
  have hclient : (r.clients client).mPersistentClientState = some session := hattached
  unfold Registry.updateReceiving
  rw [hclient]
  exact ⟨fun _ _ => Iff.rfl, received_setSession r session _⟩

/-- Fewer sessions are kept, and those are as they were. -/
structure Narrows (r r' : Registry) : Prop where
  keeps : ∀ id session, r'.Keeps id session → r.Keeps id session
  received_eq : r'.received = r.received

theorem narrows_markLoggedOut (r : Registry) (client : ConnectionId) :
    r.Narrows (r.markLoggedOut client) := ⟨fun _ _ h => h, rfl⟩

theorem narrows_detach (r : Registry) (client : ConnectionId) (session : SessionId) :
    r.Narrows (r.detach client session) where
  keeps := fun _ _ h => h
  received_eq := funext (sessions_setSession_of RegisteredSession.mQoS2receivingPacketIds rfl)

theorem narrows_deleteCleanSession (r : Registry) (session : SessionId) :
    r.Narrows (r.deleteCleanSession session) := by
  unfold Registry.deleteCleanSession
  split
  · split
    · exact ⟨fun _ _ h => h, rfl⟩
    · exact ⟨fun _ _ hs => (keeps_erase.mp hs).2, rfl⟩
  · exact ⟨fun _ _ h => h, rfl⟩

theorem Narrows.trans {r' r'' : Registry} (h : r.Narrows r') (h' : r'.Narrows r'') :
    r.Narrows r'' :=
  ⟨fun id session hkeeps => h.keeps id session (h'.keeps id session hkeeps),
    h'.received_eq.trans h.received_eq⟩

theorem narrows_logoutClient (r : Registry) (client : ConnectionId) :
    r.Narrows (r.logoutClient client) := by
  unfold Registry.logoutClient
  split
  · exact ⟨fun _ _ h => h, rfl⟩
  · split
    · exact narrows_markLoggedOut r client
    · next session _ =>
        exact ((narrows_markLoggedOut r client).trans (narrows_detach _ client session)).trans
          (narrows_deleteCleanSession _ session)

theorem narrows_logoutExisting (r : Registry) (existingClient : Option ConnectionId) :
    r.Narrows (r.logoutExisting existingClient) := by
  cases existingClient with
  | none => exact ⟨fun _ _ h => h, rfl⟩
  | some existingClient => exact narrows_logoutClient r existingClient

theorem received_replaceCurrentClient {cleanSession : CleanSession} {style : ReplaceStyle} :
    (r.replaceCurrentClient session client cleanSession style).received =
      Function.update r.received session (if style = .cleanSession then ∅ else r.received session) := by
  funext s
  unfold received
  rw [sessions_replaceCurrentClient]
  by_cases hs : s = session
  · rw [hs, Function.update_self, Function.update_self]
    cases style with
    | simpleReplace => rfl
    | cleanSession => rfl
  · rw [Function.update_of_ne hs, Function.update_of_ne hs]

/-- A login resumes a session that is kept, if neither is clean. -/
def Resumes (r : Registry) (clientId : ByteString) (cleanSession : CleanSession) : Prop :=
  ∃ session, r.Keeps clientId session ∧ r.replaceStyle session cleanSession = .simpleReplace

/-- After a login the session of its client id has received what it had, if it is resumed,
and nothing otherwise; the sessions of others are as they were. -/
theorem received_loginClient (h : r.Registered) {clientId : ByteString} {cleanSession : CleanSession}
    (hout : (r.clients client).mLoggedOut = false) {id : ByteString}
    (hkeeps : (r.loginClient client clientId cleanSession).Keeps id session) :
    (id ≠ clientId ∨ r.Resumes clientId cleanSession) ∧ r.Keeps id session ∧
        (r.loginClient client clientId cleanSession).received session = r.received session ∨
      id = clientId ∧ ¬ r.Resumes clientId cleanSession ∧
        (r.loginClient client clientId cleanSession).received session = ∅ := by
  have hout' : ¬ (r.clients client).mLoggedOut = true := Bool.eq_false_iff.mp hout
  unfold Registry.loginClient at hkeeps ⊢
  rw [if_neg hout'] at hkeeps ⊢
  cases hlookup : r.mPersistentClientStates.lookup clientId with
  | none =>
      simp only [hlookup] at hkeeps ⊢
      rw [keeps_replaceCurrentClient] at hkeeps
      rw [received_replaceCurrentClient, if_pos rfl]
      have hresumes : ¬ r.Resumes clientId cleanSession :=
        fun ⟨s, hs, _⟩ => absurd (hlookup.symm.trans hs) (Option.some_ne_none s).symm
      rcases keeps_openSession h.toLinked hkeeps with ⟨heq, rfl⟩ | ⟨heq, hold, hsame⟩
      · exact .inr ⟨heq, hresumes, Function.update_self _ _ _⟩
      · have hne : session ≠ r.nextSession := Nat.ne_of_lt (h.found id session hold)
        refine .inl ⟨.inl heq, hold, ?_⟩
        rw [Function.update_of_ne hne]
        exact congrArg RegisteredSession.mQoS2receivingPacketIds hsame
  | some stored =>
      simp only [hlookup] at hkeeps ⊢
      have hnarrows := narrows_logoutExisting (r.replaceCurrentClient stored client cleanSession
        (r.replaceStyle stored cleanSession)) (r.sessions stored).mCurrentClient
      have hold := keeps_replaceCurrentClient.mp (hnarrows.keeps id session hkeeps)
      rw [hnarrows.received_eq, received_replaceCurrentClient]
      by_cases heq : id = clientId
      · rw [heq] at hold
        cases hlookup.symm.trans hold
        rw [Function.update_self]
        by_cases hstyle : r.replaceStyle session cleanSession = .cleanSession
        · refine .inr ⟨heq, ?_, if_pos hstyle⟩
          rintro ⟨s, hs, hsimple⟩
          cases hlookup.symm.trans hs
          exact absurd (hstyle.symm.trans hsimple) ReplaceStyle.noConfusion
        · refine .inl ⟨.inr ⟨session, hold, ?_⟩, heq ▸ hold, if_neg hstyle⟩
          cases hcase : r.replaceStyle session cleanSession with
          | simpleReplace => rfl
          | cleanSession => exact absurd hcase hstyle
      · refine .inl ⟨.inl heq, hold, Function.update_of_ne ?_ _ _⟩
        rintro rfl
        exact heq ((h.named id session hold).symm.trans (h.named clientId session hlookup))

/-! ## The list of connections -/

theorem mClients_updateReceiving (r : Registry) (client : ConnectionId)
    (f : Finset UInt16 → Finset UInt16) : (r.updateReceiving client f).mClients = r.mClients := by
  unfold updateReceiving
  split
  · rfl
  · rfl

theorem mClients_deleteCleanSession (r : Registry) (session : SessionId) :
    (r.deleteCleanSession session).mClients = r.mClients := by
  unfold deleteCleanSession
  split
  · split
    · rfl
    · rfl
  · rfl

theorem mClients_logoutClient (r : Registry) (client : ConnectionId) :
    (r.logoutClient client).mClients = r.mClients := by
  unfold logoutClient
  split
  · rfl
  · split
    · rfl
    · exact mClients_deleteCleanSession _ _

theorem mClients_loginClient (r : Registry) (client : ConnectionId) (clientId : ByteString)
    (cleanSession : CleanSession) :
    (r.loginClient client clientId cleanSession).mClients = r.mClients := by
  have hreplace : ∀ (r : Registry) (session : SessionId) (style : ReplaceStyle),
      (r.replaceCurrentClient session client cleanSession style).mClients = r.mClients :=
    fun r session style => (frame_replaceCurrentClient r client session cleanSession style).1
  unfold loginClient
  split
  · rfl
  · split
    · exact hreplace _ _ _
    · next session _ =>
        cases (r.sessions session).mCurrentClient with
        | none => exact hreplace _ _ _
        | some existingClient => exact (mClients_logoutClient _ _).trans (hreplace _ _ _)

/-- No connection comes or goes. -/
def Op.KeepsClients : Op → Prop
  | .newConnection | .setClients _ => False
  | _ => True

theorem mClients_apply (r : Registry) {op : Op} (hop : op.KeepsClients) :
    (r.apply op).mClients = r.mClients := by
  cases op with
  | nothing => rfl
  | newConnection => exact hop.elim
  | setWill client will => rfl
  | receiveQoS2 client id => exact mClients_updateReceiving r client (insert id)
  | pubRel client id => exact mClients_updateReceiving r client (·.erase id)
  | loginClient client clientId cleanSession => exact mClients_loginClient r client clientId cleanSession
  | logoutClient client => exact mClients_logoutClient r client
  | setClients clients => exact hop.elim

end Registry

end NioevMqtt
