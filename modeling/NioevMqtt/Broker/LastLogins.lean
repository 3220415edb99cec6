-- SUMMARY: What the table of sessions tells of the last login under a client id: a session is as clean as that login asked for, and only clean sessions are forgotten.
import NioevMqtt.Broker.Receipts

/-!
# Last logins

Whether a login resumes a session is decided by what two logins under one client id
have asked for. The code has the later of them only: it looks the session up, and
reads in it what the earlier one has left there.
-/

namespace NioevMqtt

namespace Registry

variable {r r' r'' : Registry} {client : ConnectionId} {session : SessionId} {clientId : ByteString}
  {cleanSession : CleanSession} {style : ReplaceStyle}

/-! ## What is remembered -/

/-- The session kept under a client id is as clean as the last login asked for. Where
none is kept, that login, if there was one, asked for a clean session. -/
structure RemembersUnder (r : Registry) (clientId : ByteString) (last : Option CleanSession) :
    Prop where
  kept : ∀ session, r.Keeps clientId session → last = some (r.sessions session).mCleanSession
  forgotten : r.mPersistentClientStates.lookup clientId = none → last ≠ some .no

/-- So for every client id. -/
def Remembers (r : Registry) (lastLogin : ByteString → Option CleanSession) : Prop :=
  ∀ clientId, r.RemembersUnder clientId (lastLogin clientId)

variable {lastLogin : ByteString → Option CleanSession}

/-- A login resumes a session exactly if neither it nor the last one asked for a clean
session. -/
theorem RemembersUnder.resumes_iff {last : Option CleanSession}
    (h : r.RemembersUnder clientId last) :
    r.Resumes clientId cleanSession ↔ last = some .no ∧ cleanSession = .no := by
  have hstyle : ∀ session, r.replaceStyle session cleanSession = .simpleReplace ↔
      cleanSession = .no ∧ (r.sessions session).mCleanSession = .no := by
    intro session
    unfold replaceStyle
    cases cleanSession with
    | yes => exact iff_of_false (fun h => by cases h) fun h => by cases h.1
    | no =>
        cases (r.sessions session).mCleanSession with
        | yes => exact iff_of_false (fun h => by cases h) fun h => by cases h.2
        | no => exact iff_of_true rfl ⟨rfl, rfl⟩
  cases hlookup : r.mPersistentClientStates.lookup clientId with
  | none =>
      refine iff_of_false ?_ fun hboth => h.forgotten hlookup hboth.1
      rintro ⟨session, hkeeps, -⟩
      exact absurd (hlookup.symm.trans hkeeps) (Option.some_ne_none session).symm
  | some session =>
      rw [h.kept session hlookup, Option.some.injEq]
      constructor
      · rintro ⟨session', hkeeps, hsimple⟩
        cases hlookup.symm.trans hkeeps
        exact ((hstyle session).mp hsimple).symm
      · exact fun hboth => ⟨session, hlookup, (hstyle session).mpr hboth.symm⟩

/-! ## What is forgotten -/

/-- Sessions stay as clean as they are, and only clean ones are no longer kept. -/
structure Forgets (r r' : Registry) : Prop where
  keeps : ∀ id session, r'.Keeps id session → r.Keeps id session
  clean : ∀ id session, r.Keeps id session → r'.mPersistentClientStates.lookup id = none →
    (r.sessions session).mCleanSession = .yes
  cleanSession_eq : ∀ session, (r'.sessions session).mCleanSession = (r.sessions session).mCleanSession

/-- All sessions are kept. -/
theorem forgets_of_eq (htable : r'.mPersistentClientStates = r.mPersistentClientStates)
    (hclean : ∀ session, (r'.sessions session).mCleanSession = (r.sessions session).mCleanSession) :
    r.Forgets r' where
  keeps := fun id session hkeeps => by rwa [Keeps, ← htable]
  clean := by
    intro id session hkeeps hnone
    rw [htable] at hnone
    exact absurd (hnone.symm.trans hkeeps) (Option.some_ne_none session).symm
  cleanSession_eq := hclean

theorem Forgets.trans (h : r.Forgets r') (h' : r'.Forgets r'') : r.Forgets r'' where
  keeps := fun id session hkeeps => h.keeps id session (h'.keeps id session hkeeps)
  clean := by
    intro id session hkeeps hnone
    cases hlookup : r'.mPersistentClientStates.lookup id with
    | none => exact h.clean id session hkeeps hlookup
    | some session' =>
        cases hkeeps.symm.trans (h.keeps id session' hlookup)
        rw [← h.cleanSession_eq]
        exact h'.clean id session hlookup hnone
  cleanSession_eq := fun session => (h'.cleanSession_eq session).trans (h.cleanSession_eq session)

theorem RemembersUnder.forgets {last : Option CleanSession} (h : r.RemembersUnder clientId last)
    (hforgets : r.Forgets r') : r'.RemembersUnder clientId last where
  kept := by
    intro session hkeeps
    rw [hforgets.cleanSession_eq]
    exact h.kept session (hforgets.keeps clientId session hkeeps)
  forgotten := by
    intro hnone
    cases hlookup : r.mPersistentClientStates.lookup clientId with
    | none => exact h.forgotten hlookup
    | some session =>
        rw [h.kept session hlookup, hforgets.clean clientId session hlookup hnone]
        exact fun heq => by cases heq

theorem forgets_updateReceiving (r : Registry) (client : ConnectionId)
    (f : Finset UInt16 → Finset UInt16) : r.Forgets (r.updateReceiving client f) := by
  unfold Registry.updateReceiving
  split
  · exact forgets_of_eq rfl fun _ => rfl
  · exact forgets_of_eq rfl (sessions_setSession_of RegisteredSession.mCleanSession rfl)

theorem forgets_deleteCleanSession (r : Registry) (session : SessionId) :
    r.Forgets (r.deleteCleanSession session) := by
  have hsame : r.Forgets r := forgets_of_eq rfl fun _ => rfl
  unfold Registry.deleteCleanSession
  split
  · next hyes =>
      split
      · exact hsame
      · next e hfind =>
          have hsession : e.2 = session := by simpa using List.find?_some hfind
          have hkept : r.Keeps e.1 session := by
            rw [← hsession]
            exact AList.mem_lookup_iff.mpr (List.mem_of_find?_eq_some hfind)
          refine ⟨fun id s hkeeps => ?_, fun id s hkeeps hnone => ?_, fun _ => rfl⟩
          · have hne : id ≠ e.1 := by
              rintro rfl
              exact absurd ((AList.lookup_erase _ _).symm.trans hkeeps) (Option.some_ne_none s).symm
            exact (AList.lookup_erase_ne hne).symm.trans hkeeps
          · by_cases heq : id = e.1
            · rw [heq] at hkeeps
              cases hkept.symm.trans hkeeps
              exact hyes
            · have hold := (AList.lookup_erase_ne heq).symm.trans hnone
              exact absurd (hold.symm.trans hkeeps) (Option.some_ne_none s).symm
  · exact hsame

theorem forgets_logoutClient (r : Registry) (client : ConnectionId) :
    r.Forgets (r.logoutClient client) := by
  unfold Registry.logoutClient
  split
  · exact forgets_of_eq rfl fun _ => rfl
  · split
    · exact forgets_of_eq rfl fun _ => rfl
    · next session _ =>
        have hdetached : r.Forgets ((r.markLoggedOut client).detach client session) :=
          forgets_of_eq rfl (sessions_setSession_of RegisteredSession.mCleanSession rfl)
        exact hdetached.trans (forgets_deleteCleanSession _ session)

theorem forgets_logoutExisting (r : Registry) (existingClient : Option ConnectionId) :
    r.Forgets (r.logoutExisting existingClient) := by
  cases existingClient with
  | none => exact forgets_of_eq rfl fun _ => rfl
  | some existingClient => exact forgets_logoutClient r existingClient

/-- Besides logins no operation makes a session clean, and none forgets another. -/
theorem forgets_apply (r : Registry) {op : Op} (hop : ∀ client clientId cleanSession,
    op = .loginClient client clientId cleanSession → (r.clients client).mLoggedOut = true) :
    r.Forgets (r.apply op) := by
  have hsame : r.Forgets r := forgets_of_eq rfl fun _ => rfl
  cases op with
  | nothing => exact hsame
  | newConnection => exact forgets_of_eq rfl fun _ => rfl
  | setWill client will => exact forgets_of_eq rfl fun _ => rfl
  | receiveQoS2 client id => exact forgets_updateReceiving r client _
  | pubRel client id => exact forgets_updateReceiving r client (·.erase id)
  | loginClient client clientId cleanSession =>
      simp only [Registry.apply, Registry.loginClient]
      rw [if_pos (hop client clientId cleanSession rfl)]
      exact hsame
  | logoutClient client => exact forgets_logoutClient r client
  | setClients clients => exact forgets_of_eq rfl fun _ => rfl

/-! ## Logins -/

/-- A session that gets a connection is as clean as its login asks for. -/
theorem remembers_replaceCurrentClient (hkeeps : r.Keeps clientId session)
    (hnamed : ∀ id, r.Keeps id session → id = clientId)
    (h : ∀ id, id ≠ clientId → r.RemembersUnder id (lastLogin id)) :
    (r.replaceCurrentClient session client cleanSession style).Remembers
      (Function.update lastLogin clientId (some cleanSession)) := by
  obtain ⟨-, -, -, htable⟩ := frame_replaceCurrentClient r client session cleanSession style
  intro id
  by_cases hid : id = clientId
  · rw [hid, Function.update_self]
    refine ⟨fun s hs => ?_, fun hnone => ?_⟩
    · cases hkeeps.symm.trans (keeps_replaceCurrentClient.mp hs)
      rw [sessions_replaceCurrentClient, Function.update_self]
    · rw [htable] at hnone
      exact absurd (hnone.symm.trans hkeeps) (Option.some_ne_none session).symm
  · rw [Function.update_of_ne hid]
    refine ⟨fun s hs => ?_, fun hnone => (h id hid).forgotten (htable ▸ hnone)⟩
    have hold := keeps_replaceCurrentClient.mp hs
    have hne : s ≠ session := by
      rintro rfl
      exact hid (hnamed id hold)
    rw [sessions_replaceCurrentClient, Function.update_of_ne hne]
    exact (h id hid).kept s hold

theorem Remembers.loginClient (h : r.Remembers lastLogin) (hr : r.Linked)
    (hout : (r.clients client).mLoggedOut = false) (clientId : ByteString)
    (cleanSession : CleanSession) :
    (r.loginClient client clientId cleanSession).Remembers
      (Function.update lastLogin clientId (some cleanSession)) := by
  have hout' : ¬ (r.clients client).mLoggedOut = true := Bool.eq_false_iff.mp hout
  unfold Registry.loginClient
  rw [if_neg hout']
  cases hlookup : r.mPersistentClientStates.lookup clientId with
  | none =>
      simp only
      refine remembers_replaceCurrentClient (AList.lookup_insert _) (fun id hs => ?_) fun id hid => ?_
      · rcases Registry.keeps_openSession hr hs with ⟨hid, -⟩ | ⟨-, hold, -⟩
        · exact hid
        · exact absurd (hr.found id _ hold) (Nat.lt_irrefl _)
      · refine ⟨fun s hs => ?_, fun hnone => ?_⟩
        · rcases Registry.keeps_openSession hr hs with ⟨heq, -⟩ | ⟨-, hold, hsame⟩
          · exact absurd heq hid
          · rw [(h id).kept s hold, hsame]
        · exact (h id).forgotten ((AList.lookup_insert_ne hid).symm.trans hnone)
  | some stored =>
      simp only
      have hreplaced : (r.replaceCurrentClient stored client cleanSession
          (r.replaceStyle stored cleanSession)).Remembers
            (Function.update lastLogin clientId (some cleanSession)) := by
        refine remembers_replaceCurrentClient hlookup (fun id hs => ?_) fun id _ => h id
        exact (hr.named id stored hs).symm.trans (hr.named clientId stored hlookup)
      exact fun id => (hreplaced id).forgets (forgets_logoutExisting _ _)

end Registry

/-! ## Steps of the broker -/

/-- The last logins after a step that has executed that login, or none. -/
def lastLoginsAfter (lastLogin : ByteString → Option CleanSession) :
    Option Login → ByteString → Option CleanSession
  | none => lastLogin
  | some login => Function.update lastLogin login.clientId (some login.cleanSession)

namespace ApplicationState

variable {τ : Type} {s t : ApplicationState τ} {action : Action}
  {lastLogin : ByteString → Option CleanSession}

/-- A login that is not executed is that of a connection that is logged out. -/
theorem forgets_of_noLogin (h : s.executedLogin action = none) :
    s.registry.Forgets (s.registry.apply (s.registryOp action)) := by
  refine Registry.forgets_apply s.registry fun client clientId cleanSession hlogin => ?_
  cases action with
  | packet client' packet =>
      cases packet with
      | publish packet id =>
          simp only [registryOp, packetOp] at hlogin
          split at hlogin
          · cases hlogin
          · cases hlogin
      | _ => cases hlogin
  | execute randomChars =>
      rcases Receipts.registryOp_of_noLogin h with hop | ⟨_, hop⟩ | ⟨_, _, _, hop, hout⟩
      · cases hop.symm.trans hlogin
      · cases hop.symm.trans hlogin
      · cases hop.symm.trans hlogin
        exact hout
  | _ => cases hlogin

variable [Libnioev] [SubscriptionTree τ]

theorem remembers_step (h : s.Tabled) (hremembers : s.registry.Remembers lastLogin)
    (hstep : s.step action = some (.ok t)) :
    t.registry.Remembers (lastLoginsAfter lastLogin (s.executedLogin action)) := by
  rw [(registry_step h.linked h.registered hstep).1]
  cases hlogin : s.executedLogin action with
  | none => exact fun id => (hremembers id).forgets (forgets_of_noLogin hlogin)
  | some login =>
      obtain ⟨hop, hout⟩ := Receipts.registryOp_of_executedLogin hlogin
      rw [hop]
      exact hremembers.loginClient h.registered.toLinked hout login.clientId login.cleanSession

omit [Libnioev] [SubscriptionTree τ] in
/-- A login finds a session to resume exactly if neither it nor the login before it asked
for a clean session. -/
theorem resumes_iff_lastLogin (h : s.registry.Remembers lastLogin) (login : Login) :
    s.Resumes login ↔ lastLogin login.clientId = some .no ∧ login.cleanSession = .no := by
  rw [Receipts.resumes_iff]
  exact (h login.clientId).resumes_iff

end ApplicationState

end NioevMqtt
