-- SUMMARY: The table of sessions: in every state the broker reaches, connections and stored sessions point at each other, under the client id they were given.
import NioevMqtt.Broker.Registration

/-!
# The session table

What the registry's invariants say of the broker's own pointers and tables.
-/

namespace NioevMqtt

namespace ApplicationState

section

variable {τ : Type} {s t : ApplicationState τ}

/-- The session is stored under the client id. -/
def StoredUnder (s : ApplicationState τ) (clientId : ByteString) (session : SessionId) : Prop :=
  s.mPersistentClientStates.lookup clientId = some session

/-- What holds of the pointers between connections and sessions. -/
structure SessionTable (s : ApplicationState τ) : Prop where
  attached_iff : ∀ client session,
    (s.connections client).mPersistentClientState = some session ↔
      (∃ clientId, s.StoredUnder clientId session) ∧
        (s.sessions session).mCurrentClient = some client
  live : ∀ client session, (s.connections client).mPersistentClientState = some session →
    client ∈ s.mClients ∧ (s.connections client).mLoggedOut = false
  named : ∀ clientId session, s.StoredUnder clientId session →
    (s.sessions session).mClientID = clientId ∧
      ∀ client, (s.sessions session).mCurrentClient = some client →
        (s.connections client).mProperClientId = some clientId
  clean : ∀ clientId session, s.StoredUnder clientId session →
    (s.sessions session).mCleanSession = .yes → (s.sessions session).mCurrentClient ≠ none
  /-- At most one connection of a client id is not logged out. -/
  unique : ∀ client client' clientId, (s.connections client).mLoggedOut = false →
    (s.connections client').mLoggedOut = false →
      (s.connections client).mProperClientId = some clientId →
        (s.connections client').mProperClientId = some clientId → client = client'
  /-- A logout finds the session it is to remove. -/
  removable : ∀ client session, (s.connections client).mPersistentClientState = some session →
    (s.sessions session).mCleanSession = .yes →
      s.mPersistentClientStates.entries.find? (·.2 = session) ≠ none

theorem sessionTable_of_registered (h : s.registry.Registered) (hpresent : s.registry.Present) :
    s.SessionTable where
  attached_iff := by
    intro client session
    constructor
    · intro hattached
      have hcurrent := (h.inverse client session).mp hattached
      exact ⟨h.stored session client hcurrent, hcurrent⟩
    · exact fun ⟨_, hcurrent⟩ => (h.inverse client session).mpr hcurrent
  live := by
    intro client session hattached
    obtain ⟨hlt, hout⟩ := h.live client session hattached
    exact ⟨h.kept client hlt hout, hout⟩
  named := by
    intro clientId session hstored
    have hnamed : (s.sessions session).mClientID = clientId := h.named clientId session hstored
    refine ⟨hnamed, fun client hcurrent => ?_⟩
    rw [← hnamed]
    exact h.given client session ((h.inverse client session).mpr hcurrent)
  clean := h.clean
  unique := by
    intro client client' clientId hout hout' hid hid'
    -- Both have the session that is kept under the client id.
    have hsession : ∀ c, (s.connections c).mLoggedOut = false →
        (s.connections c).mProperClientId = some clientId →
          ∃ session, s.registry.attached c = some session ∧ s.StoredUnder clientId session := by
      intro c hout hid
      obtain ⟨session, hattached⟩ := Option.ne_none_iff_exists'.mp (hpresent c hout (by
        rw [show (s.registry.clients c).mProperClientId = some clientId from hid]
        exact Option.some_ne_none clientId))
      refine ⟨session, hattached, ?_⟩
      cases hid.symm.trans (h.given c session hattached)
      exact h.keeps_of_attached hattached
    obtain ⟨session, hattached, hstored⟩ := hsession client hout hid
    obtain ⟨session', hattached', hstored'⟩ := hsession client' hout' hid'
    cases hstored.symm.trans hstored'
    exact h.inverse.injective hattached hattached'
  removable := by
    intro client session hattached _ hfind
    have hmem : (⟨_, session⟩ : Sigma fun _ : ByteString => SessionId) ∈
        s.mPersistentClientStates.entries := AList.mem_lookup_iff.mp (h.keeps_of_attached hattached)
    exact List.find?_eq_none.mp hfind _ hmem (decide_eq_true rfl)

/-- The invariant behind the table. -/
structure Tabled (s : ApplicationState τ) : Prop where
  linked : s.Linked
  registered : s.registry.Registered
  present : s.registry.Present

variable [SubscriptionTree τ]

theorem tabled_initial (retained : AList fun _ : ByteString => RetainedMessage) :
    (initial retained : ApplicationState τ).Tabled where
  linked := linked_initial retained
  registered :=
    { inverse := Links.inverse_none
      stored := fun _ _ h => by cases h
      live := fun _ _ h => by cases h
      kept := fun _ hlt => absurd hlt (Nat.not_lt_zero _)
      named := fun _ _ h => by cases h
      given := fun _ _ h => by cases h
      found := fun _ _ h => by cases h
      clean := fun _ _ h => by cases h }
  present := fun _ _ hid => absurd rfl hid

variable [Libnioev]

theorem Tabled.step {action : Action} (h : s.Tabled) (hstep : s.step action = some (.ok t)) :
    t.Tabled := by
  obtain ⟨hregistry, hpermits⟩ := registry_step h.linked h.registered hstep
  refine ⟨h.linked.transition (transition_of_step h.linked hstep), ?_, ?_⟩
  · rw [hregistry]
    exact h.registered.apply hpermits
  · rw [hregistry]
    exact h.present.apply h.registered hpermits

/-- Most steps leave the list of connections as it is. -/
theorem mClients_stepOk {action : Action} (h : s.Tabled) (hstep : s.stepOk action = some t)
    (hnew : ∀ remote now, action ≠ .newConnection remote now) (hcleanup : action ≠ .cleanup) :
    t.mClients = s.mClients := by
  obtain ⟨hregistry, -⟩ := registry_step h.linked h.registered (step_of_stepOk hstep)
  have hclients : t.mClients = (s.registry.apply (s.registryOp action)).mClients :=
    congrArg Registry.mClients hregistry
  rw [hclients]
  exact Registry.mClients_apply _ (keepsClients_registryOp s hnew hcleanup)

/-- A timeout logs out its client and no other. -/
theorem mLoggedOut_timeout {client : ConnectionId} {now : Nat} (h : s.Tabled)
    (hstep : s.stepOk (.timeout client now) = some t) :
    (t.connections client).mLoggedOut = true ∧
      ∀ c, c ≠ client → (t.connections c).mLoggedOut = (s.connections c).mLoggedOut := by
  obtain ⟨hregistry, -⟩ := registry_step h.linked h.registered (step_of_stepOk hstep)
  have hregistered : ∀ c, (t.connections c).mLoggedOut =
      ((s.registry.logoutClient client).clients c).mLoggedOut := fun c =>
    congrArg (fun r : Registry => (r.clients c).mLoggedOut) hregistry
  refine ⟨(hregistered client).trans (Registry.mLoggedOut_logoutClient _ client), fun c hne => ?_⟩
  rw [hregistered, Registry.clients_logoutClient_of_ne hne]
  rfl

/-- In every run, in any order of its steps, the table is in order. -/
theorem sessionTable_of_isRun {retained : AList fun _ : ByteString => RetainedMessage}
    {run : List (Action × ApplicationState τ)}
    (hrun : Runs.IsRun (Runs.StepOf stepOk) (initial retained) run) :
    Runs.AllStates SessionTable run := by
  have htabled : Runs.AllStates Tabled run :=
    hrun.invariant (fun _ _ _ h hstep => h.step (step_of_stepOk hstep)) (tabled_initial retained)
  exact fun x hx => sessionTable_of_registered (htabled x hx).registered (htabled x hx).present

end

/-- Two connections log in with one client id, and the second is logged out. -/
def takeOverAndLeave : List Action :=
  Action.requestLogin 0 [0x61] .no Action.kept_of_id ++ [.execute []] ++
    Action.requestLogin 1 [0x61] .yes (fun _ => rfl) ++ [.execute []] ++
    Action.requestLogout 1 ++ [.execute [], .cleanup]

theorem sessionTable_takeOverAndLeave :
    (Runs.runOf (@stepOk SubscriptionList .standard _) (initial ∅) takeOverAndLeave).length = 13 ∧
      Runs.AllStates SessionTable
        (Runs.runOf (@stepOk SubscriptionList .standard _) (initial ∅) takeOverAndLeave) :=
  ⟨by decide +kernel, @sessionTable_of_isRun SubscriptionList _ .standard _ _
    (Runs.isRun_runOf (@stepOk SubscriptionList .standard _) _ _)⟩

end ApplicationState

end NioevMqtt
