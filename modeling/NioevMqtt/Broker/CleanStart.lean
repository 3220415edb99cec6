-- SUMMARY: Over every run of the broker: logins that resume nothing start clean, exactly when they find no subscriptions and no request of an earlier connection is executed after them.
import NioevMqtt.Broker.Subscribers

/-!
# Clean starts

A session that is taken over without being resumed is the same object. Its packets
and identifiers are cleared; its subscriptions, and the requests for more of them
that wait in the queue, are not.
-/

namespace NioevMqtt

open Outcome

/-- A login: the connection, the client id it gets, and whether it asked for a
clean session. -/
structure Login where
  client : ConnectionId
  clientId : ByteString
  cleanSession : CleanSession

namespace ApplicationState

section

variable {τ : Type} {s t : ApplicationState τ} {login : Login} {action : Action}

/-! ## Logins -/

/-- The login a step executes. A connection that has been logged out by then does
not log in. -/
def executedLogin (s : ApplicationState τ) : Action → Option Login
  | .execute randomChars =>
    match s.mQueue with
    | ⟨.loginClient client clientId cleanSession, _⟩ :: _ =>
      if (s.connections client).mLoggedOut then none
      else
        (s.generatedFor randomChars (.loginClient client clientId cleanSession)).map
          fun generatedId => ⟨client, if clientId = [] then generatedId else clientId, cleanSession⟩
    | _ => none
  | _ => none

/-- The session stored under the client id of the login. -/
def storedSession (s : ApplicationState τ) (login : Login) : Option SessionId :=
  s.mPersistentClientStates.lookup login.clientId

/-- The session the login gets: the stored one, or the next. -/
def sessionFor (s : ApplicationState τ) (login : Login) : SessionId :=
  (s.storedSession login).getD s.nextSession

/-- Neither the login nor the session stored for it is clean. -/
def Resumes (s : ApplicationState τ) (login : Login) : Prop :=
  ∃ session ∈ s.storedSession login,
    login.cleanSession = .no ∧ (s.sessions session).mCleanSession = .no

instance (s : ApplicationState τ) (login : Login) : Decidable (s.Resumes login) :=
  inferInstanceAs (Decidable (∃ session ∈ s.storedSession login, _ ∧ _))

/-- What a login that is executed comes to. -/
structure LoggedIn (s : ApplicationState τ) (login : Login) (t : ApplicationState τ) : Prop where
  stored : t.storedSession login = some (s.sessionFor login)
  clean : ¬ s.Resumes login → (t.sessions (s.sessionFor login)).Clean
  mSubscriptions_eq : t.mSubscriptions = s.mSubscriptions

theorem sessionFor_of_stored {session : SessionId} (h : s.storedSession login = some session) :
    s.sessionFor login = session := by
  unfold sessionFor
  rw [h]
  rfl

theorem sessionFor_of_new (h : s.storedSession login = none) :
    s.sessionFor login = s.nextSession := by
  unfold sessionFor
  rw [h]
  rfl

/-- A login that resumes nothing, where there is a session: one of the two is clean. -/
theorem clean_of_not_resumes {session : SessionId} (hstored : s.storedSession login = some session)
    (h : ¬ s.Resumes login) :
    login.cleanSession = .yes ∨ (s.sessions session).mCleanSession = .yes := by
  cases hlogin : login.cleanSession with
  | yes => exact .inl rfl
  | no =>
      cases hsession : (s.sessions session).mCleanSession with
      | yes => exact .inr rfl
      | no => exact absurd ⟨session, hstored, hlogin, hsession⟩ h

variable [Libnioev] [SubscriptionTree τ]

omit [Libnioev] [SubscriptionTree τ] in
/-- Where the request at the head of the queue is a login and none is executed, its
connection is logged out. -/
theorem mLoggedOut_of_noLogin {randomChars : List ByteString} {request : Request}
    {queue : List Request} {generatedId : ByteString} (hqueue : s.mQueue = request :: queue)
    (hgenerated : s.generatedFor randomChars request.change = some generatedId)
    (hlogin : s.executedLogin (.execute randomChars) = none) {client : ConnectionId}
    {clientId : ByteString} {cleanSession : CleanSession}
    (hchange : request.change = .loginClient client clientId cleanSession) :
    (s.connections client).mLoggedOut = true := by
  obtain ⟨change, thread⟩ := request
  have hgenerated' : s.generatedFor randomChars (.loginClient client clientId cleanSession) =
      some generatedId := hchange ▸ hgenerated
  by_contra hin
  simp only at hchange
  simp only [executedLogin, hqueue, hchange, hin, hgenerated', Option.map_some] at hlogin
  cases hlogin

/-- What the login of a connection that is not logged out does, by the session it finds. -/
inductive LogsIn (s : ApplicationState τ) (login : Login) : ApplicationState τ → Prop where
  | existing {t : ApplicationState τ} {session : SessionId}
      (hstored : s.storedSession login = some session)
      (hok : s.loginExisting .worker login.client session login.cleanSession = .ok t) :
      LogsIn s login t
  | new (hnone : s.storedSession login = none) :
      LogsIn s login (s.loginNew login.client login.clientId login.cleanSession)

/-- A login that is executed is at the head of the queue, and its connection waits for it. -/
theorem logsIn_of_executedLogin (h : s.Linked) (hstep : s.stepOk action = some t)
    (hlogin : s.executedLogin action = some login) :
    ∃ queue, (view { s with mQueue := queue }).Attached ∧
      s.view.attached login.client = none ∧ LogsIn { s with mQueue := queue } login t := by
  have hsteps := steps_of_step (step_of_stepOk hstep)
  clear hstep
  cases hsteps with
  | @execute randomChars request queue generatedId _ hqueue hgenerated hok =>
      simp only [executedLogin, hqueue] at hlogin
      split at hlogin
      · next client clientId cleanSession thread _ heq =>
          cases heq
          split at hlogin
          · -- The login of a connection that is logged out does nothing.
            cases hlogin
          · next hin =>
              rw [hgenerated] at hlogin
              cases hlogin
              have hdequeued : (view { s with mQueue := queue }).Linked := h.view.dequeue hqueue
              refine ⟨queue, hdequeued.toAttached,
                h.freshLogin hqueue client clientId cleanSession rfl, ?_⟩
              rw [executeChangeRequest_eq] at hok
              simp only [visit, loginClient] at hok
              rw [if_neg hin] at hok
              split at hok
              · next session hstored => exact .existing hstored hok
              · next hnew =>
                  cases hok
                  exact .new hnew
      · cases hlogin
  | _ => cases hlogin

/-- The login itself. -/
theorem loggedIn_of_logsIn (h : s.view.Attached) (hclient : s.view.attached login.client = none)
    (hlogs : s.LogsIn login t) : s.LoggedIn login t := by
  cases hlogs with
  | @existing _ session hstored hok =>
      obtain ⟨u, hu, hreaches, hclean⟩ :=
        loginExisting_reaches h hclient .worker session login.cleanSession
      cases hu.symm.trans hok
      have hsession := sessionFor_of_stored hstored
      refine ⟨?_, fun hresumes => ?_, congrArg View.mSubscriptions hreaches.view_eq⟩
      · rw [hsession, ← hstored]
        exact congrArg (fun v => v.mPersistentClientStates.lookup login.clientId) hreaches.view_eq
      · rw [hsession]
        exact hclean (clean_of_not_resumes hstored hresumes)
  | new hnone =>
      obtain ⟨hreaches, hclean⟩ := loginNew_reaches h login.client login.clientId login.cleanSession
      have hsession := sessionFor_of_new hnone
      refine ⟨?_, fun _ => ?_, congrArg View.mSubscriptions hreaches.view_eq⟩
      · rw [hsession]
        refine (congrArg (fun v => v.mPersistentClientStates.lookup login.clientId)
          hreaches.view_eq).trans ?_
        exact AList.lookup_insert _
      · rw [hsession]
        exact hclean

theorem loggedIn_of_executedLogin (h : s.Linked) (hstep : s.stepOk action = some t)
    (hlogin : s.executedLogin action = some login) : s.LoggedIn login t := by
  obtain ⟨queue, hattached, hclient, hlogs⟩ := logsIn_of_executedLogin h hstep hlogin
  have hlogged := loggedIn_of_logsIn hattached hclient hlogs
  exact ⟨hlogged.stored, hlogged.clean, hlogged.mSubscriptions_eq⟩

/-! ## Subscriptions -/

omit [SubscriptionTree τ] [Libnioev] in
/-- The subscription of a session that a step executes, and the thread that asked
for it. -/
def executedSubscribe (s : ApplicationState τ) : Action → Option ((ByteString × SessionId) × Thread)
  | .execute _ =>
    match s.mQueue with
    | ⟨.subscribe (.session session) topic _ _, thread⟩ :: _ => some ((topic, session), thread)
    | _ => none
  | _ => none

omit [SubscriptionTree τ] [Libnioev] in
/-- A step executes one request. -/
theorem executedLogin_eq_none {pair : ByteString × SessionId} {thread : Thread}
    (h : s.executedSubscribe action = some (pair, thread)) : s.executedLogin action = none := by
  unfold executedSubscribe at h
  unfold executedLogin
  split at h
  · split at h
    · next hqueue => simp only [hqueue]
    · cases h
  · cases h

/-- The session is no subscriber. -/
def Unsubscribed (s : ApplicationState τ) (session : SessionId) : Prop :=
  ∀ filter, ¬ SubscriptionTree.Stores s.mSubscriptions filter (.session session)

theorem nextSession_le (h : s.Linked) (hstep : s.stepOk action = some t) :
    s.nextSession ≤ t.nextSession := by
  have hnext : t.view.nextSession = t.nextSession := rfl
  cases transition_of_step h (step_of_stepOk hstep) with
  | quiet haction hquiet hreaches =>
      rw [← hnext, hreaches.view_eq, hquiet.frame.2.2]
      exact le_rfl
  | logsOut haction hout hreaches =>
      rw [← hnext, hreaches.view_eq]
      exact (View.nextSession_logsOut hout).ge
  | executes hqueue hexecutes hreaches =>
      rw [← hnext, hreaches.view_eq]
      exact View.nextSession_executes hexecutes

variable [LawfulSubscriptionTree τ] {filter : ByteString} {session : SessionId}

/-- A session becomes a subscriber when its request is executed. -/
theorem stores_stepOk (h : s.Linked) (hstep : s.stepOk action = some t)
    (hstores : SubscriptionTree.Stores t.mSubscriptions filter (.session session)) :
    SubscriptionTree.Stores s.mSubscriptions filter (.session session) ∨
      ∃ thread, s.executedSubscribe action = some ((filter, session), thread) := by
  have hview : SubscriptionTree.Stores t.view.mSubscriptions filter (.session session) := hstores
  cases transition_of_step h (step_of_stepOk hstep) with
  | quiet haction hquiet hreaches =>
      rw [hreaches.view_eq, hquiet.frame.1] at hview
      exact .inl hview
  | logsOut haction hout hreaches =>
      rw [hreaches.view_eq] at hview
      exact .inl (View.stores_logsOut hout hview)
  | @executes randomChars t request queue v hqueue hexecutes hreaches =>
      rw [hreaches.view_eq] at hview
      refine (View.stores_executes hexecutes hview).imp_right ?_
      rintro ⟨qos, type, hchange⟩
      obtain ⟨change, thread⟩ := request
      cases hchange
      exact ⟨thread, by simp only [executedSubscribe, hqueue]⟩

/-- And it is one then. -/
theorem stores_of_executedSubscribe (h : s.Linked) (hstep : s.stepOk action = some t)
    {thread : Thread} (hsubscribe : s.executedSubscribe action = some ((filter, session), thread)) :
    SubscriptionTree.Stores t.mSubscriptions filter (.session session) := by
  unfold executedSubscribe at hsubscribe
  split at hsubscribe
  · split at hsubscribe
    · next id topic qos type thread' rest hrequest =>
        cases hsubscribe
        cases transition_of_step h (step_of_stepOk hstep) with
        | quiet haction => exact absurd rfl (haction _)
        | logsOut haction => exact absurd rfl (haction _)
        | executes hqueue hexecutes hreaches =>
            cases hrequest.symm.trans hqueue
            have hnew := View.stores_subscribe hexecutes
            rw [← hreaches.view_eq] at hnew
            exact hnew
    · cases hsubscribe
  · cases hsubscribe

end

end ApplicationState

/-! ## Histories -/

open ApplicationState (Action)

/-- The broker, and what has happened to its sessions. -/
structure History (τ : Type) where
  state : ApplicationState τ
  /-- The login just executed, if it resumed nothing. -/
  cleanStart : Option Login := none
  /-- The connections that have logged in to a session since it last started clean. -/
  loggedIn : SessionId → List ConnectionId := fun _ => []
  /-- The thread whose request was the last that subscribed a session. -/
  subscribedBy : ByteString × SessionId → Option Thread := fun _ => none

namespace History

section

variable {τ : Type} [Libnioev] [SubscriptionTree τ] {h h' : History τ} {action : Action}

/-- A login is written down. -/
def recordLogin (h : History τ) (login : Login) : SessionId → List ConnectionId :=
  let session := h.state.sessionFor login
  Function.update h.loggedIn session
    (if h.state.Resumes login then login.client :: h.loggedIn session else [login.client])

/-- A step of the broker. -/
def step (h : History τ) (action : Action) : Option (History τ) :=
  (h.state.stepOk action).map fun t =>
    { state := t
      cleanStart := (h.state.executedLogin action).filter fun login => ¬ h.state.Resumes login
      loggedIn :=
        match h.state.executedLogin action with
        | none => h.loggedIn
        | some login => h.recordLogin login
      subscribedBy :=
        match h.state.executedSubscribe action with
        | none => h.subscribedBy
        | some (pair, thread) => Function.update h.subscribedBy pair (some thread) }

/-- The broker before its first connection. -/
def initial (retained : AList fun _ : ByteString => RetainedMessage) : History τ where
  state := .initial retained

/-- The session of a login that has just been executed without a resume is empty. -/
def StartsEmpty (h : History τ) : Prop :=
  ∀ login ∈ h.cleanStart, ∃ session ∈ h.state.storedSession login,
    (h.state.sessions session).Clean ∧ h.state.Unsubscribed session

/-- Every subscription of a session is due to a connection that has logged in to it
since it started clean. -/
def SubscribedSince (h : History τ) : Prop :=
  ∀ filter session, SubscriptionTree.Stores h.state.mSubscriptions filter (.session session) →
    ∃ client ∈ h.loggedIn session, h.subscribedBy (filter, session) = some (.receiver client)

/-- Sessions that start clean start without subscriptions, and get them from their
own connections only. -/
def StartsClean (h : History τ) : Prop := h.StartsEmpty ∧ h.SubscribedSince

/-- A login that resumes nothing finds its session without subscriptions. -/
def FindsUnsubscribed (h : History τ) (action : Action) : Prop :=
  ∀ login ∈ h.state.executedLogin action, ¬ h.state.Resumes login →
    ∀ session ∈ h.state.storedSession login, h.state.Unsubscribed session

/-- A request to subscribe a session is that of a connection that has logged in to it
since it started clean. -/
def SubscribesOwn (h : History τ) (action : Action) : Prop :=
  ∀ request ∈ h.state.executedSubscribe action,
    ∃ client ∈ h.loggedIn request.1.2, request.2 = .receiver client

/-- The links, and that only sessions that exist have been logged in to. -/
structure Linked (h : History τ) : Prop where
  state : h.state.Linked
  loggedIn : ∀ session, h.loggedIn session ≠ [] → session < h.state.nextSession

theorem state_of_step (hstep : h.step action = some h') : h.state.stepOk action = some h'.state := by
  obtain ⟨t, ht, rfl⟩ := Option.map_eq_some_iff.mp hstep
  exact ht

theorem cleanStart_of_step (hstep : h.step action = some h') {login : Login} :
    h'.cleanStart = some login ↔
      h.state.executedLogin action = some login ∧ ¬ h.state.Resumes login := by
  obtain ⟨t, ht, rfl⟩ := Option.map_eq_some_iff.mp hstep
  rw [Option.filter_eq_some_iff, decide_eq_true_eq]

theorem loggedIn_of_login (hstep : h.step action = some h') {login : Login}
    (hlogin : h.state.executedLogin action = some login) : h'.loggedIn = h.recordLogin login := by
  obtain ⟨t, ht, rfl⟩ := Option.map_eq_some_iff.mp hstep
  simp only [hlogin]

theorem loggedIn_of_noLogin (hstep : h.step action = some h')
    (hlogin : h.state.executedLogin action = none) : h'.loggedIn = h.loggedIn := by
  obtain ⟨t, ht, rfl⟩ := Option.map_eq_some_iff.mp hstep
  simp only [hlogin]

theorem subscribedBy_of_subscribe (hstep : h.step action = some h') {pair : ByteString × SessionId}
    {thread : Thread} (hsubscribe : h.state.executedSubscribe action = some (pair, thread)) :
    h'.subscribedBy pair = some thread := by
  obtain ⟨t, ht, rfl⟩ := Option.map_eq_some_iff.mp hstep
  simp only [hsubscribe]
  exact Function.update_self _ _ _

theorem subscribedBy_of_noSubscribe (hstep : h.step action = some h')
    {pair : ByteString × SessionId}
    (hsubscribe : ¬ ∃ thread, h.state.executedSubscribe action = some (pair, thread)) :
    h'.subscribedBy pair = h.subscribedBy pair := by
  obtain ⟨t, ht, rfl⟩ := Option.map_eq_some_iff.mp hstep
  cases hexecuted : h.state.executedSubscribe action with
  | none => rfl
  | some request =>
      refine Function.update_of_ne ?_ _ _
      rintro rfl
      exact hsubscribe ⟨request.2, hexecuted⟩

/-! ## Steps -/

omit [SubscriptionTree τ] [Libnioev] in
/-- Who has logged in to a session stays in its list, unless it starts clean. -/
theorem mem_recordLogin_of_mem {login : Login} {session : SessionId} {client : ConnectionId}
    (hkept : session = h.state.sessionFor login → h.state.Resumes login)
    (hmem : client ∈ h.loggedIn session) : client ∈ h.recordLogin login session := by
  unfold recordLogin
  by_cases hsession : session = h.state.sessionFor login
  · rw [if_pos (hkept hsession), hsession, Function.update_self]
    exact List.mem_cons_of_mem _ (hsession ▸ hmem)
  · rw [Function.update_of_ne hsession]
    exact hmem

theorem Linked.step (hlinked : h.Linked) (hstep : h.step action = some h') : h'.Linked := by
  have hstate := state_of_step hstep
  have hnext := ApplicationState.nextSession_le hlinked.state hstate
  have ht := ApplicationState.linked_stepOk hlinked.state hstate
  refine ⟨ht, fun session hsession => ?_⟩
  cases hlogin : h.state.executedLogin action with
  | none =>
      rw [loggedIn_of_noLogin hstep hlogin] at hsession
      exact (hlinked.loggedIn session hsession).trans_le hnext
  | some login =>
      rw [loggedIn_of_login hstep hlogin] at hsession
      by_cases heq : session = h.state.sessionFor login
      · rw [heq]
        have hloggedIn := ApplicationState.loggedIn_of_executedLogin hlinked.state hstate hlogin
        exact ht.view.found login.clientId _ hloggedIn.stored
      · unfold recordLogin at hsession
        rw [Function.update_of_ne heq] at hsession
        exact (hlinked.loggedIn session hsession).trans_le hnext

omit [Libnioev] in
/-- A session that does not exist yet has no subscriptions. -/
theorem SubscribedSince.unsubscribed (hsince : h.SubscribedSince) (hlinked : h.Linked) :
    h.state.Unsubscribed h.state.nextSession := by
  intro filter hstores
  obtain ⟨client, hclient, -⟩ := hsince filter _ hstores
  exact lt_irrefl _ (hlinked.loggedIn _ (List.ne_nil_of_mem hclient))

/-- A login that resumes nothing leaves its session empty exactly where it finds it
without subscriptions. -/
theorem startsEmpty_step_iff (hlinked : h.Linked) (hsince : h.SubscribedSince)
    (hstep : h.step action = some h') : h'.StartsEmpty ↔ h.FindsUnsubscribed action := by
  have hloggedIn : ∀ login, h.state.executedLogin action = some login →
      h.state.LoggedIn login h'.state := fun _ hlogin =>
    ApplicationState.loggedIn_of_executedLogin hlinked.state (state_of_step hstep) hlogin
  constructor
  · intro hempty login hlogin hresumes session hstored
    obtain ⟨session', hstored', -, hunsubscribed⟩ :=
      hempty login ((cleanStart_of_step hstep).mpr ⟨hlogin, hresumes⟩)
    have hlogs := hloggedIn login hlogin
    cases hlogs.stored.symm.trans hstored'
    rw [ApplicationState.sessionFor_of_stored hstored] at hunsubscribed
    intro filter hstores
    refine hunsubscribed filter ?_
    rw [hlogs.mSubscriptions_eq]
    exact hstores
  · intro hfinds login hclean
    obtain ⟨hlogin, hresumes⟩ := (cleanStart_of_step hstep).mp hclean
    have hlogs := hloggedIn login hlogin
    refine ⟨_, hlogs.stored, hlogs.clean hresumes, ?_⟩
    unfold ApplicationState.Unsubscribed
    rw [hlogs.mSubscriptions_eq]
    cases hstored : h.state.storedSession login with
    | none =>
        rw [ApplicationState.sessionFor_of_new hstored]
        exact hsince.unsubscribed hlinked
    | some session =>
        rw [ApplicationState.sessionFor_of_stored hstored]
        exact hfinds login hlogin hresumes session hstored

variable [LawfulSubscriptionTree τ]

/-- A subscription is due to a connection of the session since its clean start, if the
one that is executed is, and no login finds a subscription it does not resume. -/
theorem SubscribedSince.step (hlinked : h.Linked) (hsince : h.SubscribedSince)
    (hstep : h.step action = some h') (hempty : h'.StartsEmpty) (hown : h.SubscribesOwn action) :
    h'.SubscribedSince := by
  have hstate := state_of_step hstep
  intro filter session hstores
  by_cases hsubscribe : ∃ thread, h.state.executedSubscribe action = some ((filter, session), thread)
  · obtain ⟨thread, hsubscribe⟩ := hsubscribe
    obtain ⟨client, hclient, hthread⟩ := hown _ hsubscribe
    rw [loggedIn_of_noLogin hstep (ApplicationState.executedLogin_eq_none hsubscribe),
      subscribedBy_of_subscribe hstep hsubscribe]
    exact ⟨client, hclient, congrArg some hthread⟩
  · have hold := (ApplicationState.stores_stepOk hlinked.state hstate hstores).resolve_right hsubscribe
    rw [subscribedBy_of_noSubscribe hstep hsubscribe]
    obtain ⟨client, hclient, hby⟩ := hsince filter session hold
    refine ⟨client, ?_, hby⟩
    cases hlogin : h.state.executedLogin action with
    | none =>
        rw [loggedIn_of_noLogin hstep hlogin]
        exact hclient
    | some login =>
        rw [loggedIn_of_login hstep hlogin]
        refine mem_recordLogin_of_mem (fun hsession => ?_) hclient
        -- Otherwise the session has just started empty, and has this subscription.
        refine Classical.byContradiction fun hresumes => ?_
        obtain ⟨session', hstored, -, hunsubscribed⟩ :=
          hempty login ((cleanStart_of_step hstep).mpr ⟨hlogin, hresumes⟩)
        have hlogs := ApplicationState.loggedIn_of_executedLogin hlinked.state hstate hlogin
        cases hlogs.stored.symm.trans hstored
        rw [← hsession] at hunsubscribed
        exact hunsubscribed filter hstores

/-- A step that executes a request to subscribe shows whose it is. -/
theorem SubscribedSince.subscribesOwn (hlinked : h.Linked) (hsince : h'.SubscribedSince)
    (hstep : h.step action = some h') : h.SubscribesOwn action := by
  rintro ⟨⟨filter, session⟩, thread⟩ hsubscribe
  have hstores :=
    ApplicationState.stores_of_executedSubscribe hlinked.state (state_of_step hstep) hsubscribe
  obtain ⟨client, hclient, hby⟩ := hsince filter session hstores
  rw [loggedIn_of_noLogin hstep (ApplicationState.executedLogin_eq_none hsubscribe)] at hclient
  rw [subscribedBy_of_subscribe hstep hsubscribe] at hby
  exact ⟨client, hclient, Option.some.inj hby⟩

theorem startsClean_step_iff (hlinked : h.Linked) (hclean : h.StartsClean)
    (hstep : h.step action = some h') :
    h'.StartsClean ↔ h.FindsUnsubscribed action ∧ h.SubscribesOwn action := by
  have hempty := startsEmpty_step_iff hlinked hclean.2 hstep
  constructor
  · exact fun ⟨hstarts, hsince⟩ => ⟨hempty.mp hstarts, hsince.subscribesOwn hlinked hstep⟩
  · rintro ⟨hfinds, hown⟩
    have hstarts := hempty.mpr hfinds
    exact ⟨hstarts, hclean.2.step hlinked hstep hstarts hown⟩

omit [Libnioev] [LawfulSubscriptionTree τ] in
theorem linked_initial (retained : AList fun _ : ByteString => RetainedMessage) :
    (initial retained : History τ).Linked :=
  ⟨ApplicationState.linked_initial retained, fun _ hsession => absurd rfl hsession⟩

omit [Libnioev] in
theorem startsClean_initial (retained : AList fun _ : ByteString => RetainedMessage) :
    (initial retained : History τ).StartsClean :=
  ⟨fun _ hlogin => absurd hlogin (Option.not_mem_none _),
    fun _ _ hstores => absurd hstores (LawfulSubscriptionTree.stores_empty _ _)⟩

/-- Over every run: logins that resume nothing start clean, exactly when they find no
subscriptions of their session and only its own connections' requests are executed
after them. -/
theorem startsClean_iff_findsUnsubscribed
    {retained : AList fun _ : ByteString => RetainedMessage} {run : List (Action × History τ)}
    (hrun : Runs.IsRun (Runs.StepOf step) (initial retained) run) :
    Runs.AllStates StartsClean run ↔
      Runs.AllSteps (fun h action => h.FindsUnsubscribed action ∧ h.SubscribesOwn action)
        (initial retained) run :=
  hrun.allStates_iff_allSteps
    (fun _ _ _ hlinked _ _ hstep => hlinked.step hstep)
    (fun _ _ _ hlinked hclean hstep => startsClean_step_iff hlinked hclean hstep)
    (linked_initial retained) (startsClean_initial retained)

instance (s : ApplicationState SubscriptionList) (session : SessionId) :
    Decidable (s.Unsubscribed session) :=
  decidable_of_iff (∀ filter id,
      SubscriptionTree.Stores s.mSubscriptions filter (.session id) → id ≠ session)
    ⟨fun h filter hstores => h filter session hstores rfl,
      fun h filter _ hstores heq => h filter (heq ▸ hstores)⟩

instance (session : PersistentClientState) : Decidable session.Clean :=
  decidable_of_iff (session.mHighQoSSendingPackets.entries = [] ∧
      session.mQos2pubrecReceived = ∅ ∧ session.mQoS2receivingPacketIds = ∅)
    ⟨fun ⟨h, h', h''⟩ => ⟨AList.ext h, h', h''⟩,
      fun h => ⟨congrArg AList.entries h.sendingPackets, h.pubrecReceived, h.receivingPacketIds⟩⟩

instance (h : History SubscriptionList) : Decidable h.StartsClean :=
  have : Decidable h.SubscribedSince :=
    SubscriptionList.decidableForallSession h.state.mSubscriptions fun filter session =>
      ∃ client ∈ h.loggedIn session, h.subscribedBy (filter, session) = some (.receiver client)
  have : Decidable h.StartsEmpty :=
    inferInstanceAs (Decidable (∀ login ∈ h.cleanStart, ∃ session ∈ h.state.storedSession login, _ ∧ _))
  inferInstanceAs (Decidable (h.StartsEmpty ∧ h.SubscribedSince))

instance (h : History SubscriptionList) (action : Action) :
    Decidable (h.FindsUnsubscribed action ∧ h.SubscribesOwn action) := by
  unfold FindsUnsubscribed SubscribesOwn
  infer_instance

end

/-! ## A session that is taken over -/

/-- A client logs in with a session to be kept. -/
def keptLogin : List Action :=
  Action.requestLogin 0 [0x61] .no Action.kept_of_id ++ [.execute []]

/-- It subscribes. -/
def subscribeFirst : List Action := Action.requestSubscribe 0 [0x74] .qos1 ++ [.execute []]

/-- Another connection takes the session over, and wants it clean. -/
def cleanTakeover : List Action :=
  Action.requestLogin 1 [0x61] .yes (fun _ => rfl) ++ [.execute []]

/-- It subscribes. -/
def subscribeSecond : List Action := Action.requestSubscribe 1 [0x75] .qos1 ++ [.execute []]

theorem startsClean_takeover :
    (Runs.runOf (@step SubscriptionList .standard _) (initial ∅)
        (keptLogin ++ cleanTakeover ++ subscribeSecond)).length = 13 ∧
      Runs.AllStates StartsClean (Runs.runOf (@step SubscriptionList .standard _) (initial ∅)
        (keptLogin ++ cleanTakeover ++ subscribeSecond)) :=
  ⟨by decide +kernel, (@startsClean_iff_findsUnsubscribed SubscriptionList .standard _ _ ∅ _
    (Runs.isRun_runOf (@step SubscriptionList .standard _) _ _)).mpr (by decide +kernel)⟩

/-- The subscription of the first connection is there after the clean takeover. -/
theorem not_startsClean_takeover :
    ∃ run, Runs.IsRun (Runs.StepOf (@step SubscriptionList .standard _)) (initial ∅) run ∧
      ¬ Runs.AllStates StartsClean run := by
  refine ⟨_, Runs.isRun_runOf (@step SubscriptionList .standard _) _
    (keptLogin ++ subscribeFirst ++ cleanTakeover), ?_⟩
  decide +kernel

end History

end NioevMqtt
