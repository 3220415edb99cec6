-- SUMMARY: Which connection has which session: the broker seen without its messages, and the invariant of its logins and logouts.
import NioevMqtt.Broker.Threads
import NioevMqtt.Library.PartialInverse

/-!
# Attachments

Of the broker's state this keeps what says which connection has which session, and
what the logins to come are. A connection logs in once; a connection and a session
that are attached point at each other.
-/

namespace NioevMqtt

/-- The broker without its messages. -/
structure View (τ : Type) where
  attached : ConnectionId → Option SessionId
  currentClient : SessionId → Option ConnectionId
  mState : ConnectionId → ConnectionState
  mClients : List ConnectionId
  nextConnection : ConnectionId
  nextSession : SessionId
  mPersistentClientStates : AList (fun _ : ByteString => SessionId)
  mSubscriptions : τ
  mQueue : List Request
  work : Thread → List Work

def ApplicationState.view {τ : Type} (s : ApplicationState τ) : View τ where
  attached := fun client => (s.connections client).mPersistentClientState
  currentClient := fun session => (s.sessions session).mCurrentClient
  mState := fun client => (s.connections client).mState
  mClients := s.mClients
  nextConnection := s.nextConnection
  nextSession := s.nextSession
  mPersistentClientStates := s.mPersistentClientStates
  mSubscriptions := s.mSubscriptions
  mQueue := s.mQueue
  work := s.work

namespace View

variable {τ : Type}

/-! ## Operations -/

def setWork (v : View τ) (thread : Thread) (work : List Work) : View τ :=
  { v with work := Function.update v.work thread work }

@[simp] theorem setWork_work (v : View τ) (thread : Thread) (work : List Work) :
    (v.setWork thread work).work thread = work := Function.update_self _ _ _

theorem setWork_work_of_ne (v : View τ) {thread t : Thread} (h : t ≠ thread) (work : List Work) :
    (v.setWork thread work).work t = v.work t := Function.update_of_ne h _ _

def setQueue (v : View τ) (queue : List Request) : View τ := { v with mQueue := queue }

def setSubscriptions (v : View τ) (subscriptions : τ) : View τ :=
  { v with mSubscriptions := subscriptions }

def setClients (v : View τ) (clients : List ConnectionId) : View τ := { v with mClients := clients }

def newConnection (v : View τ) : View τ :=
  { v with
    nextConnection := v.nextConnection + 1
    mClients := v.mClients ++ [v.nextConnection]
    attached := Function.update v.attached v.nextConnection none
    mState := Function.update v.mState v.nextConnection .initial }

def setState (v : View τ) (client : ConnectionId) (state : ConnectionState) : View τ :=
  { v with mState := Function.update v.mState client state }

/-- The session gets the connection in place of the one it had. -/
def attach (v : View τ) (client : ConnectionId) (session : SessionId) : View τ :=
  { v with
    attached := Function.update
      (match v.currentClient session with
        | some old => Function.update v.attached old none
        | none => v.attached) client (some session)
    currentClient := Function.update v.currentClient session (some client) }

def detach (v : View τ) (client : ConnectionId) (session : SessionId) : View τ :=
  { v with
    attached := Function.update v.attached client none
    currentClient := Function.update v.currentClient session none }

/-- A new session without a connection, under a client id. -/
def openSession (v : View τ) (clientId : ByteString) : View τ :=
  { v with
    nextSession := v.nextSession + 1
    mPersistentClientStates := v.mPersistentClientStates.insert clientId v.nextSession }

def closeSession [SubscriptionTree τ] (v : View τ) (clientId : ByteString) (session : SessionId) :
    View τ :=
  { v with
    mPersistentClientStates := v.mPersistentClientStates.erase clientId
    mSubscriptions :=
      SubscriptionTree.removeAllSubscriptions v.mSubscriptions ⟨.session session, .qos0⟩ }

/-- All that a logout can do. -/
inductive LogsOut [SubscriptionTree τ] (v : View τ) (client : ConnectionId) : View τ → Prop
  | nothing : LogsOut v client v
  | detaches {session} (hattached : v.attached client = some session) :
      LogsOut v client (v.detach client session)
  | closes {session clientId} (hattached : v.attached client = some session)
      (hfound : v.mPersistentClientStates.lookup clientId = some session) :
      LogsOut v client ((v.detach client session).closeSession clientId session)

/-- All that a login can do. -/
inductive LogsIn (v : View τ) (client : ConnectionId) : View τ → Prop
  | nothing : LogsIn v client v
  | takesOver {session clientId} (hfound : v.mPersistentClientStates.lookup clientId = some session) :
      LogsIn v client ((v.attach client session).setState client .connected)
  | opens {clientId} (hnew : clientId ∉ v.mPersistentClientStates) :
      LogsIn v client
        (((v.openSession clientId).attach client v.nextSession).setState client .connected)

/-- All that the execution of a change request can do. -/
inductive Executes [SubscriptionTree τ] (v : View τ) : ChangeRequest → View τ → Prop
  | subscribe {subscriber topic qos type} :
      Executes v (.subscribe subscriber topic qos type)
        (v.setSubscriptions
          (SubscriptionTree.addSubscription v.mSubscriptions topic ⟨subscriber, qos⟩))
  | unsubscribe {subscriber topic} :
      Executes v (.unsubscribe subscriber topic)
        (v.setSubscriptions
          (SubscriptionTree.removeSubscription v.mSubscriptions topic ⟨subscriber, .qos0⟩))
  | unsubscribeFromAll {subscriber} :
      Executes v (.unsubscribeFromAll subscriber)
        (v.setSubscriptions
          (SubscriptionTree.removeAllSubscriptions v.mSubscriptions ⟨subscriber, .qos0⟩))
  | retain {packet} : Executes v (.retain packet) v
  | loginClient {client clientId cleanSession v'} (hin : v.LogsIn client v') :
      Executes v (.loginClient client clientId cleanSession) v'
  | logoutClient {client v'} (hout : v.LogsOut client v') : Executes v (.logoutClient client) v'
  | deleteScript {script} :
      Executes v (.deleteScript script)
        (v.setSubscriptions
          (SubscriptionTree.removeAllSubscriptions v.mSubscriptions ⟨.other script, .qos0⟩))

/-! ## Logins to come -/

/-- The connections that wait for their login. -/
def logins (queue : List Request) : List ConnectionId :=
  queue.filterMap fun request =>
    match request.change with
    | .loginClient client _ _ => some client
    | _ => none

def IsLogin (change : ChangeRequest) : Prop :=
  ∃ client clientId cleanSession, change = .loginClient client clientId cleanSession

/-- Nobody is to be logged in by this work. -/
def NoLogin (work : List Work) : Prop := ∀ change, IsLogin change → .request change ∉ work

/-- What the steps do that neither execute a request nor log a client out. -/
inductive Quiet (v : View τ) : View τ → Prop
  | refl : Quiet v v
  | newConnection : Quiet v v.newConnection
  | requestLogin {client clientId cleanSession} (hclient : client ∈ v.mClients)
      (hstate : v.mState client = .initial) :
      Quiet v ((v.setState client .connecting).setWork (.receiver client)
        [.request (.loginClient client clientId cleanSession)])
  | rejectVersion {client} (hclient : client ∈ v.mClients) (hstate : v.mState client = .initial) :
      Quiet v (v.setState client .invalidProtocolVersion)
  | setWork {thread work} (hwork : NoLogin work) : Quiet v (v.setWork thread work)
  | enqueue {thread change rest} (hwork : v.work thread = .request change :: rest) :
      Quiet v ((v.setWork thread rest).setQueue (v.mQueue ++ [⟨change, thread⟩]))
  | setClients {clients} (hsub : clients ⊆ v.mClients) : Quiet v (v.setClients clients)

theorem logins_append_of_not {queue : List Request} {request : Request}
    (h : ¬ IsLogin request.change) : logins (queue ++ [request]) = logins queue := by
  unfold logins
  rw [List.filterMap_append, List.filterMap_cons_none, List.filterMap_nil, List.append_nil]
  split
  · next hchange => exact absurd ⟨_, _, _, hchange⟩ h
  · rfl

theorem logins_append {queue : List Request} {request : Request} {client : ConnectionId}
    {clientId : ByteString} {cleanSession : CleanSession}
    (h : request.change = .loginClient client clientId cleanSession) :
    logins (queue ++ [request]) = logins queue ++ [client] := by
  unfold logins
  rw [List.filterMap_append, List.filterMap_cons_some (by rw [h]), List.filterMap_nil]

/-- A connection and its session point at each other. -/
structure Attached (v : View τ) : Prop where
  inverse : Links.Inverse v.attached v.currentClient
  connected : ∀ client, v.attached client ≠ none → v.mState client = .connected
  freshSession : ∀ session, v.nextSession ≤ session → v.currentClient session = none
  found : ∀ clientId session, v.mPersistentClientStates.lookup clientId = some session →
    session < v.nextSession

/-- A login that is still to come is the only one of its connection. -/
structure LoginsOnce (v : View τ) : Prop where
  freshConnection : ∀ client, v.nextConnection ≤ client → v.mState client = .initial
  clients : ∀ client ∈ v.mClients, client < v.nextConnection
  queued : ∀ client ∈ logins v.mQueue, v.mState client = .connecting
  once : (logins v.mQueue).Nodup
  working : ∀ thread client clientId cleanSession,
    .request (.loginClient client clientId cleanSession) ∈ v.work thread →
      thread = .receiver client ∧
        v.work thread = [.request (.loginClient client clientId cleanSession)] ∧
        v.mState client = .connecting ∧ client ∉ logins v.mQueue

structure Linked (v : View τ) : Prop extends Attached v, LoginsOnce v

theorem linked_initial [SubscriptionTree τ]
    (retained : AList fun _ : ByteString => RetainedMessage) :
    (ApplicationState.initial retained : ApplicationState τ).view.Linked where
  inverse := Links.inverse_none
  connected := fun _ h => absurd rfl h
  freshConnection := fun _ _ => rfl
  clients := fun _ h => by cases h
  freshSession := fun _ _ => rfl
  found := fun _ _ h => by cases h
  queued := fun _ h => by cases h
  once := List.nodup_nil
  working := fun _ _ _ _ h => by cases h

variable {v : View τ} {client : ConnectionId} {session : SessionId}

theorem Attached.unattached (h : v.Attached) (hstate : v.mState client ≠ .connected) :
    v.attached client = none :=
  Classical.byContradiction fun hattached => hstate (h.connected client hattached)

/-! ## Connecting -/

theorem Linked.newConnection_eq (h : v.Linked) :
    v.newConnection = { v with
      nextConnection := v.nextConnection + 1
      mClients := v.mClients ++ [v.nextConnection] } := by
  have hnext := h.freshConnection v.nextConnection le_rfl
  have hnone := h.toAttached.unattached (by rw [hnext]; decide : v.mState v.nextConnection ≠ .connected)
  have hattached : Function.update v.attached v.nextConnection none = v.attached := by
    rw [← hnone]
    exact Function.update_eq_self _ _
  have hstate : Function.update v.mState v.nextConnection .initial = v.mState := by
    rw [← hnext]
    exact Function.update_eq_self _ _
  rw [View.newConnection, hattached, hstate]

theorem Linked.newConnection (h : v.Linked) : v.newConnection.Linked := by
  rw [h.newConnection_eq]
  refine ⟨⟨h.inverse, h.connected, h.freshSession, h.found⟩, ?_, ?_, h.queued, h.once, h.working⟩
  · exact fun client hle => h.freshConnection client (Nat.le_of_succ_le hle)
  · intro client hclient
    rcases List.mem_append.mp hclient with hold | hnew
    · exact Nat.lt_succ_of_lt (h.clients client hold)
    · rw [List.mem_singleton.mp hnew]
      exact Nat.lt_succ_self _

/-- The state of a connection that waits for nothing changes. -/
theorem Linked.setState (h : v.Linked) {state : ConnectionState} (hclient : client ∈ v.mClients)
    (hstate : v.mState client ≠ .connected) (hwaits : v.mState client ≠ .connecting) :
    (v.setState client state).Linked := by
  have hother : ∀ c, v.mState c = .connected ∨ v.mState c = .connecting ∨
      v.nextConnection ≤ c → (v.setState client state).mState c = v.mState c := by
    intro c hc
    refine Function.update_of_ne ?_ _ _
    rintro rfl
    rcases hc with hc | hc | hc
    · exact hstate hc
    · exact hwaits hc
    · exact absurd (h.clients c hclient) (Nat.not_lt.mpr hc)
  refine ⟨⟨h.inverse, ?_, h.freshSession, h.found⟩, ?_, h.clients, ?_, h.once, ?_⟩
  · intro c hc
    rw [hother c (.inl (h.connected c hc))]
    exact h.connected c hc
  · intro c hc
    rw [hother c (.inr (.inr hc))]
    exact h.freshConnection c hc
  · intro c hc
    rw [hother c (.inr (.inl (h.queued c hc)))]
    exact h.queued c hc
  · intro thread c clientId cleanSession hwork
    obtain ⟨hthread, honly, hconnecting, hqueue⟩ := h.working thread c clientId cleanSession hwork
    refine ⟨hthread, honly, ?_, hqueue⟩
    rw [hother c (.inr (.inl hconnecting))]
    exact hconnecting

/-! ## Work and queues -/

theorem Linked.setWork (h : v.Linked) {thread : Thread} {work : List Work} (hwork : NoLogin work) :
    (v.setWork thread work).Linked := by
  refine ⟨⟨h.inverse, h.connected, h.freshSession, h.found⟩, h.freshConnection, h.clients, h.queued,
    h.once, ?_⟩
  intro t client clientId cleanSession hmem
  have hne : t ≠ thread := by
    rintro rfl
    rw [setWork_work] at hmem
    exact hwork _ ⟨_, _, _, rfl⟩ hmem
  rw [v.setWork_work_of_ne hne] at hmem ⊢
  exact h.working t client clientId cleanSession hmem

/-- A connection asks for its login. -/
theorem Linked.requestLogin (h : v.Linked) (hclient : client ∈ v.mClients)
    (hstate : v.mState client = .initial) (clientId : ByteString) (cleanSession : CleanSession) :
    ((v.setState client .connecting).setWork (.receiver client)
      [.request (.loginClient client clientId cleanSession)]).Linked := by
  have hset : (v.setState client .connecting).Linked :=
    h.setState hclient (by rw [hstate]; decide) (by rw [hstate]; decide)
  refine ⟨⟨hset.inverse, hset.connected, hset.freshSession, hset.found⟩, hset.freshConnection,
    hset.clients, hset.queued, hset.once, ?_⟩
  intro t c id clean hmem
  by_cases ht : t = .receiver client
  · subst ht
    rw [setWork_work] at hmem ⊢
    cases List.mem_singleton.mp hmem
    refine ⟨rfl, rfl, Function.update_self _ _ _, fun hqueued => ?_⟩
    have hconnecting := h.queued client hqueued
    rw [hstate] at hconnecting
    cases hconnecting
  · rw [setWork_work_of_ne _ ht] at hmem ⊢
    exact hset.working t c id clean hmem

/-- A login is all the work of its thread. -/
theorem Linked.noLogin_rest (h : v.Linked) {thread : Thread} {work : Work} {rest : List Work}
    (hwork : v.work thread = work :: rest) : NoLogin rest := by
  rintro _ ⟨client, clientId, cleanSession, rfl⟩ hmem
  have hall := (h.working thread client clientId cleanSession
    (by rw [hwork]; exact List.mem_cons_of_mem _ hmem)).2.1
  rw [hwork] at hall
  cases hall
  cases hmem

/-- The first piece of work is a request, and it is queued. -/
theorem Linked.enqueue (h : v.Linked) {thread : Thread} {change : ChangeRequest}
    {rest : List Work} (hwork : v.work thread = .request change :: rest) :
    ((v.setWork thread rest).setQueue (v.mQueue ++ [⟨change, thread⟩])).Linked := by
  have hrest : NoLogin rest := h.noLogin_rest hwork
  have hset : (v.setWork thread rest).Linked := h.setWork hrest
  by_cases hlogin : IsLogin change
  · obtain ⟨client, clientId, cleanSession, rfl⟩ := hlogin
    obtain ⟨hthread, hall, hstate, hqueue⟩ := h.working thread client clientId cleanSession
      (by rw [hwork]; exact List.mem_cons_self)
    refine ⟨⟨h.inverse, h.connected, h.freshSession, h.found⟩, h.freshConnection, h.clients, ?_, ?_, ?_⟩
    · intro c hc
      rw [setQueue, logins_append rfl] at hc
      rcases List.mem_append.mp hc with hold | hnew
      · exact h.queued c hold
      · rw [List.mem_singleton.mp hnew]
        exact hstate
    · rw [setQueue, logins_append rfl]
      rw [← List.concat_eq_append]
      exact h.once.concat hqueue
    · intro t c id clean hmem
      obtain ⟨ht, honly, hconnecting, hfree⟩ := hset.working t c id clean hmem
      refine ⟨ht, honly, hconnecting, ?_⟩
      rw [setQueue, logins_append rfl]
      refine fun hc => (List.mem_append.mp hc).elim hfree fun hnew => ?_
      -- A thread has the login of its own connection only.
      have heq := List.mem_singleton.mp hnew
      subst heq
      rw [hthread, ht] at hmem
      change _ ∈ (v.setWork _ rest).work _ at hmem
      rw [setWork_work] at hmem
      exact hrest _ ⟨_, _, _, rfl⟩ hmem
  · refine ⟨⟨h.inverse, h.connected, h.freshSession, h.found⟩, h.freshConnection, h.clients, ?_, ?_, ?_⟩
    · rw [setQueue, logins_append_of_not hlogin]
      exact h.queued
    · rw [setQueue, logins_append_of_not hlogin]
      exact h.once
    · rw [setQueue, logins_append_of_not hlogin]
      exact hset.working

/-- The first request is taken from the queue. -/
theorem Linked.dequeue (h : v.Linked) {request : Request} {queue : List Request}
    (hqueue : v.mQueue = request :: queue) : (v.setQueue queue).Linked := by
  have hsub : (logins queue).Sublist (logins v.mQueue) := by
    rw [hqueue]
    exact (List.sublist_cons_self request queue).filterMap _
  refine ⟨⟨h.inverse, h.connected, h.freshSession, h.found⟩, h.freshConnection, h.clients, ?_,
    h.once.sublist hsub, ?_⟩
  · exact fun client hc => h.queued client (hsub.subset hc)
  · intro thread client clientId cleanSession hmem
    obtain ⟨hthread, honly, hstate, hfree⟩ := h.working thread client clientId cleanSession hmem
    exact ⟨hthread, honly, hstate, fun hc => hfree (hsub.subset hc)⟩

theorem Linked.setSubscriptions (h : v.Linked) (subscriptions : τ) :
    (v.setSubscriptions subscriptions).Linked :=
  ⟨⟨h.inverse, h.connected, h.freshSession, h.found⟩, h.freshConnection, h.clients, h.queued, h.once,
    h.working⟩

theorem Linked.setClients (h : v.Linked) {clients : List ConnectionId}
    (hsub : clients ⊆ v.mClients) : (v.setClients clients).Linked :=
  ⟨⟨h.inverse, h.connected, h.freshSession, h.found⟩, h.freshConnection,
    fun client hclient => h.clients client (hsub hclient), h.queued, h.once, h.working⟩

/-! ## Logout -/

theorem Linked.detach (h : v.Linked) (hattached : v.attached client = some session) :
    (v.detach client session).Linked := by
  refine ⟨⟨h.inverse.cut hattached, ?_, ?_, h.found⟩, h.freshConnection, h.clients, h.queued, h.once,
    h.working⟩
  · intro c hc
    refine h.connected c fun hnone => hc ?_
    by_cases heq : c = client
    · exact heq ▸ Function.update_self _ _ _
    · exact (Function.update_of_ne heq _ _).trans hnone
  · intro id hid
    by_cases heq : id = session
    · exact heq ▸ Function.update_self _ _ _
    · exact (Function.update_of_ne heq _ _).trans (h.freshSession id hid)

theorem Linked.closeSession [SubscriptionTree τ] (h : v.Linked) (clientId : ByteString) :
    (v.closeSession clientId session).Linked := by
  refine ⟨⟨h.inverse, h.connected, h.freshSession, ?_⟩, h.freshConnection, h.clients, h.queued, h.once,
    h.working⟩
  intro clientId' id hlookup
  refine h.found clientId' id ?_
  by_cases heq : clientId' = clientId
  · subst heq
    rw [View.closeSession, AList.lookup_erase] at hlookup
    cases hlookup
  · exact (AList.lookup_erase_ne heq).symm.trans hlookup

theorem Linked.logsOut [SubscriptionTree τ] {v' : View τ} (h : v.Linked)
    (hout : v.LogsOut client v') : v'.Linked := by
  cases hout with
  | nothing => exact h
  | detaches hattached => exact h.detach hattached
  | closes hattached => exact (h.detach hattached).closeSession _

/-! ## Login -/

/-- A session that is known gets a connection that has none. -/
theorem Attached.attach (h : v.Attached) (hclient : v.attached client = none)
    (hsession : session < v.nextSession) :
    Links.Inverse (v.attach client session).attached (v.attach client session).currentClient ∧
      (∀ c, (v.attach client session).attached c ≠ none → c = client ∨ v.attached c ≠ none) ∧
      ∀ id, v.nextSession ≤ id → (v.attach client session).currentClient id = none := by
  have hfresh : ∀ id, v.nextSession ≤ id → (v.attach client session).currentClient id = none := by
    intro id hid
    have hne : id ≠ session := by
      rintro rfl
      exact absurd hsession (Nat.not_lt.mpr hid)
    exact (Function.update_of_ne hne _ _).trans (h.freshSession id hid)
  refine ⟨?_, fun c hc => ?_, hfresh⟩
  · have hreplaced := h.inverse.replace hclient (b := session)
    unfold View.attach
    cases hcurrent : v.currentClient session with
    | none =>
        rw [hcurrent] at hreplaced
        exact hreplaced
    | some old =>
        rw [hcurrent] at hreplaced
        exact hreplaced
  · by_cases heq : c = client
    · exact .inl heq
    · refine .inr fun hnone => hc ?_
      refine (Function.update_of_ne heq _ _).trans ?_
      cases hcurrent : v.currentClient session with
      | none => exact hnone
      | some old =>
          by_cases hold : c = old
          · exact hold ▸ Function.update_self _ _ _
          · exact (Function.update_of_ne hold _ _).trans hnone

/-- A connection whose login was waiting is attached and connected. -/
theorem Linked.attach (h : v.Linked) (hstate : v.mState client = .connecting)
    (hqueue : client ∉ logins v.mQueue)
    (hwork : ∀ clientId cleanSession,
      .request (.loginClient client clientId cleanSession) ∉ v.work (.receiver client))
    (hsession : session < v.nextSession) :
    ((v.attach client session).setState client .connected).Linked := by
  have hclient : v.attached client = none := h.unattached (by rw [hstate]; decide)
  obtain ⟨hinverse, hattached, hfresh⟩ := h.toAttached.attach hclient hsession
  have hother : ∀ c, c ≠ client →
      ((v.attach client session).setState client .connected).mState c = v.mState c :=
    fun c hc => Function.update_of_ne hc _ _
  refine ⟨⟨hinverse, ?_, hfresh, h.found⟩, ?_, h.clients, ?_, h.once, ?_⟩
  · intro c hc
    by_cases heq : c = client
    · exact heq ▸ Function.update_self _ _ _
    · rw [hother c heq]
      exact h.connected c ((hattached c hc).resolve_left heq)
  · intro c hc
    have hne : c ≠ client := by
      rintro rfl
      rw [h.freshConnection c hc] at hstate
      cases hstate
    rw [hother c hne]
    exact h.freshConnection c hc
  · intro c hc
    rw [hother c (fun heq => hqueue (heq ▸ hc))]
    exact h.queued c hc
  · intro thread c clientId cleanSession hmem
    obtain ⟨hthread, honly, hconnecting, hfree⟩ := h.working thread c clientId cleanSession hmem
    have hne : c ≠ client := by
      rintro rfl
      exact hwork clientId cleanSession (hthread ▸ hmem)
    exact ⟨hthread, honly, (hother c hne).trans hconnecting, hfree⟩

theorem Linked.openSession (h : v.Linked) (clientId : ByteString) :
    (v.openSession clientId).Linked := by
  refine ⟨⟨h.inverse, h.connected, ?_, ?_⟩, h.freshConnection, h.clients, h.queued, h.once, h.working⟩
  · exact fun id hid => h.freshSession id (Nat.le_of_succ_le hid)
  · intro clientId' id hlookup
    by_cases heq : clientId' = clientId
    · subst heq
      rw [View.openSession, AList.lookup_insert] at hlookup
      cases hlookup
      exact Nat.lt_succ_self _
    · rw [View.openSession, AList.lookup_insert_ne heq] at hlookup
      exact Nat.lt_succ_of_lt (h.found clientId' id hlookup)

theorem Linked.logsIn {v' : View τ} (h : v.Linked) (hstate : v.mState client = .connecting)
    (hqueue : client ∉ logins v.mQueue)
    (hwork : ∀ clientId cleanSession,
      .request (.loginClient client clientId cleanSession) ∉ v.work (.receiver client))
    (hin : v.LogsIn client v') : v'.Linked := by
  cases hin with
  | nothing => exact h
  | takesOver hfound => exact h.attach hstate hqueue hwork (h.found _ _ hfound)
  | opens hnew => exact (h.openSession _).attach hstate hqueue hwork (Nat.lt_succ_self _)

/-- What is known of a connection whose login is taken from the queue. -/
theorem Linked.dequeuedLogin (h : v.Linked) {request : Request} {queue : List Request}
    (hqueue : v.mQueue = request :: queue) {clientId : ByteString} {cleanSession : CleanSession}
    (hchange : request.change = .loginClient client clientId cleanSession) :
    v.mState client = .connecting ∧ client ∉ logins queue ∧
      ∀ clientId cleanSession,
        .request (.loginClient client clientId cleanSession) ∉ v.work (.receiver client) := by
  have hlogins : logins v.mQueue = client :: logins queue := by
    rw [hqueue]
    exact List.filterMap_cons_some (by rw [hchange])
  have hmem : client ∈ logins v.mQueue := by
    rw [hlogins]
    exact List.mem_cons_self
  refine ⟨h.queued client hmem, ?_, ?_⟩
  · have honce := h.once
    rw [hlogins] at honce
    exact (List.nodup_cons.mp honce).1
  · intro id clean hwork
    exact (h.working _ client id clean hwork).2.2.2 hmem

/-- The request at the head of the queue is executed. -/
theorem Linked.executes [SubscriptionTree τ] (h : v.Linked) {request : Request}
    {queue : List Request} (hqueue : v.mQueue = request :: queue) {v' : View τ}
    (hexecutes : (v.setQueue queue).Executes request.change v') : v'.Linked := by
  have hdequeued := h.dequeue hqueue
  generalize hchange : request.change = change at hexecutes
  cases hexecutes with
  | subscribe => exact hdequeued.setSubscriptions _
  | unsubscribe => exact hdequeued.setSubscriptions _
  | unsubscribeFromAll => exact hdequeued.setSubscriptions _
  | retain => exact hdequeued
  | loginClient hin =>
      obtain ⟨hstate, hfree, hwork⟩ := h.dequeuedLogin hqueue hchange
      exact hdequeued.logsIn hstate hfree hwork hin
  | logoutClient hout => exact hdequeued.logsOut hout
  | deleteScript => exact hdequeued.setSubscriptions _

theorem Linked.quiet {v' : View τ} (h : v.Linked) (hquiet : v.Quiet v') : v'.Linked := by
  cases hquiet with
  | refl => exact h
  | newConnection => exact h.newConnection
  | requestLogin hclient hstate => exact h.requestLogin hclient hstate _ _
  | rejectVersion hclient hstate =>
      exact h.setState hclient (by rw [hstate]; decide) (by rw [hstate]; decide)
  | setWork hwork => exact h.setWork hwork
  | enqueue hwork => exact h.enqueue hwork
  | setClients hsub => exact h.setClients hsub

/-- What a quiet step leaves alone. -/
theorem Quiet.frame {v' : View τ} (hquiet : v.Quiet v') :
    v'.mSubscriptions = v.mSubscriptions ∧
      v'.mPersistentClientStates = v.mPersistentClientStates ∧ v'.nextSession = v.nextSession := by
  cases hquiet with
  | refl => exact ⟨rfl, rfl, rfl⟩
  | newConnection => exact ⟨rfl, rfl, rfl⟩
  | requestLogin => exact ⟨rfl, rfl, rfl⟩
  | rejectVersion => exact ⟨rfl, rfl, rfl⟩
  | setWork => exact ⟨rfl, rfl, rfl⟩
  | enqueue => exact ⟨rfl, rfl, rfl⟩
  | setClients => exact ⟨rfl, rfl, rfl⟩

/-! ## Numbers of sessions -/

theorem nextSession_logsOut [SubscriptionTree τ] {v' : View τ} (hout : v.LogsOut client v') :
    v'.nextSession = v.nextSession := by
  cases hout with
  | nothing => rfl
  | detaches => rfl
  | closes => rfl

theorem nextSession_logsIn {v' : View τ} (hin : v.LogsIn client v') :
    v.nextSession ≤ v'.nextSession := by
  cases hin with
  | nothing => exact le_rfl
  | takesOver => exact le_rfl
  | opens => exact Nat.le_succ _

theorem nextSession_executes [SubscriptionTree τ] {change : ChangeRequest} {v' : View τ}
    (hexecutes : v.Executes change v') : v.nextSession ≤ v'.nextSession := by
  cases hexecutes with
  | loginClient hin => exact nextSession_logsIn hin
  | logoutClient hout => exact (nextSession_logsOut hout).ge
  | _ => exact le_rfl

end View

end NioevMqtt
