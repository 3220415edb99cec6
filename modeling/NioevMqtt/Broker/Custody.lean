-- SUMMARY: Who keeps the connections and sessions that requests and threads name, and what each step of the broker does to that.
import NioevMqtt.Broker.SessionTable
import Mathlib.Data.Set.Insert

/-!
# Custody

A request names a connection or a session by a pointer. What is to keep the pointer good are
the lists the broker owns its objects in, the work of the threads that receive, and reference
counts, which nothing changes. This is read off the broker's state; what it sends and whom it
links with whom does not matter here.
-/

namespace NioevMqtt

open Outcome

/-- What carries a `TaskQueueRefCount` here. -/
inductive RefCounted where
  | connection (client : ConnectionId)
  | session (session : SessionId)
deriving DecidableEq, Repr

def Subscriber.named : Subscriber → Option RefCounted
  | .session id => some (.session id)
  | .other _ => none

theorem Subscriber.named_ne_connection (subscriber : Subscriber) (client : ConnectionId) :
    subscriber.named ≠ some (.connection client) := by
  cases subscriber with
  | session id => rintro ⟨⟩
  | other id => rintro ⟨⟩

/-- The object that a lambda of `requestChange` would count. -/
def ChangeRequest.named : ChangeRequest → Option RefCounted
  | .loginClient client _ _ | .logoutClient client => some (.connection client)
  | .subscribe subscriber _ _ _ | .unsubscribe subscriber _ | .unsubscribeFromAll subscriber =>
    subscriber.named
  | .retain _ | .deleteScript _ => none

/-- The object a piece of work has a pointer to. -/
def Work.named : Work → Option RefCounted
  | .subscribe client _ _ | .unsubscribe client _ | .reply client _ | .throws client =>
    some (.connection client)
  | .request change => change.named
  | .publish _ => none

structure Custody where
  refCount : RefCounted → Nat
  /-- What the queued requests name. -/
  names : Set RefCounted
  loggedOut : ConnectionId → Bool
  mClients : List ConnectionId
  mPersistentClientStates : AList (fun _ : ByteString => SessionId)
  mDeletedPersistentClientStates : List SessionId
  mShouldCleanup : Bool
  work : Thread → List Work

namespace Custody

variable {c c' c'' : Custody} {o : RefCounted}

/-- The object has not been freed. -/
def Owns (c : Custody) : RefCounted → Prop
  | .connection client => client ∈ c.mClients
  | .session id =>
    (∃ clientId, c.mPersistentClientStates.lookup clientId = some id) ∨
      id ∈ c.mDeletedPersistentClientStates

/-- A cleanup leaves the object where it is. -/
def Survives (c : Custody) : RefCounted → Prop
  | .connection client => c.loggedOut client = false
  | .session id => ∃ clientId, c.mPersistentClientStates.lookup clientId = some id

/-- The thread is one that a cleanup waits for, and its pointer is good. -/
structure Holds (c : Custody) (thread : Thread) (o : RefCounted) : Prop where
  owns : c.Owns o
  receives : ∃ client ∈ c.mClients, thread = .receiver client

/-! ## Operations -/

def setNames (c : Custody) (names : Set RefCounted) : Custody := { c with names := names }

def setWork (c : Custody) (thread : Thread) (work : List Work) : Custody :=
  { c with work := Function.update c.work thread work }

def newConnection (c : Custody) (client : ConnectionId) : Custody :=
  { c with
    mClients := c.mClients ++ [client]
    refCount := Function.update c.refCount (.connection client) 0
    loggedOut := Function.update c.loggedOut client false }

/-- What `cleanup` frees. -/
def Reclaimable (c : Custody) : RefCounted → Prop
  | .connection client =>
    client ∈ c.mClients ∧ c.loggedOut client ∧ c.refCount (.connection client) = 0
  | .session id => id ∈ c.mDeletedPersistentClientStates ∧ c.refCount (.session id) = 0

def eraseDisconnected (c : Custody) : Custody :=
  { c with
    mClients := c.mClients.filter fun client =>
      ¬ (c.loggedOut client ∧ c.refCount (.connection client) = 0)
    mDeletedPersistentClientStates := c.mDeletedPersistentClientStates.filter fun id =>
      c.refCount (.session id) ≠ 0
    mShouldCleanup := false }

/-- What the execution of requests leaves of custody: whoever is logged out or deleted asks
for a cleanup, and what was kept is kept somewhere. -/
structure Keeps (c c' : Custody) : Prop where
  refCount_eq : c'.refCount = c.refCount
  names_subset : c'.names ⊆ c.names
  work_eq : c'.work = c.work
  mClients_eq : c'.mClients = c.mClients
  owns : ∀ o, c.Owns o → c'.Owns o
  loggedOut : ∀ client, c'.loggedOut client → c.loggedOut client ∨ c'.mShouldCleanup
  deleted : ∀ id ∈ c'.mDeletedPersistentClientStates,
    id ∈ c.mDeletedPersistentClientStates ∨ c'.mShouldCleanup
  shouldCleanup : c.mShouldCleanup → c'.mShouldCleanup

theorem Keeps.refl (c : Custody) : c.Keeps c :=
  ⟨rfl, subset_rfl, rfl, rfl, fun _ h => h, fun _ => .inl, fun _ => .inl, id⟩

theorem Keeps.of_eq (h : c' = c) : c.Keeps c' := h ▸ .refl c

/-- A request is taken from a queue. -/
theorem Keeps.setNames {names : Set RefCounted} (h : names ⊆ c.names) :
    c.Keeps (c.setNames names) where
  refCount_eq := rfl
  names_subset := h
  work_eq := rfl
  mClients_eq := rfl
  owns := fun o ho => by cases o <;> exact ho
  loggedOut := fun _ => .inl
  deleted := fun _ => .inl
  shouldCleanup := id

theorem Keeps.trans (h : c.Keeps c') (h' : c'.Keeps c'') : c.Keeps c'' where
  refCount_eq := h'.refCount_eq.trans h.refCount_eq
  names_subset := h'.names_subset.trans h.names_subset
  work_eq := h'.work_eq.trans h.work_eq
  mClients_eq := h'.mClients_eq.trans h.mClients_eq
  owns := fun o ho => h'.owns o (h.owns o ho)
  loggedOut := fun client hout => (h'.loggedOut client hout).elim
    (fun hout => (h.loggedOut client hout).imp_right h'.shouldCleanup) .inr
  deleted := fun id hid => (h'.deleted id hid).elim
    (fun hid => (h.deleted id hid).imp_right h'.shouldCleanup) .inr
  shouldCleanup := fun hflag => h'.shouldCleanup (h.shouldCleanup hflag)

/-- All that a step does to custody that is no cleanup, with the object that the request it
queues names. -/
inductive Moves (c : Custody) : Option RefCounted → Custody → Prop
  | keeps {d : Custody} (hkeeps : c.Keeps d) : Moves c none d
  | newConnection {client} : Moves c none (c.newConnection client)
  | setWork {thread work} (hwork : ∀ w ∈ work, ∀ o, w.named = some o → c.Holds thread o) :
      Moves c none (c.setWork thread work)
  | request {thread change rest o} (hwork : c.work thread = .request change :: rest)
      (hnamed : change.named = some o) :
      Moves c (some o) ((c.setWork thread rest).setNames (insert o c.names))

end Custody

/-! ## Requests -/

/-- What the requests name. -/
def namesOf (queue : List Request) : Set RefCounted :=
  { o | ∃ request ∈ queue, request.change.named = some o }

section

variable {request : Request} {queue : List Request} {o : RefCounted}

theorem namesOf_append (queue queue' : List Request) :
    namesOf (queue ++ queue') = namesOf queue ∪ namesOf queue' := by
  ext o
  simp only [namesOf, List.mem_append, Set.mem_union, Set.mem_ofPred_eq, or_and_right, exists_or]

theorem namesOf_singleton_of_named (hnamed : request.change.named = some o) :
    namesOf [request] = {o} := by
  ext x
  simp [namesOf, hnamed, eq_comm]

theorem namesOf_singleton_of_unnamed (hnamed : request.change.named = none) :
    namesOf [request] = ∅ := by
  ext x
  simp [namesOf, hnamed]

theorem namesOf_subset_cons : namesOf queue ⊆ namesOf (request :: queue) :=
  fun _ ⟨r, hr, hnamed⟩ => ⟨r, List.mem_cons_of_mem _ hr, hnamed⟩

end

namespace ApplicationState

variable {τ : Type} {s t : ApplicationState τ} {client : ConnectionId} {session : SessionId}

def refCount (s : ApplicationState τ) : RefCounted → Nat
  | .connection client => (s.connections client).taskQueueRefCount
  | .session id => (s.sessions id).taskQueueRefCount

def names (s : ApplicationState τ) : Set RefCounted :=
  namesOf s.mQueue ∪ namesOf s.mQueueInternal

def custody (s : ApplicationState τ) : Custody where
  refCount := s.refCount
  names := s.names
  loggedOut := fun client => (s.connections client).mLoggedOut
  mClients := s.mClients
  mPersistentClientStates := s.mPersistentClientStates
  mDeletedPersistentClientStates := s.mDeletedPersistentClientStates
  mShouldCleanup := s.mShouldCleanup
  work := s.work

/-! ## Updates -/

theorem refCount_update_connections (s : ApplicationState τ) (client : ConnectionId)
    (conn : MQTTClientConnection) :
    refCount { s with connections := Function.update s.connections client conn } =
      Function.update s.refCount (.connection client) conn.taskQueueRefCount := by
  funext o
  cases o with
  | connection c =>
      by_cases hc : c = client
      · subst hc
        simp only [refCount, Function.update_self]
      · have hne : RefCounted.connection c ≠ .connection client := fun heq => hc (by cases heq; rfl)
        simp only [refCount, Function.update_of_ne hc, Function.update_of_ne hne]
  | session id => exact (Function.update_of_ne (by rintro ⟨⟩) _ _).symm

theorem refCount_update_sessions (s : ApplicationState τ) (session : SessionId)
    (state : PersistentClientState) :
    refCount { s with sessions := Function.update s.sessions session state } =
      Function.update s.refCount (.session session) state.taskQueueRefCount := by
  funext o
  cases o with
  | connection c => exact (Function.update_of_ne (by rintro ⟨⟩) _ _).symm
  | session id =>
      by_cases hid : id = session
      · subst hid
        simp only [refCount, Function.update_self]
      · have hne : RefCounted.session id ≠ .session session := fun heq => hid (by cases heq; rfl)
        simp only [refCount, Function.update_of_ne hid, Function.update_of_ne hne]

theorem custody_updateConnection (s : ApplicationState τ) (client : ConnectionId)
    (f : MQTTClientConnection → MQTTClientConnection) :
    (s.updateConnection client f).custody = { s.custody with
      refCount := Function.update s.refCount (.connection client)
        (f (s.connections client)).taskQueueRefCount
      loggedOut := Function.update s.custody.loggedOut client
        (f (s.connections client)).mLoggedOut } := by
  simp only [custody, updateConnection, Custody.mk.injEq, and_true]
  refine ⟨refCount_update_connections s client _, rfl, ?_⟩
  exact funext fun c => Function.apply_update (fun _ => MQTTClientConnection.mLoggedOut) _ _ _ c

theorem custody_updateSession (s : ApplicationState τ) (session : SessionId)
    (f : PersistentClientState → PersistentClientState) :
    (s.updateSession session f).custody = { s.custody with
      refCount := Function.update s.refCount (.session session)
        (f (s.sessions session)).taskQueueRefCount } := by
  simp only [custody, updateSession, Custody.mk.injEq, and_true]
  exact ⟨refCount_update_sessions s session _, rfl⟩

/-- An update of a connection that neither logs it out nor counts. -/
theorem custody_updateConnection_of {f : MQTTClientConnection → MQTTClientConnection}
    (hcount : (f (s.connections client)).taskQueueRefCount =
      (s.connections client).taskQueueRefCount)
    (hout : (f (s.connections client)).mLoggedOut = (s.connections client).mLoggedOut) :
    (s.updateConnection client f).custody = s.custody := by
  rw [custody_updateConnection, hcount, hout]
  exact congrArg₂ (fun refCount loggedOut => { s.custody with
      refCount := refCount, loggedOut := loggedOut })
    (Function.update_eq_self (.connection client) s.refCount)
    (Function.update_eq_self client s.custody.loggedOut)

theorem custody_updateSession_of {f : PersistentClientState → PersistentClientState}
    (hcount : (f (s.sessions session)).taskQueueRefCount = (s.sessions session).taskQueueRefCount) :
    (s.updateSession session f).custody = s.custody := by
  rw [custody_updateSession, hcount]
  exact congrArg (fun refCount => { s.custody with refCount := refCount })
    (Function.update_eq_self (.session session) s.refCount)

@[simp] theorem custody_sendData (s : ApplicationState τ) (client : ConnectionId)
    (packet : EncodedPacket) : (s.sendData client packet).custody = s.custody :=
  custody_updateConnection_of rfl rfl

@[simp] theorem custody_setPersistentClientState (s : ApplicationState τ) (client : ConnectionId)
    (state : Option SessionId) : (s.setPersistentClientState client state).custody = s.custody :=
  custody_updateConnection_of rfl rfl

@[simp] theorem custody_connected (s : ApplicationState τ) (client : ConnectionId) :
    (s.connected client).custody = s.custody := by
  unfold connected setStateAtomic
  exact custody_updateConnection_of rfl rfl

@[simp] theorem custody_replaceCurrentClient (s : ApplicationState τ) (session : SessionId)
    (client : ConnectionId) (cleanSession : CleanSession) (style : ReplaceStyle) :
    (s.replaceCurrentClient session client cleanSession style).custody = s.custody := by
  have hcount : ∀ state : PersistentClientState,
      (state.replaceCurrentClient client cleanSession style).taskQueueRefCount =
        state.taskQueueRefCount := by
    intro state
    cases style with
    | simpleReplace => rfl
    | cleanSession => rfl
  unfold replaceCurrentClient
  simp only
  rw [custody_updateConnection_of rfl rfl, custody_updateSession_of (hcount _)]
  split
  · exact custody_setPersistentClientState s _ none
  · rfl

theorem custody_foldl_sendData {α : Type} (packet : α → EncodedPacket) (l : List α)
    (s : ApplicationState τ) (client : ConnectionId) :
    (l.foldl (fun s x => s.sendData client (packet x)) s).custody = s.custody := by
  induction l generalizing s with
  | nil => rfl
  | cons x l ih => exact (ih _).trans (custody_sendData s client (packet x))

/-! ## Requests -/

theorem custody_requestChange {request : Request} {o : RefCounted}
    (hnamed : request.change.named = some o) (s : ApplicationState τ) (holdsLock : Bool) :
    (s.requestChange request holdsLock).custody = s.custody.setNames (insert o s.names) := by
  have hnames : insert o s.names = s.names ∪ {o} := Set.union_singleton.symm
  unfold requestChange
  rw [hnames, ← namesOf_singleton_of_named hnamed]
  cases holdsLock with
  | true =>
      have hqueued := congrArg (namesOf s.mQueue ∪ ·) (namesOf_append s.mQueueInternal [request])
      exact congrArg s.custody.setNames (hqueued.trans (Set.union_assoc _ _ _).symm)
  | false =>
      have hqueued := congrArg (· ∪ namesOf s.mQueueInternal) (namesOf_append s.mQueue [request])
      exact congrArg s.custody.setNames (hqueued.trans (Set.union_right_comm _ _ _))

theorem custody_requestChange_of_unnamed {request : Request} (hnamed : request.change.named = none)
    (s : ApplicationState τ) (holdsLock : Bool) :
    (s.requestChange request holdsLock).custody = s.custody := by
  have hqueued : ∀ queue : List Request, namesOf (queue ++ [request]) = namesOf queue := by
    intro queue
    rw [namesOf_append, namesOf_singleton_of_unnamed hnamed, Set.union_empty]
  unfold requestChange
  cases holdsLock with
  | true => exact congrArg (fun names => s.custody.setNames (namesOf s.mQueue ∪ names)) (hqueued _)
  | false =>
      exact congrArg (fun names => s.custody.setNames (names ∪ namesOf s.mQueueInternal)) (hqueued _)

theorem custody_retain (s : ApplicationState τ) (packet : MQTTPacket) :
    (s.retain packet).custody = s.custody := by
  unfold retain
  split
  · rfl
  · rfl

/-! ## Handing over -/

section

variable [Libnioev]

theorem custody_sendPublish {sub : Subscriber} {topic : ByteString} {payload : List UInt8}
    {qos : QoS} {retained : Retained} {properties : PropertyList}
    (h : s.sendPublish sub topic payload qos retained properties = .ok t) :
    t.custody = s.custody := by
  cases sub with
  | other id =>
      cases h
      rfl
  | session id =>
      obtain ⟨published, hpublished, hsent⟩ := bind_eq_ok h
      have hcount : published.session.taskQueueRefCount = (s.sessions id).taskQueueRefCount := by
        by_cases hqos : qos = .qos0
        · subst hqos
          rw [(PersistentClientState.publish_qos0 hpublished).1]
        · rw [(PersistentClientState.publish_highQoS hqos hpublished).1]
          rfl
      have hstored : (s.updateSession id fun _ => published.session).custody = s.custody :=
        custody_updateSession_of hcount
      cases hclient : published.sent with
      | none =>
          rw [hclient] at hsent
          cases hsent
          exact hstored
      | some sent =>
          rw [hclient] at hsent
          cases hsent
          exact (custody_sendData _ _ _).trans hstored

theorem custody_foldlM_deliver {deliveries : List Delivery}
    (h : deliveries.foldlM deliver s = .ok t) : t.custody = s.custody :=
  foldlM_invariant (P := fun u : ApplicationState τ => u.custody = s.custody)
    (fun _ _ _ hu hdelivered => (custody_sendPublish hdelivered).trans hu) h rfl

variable [SubscriptionTree τ]

theorem custody_publishNoLockNoRetain {packet : MQTTPacket}
    (h : s.publishNoLockNoRetain packet = .ok t) : t.custody = s.custody := by
  have hdelivered : ((s.fanOut packet).map (publishedDelivery packet)).foldlM deliver s = .ok t := by
    rw [← h]
    exact (publishToMatches_eq packet [] _ s).symm
  exact custody_foldlM_deliver hdelivered

theorem custody_publishWill {thread : Thread} (h : s.publishWill thread client = .ok t) :
    t.custody = s.custody := by
  unfold publishWill at h
  split at h
  · cases h
    rfl
  · obtain ⟨u, hpublished, hretain⟩ := bind_eq_ok h
    have hfirst := custody_publishNoLockNoRetain hpublished
    split at hretain
    · cases hretain
      exact (custody_requestChange_of_unnamed rfl u true).trans hfirst
    · cases hretain
      exact hfirst

theorem custody_subscribeClientInternal {subscriber : Subscriber} {topic : ByteString} {qos : QoS}
    (h : s.subscribeClientInternal subscriber topic qos = .ok t) : t.custody = s.custody := by
  unfold subscribeClientInternal at h
  rw [sendAllRetained_eq] at h
  have hdelivered := custody_foldlM_deliver h
  exact hdelivered

end

/-! ## Logout -/

theorem keeps_markLoggedOut (s : ApplicationState τ) (client : ConnectionId) :
    s.custody.Keeps (s.markLoggedOut client).custody := by
  have hcounts : (s.markLoggedOut client).refCount = s.refCount := by
    refine (refCount_update_connections s client _).trans ?_
    exact Function.update_eq_self (.connection client) s.refCount
  exact
    { refCount_eq := hcounts
      names_subset := subset_rfl
      work_eq := rfl
      mClients_eq := rfl
      owns := fun o ho => by cases o <;> exact ho
      loggedOut := fun _ _ => .inr rfl
      deleted := fun _ _ => .inr rfl
      shouldCleanup := fun _ => rfl }

section

variable [SubscriptionTree τ]

/-- A clean session that leaves the table goes to the deleted ones. -/
theorem keeps_deleteCleanSession (s : ApplicationState τ) (session : SessionId) :
    s.custody.Keeps (s.deleteCleanSession session).custody := by
  unfold deleteCleanSession
  split
  · split
    · exact .refl _
    · next actualState hfind =>
        have hfound : actualState.2 = session := by simpa using List.find?_some hfind
        have hlookup : s.mPersistentClientStates.lookup actualState.1 = some session := by
          rw [← hfound]
          exact AList.mem_lookup_iff.mpr (List.mem_of_find?_eq_some hfind)
        refine
          { refCount_eq := rfl
            names_subset := subset_rfl
            work_eq := rfl
            mClients_eq := rfl
            owns := ?_
            loggedOut := fun _ _ => .inr rfl
            deleted := fun _ _ => .inr rfl
            shouldCleanup := fun _ => rfl }
        intro o ho
        cases o with
        | connection c => exact ho
        | session id =>
            rcases ho with ⟨clientId, hstored⟩ | hdeleted
            · by_cases hkey : clientId = actualState.1
              · subst hkey
                cases hstored.symm.trans hlookup
                exact .inr (List.mem_append_right _ List.mem_cons_self)
              · exact .inl ⟨clientId, (AList.lookup_erase_ne hkey).trans hstored⟩
            · exact .inr (List.mem_append_left _ hdeleted)
  · exact .refl _

variable [Libnioev]

theorem keeps_logoutClient {thread : Thread} (h : s.logoutClient thread client = .ok t) :
    s.custody.Keeps t.custody := by
  unfold logoutClient at h
  split at h
  · cases h
    exact .refl _
  · have hmarked := keeps_markLoggedOut s client
    simp only at h
    split at h
    · cases h
      exact hmarked
    · next session _ =>
        obtain ⟨u, hwill, hrest⟩ := bind_eq_ok h
        obtain ⟨v, hdropped, hdeleted⟩ := bind_eq_ok hrest
        obtain ⟨⟨current, dropped⟩, hcurrent, hdetached⟩ := bind_eq_ok hdropped
        cases hdetached
        cases hdeleted
        have hcount : dropped.taskQueueRefCount = (u.sessions session).taskQueueRefCount := by
          unfold PersistentClientState.dropCurrentClient at hcurrent
          split at hcurrent
          · cases hcurrent
          · cases hcurrent
            rfl
        refine (hmarked.trans (.of_eq (custody_publishWill hwill))).trans
          (.trans (.of_eq ?_) (keeps_deleteCleanSession _ session))
        exact (custody_updateSession_of hcount).trans (custody_setPersistentClientState u current none)

/-! ## Login -/

theorem keeps_logoutExisting {thread : Thread} {existingClient : Option ConnectionId}
    (h : s.logoutExisting thread existingClient = .ok t) : s.custody.Keeps t.custody := by
  cases existingClient with
  | none =>
      cases h
      exact .refl _
  | some existingClient => exact keeps_logoutClient h

theorem keeps_loginExisting {thread : Thread} {cleanSession : CleanSession}
    (h : s.loginExisting thread client session cleanSession = .ok t) :
    s.custody.Keeps t.custody := by
  have hreplaced : ∀ style, s.custody.Keeps
      (s.replaceCurrentClient session client cleanSession style).custody :=
    fun style => .of_eq (custody_replaceCurrentClient s session client cleanSession style)
  unfold loginExisting at h
  simp only at h
  split at h
  · obtain ⟨u, hlogout, hrest⟩ := bind_eq_ok h
    cases hrest
    refine ((hreplaced _).trans (keeps_logoutExisting hlogout)).trans (.of_eq ?_)
    exact (custody_connected _ client).trans (custody_sendData u client _)
  · obtain ⟨u, hlogout, hrest⟩ := bind_eq_ok h
    cases hrest
    refine ((hreplaced _).trans (keeps_logoutExisting hlogout)).trans (.of_eq ?_)
    have hresent : ((u.sendConnack client .yes).resend client session).custody =
        (u.sendConnack client .yes).custody :=
      (custody_foldl_sendData _ _ _ client).trans (custody_foldl_sendData _ _ _ client)
    exact ((custody_connected _ client).trans hresent).trans (custody_sendData u client _)

omit [SubscriptionTree τ] in
/-- The session of a new client has not been counted before. -/
theorem keeps_loginNew (hfresh : s.refCount (.session s.nextSession) = 0) {clientId : ByteString}
    (hnew : s.mPersistentClientStates.lookup clientId = none) (cleanSession : CleanSession) :
    s.custody.Keeps (s.loginNew client clientId cleanSession).custody := by
  have hopened : (s.loginNew client clientId cleanSession).custody = { s.custody with
      refCount := Function.update s.refCount (.session s.nextSession) 0
      mPersistentClientStates := s.mPersistentClientStates.insert clientId s.nextSession } := by
    unfold loginNew
    simp only
    refine (custody_connected _ client).trans ((custody_sendData _ client _).trans ?_)
    rw [custody_replaceCurrentClient]
    exact congrArg (fun refCount => { s.custody with
        refCount := refCount
        mPersistentClientStates := s.mPersistentClientStates.insert clientId s.nextSession })
      (refCount_update_sessions s s.nextSession _)
  rw [hopened]
  refine
    { refCount_eq := ?_
      names_subset := subset_rfl
      work_eq := rfl
      mClients_eq := rfl
      owns := ?_
      loggedOut := fun _ => .inl
      deleted := fun _ => .inl
      shouldCleanup := id }
  · rw [← hfresh]
    exact Function.update_eq_self _ _
  · intro o ho
    cases o with
    | connection c => exact ho
    | session id =>
        refine ho.imp_left fun ⟨other, hstored⟩ => ⟨other, ?_⟩
        have hother : other ≠ clientId := by
          rintro rfl
          exact absurd (hstored.symm.trans hnew) (Option.some_ne_none id)
        exact (AList.lookup_insert_ne hother).trans hstored

theorem keeps_loginClient (hfresh : s.refCount (.session s.nextSession) = 0) {thread : Thread}
    {clientId generatedId : ByteString} {cleanSession : CleanSession}
    (h : s.loginClient thread client clientId cleanSession generatedId = .ok t) :
    s.custody.Keeps t.custody := by
  unfold loginClient at h
  split at h
  · cases h
    exact .refl _
  · simp only at h
    split at h
    · exact keeps_loginExisting h
    · next hnew =>
        cases h
        exact keeps_loginNew hfresh hnew cleanSession

/-! ## Execution -/

/-- Requests that name no connection change no custody. -/
theorem custody_visit {change : ChangeRequest} {thread : Thread} {generatedId : ByteString}
    (hconnection : ∀ client, change.named ≠ some (.connection client))
    (h : s.visit thread generatedId change = .ok t) : t.custody = s.custody := by
  cases change with
  | subscribe subscriber topic qos type => exact custody_subscribeClientInternal h
  | unsubscribe subscriber topic =>
      cases h
      rfl
  | unsubscribeFromAll subscriber =>
      cases h
      rfl
  | retain packet =>
      cases h
      exact custody_retain s packet
  | loginClient client clientId cleanSession => exact absurd rfl (hconnection client)
  | logoutClient client => exact absurd rfl (hconnection client)
  | deleteScript script =>
      cases h
      rfl

theorem keeps_visit (hfresh : s.refCount (.session s.nextSession) = 0) {change : ChangeRequest}
    {thread : Thread} {generatedId : ByteString} (h : s.visit thread generatedId change = .ok t) :
    s.custody.Keeps t.custody := by
  cases change with
  | loginClient client clientId cleanSession => exact keeps_loginClient hfresh h
  | logoutClient client => exact keeps_logoutClient h
  | subscribe subscriber topic qos type =>
      exact .of_eq (custody_visit (by exact subscriber.named_ne_connection) h)
  | unsubscribe subscriber topic =>
      exact .of_eq (custody_visit (by exact subscriber.named_ne_connection) h)
  | unsubscribeFromAll subscriber =>
      exact .of_eq (custody_visit (by exact subscriber.named_ne_connection) h)
  | retain packet => exact .of_eq (custody_visit (fun _ heq => by cases heq) h)
  | deleteScript script => exact .of_eq (custody_visit (fun _ heq => by cases heq) h)

end

end ApplicationState

end NioevMqtt
