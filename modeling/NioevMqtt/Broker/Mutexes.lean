-- SUMMARY: The mutexes of the broker and the order in which its threads take them: over every run all threads can finish, exactly as long as no logout publishes a will that asks for statistics.
import NioevMqtt.Broker.LoginPackets
import NioevMqtt.Broker.SelfDeadlock
import NioevMqtt.Library.LockOrder
import Mathlib.Data.Fintype.Basic

/-!
# Mutexes

What a step of the broker does, it does under the locks of its thread: a receiver thread
keeps the mutex of its connection from the first byte to the last, requests are executed
under `mMutex`, and a publish shares it. Inside, a step takes the mutexes of sessions, of
the sockets it sends on, and of others. The statistics have one that is taken before `mMutex`.

A thread that takes a mutex against itself does not go on: where that is noticed the
process terminates, elsewhere the thread waits for itself.

Receiver threads also share a lock that suspends them, and threads may wait for room in
a queue or for a script to end; that is not part of this.
-/

namespace NioevMqtt

open LockOrder

inductive Mutex where
  | mRecvMutex (client : ConnectionId)
  /-- `Statistics::mMutex` -/
  | statistics
  | mMutex
  /-- `PersistentClientState::mMutex` -/
  | session (id : SessionId)
  | mSendMutex (client : ConnectionId)
  /-- `ScriptContainer::mMutex` -/
  | script (id : Nat)
  | mRecentlyLoggedInClientsMutex
deriving DecidableEq

namespace Mutex

/-- Statistics are refreshed under a shared `mMutex`, and share it while they are refreshed. -/
def rank : Mutex → Mode → Nat
  | .mRecvMutex _, _ => 0
  | .mMutex, .exclusive => 1
  | .statistics, _ => 2
  | .mMutex, .shared => 3
  | .session _, _ => 4
  | .mSendMutex _, _ | .script _, _ | .mRecentlyLoggedInClientsMutex, _ => 5

end Mutex

abbrev HeldMutexes := List (Mutex × Mode)

abbrev Locking := List (LockOp Mutex)

/-- `sendData` -/
def sendDataLocks (client : ConnectionId) : Locking := lockGuard (.mSendMutex client) .exclusive []

namespace ApplicationState

variable {τ : Type}

/-! ## Statistics -/

/-- `forEachClient` -/
def forEachClientLocks (s : ApplicationState τ) : Locking :=
  lockGuard .mMutex .shared
    (s.mPersistentClientStates.entries.flatMap fun c => lockGuard (.session c.2) .exclusive [])

/-- `Statistics::refresh`, with `getRetainedMsgCount`, `getRetainedMsgCummulativeSize` and
`getSubscriptionsCount` before the clients. -/
def refreshLocks (s : ApplicationState τ) : Locking :=
  lockGuard .statistics .exclusive
    (lockGuard .mMutex .shared [] ++ lockGuard .mMutex .shared [] ++ lockGuard .mMutex .shared [] ++
      s.forEachClientLocks)

def performSystemActionLocks (s : ApplicationState τ) (packet : MQTTPacket) : Locking :=
  if packet.RequestsStats then s.refreshLocks else []

/-! ## Publishing -/

/-- Of the other subscribers only scripts lock something. -/
def deliveryLocks (s : ApplicationState τ) (d : Delivery) : Locking :=
  match d.subscriber with
  | .other id => lockGuard (.script id) .exclusive []
  | .session id =>
    lockGuard (.session id) .exclusive
      (match (s.sessions id).mCurrentClient with
      | none => []
      | some client => sendDataLocks client)

section

variable [SubscriptionTree τ]

def publishLocks (s : ApplicationState τ) (packet : MQTTPacket) : Locking :=
  s.performSystemActionLocks packet ++
    ((s.fanOut packet).map (publishedDelivery packet)).flatMap s.deliveryLocks

/-! ## Logout and login -/

/-- A session is locked to be dropped, after the will has been published. -/
def logoutLocks (s : ApplicationState τ) (client : ConnectionId) : Locking :=
  if (s.connections client).mLoggedOut then []
  else
    lockGuard .mRecentlyLoggedInClientsMutex .exclusive [] ++
      match (s.connections client).mPersistentClientState with
      | none => []
      | some state =>
        (match (s.connections client).mWill with
          | none => []
          | some willMsg => s.publishLocks willMsg) ++
          lockGuard (.session state) .exclusive []

/-- `logoutClient(*existingClient)` where there is one. -/
def logoutExistingLocks (s : ApplicationState τ) : Option ConnectionId → Locking
  | none => []
  | some existingClient => s.logoutLocks existingClient

/-- The session is locked while it gets its new connection and the one it had is logged
out. What it resends, it sends under this lock. -/
def loginLocks [Libnioev] (s : ApplicationState τ) (login : Login) : Locking :=
  match s.storedSession login with
  | none => lockGuard (.session s.nextSession) .exclusive [] ++ sendDataLocks login.client
  | some session =>
    let replaced := s.replaceCurrentClient session login.client login.cleanSession
      (if s.Resumes login then .simpleReplace else .cleanSession)
    let logout := replaced.logoutExistingLocks (s.sessions session).mCurrentClient
    let sends := (s.loginPackets login).flatMap fun _ => sendDataLocks login.client
    if s.Resumes login then lockGuard (.session session) .exclusive (logout ++ sends)
    else lockGuard (.session session) .exclusive logout ++ sends

/-! ## Steps -/

def changeLocks (s : ApplicationState τ) : ChangeRequest → Locking
  | .subscribe subscriber topic qos _ =>
    (s.subscribeDeliveries topic ⟨subscriber, qos⟩).flatMap s.deliveryLocks
  | .logoutClient client => s.logoutLocks client
  -- `forceQuit`
  | .deleteScript script => lockGuard (.script script) .exclusive []
  | _ => []

/-- The session of a client, if it has one. -/
def sessionLocks (s : ApplicationState τ) (client : ConnectionId) : Locking :=
  match (s.connections client).mPersistentClientState with
  | none => []
  | some id => lockGuard (.session id) .exclusive []

/-- `PUBCOMP` changes the session without its lock. -/
def packetLocks (s : ApplicationState τ) (client : ConnectionId) : ClientPacket → Locking
  | .publish packet _ => if packet.qos = .qos2 then s.sessionLocks client else []
  | .pubAck _ | .pubRel _ | .pubRec _ => s.sessionLocks client
  | _ => []

/-- The work of a thread that is next. -/
def workLocks (s : ApplicationState τ) : List Work → Locking
  | .publish packet :: _ => s.publishLocks packet
  | .reply client _ :: _ => sendDataLocks client
  | _ => []

/-- What a step locks besides the locks it is made under. -/
def stepLocks [Libnioev] (s : ApplicationState τ) : Action → Locking
  | .rejectVersion client => sendDataLocks client
  | .packet client packet => s.packetLocks client packet
  | .proceed thread _ => s.workLocks (s.work thread)
  | .execute randomChars =>
    match s.mQueue with
    | [] => []
    | request :: mQueue =>
      match s.executedLogin (.execute randomChars) with
      | some login => s.loginLocks login
      | none => { s with mQueue := mQueue }.changeLocks request.change
  | .executeInternal _ =>
    match s.mQueueInternal with
    | [] => []
    | request :: mQueueInternal =>
      { s with mQueueInternal := mQueueInternal }.changeLocks request.change
  | .logoutSendError client | .timeout client _ => s.logoutLocks client
  | _ => []

end

/-! ## The locks a step is made under -/

/-- A thread that handles packets of a connection has its mutex. -/
def threadLocks : Thread → HeldMutexes
  | .receiver client => [(.mRecvMutex client, .exclusive)]
  | _ => []

/-- An exception leaves the scope of the mutex of the connection before the logout is
requested. -/
def outerWorkLocks (thread : Thread) (lockTaken : Bool) : List Work → HeldMutexes
  | .publish _ :: _ => (.mMutex, .shared) :: threadLocks thread
  | .request (.retain _) :: _ =>
    if lockTaken then (.mMutex, .exclusive) :: threadLocks thread else threadLocks thread
  | .throws _ :: _ | .request (.logoutClient _) :: _ => []
  | _ => threadLocks thread

/-- The last one first. -/
def outerLocks (s : ApplicationState τ) : Action → HeldMutexes
  | .receiveData client _ | .connect client _ | .rejectVersion client | .packet client _ =>
    [(.mRecvMutex client, .exclusive)]
  | .proceed thread lockTaken => outerWorkLocks thread lockTaken (s.work thread)
  | .newConnection _ _ | .execute _ | .executeInternal _ | .logoutSendError _ | .timeout _ _ |
    .cleanup => [(.mMutex, .exclusive)]
  | .receiveError _ | .start _ _ | .sendError _ => []

/-! ## Order -/

section

variable {s : ApplicationState τ} {held : HeldMutexes} {client : ConnectionId} {packet : MQTTPacket}
  {login : Login} {action : Action}

theorem region_guard {mutex : Mutex} (h : Below Mutex.rank held (mutex.rank .exclusive)) :
    Region Mutex.rank held (lockGuard mutex .exclusive []) := .lockGuard h .nil

theorem region_sendData (h : Below Mutex.rank held 5) (client : ConnectionId) :
    Region Mutex.rank held (sendDataLocks client) := region_guard h

theorem region_session (h : Below Mutex.rank held 4) (id : SessionId) :
    Region Mutex.rank held (lockGuard (.session id) .exclusive []) := region_guard h

theorem region_refresh (h : Below Mutex.rank held 2) : Region Mutex.rank held s.refreshLocks := by
  have hstatistics : Below Mutex.rank ((.statistics, .exclusive) :: held) 3 :=
    (h.mono (by decide)).cons (by decide) fun _ => by decide
  have hshared : Region Mutex.rank ((.statistics, .exclusive) :: held)
      (lockGuard .mMutex .shared []) := .lockGuard hstatistics .nil
  refine .lockGuard h (((hshared.append hshared).append hshared).append (.lockGuard hstatistics ?_))
  refine .flatMap fun c _ => region_session ?_ c.2
  refine (hstatistics.mono (by decide)).cons (by decide) fun hmode => ?_
  cases hmode

theorem region_delivery (h : Below Mutex.rank held 4) (d : Delivery) :
    Region Mutex.rank held (s.deliveryLocks d) := by
  unfold deliveryLocks
  split
  · exact region_guard (h.mono (Nat.le_succ 4))
  · next id _ =>
      have hsession : Below Mutex.rank ((.session id, .exclusive) :: held) 5 :=
        (h.mono (by decide)).cons (Nat.lt_succ_self 4) fun _ => Nat.lt_succ_self 4
      refine .lockGuard h ?_
      split
      · exact .nil
      · exact region_sendData hsession _

variable [SubscriptionTree τ]

/-- A request for statistics is in order only where nobody else is kept out. -/
theorem region_publish (h : Below Mutex.rank held 4)
    (hstats : packet.RequestsStats → Below Mutex.rank held 2) :
    Region Mutex.rank held (s.publishLocks packet) := by
  refine .append ?_ (.flatMap fun d _ => region_delivery h d)
  unfold performSystemActionLocks
  split
  · next hrequests => exact region_refresh (hstats hrequests)
  · exact .nil

theorem region_logout (h : Below Mutex.rank held 4)
    (hwill : ∀ willMsg ∈ s.logoutWill client, ¬ willMsg.RequestsStats) :
    Region Mutex.rank held (s.logoutLocks client) := by
  have hrecently : Region Mutex.rank held
      (lockGuard .mRecentlyLoggedInClientsMutex .exclusive []) := region_guard (h.mono (by decide))
  unfold logoutLocks
  split
  · exact .nil
  · next hin =>
      refine hrecently.append ?_
      split
      · exact .nil
      · next state hattached =>
          refine .append ?_ (region_session h state)
          split
          · exact .nil
          · next willMsg hmWill =>
              have hpublished : s.logoutWill client = some willMsg := by
                unfold logoutWill
                rw [if_neg (not_or.mpr ⟨hin, by rw [hattached]; exact Option.some_ne_none state⟩)]
                exact hmWill
              exact region_publish h fun hrequests => absurd hrequests (hwill willMsg hpublished)

omit [SubscriptionTree τ] in
theorem logoutWill_of_unattached (h : s.view.attached client = none) : s.logoutWill client = none :=
  if_pos (.inr h)

/-- The logout of a connection without a session publishes nothing and locks none. -/
theorem region_logout_unattached (h : Below Mutex.rank held 5)
    (hout : s.view.attached client = none) : Region Mutex.rank held (s.logoutLocks client) := by
  have hnone : (s.connections client).mPersistentClientState = none := hout
  unfold logoutLocks
  split
  · exact .nil
  · rw [hnone]
    exact (region_guard h).append .nil

variable [Libnioev]

/-- The connection that is logged out has lost its session, so that no other is locked
while this one is. -/
theorem region_login (hattached : s.view.Attached) (hclient : s.view.attached login.client = none)
    (h : Below Mutex.rank held 4) : Region Mutex.rank held (s.loginLocks login) := by
  have hsession : ∀ id, Below Mutex.rank ((.session id, .exclusive) :: held) 5 := fun id =>
    (h.mono (by decide)).cons (Nat.lt_succ_self 4) fun _ => Nat.lt_succ_self 4
  unfold loginLocks
  split
  · exact (region_session h _).append (region_sendData (h.mono (by decide)) _)
  · next session hstored =>
      have hlogout : ∀ style, Region Mutex.rank ((.session session, .exclusive) :: held)
          ((s.replaceCurrentClient session login.client login.cleanSession
            style).logoutExistingLocks (s.sessions session).mCurrentClient) := by
        intro style
        cases hcurrent : (s.sessions session).mCurrentClient with
        | none => exact .nil
        | some existingClient =>
            exact region_logout_unattached (hsession session)
              (unattached_replaceCurrentClient hattached hclient _ style hcurrent)
      have hsends : ∀ {held' : HeldMutexes}, Below Mutex.rank held' 5 →
          Region Mutex.rank held' ((s.loginPackets login).flatMap fun _ => sendDataLocks login.client) :=
        fun h' => .flatMap fun _ _ => region_sendData h' _
      simp only
      split
      · exact .lockGuard h ((hlogout .simpleReplace).append (hsends (hsession session)))
      · exact (Region.lockGuard h (hlogout .cleanSession)).append (hsends (h.mono (by decide)))

omit [Libnioev] in
theorem region_change (h : Below Mutex.rank held 4) {change : ChangeRequest}
    (hwill : ∀ client, change = .logoutClient client →
      ∀ willMsg ∈ s.logoutWill client, ¬ willMsg.RequestsStats) :
    Region Mutex.rank held (s.changeLocks change) := by
  cases change with
  | subscribe subscriber topic qos type => exact .flatMap fun d _ => region_delivery h d
  | logoutClient client => exact region_logout h (hwill client rfl)
  | deleteScript script => exact region_guard (h.mono (Nat.le_succ 4))
  | _ => exact .nil

omit [SubscriptionTree τ] [Libnioev] in
theorem region_packet (h : Below Mutex.rank held 4) (client : ConnectionId) (packet : ClientPacket) :
    Region Mutex.rank held (s.packetLocks client packet) := by
  have hsession : Region Mutex.rank held (s.sessionLocks client) := by
    unfold sessionLocks
    split
    · exact .nil
    · exact region_session h _
  cases packet with
  | publish packet id =>
      simp only [packetLocks]
      split
      · exact hsession
      · exact .nil
  | pubAck id => exact hsession
  | pubRel id => exact hsession
  | pubRec id => exact hsession
  | _ => exact .nil

/-! ## What a step locks, under what it is made under -/

omit [SubscriptionTree τ] [Libnioev] in
theorem below_threadLocks (thread : Thread) : Below Mutex.rank (threadLocks thread) 1 := by
  cases thread with
  | receiver client =>
      exact (below_nil 1).cons (Nat.lt_succ_self 0) fun _ => Nat.lt_succ_self 0
  | _ => exact below_nil 1

omit [SubscriptionTree τ] [Libnioev] in
theorem below_exclusive {held : HeldMutexes} (h : Below Mutex.rank held 1) :
    Below Mutex.rank ((.mMutex, .exclusive) :: held) 4 :=
  (h.mono (by decide)).cons (by decide) fun _ => by decide

omit [SubscriptionTree τ] [Libnioev] in
theorem below_shared {held : HeldMutexes} (h : Below Mutex.rank held 1) :
    Below Mutex.rank ((.mMutex, .shared) :: held) 2 := by
  refine (h.mono (by decide)).cons (by decide) fun hmode => ?_
  cases hmode

omit [SubscriptionTree τ] [Libnioev] in
theorem mem_publishedWills {willMsg : MQTTPacket} (hwill : willMsg ∈ s.logoutWill client)
    {u : ApplicationState τ} (hsame : u.logoutWill client = s.logoutWill client)
    (hlogouts : s.logouts action = [(u, client)]) : (client, willMsg) ∈ s.publishedWills action := by
  unfold publishedWills
  rw [hlogouts, List.filterMap_cons, hsame, hwill]
  exact List.mem_cons_self

/-- Where it publishes no will that asks for statistics, a step is in order. -/
theorem ordered_step (h : s.Linked) {t : ApplicationState τ} (hstep : s.stepOk action = some t)
    (hwills : ∀ published ∈ s.publishedWills action, ¬ published.2.RequestsStats) :
    Ordered Mutex.rank (s.outerLocks action) (s.stepLocks action) := by
  have hreceiver : ∀ client, Below Mutex.rank (threadLocks (.receiver client)) 1 := fun client =>
    below_threadLocks (.receiver client)
  have hexclusive : Below Mutex.rank [(.mMutex, .exclusive)] 4 := below_exclusive (below_nil 1)
  cases action with
  | rejectVersion client => exact (region_sendData ((hreceiver client).mono (by decide)) client).ordered
  | packet client packet =>
      exact (region_packet ((hreceiver client).mono (by decide)) client packet).ordered
  | proceed thread lockTaken =>
      have hthread := below_threadLocks thread
      simp only [outerLocks, stepLocks]
      cases s.work thread with
      | nil => trivial
      | cons work rest =>
          cases work with
          | publish packet =>
              have hshared := below_shared hthread
              exact (region_publish (hshared.mono (by decide)) fun _ => hshared).ordered
          | reply client packet => exact (region_sendData (hthread.mono (by decide)) client).ordered
          | _ => trivial
  | execute randomChars =>
      simp only [stepLocks]
      split
      · trivial
      · next request mQueue hqueue =>
          split
          · next login hlogin =>
              obtain ⟨-, -, hclient, -⟩ := logsIn_of_executedLogin h hstep hlogin
              exact (region_login h.view.toAttached hclient hexclusive).ordered
          · obtain ⟨change, thread⟩ := request
            refine (region_change hexclusive fun client hchange willMsg hwill => ?_).ordered
            have hlogout : change = .logoutClient client := hchange
            subst hlogout
            refine hwills (client, willMsg) (mem_publishedWills hwill (u := { s with mQueue }) rfl ?_)
            simp only [logouts, hqueue]
  | executeInternal randomChars =>
      simp only [stepLocks]
      split
      · trivial
      · next request mQueueInternal hqueue =>
          obtain ⟨packet, hretain⟩ := h.exists_retain hqueue
          rw [hretain]
          trivial
  | logoutSendError client =>
      refine (region_logout hexclusive fun willMsg hwill => ?_).ordered
      exact hwills (client, willMsg) (mem_publishedWills hwill (u := s) rfl rfl)
  | timeout client now =>
      refine (region_logout hexclusive fun willMsg hwill => ?_).ordered
      exact hwills (client, willMsg) (mem_publishedWills hwill (u := s) rfl rfl)
  | _ => trivial

/-! ## Statistics under the lock -/

omit [SubscriptionTree τ] [Libnioev] in
theorem doomed_refresh (hheld : (.mMutex, .exclusive) ∈ held) : Doomed held s.refreshLocks :=
  .inr (.inl ⟨(.mMutex, .exclusive), List.mem_cons_of_mem _ hheld, rfl, by decide⟩)

omit [Libnioev] in
theorem doomed_logout (hheld : (.mMutex, .exclusive) ∈ held) {willMsg : MQTTPacket}
    (hwill : willMsg ∈ s.logoutWill client) (hrequests : willMsg.RequestsStats) :
    Doomed held (s.logoutLocks client) := by
  obtain ⟨hin, hmWill⟩ := Option.ite_none_left_eq_some.mp hwill
  obtain ⟨hout, hattached⟩ := not_or.mp hin
  obtain ⟨state, hstate⟩ := Option.ne_none_iff_exists'.mp hattached
  have hpublish : Doomed held (s.publishLocks willMsg) := by
    unfold publishLocks performSystemActionLocks
    rw [if_pos hrequests]
    exact (doomed_refresh hheld).append _
  unfold logoutLocks
  rw [if_neg hout, hstate, hmWill]
  exact .inr (hpublish.append _)

/-- A thread that publishes such a will has `mMutex` for itself and is to share it. -/
theorem doomed_step (h : s.Linked) {t : ApplicationState τ} (hstep : s.stepOk action = some t)
    {published : ConnectionId × MQTTPacket} (hwill : published ∈ s.publishedWills action)
    (hrequests : published.2.RequestsStats) : Doomed (s.outerLocks action) (s.stepLocks action) := by
  obtain ⟨⟨u, client⟩, hcall, hsome⟩ := List.mem_filterMap.mp hwill
  obtain ⟨willMsg, hwillMsg, rfl⟩ := Option.map_eq_some_iff.mp hsome
  cases action with
  | execute randomChars =>
      simp only [logouts] at hcall
      split at hcall
      · next c thread queue hqueue =>
          cases List.mem_singleton.mp hcall
          have hlocks : s.stepLocks (.execute randomChars) =
              logoutLocks { s with mQueue := queue } client := by
            simp only [stepLocks, executedLogin, hqueue]
            rfl
          rw [hlocks]
          exact doomed_logout List.mem_cons_self hwillMsg hrequests
      · next c clientId cleanSession thread queue hqueue =>
          split at hcall
          · cases hcall
          · next login hlogin =>
              split at hcall
              · cases hcall
              · next session hstored =>
                  -- A login detaches the connection that it logs out.
                  obtain ⟨-, -, hclient, -⟩ := logsIn_of_executedLogin h hstep hlogin
                  have hdequeued : (view { s with mQueue := queue }).Linked := h.view.dequeue hqueue
                  obtain ⟨old, hold, heq⟩ := List.mem_map.mp hcall
                  cases heq
                  have hcurrent : (s.sessions session).mCurrentClient = some client := by
                    have htaken := Option.mem_toList.mp hold
                    rw [takenOver, hstored] at htaken
                    exact htaken
                  have hnone := unattached_replaceCurrentClient hdequeued.toAttached hclient
                    login.cleanSession (if s.Resumes login then .simpleReplace else .cleanSession)
                    hcurrent
                  rw [logoutWill_of_unattached hnone] at hwillMsg
                  cases hwillMsg
      · cases hcall
  | logoutSendError client =>
      cases List.mem_singleton.mp hcall
      exact doomed_logout List.mem_cons_self hwillMsg hrequests
  | timeout client now =>
      cases List.mem_singleton.mp hcall
      exact doomed_logout List.mem_cons_self hwillMsg hrequests
  | _ => cases hcall

end

end ApplicationState

/-! ## Threads -/

/-- What threads lock when they make no step of the broker. -/
inductive Routine where
  /-- `EPOLLOUT` of the connection. -/
  | flush (client : ConnectionId)
  | refresh
  | runScript (script : Nat)
  /-- The thread of the script looks for a task. -/
  | nextTask (script : Nat)

def Routine.locks {τ : Type} (s : ApplicationState τ) : Routine → Locking
  | .flush client => lockGuard (.mSendMutex client) .exclusive []
  | .refresh => s.refreshLocks
  | .runScript script => lockGuard .mMutex .shared (lockGuard (.script script) .exclusive [])
  | .nextTask script => lockGuard (.script script) .exclusive []

/-- The broker, and what its threads have locked and are to lock. -/
structure LockingThreads (τ : Type) (ι : Type*) where
  broker : ApplicationState τ
  threads : ι → LockThread Mutex := fun _ => {}

inductive LockingAction (ι : Type*) where
  /-- A thread is to take a lock that it makes steps under. -/
  | lock (i : ι) (mutex : Mutex) (mode : Mode)
  | act (i : ι) (action : ApplicationState.Action)
  | call (i : ι) (routine : Routine)
  | advance (i : ι)
  | leave (i : ι)

def Mutex.isRecvMutex : Mutex → Bool
  | .mRecvMutex _ => true
  | _ => false

/-- The locks that steps are made under. -/
def Begins (held : HeldMutexes) : Mutex → Mode → Prop
  | .mRecvMutex _, .exclusive => held = []
  | .mMutex, _ => ∀ own ∈ held, own.1.isRecvMutex = true
  | _, _ => False

instance decidableBegins (held : HeldMutexes) :
    (mutex : Mutex) → (mode : Mode) → Decidable (Begins held mutex mode)
  | .mRecvMutex _, .exclusive => inferInstanceAs (Decidable (held = []))
  | .mMutex, _ => inferInstanceAs (Decidable (∀ own ∈ held, own.1.isRecvMutex = true))
  | .mRecvMutex _, .shared | .statistics, _ | .session _, _ | .mSendMutex _, _ | .script _, _
  | .mRecentlyLoggedInClientsMutex, _ => isFalse id

namespace LockingThreads

variable {τ : Type} {ι : Type*} [Fintype ι] [DecidableEq ι] [Libnioev] [SubscriptionTree τ]

/-- The effect of a step is put where its locks begin. -/
def step (w : LockingThreads τ ι) : LockingAction ι → Option (LockingThreads τ ι)
  | .lock i mutex mode =>
    if (w.threads i).todo = [] ∧ Begins (w.threads i).held mutex mode then
      some { w with
        threads := setThread w.threads i (w.threads i).held [.acquire mutex mode] }
    else none
  | .act i action =>
    if (w.threads i).todo = [] ∧ (w.threads i).held = w.broker.outerLocks action then
      (w.broker.stepOk action).map fun t =>
        { broker := t
          threads := setThread w.threads i (w.broker.outerLocks action)
            (w.broker.stepLocks action) }
    else none
  | .call i routine =>
    if w.threads i = {} then
      some { w with threads := setThread w.threads i [] (routine.locks w.broker) }
    else none
  | .advance i => (LockOrder.advance w.threads i).map fun threads => { w with threads }
  | .leave i => (LockOrder.leave w.threads i).map fun threads => { w with threads }

omit [Fintype ι] [DecidableEq ι] [Libnioev] in
def initial (retained : AList fun _ : ByteString => RetainedMessage) : LockingThreads τ ι where
  broker := .initial retained

omit [Fintype ι] [DecidableEq ι] [Libnioev] in
/-- No logout publishes a will that asks for statistics. -/
def AsksOutside (w : LockingThreads τ ι) : LockingAction ι → Prop
  | .act _ action => ∀ published ∈ w.broker.publishedWills action, ¬ published.2.RequestsStats
  | _ => True

omit [Fintype ι] [DecidableEq ι] [Libnioev] in
instance decidableAsksOutside (w : LockingThreads τ ι) :
    (action : LockingAction ι) → Decidable (w.AsksOutside action)
  | .act _ action =>
    inferInstanceAs (Decidable (∀ published ∈ w.broker.publishedWills action,
      ¬ published.2.RequestsStats))
  | .lock _ _ _ | .call _ _ | .advance _ | .leave _ => isTrue trivial

variable {w w' : LockingThreads τ ι} {action : LockingAction ι}

/-- What holds as long as nobody publishes such a will. -/
structure Sound (w : LockingThreads τ ι) : Prop where
  linked : w.broker.Linked
  ordered : AllOrdered Mutex.rank w.threads

omit [Fintype ι] [Libnioev] [SubscriptionTree τ] in
theorem ordered_begins {held : HeldMutexes} {mutex : Mutex} {mode : Mode} (h : Begins held mutex mode) :
    Ordered Mutex.rank held [.acquire mutex mode] := by
  refine ⟨?_, trivial⟩
  cases mutex with
  | mRecvMutex client =>
      cases mode with
      | exclusive =>
          rw [show held = [] from h]
          exact below_nil _
      | shared => exact h.elim
  | mMutex =>
      have hzero : ∀ mode, 1 ≤ Mutex.rank .mMutex mode := by
        intro mode
        cases mode with
        | shared => decide
        | exclusive => decide
      refine Below.mono (m := 1) (fun own hown => ?_) (hzero mode)
      have hrecv : own.1.isRecvMutex = true := h own hown
      obtain ⟨mutex, mode⟩ := own
      cases mutex with
      | mRecvMutex client => exact ⟨Nat.one_pos, fun _ => Nat.one_pos⟩
      | _ => cases hrecv
  | _ => exact h.elim

omit [Fintype ι] [DecidableEq ι] [Libnioev] [SubscriptionTree τ] in
theorem ordered_locks (s : ApplicationState τ) (routine : Routine) :
    Ordered Mutex.rank [] (routine.locks s) := by
  have hshared : Below Mutex.rank [(.mMutex, .shared)] 5 :=
    (ApplicationState.below_shared (below_nil 1)).mono (by decide)
  cases routine with
  | flush client => exact (ApplicationState.region_guard (below_nil _)).ordered
  | refresh => exact (ApplicationState.region_refresh (below_nil 2)).ordered
  | runScript script =>
      exact (Region.lockGuard (below_nil _) (ApplicationState.region_guard hshared)).ordered
  | nextTask script => exact (ApplicationState.region_guard (below_nil _)).ordered

theorem Sound.step (h : w.Sound) (hasks : w.AsksOutside action) (hstep : w.step action = some w') :
    w'.Sound := by
  have hmoves : ∀ {threads : ι → LockThread Mutex}, Moves w.threads threads →
      AllOrdered Mutex.rank threads := by
    intro threads hmoves
    obtain ⟨i, held, todo, hmoved, rfl⟩ := moves_iff.mp hmoves
    exact h.ordered.setThread (hmoved.ordered (h.ordered i)) i
  cases action with
  | lock i mutex mode =>
      obtain ⟨⟨-, hbegins⟩, heq⟩ := Option.ite_none_right_eq_some.mp hstep
      cases heq
      exact ⟨h.linked, h.ordered.setThread (ordered_begins hbegins) i⟩
  | act i action =>
      obtain ⟨-, hacts⟩ := Option.ite_none_right_eq_some.mp hstep
      obtain ⟨t, hok, rfl⟩ := Option.map_eq_some_iff.mp hacts
      exact ⟨ApplicationState.linked_stepOk h.linked hok,
        h.ordered.setThread (ApplicationState.ordered_step h.linked hok hasks) i⟩
  | call i routine =>
      obtain ⟨-, heq⟩ := Option.ite_none_right_eq_some.mp hstep
      cases heq
      exact ⟨h.linked, h.ordered.setThread (ordered_locks w.broker routine) i⟩
  | advance i =>
      obtain ⟨threads, hadvance, rfl⟩ := Option.map_eq_some_iff.mp hstep
      exact ⟨h.linked, hmoves ⟨i, .inl hadvance⟩⟩
  | leave i =>
      obtain ⟨threads, hleave, rfl⟩ := Option.map_eq_some_iff.mp hstep
      exact ⟨h.linked, hmoves ⟨i, .inr hleave⟩⟩

/-- A step that publishes such a will leaves a thread that does not finish. -/
theorem Sound.canFinish_step_iff (h : w.Sound) (hstep : w.step action = some w') :
    CanFinish w'.threads ↔ w.AsksOutside action := by
  refine ⟨fun hfinish => ?_, fun hasks => (h.step hasks hstep).ordered.canFinish⟩
  cases action with
  | act i action =>
      intro published hpublished hrequests
      obtain ⟨-, hacts⟩ := Option.ite_none_right_eq_some.mp hstep
      obtain ⟨t, hok, rfl⟩ := Option.map_eq_some_iff.mp hacts
      have hdoomed := ApplicationState.doomed_step h.linked hok hpublished hrequests
      refine not_canFinish (i := i) ?_ hfinish
      simp only [setThread, Function.update_self]
      exact hdoomed
  | _ => trivial

/-- Over every run all threads can finish, exactly as long as no logout publishes a will
that asks for statistics. -/
theorem finishes_iff_asksOutside {retained : AList fun _ : ByteString => RetainedMessage}
    {run : List (LockingAction ι × LockingThreads τ ι)}
    (hrun : Runs.IsRun (Runs.StepOf step) (initial retained) run) :
    Runs.AllStates (fun w => CanFinish w.threads) run ↔
      Runs.AllSteps AsksOutside (initial retained) run := by
  have hidle : AllOrdered Mutex.rank (fun _ => {} : ι → LockThread Mutex) := fun _ => trivial
  have hinitial : Sound (initial retained : LockingThreads τ ι) :=
    ⟨ApplicationState.linked_initial retained, hidle⟩
  exact hrun.allStates_iff_allSteps (fun _ _ _ h _ hasks hstep => h.step hasks hstep)
    (fun _ _ _ h _ hstep => h.canFinish_step_iff hstep) hinitial hidle.canFinish

/-- One thread accepts a client and receives its `CONNECT`. While it still has the mutex of
the connection, another logs the client in, and then out as it has timed out. -/
def timeoutWithWill (topic : ByteString) : List (LockingAction Bool) :=
  [.lock false .mMutex .exclusive, .advance false, .act false (.newConnection [] 0), .leave false,
    .lock false (.mRecvMutex 0) .exclusive, .advance false,
    .act false (.connect 0 ⟨.v4, 60, [0x61], .no, some ⟨topic, [], .qos0, .no, []⟩,
      ApplicationState.Action.kept_of_id⟩),
    .act false (.proceed (.receiver 0) false), .lock true .mMutex .exclusive, .advance true,
    .act true (.execute []), .advance true, .advance true, .advance true, .advance true,
    .act true (.timeout 0 120000000000)]

omit [Libnioev] in
/-- With a will that asks for statistics it does not finish. -/
theorem finishes_timeout :
    let run := fun topic => Runs.runOf (@step SubscriptionList Bool _ _ .standard _)
      (initial ∅) (timeoutWithWill topic)
    (run [0x74]).length = 16 ∧ Runs.AllStates (fun w => CanFinish w.threads) (run [0x74]) ∧
      ¬ Runs.AllStates (fun w => CanFinish w.threads) (run requestNewStats) := by
  intro run
  have hexact := fun topic => @finishes_iff_asksOutside SubscriptionList Bool _ _ .standard _ ∅
    (run topic) (Runs.isRun_runOf _ _ _)
  refine ⟨by decide +kernel, (hexact [0x74]).mpr (by decide +kernel), fun hfinish => ?_⟩
  have hasks := (hexact requestNewStats).mp hfinish
  revert hasks
  decide +kernel

end LockingThreads

end NioevMqtt
