-- SUMMARY: The code that runs under the exclusive lock, with the lock as part of the state: a thread takes the lock that it has itself exactly where it publishes a will that asks for new statistics.
import NioevMqtt.Broker.PublishedWills
import NioevMqtt.Scripting.ScriptStore

/-!
# Code under the exclusive lock

The functions of `Broker/ApplicationState.lean` once more, for a thread that has
`mMutex`, with what they call outside: system actions and the statistics, which come
back to the application for what they count.
-/

namespace NioevMqtt

open Outcome

/-- Why code does not come to its end. -/
inductive Halt where
  | fault (fault : Fault)
  /-- The thread takes a lock that it has itself. Where this is noticed (`EDEADLK`)
  `lock_shared` throws and the process terminates, elsewhere the thread waits for itself. -/
  | selfDeadlock
deriving DecidableEq, Repr

/-! ## The lock -/

/-- `std::shared_mutex`. -/
structure SharedMutex where
  writer : Option Thread := none
  readers : List Thread := []
deriving DecidableEq, Repr

namespace SharedMutex

/-- Blocks until no thread has the lock for itself. -/
def lockShared (m : SharedMutex) (thread : Thread) : Except Halt SharedMutex :=
  if m.writer = some thread then .error .selfDeadlock
  else .ok { writer := none, readers := thread :: m.readers }

def unlockShared (m : SharedMutex) (thread : Thread) : SharedMutex :=
  { m with readers := m.readers.erase thread }

/-- Blocks until no other thread has the lock in any way. -/
def lock (m : SharedMutex) (thread : Thread) : Except Halt SharedMutex :=
  if m.writer = some thread ∨ thread ∈ m.readers then .error .selfDeadlock
  else .ok { writer := some thread }

/-- Fails at once where a thread has the lock, the same one too. -/
def tryLock (m : SharedMutex) (thread : Thread) : Option SharedMutex :=
  if m.writer = none ∧ m.readers = [] then some { writer := some thread } else none

def unlock (m : SharedMutex) : SharedMutex := { m with writer := none }

theorem lockShared_of_writer {m : SharedMutex} {thread : Thread} (h : m.writer = some thread) :
    m.lockShared thread = .error .selfDeadlock := if_pos h

theorem tryLock_of_writer {m : SharedMutex} {thread : Thread} (h : m.writer = some thread) :
    m.tryLock thread = none := by
  refine if_neg fun hfree => ?_
  rw [h] at hfree
  cases hfree.1

end SharedMutex

structure ClientInfo where
  clientId : ByteString
  /-- Of a connection; a session without one has none. -/
  remote : Option ByteString
deriving DecidableEq, Repr

/-- `AnalysisResults`, as far as they are asked of the application. -/
structure AnalysisResults where
  appStateQueueDepth : Nat := 0
  retainedMsgCount : Nat := 0
  retainedMsgCummulativeSize : Nat := 0
  activeSubscriptions : List (ByteString × Nat) := []
  clients : List ClientInfo := []
deriving DecidableEq, Repr

/-- The application with its lock, its scripts and its statistics. -/
structure LockedState (τ : Type) where
  app : ApplicationState τ
  mMutex : SharedMutex := {}
  scripts : ScriptStore := {}
  mAnalysisResult : AnalysisResults := {}

/-- `"$NIOEV"` -/
def systemPrefix : ByteString := [0x24, 0x4E, 0x49, 0x4F, 0x45, 0x56]

/-- `"$NIOEV/request_new_stats"` -/
def requestNewStats : ByteString :=
  systemPrefix ++ [0x2F, 0x72, 0x65, 0x71, 0x75, 0x65, 0x73, 0x74, 0x5F, 0x6E, 0x65, 0x77, 0x5F, 0x73,
    0x74, 0x61, 0x74, 0x73]

/-- A message that is a request for new statistics. -/
def MQTTPacket.RequestsStats (packet : MQTTPacket) : Prop :=
  packet.topic = requestNewStats ∧ packet.payload.length ≤ 1024 * 1024

instance (packet : MQTTPacket) : Decidable packet.RequestsStats :=
  inferInstanceAs (Decidable (_ ∧ _))

/-- The request is the logout of a client with a will that asks for new statistics. -/
def ApplicationState.PublishesStatsRequest {τ : Type} (s : ApplicationState τ) : ChangeRequest → Prop
  | .logoutClient client => ∃ willMsg ∈ s.logoutWill client, willMsg.RequestsStats
  | _ => False

instance {τ : Type} (s : ApplicationState τ) : DecidablePred s.PublishesStatsRequest
  | .logoutClient client =>
    inferInstanceAs (Decidable (∃ willMsg ∈ s.logoutWill client, willMsg.RequestsStats))
  | .subscribe _ _ _ _ | .unsubscribe _ _ | .unsubscribeFromAll _ | .retain _ | .loginClient _ _ _
  | .deleteScript _ => isFalse id

namespace LockedState

variable {τ : Type}

/-- What the code does to the application alone. -/
def lift (l : LockedState τ) : Except Fault (ApplicationState τ) → Except Halt (LockedState τ)
  | .error fault => .error (.fault fault)
  | .ok app => .ok { l with app := app }

/-! ## Statistics -/

/-- A function of the application that takes the lock to read something. -/
def readShared {α : Type} (l : LockedState τ) (thread : Thread) (read : ApplicationState τ → α) :
    Except Halt (α × LockedState τ) := do
  let mMutex ← l.mMutex.lockShared thread
  return (read l.app, { l with mMutex := mMutex.unlockShared thread })

def getRetainedMsgCount (l : LockedState τ) (thread : Thread) : Except Halt (Nat × LockedState τ) :=
  l.readShared thread fun app => app.mRetainedMessages.entries.length

def getRetainedMsgCummulativeSize (l : LockedState τ) (thread : Thread) :
    Except Halt (Nat × LockedState τ) :=
  l.readShared thread fun app =>
    (app.mRetainedMessages.entries.map fun msg => msg.2.payload.length + msg.1.length + 1).sum

/-- The loops that would count are commented out. -/
def getSubscriptionsCount (l : LockedState τ) (thread : Thread) :
    Except Halt (List (ByteString × Nat) × LockedState τ) :=
  l.readShared thread fun _ => []

/-- `forEachClient`, with the callback of the statistics. -/
def forEachClient (l : LockedState τ) (thread : Thread) :
    Except Halt (List ClientInfo × LockedState τ) :=
  l.readShared thread fun app => app.mPersistentClientStates.entries.map fun c =>
    { clientId := (app.sessions c.2).mClientID
      remote := (app.sessions c.2).mCurrentClient.map fun client => (app.connections client).mRemote }

/-- What it publishes then, it leaves to another thread. -/
def refreshInternal (l : LockedState τ) (thread : Thread) : Except Halt (LockedState τ) := do
  let appStateQueueDepth := l.app.mQueue.length
  let (retainedMsgCount, l) ← l.getRetainedMsgCount thread
  let (retainedMsgCummulativeSize, l) ← l.getRetainedMsgCummulativeSize thread
  let (activeSubscriptions, l) ← l.getSubscriptionsCount thread
  let (clients, l) ← l.forEachClient thread
  return { l with
    mAnalysisResult :=
      { appStateQueueDepth, retainedMsgCount, retainedMsgCummulativeSize, activeSubscriptions,
        clients } }

def performSystemAction (l : LockedState τ) (thread : Thread) (topic : ByteString)
    (payload : List UInt8) : Except Halt (LockedState τ) :=
  if payload.length > 1024 * 1024 then .ok l
  else if topic = requestNewStats then l.refreshInternal thread
  else .ok l

/-! ## Publishing and logout -/

section

variable [Libnioev] [SubscriptionTree τ]

def publishNoLockNoRetain (l : LockedState τ) (thread : Thread) (packet : MQTTPacket) :
    Except Halt (LockedState τ) := do
  let l ←
    if systemPrefix.isPrefixOf packet.topic then
      l.performSystemAction thread packet.topic packet.payload
    else .ok l
  l.lift (l.app.publishNoLockNoRetain packet)

/-- `requestChange` for a retain request, in the mode `TRY_SYNC_THEN_ASYNC`. -/
def requestRetain (l : LockedState τ) (thread : Thread) (packet : MQTTPacket) : LockedState τ :=
  match l.mMutex.tryLock thread with
  | some mMutex => { l with app := l.app.retain packet, mMutex := mMutex.unlock }
  | none =>
    { l with app := l.app.requestChange ⟨.retain packet, thread⟩ (l.mMutex.writer = some thread) }

def publishInternal (l : LockedState τ) (thread : Thread) (packet : MQTTPacket) :
    Except Halt (LockedState τ) := do
  let l := { l with app := l.app.notePublished packet }
  let l ← l.publishNoLockNoRetain thread packet
  if packet.retain = .yes then return l.requestRetain thread packet
  else return l

def publishWill (l : LockedState τ) (thread : Thread) (client : ConnectionId) :
    Except Halt (LockedState τ) :=
  match (l.app.connections client).mWill with
  | none => .ok l
  | some willMsg => l.publishInternal thread willMsg

def logoutClient (l : LockedState τ) (thread : Thread) (client : ConnectionId) :
    Except Halt (LockedState τ) :=
  if (l.app.connections client).mLoggedOut then .ok l
  else
    let l := { l with app := l.app.markLoggedOut client }
    match (l.app.connections client).mPersistentClientState with
    | none => .ok l
    | some state => do
      let l ← l.publishWill thread client
      let l ← l.lift (l.app.dropCurrentClient state)
      return { l with app := l.app.deleteCleanSession state }

/-! ## Login and the other requests -/

def logoutExisting (l : LockedState τ) (thread : Thread) :
    Option ConnectionId → Except Halt (LockedState τ)
  | none => .ok l
  | some existingClient => l.logoutClient thread existingClient

def loginExisting (l : LockedState τ) (thread : Thread) (client : ConnectionId)
    (session : SessionId) (cleanSession : CleanSession) : Except Halt (LockedState τ) := do
  let existingClient := (l.app.sessions session).mCurrentClient
  if cleanSession = .yes ∨ (l.app.sessions session).mCleanSession = .yes then
    let l := { l with app := l.app.replaceCurrentClient session client cleanSession .cleanSession }
    let l ← l.logoutExisting thread existingClient
    return { l with app := (l.app.sendConnack client .no).connected client }
  else
    let l := { l with app := l.app.replaceCurrentClient session client cleanSession .simpleReplace }
    let l ← l.logoutExisting thread existingClient
    return { l with app := ((l.app.sendConnack client .yes).resend client session).connected client }

def loginClient (l : LockedState τ) (thread : Thread) (client : ConnectionId)
    (clientId : ByteString) (cleanSession : CleanSession) (generatedId : ByteString) :
    Except Halt (LockedState τ) :=
  if (l.app.connections client).mLoggedOut then .ok l
  else
    let clientId := if clientId = [] then generatedId else clientId
    match l.app.mPersistentClientStates.lookup clientId with
    | some session => l.loginExisting thread client session cleanSession
    | none => .ok { l with app := l.app.loginNew client clientId cleanSession }

/-- `std::visit(*this, changeRequest)`. A login and a logout publish; the others take no
lock, and neither do the subscribers they send to. -/
def visit (l : LockedState τ) (thread : Thread) (generatedId : ByteString) :
    ChangeRequest → Except Halt (LockedState τ)
  | .loginClient client clientId cleanSession =>
    l.loginClient thread client clientId cleanSession generatedId
  | .logoutClient client => l.logoutClient thread client
  | change => l.lift (l.app.visit thread generatedId change)

def executeChangeRequest (l : LockedState τ) (thread : Thread) (generatedId : ByteString)
    (change : ChangeRequest) : Except Halt (LockedState τ) := do
  let l ← l.visit thread generatedId change
  return { l with app := l.app.releaseRequest change }

variable [ScriptNames]

/-- The requests about scripts. The subscriptions of a script end with it. -/
def executeScriptRequest (l : LockedState τ) (change : ScriptRequest) : LockedState τ :=
  let app :=
    match change, l.scripts.mScripts.lookup change.name with
    | .addScript _ _, some script | .deleteScript _, some script =>
      l.app.deleteAllSubscriptions (.other script.id)
    | _, _ => l.app
  { l with app := app, scripts := l.scripts.visit change }

/-! ## Steps -/

/-- A scope of the lock. -/
def underLock (l : LockedState τ) (thread : Thread)
    (scope : LockedState τ → Except Halt (LockedState τ)) : Except Halt (LockedState τ) := do
  let mMutex ← l.mMutex.lock thread
  let l ← scope { l with mMutex := mMutex }
  return { l with mMutex := l.mMutex.unlock }

inductive Action where
  | broker (action : ApplicationState.Action)
  /-- A request about scripts, which any thread may execute. -/
  | script (thread : Thread) (change : ScriptRequest)

/-- The worker thread executes a request. -/
def executeRequest (l : LockedState τ) (randomChars : List ByteString) (request : Request) :
    Option (Except Halt (LockedState τ)) :=
  (l.app.generatedFor randomChars request.change).map fun generatedId =>
    l.underLock .worker fun l => l.executeChangeRequest .worker generatedId request.change

/-- The steps that run under the lock; the others are those of the broker. -/
def step (l : LockedState τ) : Action → Option (Except Halt (LockedState τ))
  | .script thread change => some (l.underLock thread fun l => .ok (l.executeScriptRequest change))
  | .broker (.execute randomChars) =>
    match l.app.mQueue with
    | [] => none
    | request :: mQueue =>
      executeRequest { l with app := { l.app with mQueue := mQueue } } randomChars request
  | .broker (.executeInternal randomChars) =>
    match l.app.mQueueInternal with
    | [] => none
    | request :: mQueueInternal =>
      executeRequest { l with app := { l.app with mQueueInternal := mQueueInternal } } randomChars
        request
  | .broker (.logoutSendError client) =>
    if client ∈ l.app.mClients ∧ (l.app.connections client).mSendError then
      some (l.underLock .worker fun l => l.logoutClient .worker client)
    else none
  | .broker (.timeout client now) =>
    if client ∈ l.app.mClients ∧ l.app.TimedOut client now then
      some (l.underLock .timers fun l => l.logoutClient .timers client)
    else none
  | .broker .cleanup =>
    if l.app.mShouldCleanup ∧ ∀ client ∈ l.app.mClients, l.app.work (.receiver client) = [] then
      some (l.underLock .timers fun l => .ok { l with app := l.app.eraseDisconnected })
    else none
  | .broker (.proceed thread true) =>
    match l.app.work thread with
    | .request (.retain packet) :: rest =>
      some (underLock { l with app := l.app.setWork thread rest } thread fun l =>
        l.executeChangeRequest thread [] (.retain packet))
    | _ => (l.app.step (.proceed thread true)).map l.lift
  | .broker action => (l.app.step action).map l.lift

end

/-! ## What a thread that has the lock does -/

section

variable {l l' : LockedState τ} {thread : Thread} {packet : MQTTPacket}

theorem lift_app (l : LockedState τ) (app : ApplicationState τ)
    (result : Except Fault (ApplicationState τ)) : lift { l with app := app } result = l.lift result := by
  cases result with
  | error fault => rfl
  | ok app' => rfl

/-- One thing after another. -/
theorem lift_bind (l : LockedState τ) (result : Except Fault (ApplicationState τ))
    {f : ApplicationState τ → Except Fault (ApplicationState τ)}
    {g : LockedState τ → Except Halt (LockedState τ)}
    (hg : ∀ app, result = .ok app → g { l with app := app } = l.lift (f app)) :
    (l.lift result >>= g) = l.lift (result >>= f) := by
  cases result with
  | error fault => rfl
  | ok app => exact hg app rfl

/-- The statistics ask the application for the lock. -/
theorem refreshInternal_of_writer (h : l.mMutex.writer = some thread) :
    l.refreshInternal thread = .error .selfDeadlock := by
  unfold refreshInternal getRetainedMsgCount readShared
  rw [SharedMutex.lockShared_of_writer h]
  rfl

theorem performSystemAction_of_writer (h : l.mMutex.writer = some thread) :
    l.performSystemAction thread packet.topic packet.payload =
      if packet.RequestsStats then .error .selfDeadlock else .ok l := by
  unfold performSystemAction
  by_cases hsize : packet.payload.length > 1024 * 1024
  · rw [if_pos hsize, if_neg fun hstats => absurd hstats.2 (Nat.not_le_of_lt hsize)]
  · rw [if_neg hsize]
    by_cases htopic : packet.topic = requestNewStats
    · rw [if_pos htopic, if_pos ⟨htopic, Nat.le_of_not_lt hsize⟩]
      exact refreshInternal_of_writer h
    · rw [if_neg htopic, if_neg fun hstats => htopic hstats.1]

variable [Libnioev] [SubscriptionTree τ]

/-- A request for new statistics starts with the system prefix. -/
theorem publishNoLockNoRetain_of_writer (h : l.mMutex.writer = some thread) :
    l.publishNoLockNoRetain thread packet =
      if packet.RequestsStats then .error .selfDeadlock
      else l.lift (l.app.publishNoLockNoRetain packet) := by
  unfold publishNoLockNoRetain
  rw [performSystemAction_of_writer h]
  by_cases hstats : packet.RequestsStats
  · have hsystem : systemPrefix.isPrefixOf packet.topic = true := by
      rw [hstats.1]
      decide
    rw [if_pos hstats, if_pos hstats, if_pos hsystem]
    rfl
  · rw [if_neg hstats, if_neg hstats, ite_self]
    rfl

omit [Libnioev] [SubscriptionTree τ] in
/-- The attempt to take the lock fails, and the retain request is queued. -/
theorem requestRetain_of_writer (h : l.mMutex.writer = some thread) :
    l.requestRetain thread packet =
      { l with app := l.app.requestChange ⟨.retain packet, thread⟩ true } := by
  unfold requestRetain
  rw [SharedMutex.tryLock_of_writer h, decide_eq_true h]

theorem publishInternal_of_writer (h : l.mMutex.writer = some thread) :
    l.publishInternal thread packet =
      if packet.RequestsStats then .error .selfDeadlock
      else l.lift (l.app.publishInternal thread packet) := by
  have hnoted : ({ l with app := l.app.notePublished packet } : LockedState τ).mMutex.writer =
      some thread := h
  simp only [publishInternal]
  rw [publishNoLockNoRetain_of_writer hnoted]
  by_cases hstats : packet.RequestsStats
  · rw [if_pos hstats, if_pos hstats]
    rfl
  · rw [if_neg hstats, if_neg hstats]
    refine l.lift_bind _ fun app _ => ?_
    have hwriter : ({ l with app := app } : LockedState τ).mMutex.writer = some thread := h
    rw [requestRetain_of_writer hwriter]
    split
    · rfl
    · rfl

theorem publishWill_of_writer (h : l.mMutex.writer = some thread) (client : ConnectionId) :
    l.publishWill thread client =
      if ∃ willMsg ∈ (l.app.connections client).mWill, willMsg.RequestsStats then .error .selfDeadlock
      else l.lift (l.app.publishWill thread client) := by
  unfold publishWill ApplicationState.publishWill
  cases (l.app.connections client).mWill with
  | none => exact (if_neg (by simp)).symm
  | some willMsg =>
      have hmem : (∃ w ∈ some willMsg, w.RequestsStats) ↔ willMsg.RequestsStats :=
        ⟨fun ⟨_, rfl, hstats⟩ => hstats, fun hstats => ⟨willMsg, rfl, hstats⟩⟩
      simp only [hmem]
      exact publishInternal_of_writer h

/-- The end of a logout takes no lock. -/
theorem logoutClient_attached (h : l.mMutex.writer = some thread) {client : ConnectionId}
    {state : SessionId} (hout : (l.app.connections client).mLoggedOut = false)
    (hattached : (l.app.connections client).mPersistentClientState = some state) :
    l.logoutClient thread client =
      if ∃ willMsg ∈ (l.app.connections client).mWill, willMsg.RequestsStats then .error .selfDeadlock
      else l.lift (l.app.logoutClient thread client) := by
  have hmarked : (l.app.markLoggedOut client).connections client =
      { l.app.connections client with mLoggedOut := true } := by
    simp only [ApplicationState.markLoggedOut, ApplicationState.updateConnection,
      Function.update_self]
  have hwriter : ({ l with app := l.app.markLoggedOut client } : LockedState τ).mMutex.writer =
      some thread := h
  unfold logoutClient ApplicationState.logoutClient
  simp only [hout, Bool.false_eq_true, if_false, hmarked, hattached]
  rw [publishWill_of_writer hwriter, hmarked]
  split
  · rfl
  · rw [lift_app]
    refine l.lift_bind _ fun app _ => ?_
    rw [lift_app]
    exact l.lift_bind _ fun app _ => rfl

/-- A logout waits for its own thread exactly if the will it publishes is a request for
new statistics. -/
theorem logoutClient_of_writer (h : l.mMutex.writer = some thread) (client : ConnectionId) :
    l.logoutClient thread client =
      if ∃ willMsg ∈ l.app.logoutWill client, willMsg.RequestsStats then .error .selfDeadlock
      else l.lift (l.app.logoutClient thread client) := by
  cases hout : (l.app.connections client).mLoggedOut with
  | true =>
      have hwill : l.app.logoutWill client = none := if_pos (.inl hout)
      rw [hwill, if_neg (by simp)]
      unfold logoutClient ApplicationState.logoutClient
      rw [if_pos hout, if_pos hout]
      rfl
  | false =>
      cases hattached : (l.app.connections client).mPersistentClientState with
      | none =>
          have hwill : l.app.logoutWill client = none := if_pos (.inr hattached)
          have hmarked : ((l.app.markLoggedOut client).connections client).mPersistentClientState =
              none := by
            simp only [ApplicationState.markLoggedOut, ApplicationState.updateConnection,
              Function.update_self, hattached]
          rw [hwill, if_neg (by simp)]
          unfold logoutClient ApplicationState.logoutClient
          simp only [hout, Bool.false_eq_true, if_false, hmarked]
          rfl
      | some state =>
          have hwill : l.app.logoutWill client = (l.app.connections client).mWill := by
            unfold ApplicationState.logoutWill
            rw [hout, hattached]
            simp
          rw [hwill]
          exact logoutClient_attached h hout hattached

/-- A login that takes a session over detaches its connection first, so that no will is
published. -/
theorem loginExisting_of_writer (h : l.mMutex.writer = some thread) {client : ConnectionId}
    {session : SessionId} (cleanSession : CleanSession)
    (hdetached : ∀ old, (l.app.sessions session).mCurrentClient = some old → old ≠ client) :
    l.loginExisting thread client session cleanSession =
      l.lift (l.app.loginExisting thread client session cleanSession) := by
  have hlogout : ∀ style, logoutExisting { l with
        app := l.app.replaceCurrentClient session client cleanSession style } thread
        (l.app.sessions session).mCurrentClient =
      l.lift ((l.app.replaceCurrentClient session client cleanSession style).logoutExisting thread
        (l.app.sessions session).mCurrentClient) := by
    intro style
    cases hcurrent : (l.app.sessions session).mCurrentClient with
    | none => rfl
    | some old =>
        have hwill := ApplicationState.logoutWill_replaceCurrentClient hcurrent
          (hdetached old hcurrent) cleanSession style
        refine (logoutClient_of_writer (l := { l with
          app := l.app.replaceCurrentClient session client cleanSession style }) h old).trans ?_
        rw [hwill, if_neg (by simp), lift_app]
        rfl
  unfold loginExisting ApplicationState.loginExisting
  simp only
  split
  · rw [hlogout]
    exact l.lift_bind _ fun app _ => rfl
  · rw [hlogout]
    exact l.lift_bind _ fun app _ => rfl

theorem visit_of_writer (h : l.mMutex.writer = some thread) (generatedId : ByteString)
    {change : ChangeRequest} (hinverse : l.app.view.Attached) (hfresh : l.app.FreshLogin change) :
    l.visit thread generatedId change =
      if l.app.PublishesStatsRequest change then .error .selfDeadlock
      else l.lift (l.app.visit thread generatedId change) := by
  cases change with
  | logoutClient client => exact logoutClient_of_writer h client
  | loginClient client clientId cleanSession =>
      rw [if_neg (show ¬ l.app.PublishesStatsRequest (.loginClient client clientId cleanSession) from id)]
      cases hsession : l.app.mPersistentClientStates.lookup
          (if clientId = [] then generatedId else clientId) with
      | some session =>
          simp only [visit, loginClient, ApplicationState.visit, ApplicationState.loginClient, hsession]
          split
          · rfl
          · refine loginExisting_of_writer h cleanSession fun old hcurrent => ?_
            exact hinverse.inverse.ne (hfresh client clientId cleanSession rfl) hcurrent
      | none =>
          simp only [visit, loginClient, ApplicationState.visit, ApplicationState.loginClient, hsession]
          split
          · rfl
          · rfl
  | _ => exact (if_neg id).symm

theorem executeChangeRequest_of_writer (h : l.mMutex.writer = some thread)
    (generatedId : ByteString) {change : ChangeRequest} (hinverse : l.app.view.Attached)
    (hfresh : l.app.FreshLogin change) :
    l.executeChangeRequest thread generatedId change =
      if l.app.PublishesStatsRequest change then .error .selfDeadlock
      else l.lift (l.app.executeChangeRequest thread generatedId change) := by
  unfold executeChangeRequest ApplicationState.executeChangeRequest
  rw [visit_of_writer h generatedId hinverse hfresh]
  split
  · rfl
  · exact l.lift_bind _ fun app _ => rfl

/-! ## Scopes of the lock -/

/-- The thread has taken the lock. -/
def locked (l : LockedState τ) (thread : Thread) : LockedState τ :=
  { l with mMutex := { writer := some thread } }

omit [Libnioev] [SubscriptionTree τ] in
/-- A scope begins and ends with the lock free, unless the thread takes it twice. -/
theorem underLock_eq {P : Prop} [Decidable P] {result : Except Fault (ApplicationState τ)}
    {scope : LockedState τ → Except Halt (LockedState τ)} (hfree : l.mMutex = {})
    (hscope : scope (l.locked thread) =
      if P then .error .selfDeadlock else (l.locked thread).lift result) :
    l.underLock thread scope = if P then .error .selfDeadlock else l.lift result := by
  have hlock : l.mMutex.lock thread = .ok { writer := some thread } := by
    rw [hfree]
    exact if_neg (by simp)
  unfold underLock
  rw [hlock]
  refine (congrArg (· >>= fun l : LockedState τ => pure { l with mMutex := l.mMutex.unlock }) hscope).trans ?_
  by_cases hP : P
  · rw [if_pos hP, if_pos hP]
    rfl
  · rw [if_neg hP, if_neg hP]
    cases result with
    | error fault => rfl
    | ok app =>
        refine congrArg Except.ok ?_
        show ({ l with app := app, mMutex := {} } : LockedState τ) = { l with app := app }
        rw [← hfree]

/-! ## Steps -/

omit [Libnioev] [SubscriptionTree τ] in
theorem underLock_lift {scope : LockedState τ → Except Halt (LockedState τ)}
    (result : Except Fault (ApplicationState τ)) (hfree : l.mMutex = {})
    (hscope : scope (l.locked thread) = (l.locked thread).lift result) :
    l.underLock thread scope = l.lift result :=
  (underLock_eq (P := False) hfree (hscope.trans (if_neg id).symm)).trans (if_neg id)

/-- The step publishes a will that is a request for new statistics. -/
def PublishesStatsRequest (l : LockedState τ) : Action → Prop
  | .broker (.logoutSendError client) | .broker (.timeout client _) =>
    l.app.PublishesStatsRequest (.logoutClient client)
  | .broker (.execute _) =>
    ∃ request ∈ l.app.mQueue.head?, l.app.PublishesStatsRequest request.change
  | _ => False

instance (l : LockedState τ) : DecidablePred l.PublishesStatsRequest := fun action => by
  unfold PublishesStatsRequest
  split <;> infer_instance

theorem executeRequest_eq (hfree : l.mMutex = {}) (randomChars : List ByteString)
    {request : Request} (hattached : l.app.view.Attached) (hfresh : l.app.FreshLogin request.change) :
    l.executeRequest randomChars request =
      (l.app.executeRequest randomChars request).map fun result =>
        if l.app.PublishesStatsRequest request.change then .error .selfDeadlock
        else l.lift result := by
  unfold executeRequest ApplicationState.executeRequest
  rw [Option.map_map]
  refine congrArg (Option.map · _) (funext fun generatedId => ?_)
  exact underLock_eq hfree (executeChangeRequest_of_writer (l := l.locked .worker) rfl generatedId
    hattached hfresh)

omit [Libnioev] [SubscriptionTree τ] in
/-- What runs under no lock, or takes none while it has it, is as it was. -/
theorem map_lift_eq (l : LockedState τ) (result : Option (Except Fault (ApplicationState τ)))
    {P : Prop} [Decidable P] (hP : ¬ P) :
    result.map l.lift = result.map fun r => if P then .error .selfDeadlock else l.lift r :=
  congrArg (Option.map · result) (funext fun _ => (if_neg hP).symm)

variable [ScriptNames]

/-- A step of the broker is the one of its model, unless the thread takes the lock twice. -/
theorem step_broker (hfree : l.mMutex = {}) (hlinked : l.app.Linked)
    (action : ApplicationState.Action) :
    l.step (.broker action) = (l.app.step action).map fun result =>
      if l.PublishesStatsRequest (.broker action) then .error .selfDeadlock else l.lift result := by
  have hother : ∀ {action}, l.step (.broker action) = (l.app.step action).map l.lift →
      ¬ l.PublishesStatsRequest (.broker action) → l.step (.broker action) =
        (l.app.step action).map fun result =>
          if l.PublishesStatsRequest (.broker action) then .error .selfDeadlock else l.lift result :=
    fun heq hnone => heq.trans (l.map_lift_eq _ hnone)
  cases action with
  | execute randomChars =>
      simp only [step, ApplicationState.step]
      cases hqueue : l.app.mQueue with
      | nil => rfl
      | cons request queue =>
          -- The request is taken out of the queue before the lock is taken.
          have hpublishes : l.PublishesStatsRequest (.broker (.execute randomChars)) ↔
              l.app.PublishesStatsRequest request.change := by
            simp only [PublishesStatsRequest, hqueue, List.head?_cons, Option.mem_some_iff,
              exists_eq_left']
          simp only [hpublishes]
          refine (executeRequest_eq (l := { l with app := { l.app with mQueue := queue } }) hfree
            randomChars (hlinked.view.dequeue hqueue).toAttached (hlinked.freshLogin hqueue)).trans ?_
          simp only [lift_app]
          rfl
  | executeInternal randomChars =>
      simp only [step, ApplicationState.step]
      cases hqueue : l.app.mQueueInternal with
      | nil => rfl
      | cons request queue =>
          -- Retain requests publish nothing.
          obtain ⟨packet, hchange⟩ := hlinked.exists_retain hqueue
          have hnone : ¬ l.app.PublishesStatsRequest request.change := by
            rw [hchange]
            exact id
          refine (executeRequest_eq (l := { l with app := { l.app with mQueueInternal := queue } })
            hfree randomChars hlinked.view.toAttached ?_).trans ?_
          · rw [hchange]
            rintro _ _ _ ⟨⟩
          · simp only [lift_app]
            exact (map_lift_eq l _ hnone).symm.trans (map_lift_eq l _ (fun h => h))
  | logoutSendError client =>
      simp only [step, ApplicationState.step]
      split
      · exact congrArg some (underLock_eq hfree (logoutClient_of_writer (l := l.locked .worker) rfl client))
      · rfl
  | timeout client now =>
      simp only [step, ApplicationState.step]
      split
      · exact congrArg some (underLock_eq hfree (logoutClient_of_writer (l := l.locked .timers) rfl client))
      · rfl
  | cleanup =>
      simp only [step, ApplicationState.step]
      split
      · exact congrArg some ((underLock_lift (.ok l.app.eraseDisconnected) hfree rfl).trans
          (if_neg id).symm)
      · rfl
  | proceed thread lockTaken =>
      cases lockTaken with
      | false => exact hother rfl id
      | true =>
          -- Only a retain request may find the lock free and be executed at once.
          simp only [step]
          split
          · next packet rest hwork =>
              simp only [ApplicationState.step, hwork, ApplicationState.proceed, if_true]
              exact congrArg some ((underLock_lift (l := { l with app := l.app.setWork thread rest })
                (.ok ((l.app.setWork thread rest).retain packet)) hfree rfl).trans
                (if_neg id).symm)
          · exact map_lift_eq l _ (P := l.PublishesStatsRequest (.broker _)) fun h => h
  | _ => exact hother rfl id

/-- A request about scripts is executed without another lock. -/
theorem step_script (hfree : l.mMutex = {}) (thread : Thread) (change : ScriptRequest) :
    l.step (.script thread change) = some (.ok (l.executeScriptRequest change)) := by
  have hlock : l.mMutex.lock thread = .ok { writer := some thread } := by
    rw [hfree]
    exact if_neg (by simp)
  simp only [step, underLock, hlock]
  refine congrArg (some ∘ Except.ok) ?_
  show ({ l.executeScriptRequest change with mMutex := {} } : LockedState τ) = _
  rw [← hfree]
  rfl

/-! ## Runs -/

/-- A step that comes to its end. -/
def stepOk (l : LockedState τ) (action : Action) : Option (LockedState τ) :=
  match l.step action with
  | some (.ok l') => some l'
  | _ => none

/-- Between two scopes nobody has the lock. -/
structure Between (l : LockedState τ) : Prop where
  free : l.mMutex = {}
  linked : l.app.Linked

omit [Libnioev] in
theorem linked_executeScriptRequest (h : l.app.Linked) (change : ScriptRequest) :
    (l.executeScriptRequest change).app.Linked := by
  have hdeleted : ∀ sub, (l.app.deleteAllSubscriptions sub).Linked :=
    fun sub => ⟨h.view.setSubscriptions _, h.onlyRetains⟩
  simp only [executeScriptRequest]
  split
  · exact hdeleted _
  · exact hdeleted _
  · exact h

theorem Between.step {action : Action} (h : l.Between) (hstep : l.stepOk action = some l') :
    l'.Between := by
  unfold stepOk at hstep
  split at hstep
  · next hok =>
      cases hstep
      cases action with
      | broker action =>
          rw [step_broker h.free h.linked] at hok
          obtain ⟨result, hresult, heq⟩ := Option.map_eq_some_iff.mp hok
          split at heq
          · cases heq
          · cases result with
            | error fault => cases heq
            | ok app =>
                cases heq
                exact ⟨h.free,
                  h.linked.transition (ApplicationState.transition_of_step h.linked hresult)⟩
      | script thread change =>
          rw [step_script h.free] at hok
          cases hok
          exact ⟨h.free, linked_executeScriptRequest h.linked change⟩
  · cases hstep

/-- A thread takes the lock that it has itself. -/
def SelfDeadlocks (l : LockedState τ) (action : Action) : Prop :=
  l.step action = some (.error .selfDeadlock)

def initial (retained : AList fun _ : ByteString => RetainedMessage) (scripts : ScriptStore) :
    LockedState τ where
  app := ApplicationState.initial retained
  scripts := scripts

omit [Libnioev] [ScriptNames] in
theorem between_initial (retained : AList fun _ : ByteString => RetainedMessage)
    (scripts : ScriptStore) : (initial retained scripts : LockedState τ).Between :=
  ⟨rfl, ApplicationState.linked_initial retained⟩

theorem Between.selfDeadlocks_iff (h : l.Between) {action : Action}
    (hpossible : (l.step action).isSome = true) :
    l.SelfDeadlocks action ↔ l.PublishesStatsRequest action := by
  unfold SelfDeadlocks
  cases action with
  | broker action =>
      rw [step_broker h.free h.linked] at hpossible ⊢
      obtain ⟨result, hresult⟩ := Option.isSome_iff_exists.mp (Option.isSome_map.symm.trans hpossible)
      rw [hresult, Option.map_some, Option.some.injEq]
      by_cases hpublishes : l.PublishesStatsRequest (.broker action)
      · rw [if_pos hpublishes]
        exact iff_of_true rfl hpublishes
      · rw [if_neg hpublishes]
        refine iff_of_false (fun heq => ?_) hpublishes
        cases result with
        | error fault => cases heq
        | ok app => cases heq
  | script thread change =>
      rw [step_script h.free]
      exact iff_of_false (fun heq => by cases heq) id

/-- In every state that a run reaches, whatever runs under the lock never waits for it
exactly if it publishes no will that is a request for new statistics. -/
theorem not_selfDeadlocks_iff {retained : AList fun _ : ByteString => RetainedMessage}
    {scripts : ScriptStore} {run : List (Action × LockedState τ)}
    (hrun : Runs.IsRun (Runs.StepOf stepOk) (initial retained scripts) run) {action : Action}
    (hpossible : ((Runs.last (initial retained scripts) run).step action).isSome = true) :
    ¬ (Runs.last (initial retained scripts) run).SelfDeadlocks action ↔
      ¬ (Runs.last (initial retained scripts) run).PublishesStatsRequest action := by
  have hbetween : (Runs.last (initial retained scripts) run).Between :=
    hrun.invariant_last (fun _ _ _ h hstep => h.step hstep) (between_initial retained scripts)
  exact not_congr (hbetween.selfDeadlocks_iff hpossible)

instance (l : LockedState τ) (action : Action) : Decidable (l.SelfDeadlocks action) :=
  match h : l.step action with
  | some (.error .selfDeadlock) => isTrue h
  | some (.error (.fault _)) => isFalse fun heq => by cases h.symm.trans heq
  | some (.ok _) => isFalse fun heq => by cases h.symm.trans heq
  | none => isFalse fun heq => by cases h.symm.trans heq

end

/-! ### A will that stops the broker -/

/-- A client logs in with a will. -/
def loginWithWill (topic : ByteString) : List Action :=
  [.broker (.newConnection [] 0),
    .broker (.connect 0 ⟨.v4, 60, [0x61], .no, some ⟨topic, [], .qos0, .no, []⟩,
      ApplicationState.Action.kept_of_id⟩),
    .broker (.proceed (.receiver 0) false), .broker (.execute [])]

/-- It times out, and its will is published. -/
theorem not_selfDeadlocks_timeout :
    (Runs.runOf (@stepOk SubscriptionList .standard _ .standard) (initial ∅ {})
        (loginWithWill [0x74])).length = 4 ∧
      ¬ @SelfDeadlocks SubscriptionList .standard _ .standard
        (Runs.last (initial ∅ {}) (Runs.runOf (@stepOk SubscriptionList .standard _ .standard)
          (initial ∅ {}) (loginWithWill [0x74])))
        (.broker (.timeout 0 120000000000)) :=
  ⟨by decide +kernel, (@not_selfDeadlocks_iff SubscriptionList .standard _ .standard ∅ {} _
    (Runs.isRun_runOf (@stepOk SubscriptionList .standard _ .standard) _ _) _
    (by decide +kernel)).mpr (by decide +kernel)⟩

/-- Its will asks for new statistics. -/
theorem selfDeadlocks_timeout :
    ∃ run, Runs.IsRun (Runs.StepOf (@stepOk SubscriptionList .standard _ .standard))
        (initial ∅ {}) run ∧
      @SelfDeadlocks SubscriptionList .standard _ .standard (Runs.last (initial ∅ {}) run)
        (.broker (.timeout 0 120000000000)) :=
  ⟨_, Runs.isRun_runOf (@stepOk SubscriptionList .standard _ .standard) _
    (loginWithWill requestNewStats), by decide +kernel⟩

end LockedState

end NioevMqtt
