-- SUMMARY: The cases of a step of the broker and of a piece of work, read off once from the functions that take them.
import NioevMqtt.Broker.Threads

/-!
# The cases of a step

`step` and `proceed` are partial functions with a guard for each action. Whatever is said
about all steps is said case by case, with the guard at hand.
-/

namespace NioevMqtt

namespace ApplicationState

variable {τ : Type} [Libnioev] [SubscriptionTree τ] {s : ApplicationState τ}

/-! ## Work -/

/-- The cases of a piece of work. -/
inductive Proceeds (s : ApplicationState τ) (thread : Thread) (rest : List Work) :
    Work → Except Fault (ApplicationState τ) → Prop
  | subscribeUnattached {client topic qos}
      (hnone : (s.connections client).mPersistentClientState = none) :
      Proceeds s thread rest (.subscribe client topic qos) (.ok (s.setWork thread [.throws client]))
  | subscribe {client topic qos id}
      (hattached : (s.connections client).mPersistentClientState = some id) :
      Proceeds s thread rest (.subscribe client topic qos)
        (.ok (s.setWork thread (.request (.subscribe (.session id) topic qos .normal) :: rest)))
  | unsubscribeUnattached {client topic}
      (hnone : (s.connections client).mPersistentClientState = none) :
      Proceeds s thread rest (.unsubscribe client topic) (.ok (s.setWork thread [.throws client]))
  | unsubscribe {client topic id}
      (hattached : (s.connections client).mPersistentClientState = some id) :
      Proceeds s thread rest (.unsubscribe client topic)
        (.ok (s.setWork thread (.request (.unsubscribe (.session id) topic) :: rest)))
  | retain {packet : MQTTPacket} :
      Proceeds s thread rest (.request (.retain packet)) (.ok ((s.setWork thread rest).retain packet))
  | request {change : ChangeRequest} :
      Proceeds s thread rest (.request change)
        (.ok ((s.setWork thread rest).requestChange ⟨change, thread⟩ false))
  | publish {packet result}
      (hresult : (s.setWork thread (if packet.retain = .yes then .request (.retain packet) :: rest
        else rest)).publishNoLockNoRetain packet = result) :
      Proceeds s thread rest (.publish packet) result
  | reply {client packet} :
      Proceeds s thread rest (.reply client packet)
        (.ok ((s.setWork thread rest).sendData client packet))
  | throws {client : ConnectionId} :
      Proceeds s thread rest (.throws client)
        (.ok (s.setWork thread [.request (.logoutClient client)]))

theorem proceeds_of_proceed {thread : Thread} {lockTaken : Bool} {work : Work} {rest : List Work}
    {result : Except Fault (ApplicationState τ)}
    (hproceed : s.proceed thread lockTaken work rest = some result) :
    s.Proceeds thread rest work result := by
  cases work with
  | subscribe client topic qos =>
      simp only [proceed] at hproceed
      split at hproceed
      · next hnone =>
          cases hproceed
          exact .subscribeUnattached hnone
      · next hattached =>
          cases hproceed
          exact .subscribe hattached
  | unsubscribe client topic =>
      simp only [proceed] at hproceed
      split at hproceed
      · next hnone =>
          cases hproceed
          exact .unsubscribeUnattached hnone
      · next hattached =>
          cases hproceed
          exact .unsubscribe hattached
  | request change =>
      cases change with
      | retain packet =>
          simp only [proceed] at hproceed
          split at hproceed
          · cases hproceed
            exact .retain
          · cases hproceed
            exact .request
      | _ =>
          cases hproceed
          exact .request
  | publish packet => exact .publish (Option.some.inj hproceed)
  | reply client packet =>
      cases hproceed
      exact .reply
  | throws client =>
      cases hproceed
      exact .throws

/-! ## Steps -/

/-- The cases of a step, with the guard of each. -/
inductive Steps (s : ApplicationState τ) : Action → Except Fault (ApplicationState τ) → Prop
  | newConnection {remote now} :
      Steps s (.newConnection remote now) (.ok (s.handleNewClientConnection remote now))
  | receiveData {client now} (hclient : client ∈ s.mClients) :
      Steps s (.receiveData client now) (.ok (s.updateConnection client fun conn =>
        { conn with mLastDataReceivedTimestamp := now }))
  | connect {client packet} (hclient : client ∈ s.mClients) (hidle : s.work (.receiver client) = [])
      (hstate : (s.connections client).mState = .initial) :
      Steps s (.connect client packet) (.ok (s.handleConnect client packet))
  | rejectVersion {client : ConnectionId} (hclient : client ∈ s.mClients)
      (hidle : s.work (.receiver client) = [])
      (hstate : (s.connections client).mState = .initial) :
      Steps s (.rejectVersion client) (.ok (s.rejectVersion client))
  | packet {client packet} (hclient : client ∈ s.mClients) (hidle : s.work (.receiver client) = [])
      (hstate : (s.connections client).mState = .connecting ∨
        (s.connections client).mState = .connected) :
      Steps s (.packet client packet) (.ok (s.handlePacketReceived client packet))
  | receiveError {client : ConnectionId} (hclient : client ∈ s.mClients)
      (hidle : s.work (.receiver client) = []) :
      Steps s (.receiveError client) (.ok (s.setWork (.receiver client) [.throws client]))
  | start {id work} (hexternal : isExternal work = true) (hidle : s.work (.other id) = []) :
      Steps s (.start id work) (.ok (s.setWork (.other id) [work]))
  | proceed {thread lockTaken work rest result} (hwork : s.work thread = work :: rest)
      (hproceed : s.proceed thread lockTaken work rest = some result) :
      Steps s (.proceed thread lockTaken) result
  | execute {randomChars request queue generatedId result} (hqueue : s.mQueue = request :: queue)
      (hgenerated : s.generatedFor randomChars request.change = some generatedId)
      (hresult : { s with mQueue := queue }.executeChangeRequest .worker generatedId
        request.change = result) :
      Steps s (.execute randomChars) result
  | executeInternal {randomChars request queue generatedId result}
      (hqueue : s.mQueueInternal = request :: queue)
      (hresult : { s with mQueueInternal := queue }.executeChangeRequest .worker generatedId
        request.change = result) :
      Steps s (.executeInternal randomChars) result
  | sendError {client : ConnectionId} (hclient : client ∈ s.mClients) :
      Steps s (.sendError client)
        (.ok (s.updateConnection client fun conn => { conn with mSendError := true }))
  | logoutSendError {client result} (hclient : client ∈ s.mClients)
      (hresult : s.logoutClient .worker client = result) : Steps s (.logoutSendError client) result
  | timeout {client now result} (hclient : client ∈ s.mClients) (htimedOut : s.TimedOut client now)
      (hresult : s.logoutClient .timers client = result) : Steps s (.timeout client now) result
  | cleanup (hidle : ∀ client ∈ s.mClients, s.work (.receiver client) = []) :
      Steps s .cleanup (.ok s.eraseDisconnected)

theorem steps_of_step {action : Action} {result : Except Fault (ApplicationState τ)}
    (hstep : s.step action = some result) : s.Steps action result := by
  cases action with
  | newConnection remote now =>
      cases hstep
      exact .newConnection
  | receiveData client now =>
      obtain ⟨hclient, hstep⟩ := Option.ite_none_right_eq_some.mp hstep
      cases hstep
      exact .receiveData hclient
  | connect client packet =>
      obtain ⟨⟨hclient, hidle, hstate⟩, hstep⟩ := Option.ite_none_right_eq_some.mp hstep
      cases hstep
      exact .connect hclient hidle hstate
  | rejectVersion client =>
      obtain ⟨⟨hclient, hidle, hstate⟩, hstep⟩ := Option.ite_none_right_eq_some.mp hstep
      cases hstep
      exact .rejectVersion hclient hidle hstate
  | packet client packet =>
      obtain ⟨⟨hclient, hidle, hstate⟩, hstep⟩ := Option.ite_none_right_eq_some.mp hstep
      cases hstep
      exact .packet hclient hidle hstate
  | receiveError client =>
      obtain ⟨⟨hclient, hidle⟩, hstep⟩ := Option.ite_none_right_eq_some.mp hstep
      cases hstep
      exact .receiveError hclient hidle
  | start id work =>
      obtain ⟨⟨hexternal, hidle⟩, hstep⟩ := Option.ite_none_right_eq_some.mp hstep
      cases hstep
      exact .start hexternal hidle
  | proceed thread lockTaken =>
      simp only [step] at hstep
      split at hstep
      · cases hstep
      · next hwork => exact .proceed hwork hstep
  | execute randomChars =>
      simp only [step] at hstep
      split at hstep
      · cases hstep
      · next hqueue =>
          obtain ⟨generatedId, hgenerated, hresult⟩ := Option.map_eq_some_iff.mp hstep
          exact .execute hqueue hgenerated hresult
  | executeInternal randomChars =>
      simp only [step] at hstep
      split at hstep
      · cases hstep
      · next hqueue =>
          obtain ⟨generatedId, -, hresult⟩ := Option.map_eq_some_iff.mp hstep
          exact .executeInternal hqueue hresult
  | sendError client =>
      obtain ⟨hclient, hstep⟩ := Option.ite_none_right_eq_some.mp hstep
      cases hstep
      exact .sendError hclient
  | logoutSendError client =>
      obtain ⟨⟨hclient, -⟩, hstep⟩ := Option.ite_none_right_eq_some.mp hstep
      exact .logoutSendError hclient (Option.some.inj hstep)
  | timeout client now =>
      obtain ⟨⟨hclient, htimedOut⟩, hstep⟩ := Option.ite_none_right_eq_some.mp hstep
      exact .timeout hclient htimedOut (Option.some.inj hstep)
  | cleanup =>
      obtain ⟨⟨-, hidle⟩, hstep⟩ := Option.ite_none_right_eq_some.mp hstep
      cases hstep
      exact .cleanup hidle

end ApplicationState

end NioevMqtt
