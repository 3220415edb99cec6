-- SUMMARY: What the broker passes on without looking at it: over every step the topics of its messages, and what its connections know of their clients' activity, are those it had and those that come in.
import NioevMqtt.Broker.RetainedWrites
import NioevMqtt.Broker.PublishedWills

/-!
# Data that is kept

A message is passed on from the thread that has received it to the queues and the retained
messages, and a will from its connection. Nothing on the way looks at its topic. Nor does
anything but `cleanup` look at when a connection has last received data.
-/

namespace NioevMqtt

open Outcome

/-- The topic of a message a thread has yet to publish or to retain. -/
def Work.topic? : Work → Option ByteString
  | .publish packet => some packet.topic
  | .request (.retain packet) => some packet.topic
  | _ => none

/-- The topic of a retain request. -/
def ChangeRequest.topic? : ChangeRequest → Option ByteString
  | .retain packet => some packet.topic
  | _ => none

/-- What `cleanup` looks at, with `mLoggedOut`, to find out whether a client has timed out. -/
structure Activity where
  mKeepAliveIntervalSeconds : UInt16
  mLastDataReceivedTimestamp : Nat

def MQTTClientConnection.activity (conn : MQTTClientConnection) : Activity :=
  ⟨conn.mKeepAliveIntervalSeconds, conn.mLastDataReceivedTimestamp⟩

/-- Where the broker keeps messages, and the activity of its clients. -/
structure KeptData where
  work : Thread → List Work
  mQueue : List Request
  mQueueInternal : List Request
  wills : ConnectionId → Option MQTTPacket
  activity : ConnectionId → Activity
  mRetainedMessages : RetainedMessages

/-- The topics of the messages, and the activity of the clients, have the properties. -/
structure KeptData.Meets (V : ByteString → Prop) (W : ConnectionId → Activity → Prop)
    (m : KeptData) : Prop where
  work : ∀ thread, ∀ work ∈ m.work thread, ∀ topic ∈ work.topic?, V topic
  mQueue : ∀ request ∈ m.mQueue, ∀ topic ∈ request.change.topic?, V topic
  mQueueInternal : ∀ request ∈ m.mQueueInternal, ∀ topic ∈ request.change.topic?, V topic
  wills : ∀ client, ∀ will ∈ m.wills client, V will.topic
  activity : ∀ client, W client (m.activity client)
  retained : ∀ topic ∈ m.mRetainedMessages, V topic

namespace ApplicationState

section

variable {τ : Type}

def kept (s : ApplicationState τ) : KeptData where
  work := s.work
  mQueue := s.mQueue
  mQueueInternal := s.mQueueInternal
  wills := fun client => (s.connections client).mWill
  activity := fun client => (s.connections client).activity
  mRetainedMessages := s.mRetainedMessages

/-- What is kept has the properties. -/
def KeptMeets (V : ByteString → Prop) (W : ConnectionId → Activity → Prop)
    (s : ApplicationState τ) : Prop :=
  s.kept.Meets V W

/-! ## Operations that keep what is kept -/

variable {s t : ApplicationState τ} {V : ByteString → Prop}
  {W : ConnectionId → Activity → Prop}

theorem KeptMeets.of_kept (h : s.KeptMeets V W) (heq : t.kept = s.kept) : t.KeptMeets V W := by
  unfold KeptMeets
  rw [heq]
  exact h

theorem KeptMeets.update_wills {client : ConnectionId} {mWill : Option MQTTPacket}
    (h : s.KeptMeets V W) (hwill : ∀ will ∈ mWill, V will.topic) :
    ∀ c, ∀ will ∈ Function.update s.kept.wills client mWill c, V will.topic := by
  intro c
  rw [Function.update_apply]
  split
  · exact hwill
  · exact h.wills c

theorem wills_updateConnection (s : ApplicationState τ) (client : ConnectionId)
    (f : MQTTClientConnection → MQTTClientConnection) :
    (s.updateConnection client f).kept.wills =
      Function.update s.kept.wills client (f (s.connections client)).mWill :=
  funext fun c => Function.apply_update (fun _ => MQTTClientConnection.mWill) _ _ _ c

theorem activity_updateConnection (s : ApplicationState τ) (client : ConnectionId)
    (f : MQTTClientConnection → MQTTClientConnection) :
    (s.updateConnection client f).kept.activity =
      Function.update s.kept.activity client (f (s.connections client)).activity :=
  funext fun c => Function.apply_update (fun _ => MQTTClientConnection.activity) _ _ _ c

theorem kept_updateConnection (s : ApplicationState τ) (client : ConnectionId)
    {f : MQTTClientConnection → MQTTClientConnection}
    (hwill : (f (s.connections client)).mWill = (s.connections client).mWill)
    (hactivity : (f (s.connections client)).activity = (s.connections client).activity) :
    (s.updateConnection client f).kept = s.kept := by
  have hwills : (s.updateConnection client f).kept.wills = s.kept.wills := by
    rw [wills_updateConnection, hwill]
    exact Function.update_eq_self client _
  have hsame : (s.updateConnection client f).kept.activity = s.kept.activity := by
    rw [activity_updateConnection, hactivity]
    exact Function.update_eq_self client _
  show { s.kept with
    wills := (s.updateConnection client f).kept.wills
    activity := (s.updateConnection client f).kept.activity } = s.kept
  rw [hwills, hsame]

theorem kept_updateSession (s : ApplicationState τ) (session : SessionId)
    (f : PersistentClientState → PersistentClientState) : (s.updateSession session f).kept = s.kept :=
  rfl

theorem kept_sendData (s : ApplicationState τ) (client : ConnectionId) (packet : EncodedPacket) :
    (s.sendData client packet).kept = s.kept :=
  kept_updateConnection s client rfl rfl

theorem kept_foldl_sendData {α : Type} (packet : α → EncodedPacket) (l : List α)
    (client : ConnectionId) (s : ApplicationState τ) :
    (l.foldl (fun s a => s.sendData client (packet a)) s).kept = s.kept := by
  induction l generalizing s with
  | nil => rfl
  | cons a l ih => exact (ih (s.sendData client (packet a))).trans (kept_sendData s client _)

theorem kept_setPersistentClientState (s : ApplicationState τ) (client : ConnectionId)
    (state : Option SessionId) : (s.setPersistentClientState client state).kept = s.kept := by
  unfold setPersistentClientState
  exact kept_updateConnection s client rfl rfl

theorem kept_replaceCurrentClient (s : ApplicationState τ) (session : SessionId)
    (client : ConnectionId) (cleanSession : CleanSession) (style : ReplaceStyle) :
    (s.replaceCurrentClient session client cleanSession style).kept = s.kept := by
  unfold replaceCurrentClient
  refine (kept_updateConnection _ client rfl rfl).trans ((kept_updateSession _ session _).trans ?_)
  split
  · exact kept_setPersistentClientState s _ none
  · rfl

theorem kept_dropCurrentClient {session : SessionId} (h : s.dropCurrentClient session = .ok t) :
    t.kept = s.kept := by
  obtain ⟨⟨client, dropped⟩, -, hset⟩ := bind_eq_ok h
  cases hset
  exact kept_setPersistentClientState s client none

theorem kept_deleteCleanSession (s : ApplicationState τ) [SubscriptionTree τ] (session : SessionId) :
    (s.deleteCleanSession session).kept = s.kept := by
  unfold deleteCleanSession
  split
  · split
    · rfl
    · rfl
  · rfl

theorem kept_markLoggedOut (s : ApplicationState τ) (client : ConnectionId) :
    (s.markLoggedOut client).kept = s.kept := by
  unfold markLoggedOut
  exact kept_updateConnection _ client rfl rfl

/-! ## Publishing -/

theorem topic?_retain_forall {packet : MQTTPacket} (h : V packet.topic) :
    ∀ topic ∈ (ChangeRequest.retain packet).topic?, V topic := by
  rintro topic ⟨⟩
  exact h

theorem KeptMeets.requestChange {request : Request} (h : s.KeptMeets V W)
    (hrequest : ∀ topic ∈ request.change.topic?, V topic) (holdsLock : Bool) :
    (s.requestChange request holdsLock).KeptMeets V W := by
  have happend : ∀ {queue : List Request},
      (∀ r ∈ queue, ∀ topic ∈ r.change.topic?, V topic) →
        ∀ r ∈ queue ++ [request], ∀ topic ∈ r.change.topic?, V topic :=
    fun hqueue => List.forall_mem_append.mpr ⟨hqueue, List.forall_mem_singleton.mpr hrequest⟩
  unfold ApplicationState.requestChange
  simp only
  split
  · exact ⟨h.work, h.mQueue, happend h.mQueueInternal, h.wills, h.activity, h.retained⟩
  · exact ⟨h.work, happend h.mQueue, h.mQueueInternal, h.wills, h.activity, h.retained⟩

variable [Libnioev]

theorem kept_sendPublish {sub : Subscriber} {topic : ByteString} {payload : List UInt8} {qos : QoS}
    {retained : Retained} {properties : PropertyList}
    (h : s.sendPublish sub topic payload qos retained properties = .ok t) : t.kept = s.kept := by
  cases sub with
  | other id =>
      cases h
      rfl
  | session id =>
      obtain ⟨published, -, hsent⟩ := bind_eq_ok h
      split at hsent
      · cases hsent
        rfl
      · cases hsent
        exact kept_sendData _ _ _

theorem kept_publishToMatches {topic : ByteString} {msg : List UInt8} {publishQoS : QoS}
    {properties : PropertyList} {subs : List Subscriber} {subscriptions : List Subscription}
    (h : publishToMatches topic msg publishQoS properties s subs subscriptions = .ok t) :
    t.kept = s.kept := by
  induction subscriptions generalizing s subs with
  | nil =>
      cases h
      rfl
  | cons sub subscriptions ih =>
      unfold publishToMatches at h
      split at h
      · exact ih h
      · obtain ⟨u, hsent, hrest⟩ := bind_eq_ok h
        exact (ih hrest).trans (kept_sendPublish hsent)

theorem kept_sendRetained {sub : Subscription} {topic : ByteString} {message : RetainedMessage}
    {subscriptions : List Subscription} (h : sendRetained sub topic message s subscriptions = .ok t) :
    t.kept = s.kept := by
  induction subscriptions generalizing s with
  | nil =>
      cases h
      rfl
  | cons matchedSub subscriptions ih =>
      unfold sendRetained at h
      split at h
      · obtain ⟨u, hsent, hrest⟩ := bind_eq_ok h
        exact (ih hrest).trans (kept_sendPublish hsent)
      · exact ih h

variable [SubscriptionTree τ]

theorem kept_sendAllRetained {sub : Subscription}
    {messages : List (Sigma fun _ : ByteString => RetainedMessage)}
    (h : sendAllRetained sub s messages = .ok t) : t.kept = s.kept := by
  induction messages generalizing s with
  | nil =>
      cases h
      rfl
  | cons message messages ih =>
      unfold sendAllRetained at h
      obtain ⟨u, hsent, hrest⟩ := bind_eq_ok h
      exact (ih hrest).trans (kept_sendRetained hsent)

theorem KeptMeets.publishInternal {thread : Thread} {packet : MQTTPacket} (h : s.KeptMeets V W)
    (hpacket : V packet.topic) (hok : s.publishInternal thread packet = .ok t) : t.KeptMeets V W := by
  obtain ⟨u, hpublished, hretain⟩ := bind_eq_ok hok
  have hnoted : (s.notePublished packet).KeptMeets V W := h.of_kept rfl
  have hu : u.KeptMeets V W := hnoted.of_kept (kept_publishToMatches hpublished)
  split at hretain
  · cases hretain
    exact hu.requestChange (topic?_retain_forall hpacket) true
  · cases hretain
    exact hu

theorem KeptMeets.logoutClient {thread : Thread} {client : ConnectionId} (h : s.KeptMeets V W)
    (hok : s.logoutClient thread client = .ok t) : t.KeptMeets V W := by
  unfold ApplicationState.logoutClient at hok
  split at hok
  · cases hok
    exact h
  · have hmarked : (s.markLoggedOut client).KeptMeets V W := h.of_kept (kept_markLoggedOut s client)
    simp only at hok
    split at hok
    · cases hok
      exact hmarked
    · next session hattached =>
        obtain ⟨u, hwill, hrest⟩ := bind_eq_ok hok
        obtain ⟨v, hdrop, hdelete⟩ := bind_eq_ok hrest
        have hu : u.KeptMeets V W := by
          unfold publishWill at hwill
          split at hwill
          · cases hwill
            exact hmarked
          · next willMsg hsome => exact hmarked.publishInternal (hmarked.wills client _ hsome) hwill
        cases hdelete
        exact (hu.of_kept (kept_dropCurrentClient hdrop)).of_kept (kept_deleteCleanSession v session)

/-! ## Change requests -/

theorem KeptMeets.logoutExisting {thread : Thread} {existingClient : Option ConnectionId}
    (h : s.KeptMeets V W) (hok : s.logoutExisting thread existingClient = .ok t) : t.KeptMeets V W := by
  cases existingClient with
  | none =>
      cases hok
      exact h
  | some existingClient => exact h.logoutClient hok

omit [SubscriptionTree τ] in
theorem kept_sendConnack (s : ApplicationState τ) (client : ConnectionId)
    (sessionPresent : SessionPresent) : (s.sendConnack client sessionPresent).kept = s.kept :=
  kept_sendData s client _

omit [SubscriptionTree τ] [Libnioev] in
theorem kept_connected (s : ApplicationState τ) (client : ConnectionId) :
    (s.connected client).kept = s.kept :=
  kept_updateConnection s client rfl rfl

omit [SubscriptionTree τ] in
theorem kept_resend (s : ApplicationState τ) (client : ConnectionId) (session : SessionId) :
    (s.resend client session).kept = s.kept :=
  (kept_foldl_sendData _ _ client _).trans (kept_foldl_sendData _ _ client s)

theorem KeptMeets.loginExisting {thread : Thread} {client : ConnectionId} {session : SessionId}
    {cleanSession : CleanSession} (h : s.KeptMeets V W)
    (hok : s.loginExisting thread client session cleanSession = .ok t) : t.KeptMeets V W := by
  unfold ApplicationState.loginExisting at hok
  have hreplaced : ∀ style,
      (s.replaceCurrentClient session client cleanSession style).KeptMeets V W :=
    fun style => h.of_kept (kept_replaceCurrentClient s session client cleanSession style)
  simp only at hok
  split at hok
  · obtain ⟨u, hu, hrest⟩ := bind_eq_ok hok
    cases hrest
    refine ((hreplaced _).logoutExisting hu).of_kept ?_
    exact (kept_connected _ client).trans (kept_sendConnack u client _)
  · obtain ⟨u, hu, hrest⟩ := bind_eq_ok hok
    cases hrest
    refine ((hreplaced _).logoutExisting hu).of_kept ?_
    exact (kept_connected _ client).trans
      ((kept_resend _ client session).trans (kept_sendConnack u client _))

omit [SubscriptionTree τ] in
theorem kept_loginNew (s : ApplicationState τ) (client : ConnectionId) (clientId : ByteString)
    (cleanSession : CleanSession) : (s.loginNew client clientId cleanSession).kept = s.kept :=
  (kept_connected _ client).trans ((kept_sendConnack _ client _).trans
    (kept_replaceCurrentClient _ _ client cleanSession _))

omit [SubscriptionTree τ] [Libnioev] in
theorem KeptMeets.retain {packet : MQTTPacket} (h : s.KeptMeets V W) (hpacket : V packet.topic) :
    (s.retain packet).KeptMeets V W := by
  unfold ApplicationState.retain
  split
  · refine ⟨h.work, h.mQueue, h.mQueueInternal, h.wills, h.activity, fun topic htopic => ?_⟩
    exact h.retained topic (AList.mem_erase.mp htopic).2
  · refine ⟨h.work, h.mQueue, h.mQueueInternal, h.wills, h.activity, fun topic htopic => ?_⟩
    rcases (AList.mem_insert _).mp htopic with rfl | hold
    · exact hpacket
    · exact h.retained topic hold

theorem KeptMeets.executeChangeRequest {thread : Thread} {generatedId : ByteString}
    {change : ChangeRequest} (h : s.KeptMeets V W) (hchange : ∀ topic ∈ change.topic?, V topic)
    (hok : s.executeChangeRequest thread generatedId change = .ok t) : t.KeptMeets V W := by
  have hvisit := (executeChangeRequest_eq s thread generatedId _).symm.trans hok
  cases change with
  | subscribe subscriber topic qos type =>
      have hsent : t.kept = kept { s with
          mSubscriptions := SubscriptionTree.addSubscription s.mSubscriptions topic
            ⟨subscriber, qos⟩ } := kept_sendAllRetained hvisit
      exact h.of_kept hsent
  | retain packet =>
      cases hvisit
      exact h.retain (hchange _ rfl)
  | loginClient client clientId cleanSession =>
      simp only [visit, loginClient] at hvisit
      split at hvisit
      · cases hvisit
        exact h
      · split at hvisit
        · exact h.loginExisting hvisit
        · cases hvisit
          exact h.of_kept (kept_loginNew s client _ cleanSession)
  | logoutClient client => exact h.logoutClient hvisit
  | unsubscribe subscriber topic =>
      cases hvisit
      exact h
  | unsubscribeFromAll subscriber =>
      cases hvisit
      exact h
  | deleteScript script =>
      cases hvisit
      exact h

/-! ## Packets -/

/-- Nothing that is to be done has a topic. -/
def NoTopic (work : List Work) : Prop := ∀ w ∈ work, w.topic? = none

omit [Libnioev] [SubscriptionTree τ] in
theorem KeptMeets.setWork {thread : Thread} {work : List Work} (h : s.KeptMeets V W)
    (hwork : ∀ w ∈ work, ∀ topic ∈ w.topic?, V topic) : (s.setWork thread work).KeptMeets V W := by
  refine ⟨fun thread' w hw => ?_, h.mQueue, h.mQueueInternal, h.wills, h.activity, h.retained⟩
  have hw' : w ∈ Function.update s.work thread work thread' := hw
  rw [Function.update_apply] at hw'
  split at hw'
  · exact hwork w hw'
  · exact h.work thread' w hw'

omit [Libnioev] [SubscriptionTree τ] in
theorem KeptMeets.setWork_of_noTopic {thread : Thread} {work : List Work} (h : s.KeptMeets V W)
    (hwork : NoTopic work) : (s.setWork thread work).KeptMeets V W :=
  h.setWork fun w hw topic htopic => by
    rw [hwork w hw] at htopic
    cases htopic

omit [Libnioev] [SubscriptionTree τ] in
theorem noTopic_singleton {work : Work} (h : work.topic? = none) : NoTopic [work] :=
  fun _ hw => List.mem_singleton.mp hw ▸ h

omit [Libnioev] [SubscriptionTree τ] in
theorem KeptMeets.withSession {client : ConnectionId}
    {f : PersistentClientState → PersistentClientState × List Work} (h : s.KeptMeets V W)
    (hwork : ∀ session, ∀ w ∈ (f session).2, ∀ topic ∈ w.topic?, V topic) :
    (s.withSession client f).KeptMeets V W := by
  unfold ApplicationState.withSession
  split
  · exact h.setWork_of_noTopic (noTopic_singleton rfl)
  · next id _ => exact (h.of_kept (kept_updateSession s id _)).setWork (hwork _)

omit [Libnioev] [SubscriptionTree τ] in
theorem KeptMeets.withSession_of_noTopic {client : ConnectionId}
    {f : PersistentClientState → PersistentClientState × List Work} (h : s.KeptMeets V W)
    (hwork : ∀ session, NoTopic (f session).2) : (s.withSession client f).KeptMeets V W :=
  h.withSession fun session w hw topic htopic => by
    rw [hwork session w hw] at htopic
    cases htopic

omit [Libnioev] [SubscriptionTree τ] in
/-- The work on a list of topics of a client is about filters, not about messages. -/
theorem noTopic_topics {α : Type} {client : ConnectionId} {complete : Bool} {packet : EncodedPacket}
    {topics : List α} {f : α → Work} (hf : ∀ a, (f a).topic? = none) :
    NoTopic (topics.map f ++ [endTopics client complete packet]) := by
  intro w hw
  rcases List.mem_append.mp hw with hmapped | hend
  · obtain ⟨a, -, rfl⟩ := List.mem_map.mp hmapped
    exact hf a
  · rw [List.mem_singleton.mp hend]
    unfold endTopics
    split
    · rfl
    · rfl

/-- The topics that come in with a step. -/
def entering : Action → List ByteString
  | .connect _ packet => (packet.will.map MQTTPacket.topic).toList
  | .packet _ (.publish packet _) => [packet.topic]
  | .start _ work => work.topic?.toList
  | _ => []

omit [SubscriptionTree τ] in
theorem KeptMeets.handlePacketReceived {client : ConnectionId} {packet : ClientPacket}
    (h : s.KeptMeets V W) (hentering : ∀ topic ∈ entering (.packet client packet), V topic) :
    (s.handlePacketReceived client packet).KeptMeets V W := by
  cases packet with
  | publish packet id =>
      have hpublish : ∀ topic ∈ (Work.publish packet).topic?, V topic := by
        rintro topic ⟨⟩
        exact hentering _ (List.mem_singleton.mpr rfl)
      simp only [ApplicationState.handlePacketReceived]
      split
      · exact h.setWork fun w hw => List.mem_singleton.mp hw ▸ hpublish
      · refine h.setWork fun w hw => ?_
        rcases List.mem_pair.mp hw with rfl | rfl
        · rintro topic ⟨⟩
        · exact hpublish
      · refine h.withSession fun session w hw => ?_
        rcases List.mem_cons.mp hw with rfl | hw
        · rintro topic ⟨⟩
        · split at hw
          · exact List.mem_singleton.mp hw ▸ hpublish
          · cases hw
  | pubAck id => exact h.withSession_of_noTopic fun _ _ hw => by cases hw
  | pubRel id => exact h.withSession_of_noTopic fun _ => noTopic_singleton rfl
  | pubRec id => exact h.withSession_of_noTopic fun _ => noTopic_singleton rfl
  | pubComp id => exact h.withSession_of_noTopic fun _ _ hw => by cases hw
  | subscribe id topics complete => exact h.setWork_of_noTopic (noTopic_topics fun _ => rfl)
  | unsubscribe id topics complete => exact h.setWork_of_noTopic (noTopic_topics fun _ => rfl)
  | pingReq => exact h.setWork_of_noTopic (noTopic_singleton rfl)
  | disconnect =>
      refine KeptMeets.setWork_of_noTopic ?_ (noTopic_singleton rfl)
      refine ⟨h.work, h.mQueue, h.mQueueInternal, ?_, ?_, h.retained⟩
      · rw [wills_updateConnection]
        exact h.update_wills fun _ hnone => by cases hnone
      · rw [activity_updateConnection]
        have hsame := Function.update_eq_self client s.kept.activity
        exact fun c => (congrFun hsame c).symm ▸ h.activity c

/-! ## Steps -/

omit [Libnioev] [SubscriptionTree τ] in
theorem topic?_request (change : ChangeRequest) : (Work.request change).topic? = change.topic? := by
  cases change with
  | _ => rfl

theorem KeptMeets.proceed {thread : Thread} {lockTaken : Bool} {work : Work} {rest : List Work}
    (h : s.KeptMeets V W) (hwork : s.work thread = work :: rest)
    (hproceed : s.proceed thread lockTaken work rest = some (.ok t)) : t.KeptMeets V W := by
  have hall : ∀ w ∈ work :: rest, ∀ topic ∈ w.topic?, V topic := by
    rw [← hwork]
    exact h.work thread
  have hfirst := hall work List.mem_cons_self
  have hrest : ∀ w ∈ rest, ∀ topic ∈ w.topic?, V topic :=
    fun w hw => hall w (List.mem_cons_of_mem work hw)
  have hcons : ∀ {w : Work}, (∀ topic ∈ w.topic?, V topic) →
      (s.setWork thread (w :: rest)).KeptMeets V W := fun hw =>
    h.setWork fun w' hw' => (List.mem_cons.mp hw').elim (fun heq => heq ▸ hw) (hrest w')
  generalize hresult : Except.ok t = result at hproceed
  cases proceeds_of_proceed hproceed with
  | subscribeUnattached => cases hresult; exact h.setWork_of_noTopic (noTopic_singleton rfl)
  | subscribe => cases hresult; exact hcons (by rintro topic ⟨⟩)
  | unsubscribeUnattached => cases hresult; exact h.setWork_of_noTopic (noTopic_singleton rfl)
  | unsubscribe => cases hresult; exact hcons (by rintro topic ⟨⟩)
  | retain =>
      cases hresult
      exact (h.setWork hrest).retain (hfirst _ rfl)
  | @request change =>
      cases hresult
      exact (h.setWork hrest).requestChange (topic?_request change ▸ hfirst) false
  | publish hok =>
      cases hresult
      refine KeptMeets.of_kept ?_ (kept_publishToMatches hok)
      split
      · refine hcons ?_
        rintro topic ⟨⟩
        exact hfirst _ rfl
      · exact h.setWork hrest
  | reply =>
      cases hresult
      exact (h.setWork hrest).of_kept (kept_sendData _ _ _)
  | throws => cases hresult; exact h.setWork_of_noTopic (noTopic_singleton rfl)

omit [Libnioev] [SubscriptionTree τ] in
theorem wills_handleNewClientConnection (s : ApplicationState τ) (remote : ByteString) (now : Nat) :
    (s.handleNewClientConnection remote now).kept.wills =
      Function.update s.kept.wills s.nextConnection none :=
  funext fun c => Function.apply_update (fun _ => MQTTClientConnection.mWill) _ _ _ c

omit [Libnioev] [SubscriptionTree τ] in
theorem activity_handleNewClientConnection (s : ApplicationState τ) (remote : ByteString)
    (now : Nat) :
    (s.handleNewClientConnection remote now).kept.activity =
      Function.update s.kept.activity s.nextConnection
        (MQTTClientConnection.activity { mLastDataReceivedTimestamp := now }) :=
  funext fun c => Function.apply_update (fun _ => MQTTClientConnection.activity) _ _ _ c

/-- The activity of the clients after a step. -/
def activityAfter (s : ApplicationState τ) : Action → ConnectionId → Activity
  | .newConnection _ now =>
    Function.update s.kept.activity s.nextConnection
      (MQTTClientConnection.activity { mLastDataReceivedTimestamp := now })
  | .receiveData client now =>
    Function.update s.kept.activity client
      { s.kept.activity client with mLastDataReceivedTimestamp := now }
  | .connect client packet =>
    Function.update s.kept.activity client
      { s.kept.activity client with mKeepAliveIntervalSeconds := packet.keepAlive }
  | _ => s.kept.activity

/-- A step keeps the topics there are, and those that come in with it. -/
theorem KeptMeets.step {action : Action} (h : s.KeptMeets V W)
    (hentering : ∀ topic ∈ entering action, V topic)
    (hactivity : ∀ client, W client (s.activityAfter action client))
    (hstep : s.stepOk action = some t) : t.KeptMeets V W := by
  have hsteps := steps_of_step (step_of_stepOk hstep)
  generalize hresult : Except.ok t = result at hsteps
  cases hsteps with
  | newConnection =>
      cases hresult
      refine ⟨h.work, h.mQueue, h.mQueueInternal, ?_, ?_, h.retained⟩
      · rw [wills_handleNewClientConnection]
        exact h.update_wills fun _ hnone => by cases hnone
      · rw [activity_handleNewClientConnection]
        exact hactivity
  | @receiveData client now =>
      cases hresult
      refine ⟨h.work, h.mQueue, h.mQueueInternal, ?_, ?_, h.retained⟩
      · rw [wills_updateConnection]
        exact h.update_wills (h.wills client)
      · rw [activity_updateConnection]
        exact hactivity
  | @connect client packet =>
      cases hresult
      refine KeptMeets.setWork_of_noTopic ?_ (noTopic_singleton rfl)
      refine ⟨h.work, h.mQueue, h.mQueueInternal, ?_, ?_, h.retained⟩
      · rw [wills_updateConnection]
        refine h.update_wills fun will hwill => hentering _ ?_
        rw [entering, Option.mem_toList]
        exact Option.mem_map_of_mem _ hwill
      · rw [activity_updateConnection]
        exact hactivity
  | rejectVersion =>
      cases hresult
      refine (h.of_kept ?_).of_kept (kept_sendData _ _ _)
      exact kept_updateConnection s _ rfl rfl
  | packet =>
      cases hresult
      exact h.handlePacketReceived hentering
  | receiveError =>
      cases hresult
      exact h.setWork_of_noTopic (noTopic_singleton rfl)
  | @start id work =>
      cases hresult
      refine h.setWork fun w hw topic htopic => hentering topic ?_
      rw [List.mem_singleton.mp hw] at htopic
      exact Option.mem_toList.mpr htopic
  | proceed hwork hproceed =>
      cases hresult
      exact h.proceed hwork hproceed
  | @execute randomChars request queue generatedId _ hqueue hgenerated hexecute =>
      cases hresult
      have hall : ∀ r ∈ request :: queue, ∀ topic ∈ r.change.topic?, V topic := by
        rw [← hqueue]
        exact h.mQueue
      have hdequeued : KeptMeets V W { s with mQueue := queue } :=
        ⟨h.work, fun r hr => hall r (List.mem_cons_of_mem _ hr), h.mQueueInternal, h.wills, h.activity,
          h.retained⟩
      exact hdequeued.executeChangeRequest (hall request List.mem_cons_self) hexecute
  | @executeInternal randomChars request queue generatedId _ hqueue hexecute =>
      cases hresult
      have hall : ∀ r ∈ request :: queue, ∀ topic ∈ r.change.topic?, V topic := by
        rw [← hqueue]
        exact h.mQueueInternal
      have hdequeued : KeptMeets V W { s with mQueueInternal := queue } :=
        ⟨h.work, h.mQueue, fun r hr => hall r (List.mem_cons_of_mem _ hr), h.wills, h.activity,
          h.retained⟩
      exact hdequeued.executeChangeRequest (hall request List.mem_cons_self) hexecute
  | sendError =>
      cases hresult
      exact h.of_kept (kept_updateConnection s _ rfl rfl)
  | logoutSendError hclient hlogout =>
      cases hresult
      exact h.logoutClient hlogout
  | timeout hclient htimedOut hlogout =>
      cases hresult
      exact h.logoutClient hlogout
  | cleanup =>
      cases hresult
      exact h

/-- Data and a `CONNECT` are all that changes what is known of the activity. -/
theorem activity_stepOk {action : Action} (hstep : s.stepOk action = some t) :
    t.kept.activity = s.activityAfter action := by
  have hsteps := steps_of_step (step_of_stepOk hstep)
  have hkept : s.kept.activity = s.activityAfter action → t.kept.activity = s.activityAfter action := by
    intro hsame
    have h : s.KeptMeets (fun _ => True) fun client activity =>
        activity = s.activityAfter action client := by
      refine ⟨?_, ?_, ?_, fun _ _ _ => trivial, congrFun hsame, fun _ _ => trivial⟩
      · exact fun _ _ _ _ _ => trivial
      · exact fun _ _ _ _ => trivial
      · exact fun _ _ _ _ => trivial
    exact funext (h.step (fun _ _ => trivial) (fun _ => rfl) hstep).activity
  cases hsteps with
  | newConnection => exact activity_handleNewClientConnection s _ _
  | receiveData => exact activity_updateConnection s _ _
  | @connect client packet =>
      exact activity_updateConnection s client fun conn => { conn with
        mMQTTVersion := packet.version
        mKeepAliveIntervalSeconds := packet.keepAlive
        mWill := packet.will
        mState := .connecting }
  | _ => exact hkept rfl

/-! ## What is published -/

omit [Libnioev] [SubscriptionTree τ] in
/-- A logout finds the wills as they are before the step. -/
theorem wills_of_mem_logouts {action : Action} {call : ApplicationState τ × ConnectionId}
    (h : call ∈ s.logouts action) : call.1.kept.wills = s.kept.wills := by
  unfold logouts at h
  split at h
  · rw [List.mem_singleton.mp h]
  · rw [List.mem_singleton.mp h]
  · split at h
    · rw [List.mem_singleton.mp h]
      rfl
    · split at h
      · cases h
      · split at h
        · cases h
        · obtain ⟨existingClient, -, rfl⟩ := List.mem_map.mp h
          simp only [kept_replaceCurrentClient]
          rfl
    · cases h
  · cases h

omit [Libnioev] [SubscriptionTree τ] in
/-- What a step publishes has been kept before. -/
theorem KeptMeets.publications {action : Action} {packet : MQTTPacket} (h : s.KeptMeets V W)
    (hpacket : packet ∈ s.publications action) : V packet.topic := by
  rcases List.mem_append.mp hpacket with hwork | hwill
  · have hsome := Option.mem_toList.mp hwork
    unfold published at hsome
    split at hsome
    · next thread _ =>
        split at hsome
        · next rest hrest =>
            cases hsome
            have hfirst : Work.publish packet ∈ s.work thread := hrest ▸ List.mem_cons_self
            exact h.work thread _ hfirst _ rfl
        · cases hsome
    · cases hsome
  · obtain ⟨⟨_, w⟩, hmem, rfl⟩ := List.mem_map.mp hwill
    obtain ⟨call, hcall, hlogout⟩ := List.mem_filterMap.mp hmem
    obtain ⟨_, hlogoutWill, heq⟩ := Option.map_eq_some_iff.mp hlogout
    cases heq
    obtain ⟨-, hsome⟩ := Option.ite_none_left_eq_some.mp hlogoutWill
    have hkept : s.kept.wills call.2 = some w := by
      rw [← wills_of_mem_logouts hcall]
      exact hsome
    exact h.wills call.2 w hkept

end

end ApplicationState

end NioevMqtt
