-- SUMMARY: Logins, logouts and the other change requests refine what they do to the attachments, and succeed exactly when their messages can be handed over.
import NioevMqtt.Broker.Publishing

/-!
# Executing change requests

Every change request, executed on a state in which connections and sessions point
at each other, does to the attachments what the view says. It fails only over a
message that it hands over.
-/

namespace NioevMqtt

open Outcome

/-- Nothing is stored in the session. -/
structure PersistentClientState.Clean (session : PersistentClientState) : Prop where
  sendingPackets : session.mHighQoSSendingPackets = ∅
  pubrecReceived : session.mQos2pubrecReceived = ∅
  receivingPacketIds : session.mQoS2receivingPacketIds = ∅

namespace ApplicationState

variable {τ : Type} {s t u : ApplicationState τ} {client : ConnectionId} {session : SessionId}

/-! ## What an operation comes to -/

/-- The state has that view, and nothing but retain requests is new in its internal
queue. -/
structure Reaches (s : ApplicationState τ) (v : View τ) (t : ApplicationState τ) : Prop where
  view_eq : t.view = v
  internal : ∀ request ∈ t.mQueueInternal,
    request ∈ s.mQueueInternal ∨ ∃ packet, request.change = .retain packet

theorem Publishes.reaches (h : Publishes s t) : s.Reaches s.view t := ⟨h.view_eq, h.internal⟩

/-- Packets are sent to a connection. -/
structure Sends (s t : ApplicationState τ) : Prop where
  view_eq : t.view = s.view
  sessions_eq : t.sessions = s.sessions
  mQueueInternal_eq : t.mQueueInternal = s.mQueueInternal

theorem Sends.trans (h : Sends s t) (h' : Sends t u) : Sends s u where
  view_eq := h'.view_eq.trans h.view_eq
  sessions_eq := h'.sessions_eq.trans h.sessions_eq
  mQueueInternal_eq := h'.mQueueInternal_eq.trans h.mQueueInternal_eq

theorem sends_sendData (s : ApplicationState τ) (client : ConnectionId) (packet : EncodedPacket) :
    Sends s (s.sendData client packet) := ⟨view_sendData s client packet, rfl, rfl⟩

theorem sends_foldl {α : Type} (packet : α → EncodedPacket) (l : List α)
    (s : ApplicationState τ) (client : ConnectionId) :
    Sends s (l.foldl (fun s x => s.sendData client (packet x)) s) := by
  induction l generalizing s with
  | nil => exact ⟨rfl, rfl, rfl⟩
  | cons x l ih => exact (sends_sendData s client (packet x)).trans (ih _)

/-! ## Attaching and detaching -/

theorem view_updateConnection_attached (s : ApplicationState τ) (client : ConnectionId)
    {f : MQTTClientConnection → MQTTClientConnection}
    (hstate : (f (s.connections client)).mState = (s.connections client).mState) :
    (s.updateConnection client f).view =
      { s.view with
        attached := Function.update s.view.attached client
          (f (s.connections client)).mPersistentClientState } := by
  rw [view_updateConnection, hstate]
  exact congrArg (fun mState => { s.view with
      attached := Function.update s.view.attached client
        (f (s.connections client)).mPersistentClientState
      mState := mState })
    (Function.update_eq_self client s.view.mState)

theorem view_updateConnection_mState (s : ApplicationState τ) (client : ConnectionId)
    {f : MQTTClientConnection → MQTTClientConnection}
    (hattached : (f (s.connections client)).mPersistentClientState =
      (s.connections client).mPersistentClientState) :
    (s.updateConnection client f).view =
      s.view.setState client (f (s.connections client)).mState := by
  rw [view_updateConnection, hattached]
  exact congrArg (fun attached => { s.view with
      attached := attached
      mState := Function.update s.view.mState client (f (s.connections client)).mState })
    (Function.update_eq_self client s.view.attached)

theorem view_connected (s : ApplicationState τ) (client : ConnectionId) :
    (s.connected client).view = s.view.setState client .connected := by
  unfold connected setStateAtomic
  exact view_updateConnection_mState s client rfl

theorem view_replaceCurrentClient (s : ApplicationState τ) (session : SessionId)
    (client : ConnectionId) (cleanSession : CleanSession) (replaceStyle : ReplaceStyle) :
    (s.replaceCurrentClient session client cleanSession replaceStyle).view =
      s.view.attach client session := by
  have hnew : ((s.sessions session).replaceCurrentClient client cleanSession
      replaceStyle).mCurrentClient = some client := by
    cases replaceStyle with
    | simpleReplace => rfl
    | cleanSession => rfl
  cases hcurrent : (s.sessions session).mCurrentClient with
  | none =>
      have hview : s.view.currentClient session = none := hcurrent
      simp only [replaceCurrentClient, hcurrent, View.attach, hview]
      rw [view_updateConnection_attached _ _ rfl, view_updateSession, hnew]
  | some old =>
      have hview : s.view.currentClient session = some old := hcurrent
      simp only [replaceCurrentClient, hcurrent, View.attach, hview]
      rw [view_updateConnection_attached _ _ rfl, view_updateSession]
      simp only [setPersistentClientState]
      rw [view_updateConnection_attached _ _ rfl]
      exact congrArg (fun current => { s.view with
          attached := Function.update (Function.update s.view.attached old none) client (some session)
          currentClient := Function.update s.view.currentClient session current }) hnew

theorem dropCurrentClient_ok (h : s.view.currentClient session = some client) :
    ∃ t, s.dropCurrentClient session = .ok t ∧ t.view = s.view.detach client session ∧
      t.mQueueInternal = s.mQueueInternal := by
  have hcurrent : (s.sessions session).mCurrentClient = some client := h
  refine ⟨(s.setPersistentClientState client none).updateSession session fun _ =>
    { s.sessions session with mCurrentClient := none }, ?_, ?_, rfl⟩
  · unfold dropCurrentClient PersistentClientState.dropCurrentClient
    rw [hcurrent]
    rfl
  · rw [view_updateSession]
    simp only [setPersistentClientState]
    rw [view_updateConnection_attached _ _ rfl]
    rfl

theorem sends_markLoggedOut (s : ApplicationState τ) (client : ConnectionId) :
    Sends s (s.markLoggedOut client) := by
  refine ⟨?_, rfl, rfl⟩
  simp only [markLoggedOut]
  exact view_updateConnection_of rfl rfl

theorem sessions_replaceCurrentClient (s : ApplicationState τ) (session : SessionId)
    (client : ConnectionId) (cleanSession : CleanSession) (replaceStyle : ReplaceStyle) :
    (s.replaceCurrentClient session client cleanSession replaceStyle).sessions session =
      (s.sessions session).replaceCurrentClient client cleanSession replaceStyle := by
  simp only [replaceCurrentClient]
  split
  · exact Function.update_self _ _ _
  · exact Function.update_self _ _ _

theorem clean_replaceCurrentClient (s : ApplicationState τ) (session : SessionId)
    (client : ConnectionId) (cleanSession : CleanSession) :
    ((s.replaceCurrentClient session client cleanSession .cleanSession).sessions session).Clean := by
  rw [sessions_replaceCurrentClient]
  exact ⟨rfl, rfl, rfl⟩

theorem mQueueInternal_replaceCurrentClient (s : ApplicationState τ) (session : SessionId)
    (client : ConnectionId) (cleanSession : CleanSession) (replaceStyle : ReplaceStyle) :
    (s.replaceCurrentClient session client cleanSession replaceStyle).mQueueInternal =
      s.mQueueInternal := by
  simp only [replaceCurrentClient]
  split
  · rfl
  · rfl

/-- The end of both branches. -/
theorem connected_reaches {r : ApplicationState τ} (hsends : Sends r u)
    (hview : r.view = s.view.attach client session) (hinternal : r.mQueueInternal = s.mQueueInternal) :
    s.Reaches ((s.view.attach client session).setState client .connected) (u.connected client) where
  view_eq := by rw [view_connected, hsends.view_eq, hview]
  internal := by
    intro request hrequest
    refine .inl ?_
    rw [← hinternal, ← hsends.mQueueInternal_eq]
    exact hrequest

variable [Libnioev]

theorem sends_sendConnack (s : ApplicationState τ) (client : ConnectionId)
    (sessionPresent : SessionPresent) : Sends s (s.sendConnack client sessionPresent) :=
  sends_sendData s client _

theorem sends_resend (s : ApplicationState τ) (client : ConnectionId) (session : SessionId) :
    Sends s (s.resend client session) :=
  (sends_foldl _ _ s client).trans (sends_foldl _ _ _ client)

variable [SubscriptionTree τ]

/-! ## Logout -/

omit [Libnioev] in
/-- A clean session that loses its connection is closed. -/
theorem view_deleteCleanSession (s : ApplicationState τ) (session : SessionId) :
    (s.deleteCleanSession session).view = s.view ∨
      ∃ clientId, s.mPersistentClientStates.lookup clientId = some session ∧
        (s.deleteCleanSession session).view = s.view.closeSession clientId session := by
  unfold deleteCleanSession
  split
  · split
    · exact .inl rfl
    · next actualState hfound =>
        have hsession : actualState.2 = session := by simpa using List.find?_some hfound
        refine .inr ⟨actualState.1, ?_, rfl⟩
        rw [← hsession]
        exact AList.mem_lookup_iff.mpr (List.mem_of_find?_eq_some hfound)
  · exact .inl rfl

omit [Libnioev] in
theorem mQueueInternal_deleteCleanSession (s : ApplicationState τ) (session : SessionId) :
    (s.deleteCleanSession session).mQueueInternal = s.mQueueInternal := by
  unfold deleteCleanSession
  split
  · split
    · rfl
    · rfl
  · rfl

/-- What a logout hands over: the will of a connection that has its session. -/
def logoutHandOffs (s : ApplicationState τ) (client : ConnectionId) : List HandOff :=
  if (s.connections client).mLoggedOut ∨ (s.connections client).mPersistentClientState = none then []
  else
    match (s.connections client).mWill with
    | none => []
    | some willMsg => s.fanOut willMsg

/-- A connection that is not attached is marked at most. -/
theorem logoutClient_eq_of_unattached (h : s.view.attached client = none) (thread : Thread) :
    s.logoutClient thread client = .ok s ∨
      s.logoutClient thread client = .ok (s.markLoggedOut client) := by
  unfold logoutClient
  split
  · exact .inl rfl
  · have hnone : ((s.markLoggedOut client).connections client).mPersistentClientState = none :=
      (congrArg (·.attached client) (sends_markLoggedOut s client).view_eq).trans h
    right
    simp only [hnone]

theorem logoutClient_unattached (h : s.view.attached client = none) (thread : Thread) :
    ∃ t, s.logoutClient thread client = .ok t ∧ Sends s t := by
  rcases logoutClient_eq_of_unattached h thread with hok | hok
  · exact ⟨s, hok, rfl, rfl, rfl⟩
  · exact ⟨_, hok, sends_markLoggedOut s client⟩

theorem publishWill_reaches {thread : Thread} (h : s.publishWill thread client = .ok t) :
    s.Reaches s.view t := by
  unfold publishWill at h
  split at h
  · cases h
    exact ⟨rfl, fun _ hrequest => .inl hrequest⟩
  · exact (publishInternal_publishes h).reaches

omit [Libnioev] in
/-- A logout of a connection that has its session, without the will. -/
theorem detach_logsOut (h : s.view.Attached) (hattached : s.view.attached client = some session) :
    ∃ t, (do
        let s ← s.dropCurrentClient session
        return s.deleteCleanSession session) = Except.ok (ε := Fault) t ∧
      s.view.LogsOut client t.view ∧ t.mQueueInternal = s.mQueueInternal := by
  obtain ⟨u, hdropped, hview, hinternal⟩ :=
    dropCurrentClient_ok ((h.inverse client session).mp hattached)
  refine ⟨u.deleteCleanSession session, by rw [hdropped]; rfl, ?_, ?_⟩
  · rcases view_deleteCleanSession u session with hkept | ⟨clientId, hfound, hclosed⟩
    · rw [hkept, hview]
      exact .detaches hattached
    · rw [hclosed, hview]
      refine .closes hattached ?_
      rw [← hfound]
      exact congrArg (·.mPersistentClientStates.lookup clientId) hview.symm
  · rw [mQueueInternal_deleteCleanSession, hinternal]

theorem logoutClient_reaches (h : s.view.Attached) {thread : Thread}
    (hlogout : s.logoutClient thread client = .ok t) :
    ∃ v, s.view.LogsOut client v ∧ s.Reaches v t := by
  cases hattached : s.view.attached client with
  | none =>
      obtain ⟨u, hok, hsends⟩ := logoutClient_unattached hattached thread
      cases hok.symm.trans hlogout
      refine ⟨s.view, .nothing, hsends.view_eq, fun request hrequest => .inl ?_⟩
      rwa [← hsends.mQueueInternal_eq]
  | some session =>
      unfold logoutClient at hlogout
      split at hlogout
      · cases hlogout
        exact ⟨s.view, .nothing, rfl, fun _ hrequest => .inl hrequest⟩
      · have hmarked := sends_markLoggedOut s client
        have hsome :
            ((s.markLoggedOut client).connections client).mPersistentClientState = some session :=
          (congrArg (·.attached client) hmarked.view_eq).trans hattached
        simp only [hsome] at hlogout
        obtain ⟨u, hwill, hrest⟩ := bind_eq_ok hlogout
        have hu := publishWill_reaches hwill
        have hview := hu.view_eq.trans hmarked.view_eq
        obtain ⟨t', hok, hout, hinternal⟩ := detach_logsOut (s := u) (by rw [hview]; exact h)
          (by rw [hview]; exact hattached)
        cases hok.symm.trans hrest
        rw [hview] at hout
        refine ⟨t.view, hout, rfl, fun request hrequest => ?_⟩
        rw [hinternal] at hrequest
        exact hu.internal request hrequest

theorem succeeds_publishWill {thread : Thread} :
    Succeeds (s.publishWill thread client) ↔
      ∀ willMsg, (s.connections client).mWill = some willMsg →
        ∀ handOff ∈ s.fanOut willMsg, s.Deliverable handOff := by
  unfold publishWill
  cases hwill : (s.connections client).mWill with
  | none => exact iff_of_true (succeeds_ok s) (fun _ h => by cases h)
  | some willMsg =>
      rw [succeeds_publishInternal]
      constructor
      · rintro h _ ⟨⟩
        exact h
      · exact fun h => h willMsg rfl

theorem succeeds_logoutClient (h : s.view.Attached) {thread : Thread} :
    Succeeds (s.logoutClient thread client) ↔
      ∀ handOff ∈ s.logoutHandOffs client, s.Deliverable handOff := by
  cases hattached : s.view.attached client with
  | none =>
      obtain ⟨u, hok, -⟩ := logoutClient_unattached hattached thread
      have hnone : (s.connections client).mPersistentClientState = none := hattached
      rw [logoutHandOffs, if_pos (.inr hnone)]
      exact iff_of_true ⟨u, hok⟩ (fun _ h => by cases h)
  | some session =>
      have hattached' : (s.connections client).mPersistentClientState = some session := hattached
      unfold logoutClient logoutHandOffs
      cases hloggedOut : (s.connections client).mLoggedOut with
      | true =>
          rw [if_pos rfl, if_pos (.inl rfl)]
          exact iff_of_true (succeeds_ok s) (fun _ h => by cases h)
      | false =>
          have hmarked := sends_markLoggedOut s client
          have hwill : ((s.markLoggedOut client).connections client).mWill =
              (s.connections client).mWill := by
            simp only [markLoggedOut, updateConnection, Function.update_self]
          have hsome :
              ((s.markLoggedOut client).connections client).mPersistentClientState = some session :=
            (congrArg (·.attached client) hmarked.view_eq).trans hattached
          simp only [hsome, hattached', Bool.false_eq_true, reduceCtorEq, or_self, if_false]
          rw [succeeds_bind_of_succeeds, succeeds_publishWill, hwill]
          · cases (s.connections client).mWill with
            | none => exact iff_of_true (fun _ h => by cases h) (fun _ h => by cases h)
            | some willMsg =>
                simp only [Option.some.injEq, forall_eq']
                unfold fanOut Deliverable
                rw [hmarked.view_eq]
                rfl
          · intro u hu
            have hview := (publishWill_reaches hu).view_eq.trans hmarked.view_eq
            obtain ⟨t, hok, -⟩ := detach_logsOut (s := u) (by rw [hview]; exact h)
              (by rw [hview]; exact hattached)
            exact ⟨t, hok⟩

/-! ## Login -/

omit [Libnioev] [SubscriptionTree τ] in
/-- The connection a session had is detached before it is logged out. -/
theorem unattached_replaceCurrentClient (h : s.view.Attached)
    (hclient : s.view.attached client = none) (cleanSession : CleanSession)
    (replaceStyle : ReplaceStyle) {old : ConnectionId}
    (hcurrent : (s.sessions session).mCurrentClient = some old) :
    (s.replaceCurrentClient session client cleanSession replaceStyle).view.attached old = none := by
  have hview : s.view.currentClient session = some old := hcurrent
  have hne : old ≠ client := h.inverse.ne hclient hview
  rw [view_replaceCurrentClient]
  simp only [View.attach, hview]
  rw [Function.update_of_ne hne, Function.update_self]

/-- So that it is marked at most. -/
theorem logoutExisting_eq (h : s.view.Attached) (hclient : s.view.attached client = none)
    (thread : Thread) (session : SessionId) (cleanSession : CleanSession)
    (replaceStyle : ReplaceStyle) :
    ∃ u, (s.replaceCurrentClient session client cleanSession replaceStyle).logoutExisting thread
        (s.sessions session).mCurrentClient = .ok u ∧
      (u = s.replaceCurrentClient session client cleanSession replaceStyle ∨
        ∃ old, u =
          (s.replaceCurrentClient session client cleanSession replaceStyle).markLoggedOut old) := by
  cases hcurrent : (s.sessions session).mCurrentClient with
  | none => exact ⟨_, rfl, .inl rfl⟩
  | some old =>
      have hout := unattached_replaceCurrentClient h hclient cleanSession replaceStyle hcurrent
      rcases logoutClient_eq_of_unattached hout thread with hok | hok
      · exact ⟨_, hok, .inl rfl⟩
      · exact ⟨_, hok, .inr ⟨old, rfl⟩⟩

theorem logoutExisting_sends (h : s.view.Attached) (hclient : s.view.attached client = none)
    (thread : Thread) (session : SessionId) (cleanSession : CleanSession)
    (replaceStyle : ReplaceStyle) :
    ∃ u, (s.replaceCurrentClient session client cleanSession replaceStyle).logoutExisting thread
        (s.sessions session).mCurrentClient = .ok u ∧
      Sends (s.replaceCurrentClient session client cleanSession replaceStyle) u := by
  obtain ⟨u, hok, hmarked⟩ := logoutExisting_eq h hclient thread session cleanSession replaceStyle
  refine ⟨u, hok, ?_⟩
  rcases hmarked with rfl | ⟨old, rfl⟩
  · exact ⟨rfl, rfl, rfl⟩
  · exact sends_markLoggedOut _ old

/-- A login to a session that is there attaches the connection, and empties the
session unless it is resumed. -/
theorem loginExisting_reaches (h : s.view.Attached) (hclient : s.view.attached client = none)
    (thread : Thread) (session : SessionId) (cleanSession : CleanSession) :
    ∃ t, s.loginExisting thread client session cleanSession = .ok t ∧
      s.Reaches ((s.view.attach client session).setState client .connected) t ∧
      (cleanSession = .yes ∨ (s.sessions session).mCleanSession = .yes →
        (t.sessions session).Clean) := by
  unfold loginExisting
  simp only
  split
  · obtain ⟨u, hok, hsends⟩ :=
      logoutExisting_sends h hclient thread session cleanSession .cleanSession
    have hall := hsends.trans (sends_sendConnack u client .no)
    refine ⟨_, by rw [hok]; rfl, connected_reaches hall (view_replaceCurrentClient _ _ _ _ _)
      (mQueueInternal_replaceCurrentClient _ _ _ _ _), fun _ => ?_⟩
    have hclean := clean_replaceCurrentClient s session client cleanSession
    rw [← hsends.sessions_eq] at hclean
    exact hclean
  · next hresumed =>
      obtain ⟨u, hok, hsends⟩ :=
        logoutExisting_sends h hclient thread session cleanSession .simpleReplace
      have hall := (hsends.trans (sends_sendConnack u client .yes)).trans (sends_resend _ client session)
      exact ⟨_, by rw [hok]; rfl, connected_reaches hall (view_replaceCurrentClient _ _ _ _ _)
        (mQueueInternal_replaceCurrentClient _ _ _ _ _), fun hclean => absurd hclean hresumed⟩

omit [SubscriptionTree τ] in
theorem loginNew_reaches (h : s.view.Attached) (client : ConnectionId)
    (clientId : ByteString) (cleanSession : CleanSession) :
    s.Reaches (((s.view.openSession clientId).attach client s.nextSession).setState client .connected)
        (s.loginNew client clientId cleanSession) ∧
      ((s.loginNew client clientId cleanSession).sessions s.nextSession).Clean := by
  let opened : ApplicationState τ := { s with
    nextSession := s.nextSession + 1
    mPersistentClientStates := s.mPersistentClientStates.insert clientId s.nextSession
    sessions := Function.update s.sessions s.nextSession
      { mClientID := clientId, mCleanSession := cleanSession, mCurrentClient := some client } }
  let replaced := opened.replaceCurrentClient s.nextSession client cleanSession .cleanSession
  have hsends := sends_sendConnack replaced client .no
  have hopened : opened.view = { s.view.openSession clientId with
      currentClient := Function.update s.view.currentClient s.nextSession (some client) } := by
    simp only [view, View.openSession, opened, View.mk.injEq, true_and, and_true]
    exact funext fun id =>
      Function.apply_update (fun _ => PersistentClientState.mCurrentClient) _ _ _ id
  -- The constructor has set the connection; it is unset and set again.
  have hattach : opened.view.attach client s.nextSession =
      (s.view.openSession clientId).attach client s.nextSession := by
    have hfresh : (s.view.openSession clientId).currentClient s.nextSession = none :=
      h.freshSession s.nextSession le_rfl
    rw [hopened]
    simp only [View.attach, Function.update_self, Function.update_idem, hfresh]
    rfl
  constructor
  · have hview : replaced.view = (s.view.openSession clientId).attach client s.nextSession :=
      (view_replaceCurrentClient _ _ _ _ _).trans hattach
    constructor
    · show ((replaced.sendConnack client .no).connected client).view = _
      rw [view_connected, hsends.view_eq, hview]
    · intro request hrequest
      refine .inl ?_
      have hinternal : replaced.mQueueInternal = s.mQueueInternal :=
        mQueueInternal_replaceCurrentClient _ _ _ _ _
      rw [← hinternal, ← hsends.mQueueInternal_eq]
      exact hrequest
  · have hclean := clean_replaceCurrentClient opened s.nextSession client cleanSession
    rw [show opened.replaceCurrentClient s.nextSession client cleanSession .cleanSession = replaced
      from rfl, ← hsends.sessions_eq] at hclean
    exact hclean

theorem loginClient_reaches (h : s.view.Attached) (hclient : s.view.attached client = none)
    (thread : Thread) (clientId : ByteString) (cleanSession : CleanSession)
    (generatedId : ByteString) :
    ∃ t, s.loginClient thread client clientId cleanSession generatedId = .ok t ∧
      ∃ v, s.view.LogsIn client v ∧ s.Reaches v t := by
  unfold loginClient
  split
  · exact ⟨s, rfl, s.view, .nothing, rfl, fun _ hrequest => .inl hrequest⟩
  · simp only
    split
    · next session hfound =>
        obtain ⟨t, hok, hreaches, -⟩ := loginExisting_reaches h hclient thread session cleanSession
        exact ⟨t, hok, _, .takesOver hfound, hreaches⟩
    · next hnew =>
        exact ⟨_, rfl, _, .opens (AList.lookup_eq_none.mp hnew),
          (loginNew_reaches h client _ cleanSession).1⟩

/-! ## Change requests -/

/-- What the execution of a request hands over. -/
def changeHandOffs (s : ApplicationState τ) : ChangeRequest → List HandOff
  | .subscribe subscriber topic qos _ => s.subscribeHandOffs subscriber topic qos
  | .logoutClient client => s.logoutHandOffs client
  | _ => []

variable {thread : Thread} {generatedId : ByteString} {change : ChangeRequest}

/-- The connection a request logs in has no session. -/
def FreshLogin (s : ApplicationState τ) (change : ChangeRequest) : Prop :=
  ∀ client clientId cleanSession, change = .loginClient client clientId cleanSession →
    s.view.attached client = none

theorem visit_reaches (h : s.view.Attached) (hfresh : s.FreshLogin change)
    (hok : s.visit thread generatedId change = .ok t) :
    ∃ v, s.view.Executes change v ∧ s.Reaches v t := by
  cases change with
  | subscribe subscriber topic qos type =>
      have hpublishes := subscribeClientInternal_publishes hok
      exact ⟨_, .subscribe, hpublishes.view_eq, hpublishes.internal⟩
  | unsubscribe subscriber topic =>
      cases hok
      exact ⟨_, .unsubscribe, rfl, fun _ hrequest => .inl hrequest⟩
  | unsubscribeFromAll subscriber =>
      cases hok
      exact ⟨_, .unsubscribeFromAll, rfl, fun _ hrequest => .inl hrequest⟩
  | retain packet =>
      cases hok
      refine ⟨_, .retain, ?_, ?_⟩
      · unfold retain
        split
        · rfl
        · rfl
      · unfold retain
        split
        · exact fun _ hrequest => .inl hrequest
        · exact fun _ hrequest => .inl hrequest
  | loginClient client clientId cleanSession =>
      obtain ⟨u, hu, v, hin, hreaches⟩ := loginClient_reaches h (hfresh client _ _ rfl) thread clientId
        cleanSession generatedId
      cases hu.symm.trans hok
      exact ⟨v, .loginClient hin, hreaches⟩
  | logoutClient client =>
      obtain ⟨v, hout, hreaches⟩ := logoutClient_reaches h hok
      exact ⟨v, .logoutClient hout, hreaches⟩
  | deleteScript script =>
      cases hok
      exact ⟨_, .deleteScript, rfl, fun _ hrequest => .inl hrequest⟩

theorem succeeds_visit (h : s.view.Attached) (hfresh : s.FreshLogin change) :
    Succeeds (s.visit thread generatedId change) ↔
      ∀ handOff ∈ s.changeHandOffs change, s.Deliverable handOff := by
  cases change with
  | subscribe subscriber topic qos type => exact succeeds_subscribeClientInternal
  | loginClient client clientId cleanSession =>
      obtain ⟨u, hu, -⟩ := loginClient_reaches h (hfresh client _ _ rfl) thread clientId cleanSession
        generatedId
      exact iff_of_true ⟨u, hu⟩ (fun _ h => by cases h)
  | logoutClient client => exact succeeds_logoutClient h
  | unsubscribe subscriber topic => exact iff_of_true ⟨_, rfl⟩ (fun _ h => by cases h)
  | unsubscribeFromAll subscriber => exact iff_of_true ⟨_, rfl⟩ (fun _ h => by cases h)
  | retain packet => exact iff_of_true ⟨_, rfl⟩ (fun _ h => by cases h)
  | deleteScript script => exact iff_of_true ⟨_, rfl⟩ (fun _ h => by cases h)

theorem executeChangeRequest_reaches (h : s.view.Attached) (hfresh : s.FreshLogin change)
    (hok : s.executeChangeRequest thread generatedId change = .ok t) :
    ∃ v, s.view.Executes change v ∧ s.Reaches v t := by
  rw [executeChangeRequest_eq] at hok
  exact visit_reaches h hfresh hok

theorem succeeds_executeChangeRequest (h : s.view.Attached) (hfresh : s.FreshLogin change) :
    Succeeds (s.executeChangeRequest thread generatedId change) ↔
      ∀ handOff ∈ s.changeHandOffs change, s.Deliverable handOff := by
  rw [executeChangeRequest_eq]
  exact succeeds_visit h hfresh

end ApplicationState

end NioevMqtt
