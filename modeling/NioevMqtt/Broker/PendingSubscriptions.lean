-- SUMMARY: What the queued requests will make of the subscriptions: the last of them about a filter decides, and a step changes that only by queueing another.
import NioevMqtt.Broker.Subscribers
import NioevMqtt.Broker.ThreadWork

/-!
# Subscriptions to come

A request about a subscription waits in `mQueue` until the worker thread executes it.
What the subscriptions will be once the queue is empty is known before: the last request
about a filter of a session decides, or what is stored if there is none.
-/

namespace NioevMqtt

/-- What a client is told about a filter: that it is subscribed, or that it is not. -/
inductive TopicAnswer where
  | suback
  | unsuback
deriving DecidableEq, Repr

/-- What the answer says of a subscription. -/
def TopicAnswer.Says : TopicAnswer → Prop → Prop
  | .suback, stored => stored
  | .unsuback, stored => ¬ stored

theorem TopicAnswer.says_congr (a : TopicAnswer) {p q : Prop} (h : p ↔ q) : a.Says p ↔ a.Says q := by
  rw [propext h]

namespace ChangeRequest

/-- The answer that is true of a filter of a session once the request is executed, if it
is about that filter. -/
def asks (filter : ByteString) (session : SessionId) : ChangeRequest → Option TopicAnswer
  | .subscribe subscriber topic _ _ =>
    if filter = topic ∧ .session session = subscriber then some .suback else none
  | .unsubscribe subscriber topic =>
    if filter = topic ∧ .session session = subscriber then some .unsuback else none
  | .unsubscribeFromAll subscriber =>
    if .session session = subscriber then some .unsuback else none
  | _ => none

/-- The session whose subscriptions a request changes. -/
def session? : ChangeRequest → Option SessionId
  | .subscribe subscriber _ _ _ | .unsubscribe subscriber _ | .unsubscribeFromAll subscriber =>
    subscriber.session?
  | _ => none

theorem session?_of_asks {change : ChangeRequest} {filter : ByteString} {session : SessionId}
    {a : TopicAnswer} (h : change.asks filter session = some a) : change.session? = some session := by
  cases change with
  | subscribe subscriber topic qos type =>
      obtain ⟨⟨-, rfl⟩, -⟩ := Option.ite_none_right_eq_some.mp h
      rfl
  | unsubscribe subscriber topic =>
      obtain ⟨⟨-, rfl⟩, -⟩ := Option.ite_none_right_eq_some.mp h
      rfl
  | unsubscribeFromAll subscriber =>
      obtain ⟨rfl, -⟩ := Option.ite_none_right_eq_some.mp h
      rfl
  | _ => cases h

end ChangeRequest

namespace View

variable {τ : Type} {v v' : View τ} {client c : ConnectionId} {session : SessionId}
  {filter : ByteString} {a : TopicAnswer}

/-! ## Clients -/

/-- A client keeps its state and its session once it is connected, unless it loses the
session. -/
structure KeepsClients (v v' : View τ) : Prop where
  connected : ∀ c, v.mState c = .connected → v'.mState c = .connected
  attached : ∀ c session, v.mState c = .connected → v'.attached c = some session →
    v.attached c = some session

theorem keepsClients_of_eq (hstate : v'.mState = v.mState) (hattached : v'.attached = v.attached) :
    v.KeepsClients v' where
  connected := fun _ h => hstate ▸ h
  attached := fun _ _ _ h => hattached ▸ h

theorem keepsClients_setState {state : ConnectionState} (h : v.mState client ≠ .connected) :
    v.KeepsClients (v.setState client state) where
  connected := by
    intro c hc
    have hne : c ≠ client := by
      rintro rfl
      exact h hc
    exact (Function.update_of_ne hne _ _).trans hc
  attached := fun _ _ _ hattached => hattached

theorem KeepsClients.quiet (h : v.Linked) (hquiet : v.Quiet v') : v.KeepsClients v' := by
  cases hquiet with
  | newConnection =>
      rw [h.newConnection_eq]
      exact keepsClients_of_eq rfl rfl
  | @requestLogin client _ _ hclient hstate =>
      have hset : v.KeepsClients (v.setState client .connecting) :=
        keepsClients_setState (by rw [hstate]; decide)
      exact ⟨hset.connected, hset.attached⟩
  | rejectVersion hclient hstate => exact keepsClients_setState (by rw [hstate]; decide)
  | refl => exact keepsClients_of_eq rfl rfl
  | setWork => exact keepsClients_of_eq rfl rfl
  | enqueue => exact keepsClients_of_eq rfl rfl
  | setClients => exact keepsClients_of_eq rfl rfl

@[simp] theorem attached_detach (v : View τ) (client : ConnectionId) (session : SessionId) :
    (v.detach client session).attached client = none := Function.update_self _ _ _

theorem keepsClients_detach (v : View τ) (client : ConnectionId) (session : SessionId) :
    v.KeepsClients (v.detach client session) where
  connected := fun _ h => h
  attached := by
    intro c id _ hattached
    by_cases hc : c = client
    · rw [hc, attached_detach] at hattached
      cases hattached
    · exact (Function.update_of_ne hc _ _).symm.trans hattached

theorem KeepsClients.logsOut [SubscriptionTree τ] (hout : v.LogsOut client v') :
    v.KeepsClients v' := by
  cases hout with
  | nothing => exact keepsClients_of_eq rfl rfl
  | @detaches session => exact keepsClients_detach v client session
  | @closes session =>
      have hdetached := keepsClients_detach v client session
      exact ⟨hdetached.connected, hdetached.attached⟩

/-- A connection other than the one that logs in gets no session. -/
theorem attached_of_attach (hne : c ≠ client) {id : SessionId}
    (h : (v.attach client session).attached c = some id) : v.attached c = some id := by
  have h := (Function.update_of_ne hne _ _).symm.trans h
  cases hcurrent : v.currentClient session with
  | none =>
      rw [hcurrent] at h
      exact h
  | some old =>
      simp only [hcurrent] at h
      by_cases hold : c = old
      · rw [hold, Function.update_self] at h
        cases h
      · rwa [Function.update_of_ne hold] at h

theorem keepsClients_attach (h : v.mState client ≠ .connected) :
    v.KeepsClients ((v.attach client session).setState client .connected) where
  connected := by
    intro c hc
    have hne : c ≠ client := by
      rintro rfl
      exact h hc
    exact (Function.update_of_ne hne _ _).trans hc
  attached := by
    intro c id hc hattached
    have hne : c ≠ client := by
      rintro rfl
      exact h hc
    exact attached_of_attach hne hattached

theorem KeepsClients.executes [SubscriptionTree τ] (h : v.Linked) {request : Request}
    {queue : List Request} (hqueue : v.mQueue = request :: queue)
    (hexecutes : (v.setQueue queue).Executes request.change v') : v.KeepsClients v' := by
  suffices hkeeps : (v.setQueue queue).KeepsClients v' from ⟨hkeeps.connected, hkeeps.attached⟩
  generalize hchange : request.change = change at hexecutes
  cases hexecutes with
  | @loginClient client _ _ _ hin =>
      have hstate : v.mState client ≠ .connected := by
        rw [(h.dequeuedLogin hqueue hchange).1]
        decide
      cases hin with
      | nothing => exact keepsClients_of_eq rfl rfl
      | takesOver => exact keepsClients_attach hstate
      | @opens clientId =>
          have hopened : ((v.setQueue queue).openSession clientId).KeepsClients
              ((((v.setQueue queue).openSession clientId).attach client v.nextSession).setState client
                .connected) := keepsClients_attach hstate
          exact ⟨hopened.connected, hopened.attached⟩
  | logoutClient hout => exact .logsOut hout
  | _ => exact keepsClients_of_eq rfl rfl

/-! ## What is stored -/

section

variable [SubscriptionTree τ] [LawfulSubscriptionTree τ] {change : ChangeRequest}

/-- A request that is executed makes its answer true. -/
theorem says_executes (hexecutes : v.Executes change v') (hasks : change.asks filter session = some a) :
    a.Says (SubscriptionTree.Stores v'.mSubscriptions filter (.session session)) := by
  cases hexecutes with
  | subscribe =>
      obtain ⟨hsame, heq⟩ := Option.ite_none_right_eq_some.mp hasks
      cases heq
      exact (LawfulSubscriptionTree.stores_addSubscription _ _ _ _ _).mpr (.inl hsame)
  | unsubscribe =>
      obtain ⟨hsame, heq⟩ := Option.ite_none_right_eq_some.mp hasks
      cases heq
      exact fun hstores =>
        ((LawfulSubscriptionTree.stores_removeSubscription _ _ _ _ _).mp hstores).1 hsame
  | unsubscribeFromAll =>
      obtain ⟨hsame, heq⟩ := Option.ite_none_right_eq_some.mp hasks
      cases heq
      exact fun hstores =>
        ((LawfulSubscriptionTree.stores_removeAllSubscriptions _ _ _ _).mp hstores).1 hsame
  | _ => cases hasks

/-- One about something else, and no logout, leaves the filter as it is. -/
theorem stores_executes_iff (hexecutes : v.Executes change v')
    (hasks : change.asks filter session = none) (hlogout : ∀ client, change ≠ .logoutClient client) :
    SubscriptionTree.Stores v'.mSubscriptions filter (.session session) ↔
      SubscriptionTree.Stores v.mSubscriptions filter (.session session) := by
  cases hexecutes with
  | subscribe =>
      have hother := ite_eq_right_iff.mp hasks
      exact (LawfulSubscriptionTree.stores_addSubscription _ _ _ _ _).trans
        (or_iff_right fun hsame => by cases hother hsame)
  | unsubscribe =>
      have hother := ite_eq_right_iff.mp hasks
      exact (LawfulSubscriptionTree.stores_removeSubscription _ _ _ _ _).trans
        (and_iff_right fun hsame => by cases hother hsame)
  | unsubscribeFromAll =>
      have hother := ite_eq_right_iff.mp hasks
      exact (LawfulSubscriptionTree.stores_removeAllSubscriptions _ _ _ _).trans
        (and_iff_right fun hsame => by cases hother hsame)
  | retain => exact Iff.rfl
  | loginClient hin => rw [mSubscriptions_logsIn hin]
  | logoutClient => exact absurd rfl (hlogout _)
  | deleteScript =>
      exact (LawfulSubscriptionTree.stores_removeAllSubscriptions _ _ _ _).trans
        (and_iff_right fun hsame => by cases hsame)

/-- A logout leaves the subscriptions of a session that keeps its connection. -/
theorem stores_logsOut_of_attached (h : v.Attached) (hout : v.LogsOut client v')
    (hbefore : v.attached c = some session) (hafter : v'.attached c = some session)
    (hstores : SubscriptionTree.Stores v.mSubscriptions filter (.session session)) :
    SubscriptionTree.Stores v'.mSubscriptions filter (.session session) := by
  cases hout with
  | nothing => exact hstores
  | detaches => exact hstores
  | @closes closed clientId hattached hfound =>
      refine (LawfulSubscriptionTree.stores_removeAllSubscriptions _ _ _ _).mpr ⟨?_, hstores⟩
      rintro ⟨⟩
      have hc : c = client := h.inverse.injective hbefore hattached
      have hdetached := attached_detach v client session
      rw [hc] at hafter
      cases hdetached.symm.trans hafter

end

/-! ## What is asked -/

/-- The answer that the last queued request about a filter makes true. -/
def lastAsked (v : View τ) (filter : ByteString) (session : SessionId) : Option TopicAnswer :=
  (v.mQueue.filterMap (·.change.asks filter session)).getLast?

theorem lastAsked_enqueue {request : Request} (h : v'.mQueue = v.mQueue ++ [request]) :
    v'.lastAsked filter session =
      (request.change.asks filter session).or (v.lastAsked filter session) := by
  unfold lastAsked
  rw [h, List.filterMap_append]
  cases hasks : request.change.asks filter session with
  | none => simp [hasks]
  | some b => simp [hasks]

theorem lastAsked_cons {request : Request} {queue : List Request} (h : v.mQueue = request :: queue) :
    v.lastAsked filter session =
      ((v.setQueue queue).lastAsked filter session).or (request.change.asks filter session) := by
  unfold lastAsked
  rw [h]
  cases hasks : request.change.asks filter session with
  | none => simp [hasks, setQueue]
  | some b =>
      rw [List.filterMap_cons_some (by exact hasks), List.getLast?_cons, setQueue]
      cases (queue.filterMap (·.change.asks filter session)).getLast? with
      | none => rfl
      | some b' => rfl

theorem mem_of_lastAsked (h : v.lastAsked filter session = some a) :
    ∃ request ∈ v.mQueue, request.change.asks filter session = some a :=
  List.mem_filterMap.mp (List.mem_of_getLast? h)

variable [SubscriptionTree τ]

/-- The answer is true of the filter once the queue is empty. -/
def Becomes (v : View τ) (a : TopicAnswer) (filter : ByteString) (session : SessionId) : Prop :=
  v.lastAsked filter session = some a ∨
    v.lastAsked filter session = none ∧
      a.Says (SubscriptionTree.Stores v.mSubscriptions filter (.session session))

/-- It is true already if no request waits that makes it true. -/
theorem Becomes.settled (h : v.Becomes a filter session)
    (hnone : ∀ request ∈ v.mQueue, request.change.asks filter session ≠ some a) :
    a.Says (SubscriptionTree.Stores v.mSubscriptions filter (.session session)) := by
  rcases h with hlast | ⟨-, hsays⟩
  · obtain ⟨request, hrequest, hasks⟩ := mem_of_lastAsked hlast
    exact absurd hasks (hnone request hrequest)
  · exact hsays

theorem becomes_congr (hlast : v'.lastAsked filter session = v.lastAsked filter session)
    (hsubscriptions : v'.mSubscriptions = v.mSubscriptions) :
    v'.Becomes a filter session ↔ v.Becomes a filter session := by
  unfold Becomes
  rw [hlast, hsubscriptions]

/-- What a logout leaves: filters that are not stored, and those of a session that keeps
its connection. -/
theorem Becomes.logsOut [LawfulSubscriptionTree τ] (h : v.Becomes a filter session)
    (hv : v.Attached) (hout : v.LogsOut client v')
    (hlast : v'.lastAsked filter session = v.lastAsked filter session)
    (hkept : a = .suback → ∃ c, v.attached c = some session ∧ v'.attached c = some session) :
    v'.Becomes a filter session := by
  unfold Becomes
  rw [hlast]
  refine h.imp_right fun ⟨hnone, hsays⟩ => ⟨hnone, ?_⟩
  cases a with
  | suback =>
      obtain ⟨c, hbefore, hafter⟩ := hkept rfl
      exact stores_logsOut_of_attached hv hout hbefore hafter hsays
  | unsuback => exact fun hstores => hsays (stores_logsOut hout hstores)

/-- The worker thread executes what was to come. -/
theorem Becomes.executes [LawfulSubscriptionTree τ] (h : v.Becomes a filter session)
    (hv : v.Attached) {request : Request} {queue : List Request}
    (hqueue : v.mQueue = request :: queue)
    (hexecutes : (v.setQueue queue).Executes request.change v')
    (hkept : a = .suback → ∃ c, v.attached c = some session ∧ v'.attached c = some session) :
    v'.Becomes a filter session := by
  have hlast : v'.lastAsked filter session = (v.setQueue queue).lastAsked filter session := by
    rw [lastAsked, (frame_executes hexecutes).1]
    rfl
  unfold Becomes at h
  rw [lastAsked_cons hqueue] at h
  cases hrest : (v.setQueue queue).lastAsked filter session with
  | some b =>
      -- A later request decides.
      rw [hrest] at h hlast
      rcases h with hb | ⟨hb, -⟩
      · exact .inl (hlast.trans hb)
      · cases hb
  | none =>
      rw [hrest] at h hlast
      rw [Option.none_or] at h
      cases hasks : request.change.asks filter session with
      | some b =>
          rw [hasks] at h
          rcases h with hb | ⟨hb, -⟩
          · cases hb
            exact .inr ⟨hlast, says_executes hexecutes hasks⟩
          · cases hb
      | none =>
          rw [hasks] at h
          rcases h with hb | ⟨-, hsays⟩
          · cases hb
          · have hdequeued : (v.setQueue queue).Becomes a filter session := .inr ⟨hrest, hsays⟩
            by_cases hlogout : ∃ client, request.change = .logoutClient client
            · obtain ⟨client, hlogout⟩ := hlogout
              rw [hlogout] at hexecutes
              cases hexecutes with
              | logoutClient hout =>
                  have hv' : (v.setQueue queue).Attached :=
                    ⟨hv.inverse, hv.connected, hv.freshSession, hv.found⟩
                  exact hdequeued.logsOut hv' hout (hlast.trans hrest.symm) hkept
            · have hstores := stores_executes_iff hexecutes hasks
                fun client heq => hlogout ⟨client, heq⟩
              exact .inr ⟨hlast, (a.says_congr hstores).mpr hsays⟩

end View

/-! ## Steps -/

namespace ApplicationState

variable {τ : Type} [Libnioev] [SubscriptionTree τ] {s t : ApplicationState τ} {action : Action}
  {session : SessionId} {filter : ByteString} {a : TopicAnswer}

/-- Nothing but the requests that are made changes what is asked. -/
theorem lastAsked_step (h : s.Linked) (hstep : s.step action = some (.ok t))
    (hexecute : ∀ randomChars, action ≠ .execute randomChars) :
    t.view.lastAsked filter session =
      ((s.made action).bind (·.change.asks filter session)).or
        (s.view.lastAsked filter session) := by
  have hsame : t.mQueue = s.mQueue → s.made action = none → t.view.lastAsked filter session =
      ((s.made action).bind (·.change.asks filter session)).or
        (s.view.lastAsked filter session) := by
    intro hqueue hmade
    have hview : t.view.mQueue = s.view.mQueue := hqueue
    rw [hmade, View.lastAsked, hview]
    rfl
  have hsteps := steps_of_step hstep
  cases hsteps with
  | @packet client packet =>
      obtain ⟨work, -, hview⟩ := (leavesWork_handlePacketReceived s client packet).noLogin
      exact hsame (congrArg View.mQueue hview) rfl
  | @proceed thread _ work rest _ hwork hok =>
      cases work with
      | request change =>
          simp only [made, hwork, Option.bind_some]
          rcases view_proceed_request hok with hview | ⟨hview, packet, rfl⟩
          · have hqueue : t.view.mQueue = s.view.mQueue ++ [⟨change, thread⟩] :=
              congrArg View.mQueue hview
            exact View.lastAsked_enqueue hqueue
          · rw [hview]
            rfl
      | _ =>
          have hview := view_proceed hok fun _ heq => by cases heq
          exact hsame (congrArg View.mQueue hview) (by simp only [made, hwork])
  | execute => exact absurd rfl (hexecute _)
  | _ =>
      exact hsame (frame_step h hstep (fun _ _ heq => by cases heq) (fun _ _ heq => by cases heq)
        fun _ heq => by cases heq).1 rfl

theorem keepsClients_step (h : s.Linked) (hstep : s.step action = some (.ok t)) :
    s.view.KeepsClients t.view := by
  cases transition_of_step h hstep with
  | quiet haction hquiet hreaches =>
      rw [hreaches.view_eq]
      exact .quiet h.view hquiet
  | logsOut haction hout hreaches =>
      rw [hreaches.view_eq]
      exact .logsOut hout
  | executes hqueue hexecutes hreaches =>
      rw [hreaches.view_eq]
      exact .executes h.view hqueue hexecutes

variable [LawfulSubscriptionTree τ]

/-- What is to become of a filter stays so as long as no request is made about it, and,
where it is stored, its session keeps its connection. -/
theorem becomes_step (h : s.Linked) (hstep : s.step action = some (.ok t))
    (hbecomes : s.view.Becomes a filter session)
    (hmade : ∀ request ∈ s.made action, request.change.asks filter session = none)
    (hkept : a = .suback → ∃ c, s.view.attached c = some session ∧ t.view.attached c = some session) :
    t.view.Becomes a filter session := by
  have hnothing : (s.made action).bind (·.change.asks filter session) = none := by
    cases hrequest : s.made action with
    | none => rfl
    | some request => exact hmade request hrequest
  have hlast : (∀ randomChars, action ≠ .execute randomChars) →
      t.view.lastAsked filter session = s.view.lastAsked filter session := by
    intro hexecute
    rw [lastAsked_step h hstep hexecute, hnothing, Option.none_or]
  cases transition_of_step h hstep with
  | quiet haction hquiet hreaches =>
      have hsubscriptions := (congrArg View.mSubscriptions hreaches.view_eq).trans hquiet.frame.1
      exact (View.becomes_congr (hlast haction) hsubscriptions).mpr hbecomes
  | logsOut haction hout hreaches =>
      rw [← hreaches.view_eq] at hout
      exact hbecomes.logsOut h.view.toAttached hout (hlast haction) hkept
  | executes hqueue hexecutes hreaches =>
      rw [← hreaches.view_eq] at hexecutes
      exact hbecomes.executes h.view.toAttached hqueue hexecutes hkept

omit [LawfulSubscriptionTree τ] in
/-- A request that is made decides, until the next one. -/
theorem becomes_made (h : s.Linked) (hstep : s.step action = some (.ok t)) {request : Request}
    (hmade : s.made action = some request) (hasks : request.change.asks filter session = some a) :
    t.view.Becomes a filter session := by
  have hexecute : ∀ randomChars, action ≠ .execute randomChars := by
    rintro randomChars rfl
    cases hmade
  refine .inl ?_
  rw [lastAsked_step h hstep hexecute, hmade, Option.bind_some, hasks]
  rfl

end ApplicationState

end NioevMqtt
