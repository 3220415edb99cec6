-- SUMMARY: Over every run of the broker: every session that is a subscriber is in the session table exactly when every subscription is executed while its session is there.
import NioevMqtt.Broker.Transitions

/-!
# Subscribers

A `SUBSCRIBE` is executed later than it is received. The guard for a subscriber
that is gone by then is `isDeleted`, which no session overrides.
-/

namespace NioevMqtt

namespace View

variable {τ : Type} {v v' : View τ} {session : SessionId} {client : ConnectionId}

/-- The session is an entry of `mPersistentClientStates`. -/
def Kept (v : View τ) (session : SessionId) : Prop :=
  ∃ clientId, v.mPersistentClientStates.lookup clientId = some session

instance (v : View τ) (session : SessionId) : Decidable (v.Kept session) :=
  decidable_of_iff (∃ e ∈ v.mPersistentClientStates.entries, e.2 = session) <| by
    constructor
    · rintro ⟨⟨clientId, _⟩, hmem, rfl⟩
      exact ⟨clientId, AList.mem_lookup_iff.mpr hmem⟩
    · rintro ⟨clientId, hlookup⟩
      exact ⟨⟨clientId, session⟩, AList.mem_lookup_iff.mp hlookup, rfl⟩

variable [SubscriptionTree τ]

/-- Every session that `mSubscriptions` names is kept. -/
def SubscribersKept (v : View τ) : Prop :=
  ∀ filter session, SubscriptionTree.Stores v.mSubscriptions filter (.session session) →
    v.Kept session

omit [SubscriptionTree τ] in
/-- A login keeps the sessions that are there. -/
theorem Kept.logsIn (hin : v.LogsIn client v') (h : v.Kept session) : v'.Kept session := by
  cases hin with
  | nothing => exact h
  | takesOver => exact h
  | opens hnew =>
      obtain ⟨clientId, hlookup⟩ := h
      refine ⟨clientId, (AList.lookup_insert_ne ?_).trans hlookup⟩
      rintro rfl
      rw [AList.lookup_eq_none.mpr hnew] at hlookup
      cases hlookup

omit [SubscriptionTree τ] in
theorem mSubscriptions_logsIn (hin : v.LogsIn client v') : v'.mSubscriptions = v.mSubscriptions := by
  cases hin with
  | nothing => rfl
  | takesOver => rfl
  | opens => rfl

variable [LawfulSubscriptionTree τ] {filter : ByteString} {subscriber : Subscriber}
  {change : ChangeRequest}

/-- A logout subscribes nobody. -/
theorem stores_logsOut (hout : v.LogsOut client v')
    (hstores : SubscriptionTree.Stores v'.mSubscriptions filter subscriber) :
    SubscriptionTree.Stores v.mSubscriptions filter subscriber := by
  cases hout with
  | nothing => exact hstores
  | detaches => exact hstores
  | closes =>
      exact ((LawfulSubscriptionTree.stores_removeAllSubscriptions _ _ _ _).mp hstores).2

/-- Whoever is subscribed by a request is so by a request to subscribe. -/
theorem stores_executes (hexecutes : v.Executes change v')
    (hstores : SubscriptionTree.Stores v'.mSubscriptions filter subscriber) :
    SubscriptionTree.Stores v.mSubscriptions filter subscriber ∨
      ∃ qos type, change = .subscribe subscriber filter qos type := by
  cases hexecutes with
  | subscribe =>
      refine ((LawfulSubscriptionTree.stores_addSubscription _ _ _ _ _).mp hstores).symm.imp_right ?_
      rintro ⟨rfl, rfl⟩
      exact ⟨_, _, rfl⟩
  | unsubscribe =>
      exact .inl ((LawfulSubscriptionTree.stores_removeSubscription _ _ _ _ _).mp hstores).2
  | unsubscribeFromAll =>
      exact .inl ((LawfulSubscriptionTree.stores_removeAllSubscriptions _ _ _ _).mp hstores).2
  | retain => exact .inl hstores
  | loginClient hin => exact .inl (mSubscriptions_logsIn hin ▸ hstores)
  | logoutClient hout => exact .inl (stores_logsOut hout hstores)
  | deleteScript =>
      exact .inl ((LawfulSubscriptionTree.stores_removeAllSubscriptions _ _ _ _).mp hstores).2

theorem stores_subscribe {qos : QoS} {type : SubscriptionType}
    (hexecutes : v.Executes (.subscribe subscriber filter qos type) v') :
    SubscriptionTree.Stores v'.mSubscriptions filter subscriber := by
  cases hexecutes
  exact (LawfulSubscriptionTree.stores_addSubscription _ _ _ _ _).mpr (.inl ⟨rfl, rfl⟩)

/-- A logout takes the subscriptions of a session together with the session. -/
theorem SubscribersKept.logsOut (hout : v.LogsOut client v') (h : v.SubscribersKept) :
    v'.SubscribersKept := by
  cases hout with
  | nothing => exact h
  | detaches => exact h
  | @closes closed clientId hattached hfound =>
      intro filter session hstores
      obtain ⟨hne, hstores⟩ :=
        (LawfulSubscriptionTree.stores_removeAllSubscriptions _ _ _ _).mp hstores
      obtain ⟨key, hlookup⟩ := h filter session hstores
      refine ⟨key, (AList.lookup_erase_ne ?_).trans hlookup⟩
      rintro rfl
      cases hlookup.symm.trans hfound
      exact hne rfl

/-- The subscription that a request asks for, if it names a session, finds it kept. -/
def SubscribesKept (v : View τ) : ChangeRequest → Prop
  | .subscribe (.session session) _ _ _ => v.Kept session
  | _ => True

instance (v : View τ) (change : ChangeRequest) : Decidable (v.SubscribesKept change) := by
  unfold SubscribesKept
  split <;> infer_instance

omit [LawfulSubscriptionTree τ] in
theorem SubscribersKept.of_subset (h : v.SubscribersKept)
    (htable : v'.mPersistentClientStates = v.mPersistentClientStates)
    (hstores : ∀ filter subscriber, SubscriptionTree.Stores v'.mSubscriptions filter subscriber →
      SubscriptionTree.Stores v.mSubscriptions filter subscriber) : v'.SubscribersKept := by
  intro filter session hmem
  unfold Kept
  rw [htable]
  exact h filter session (hstores filter _ hmem)

/-- Other requests that leave the session table alone subscribe nobody. -/
theorem SubscribersKept.executes (h : v.SubscribersKept) (hexecutes : v.Executes change v')
    (htable : v'.mPersistentClientStates = v.mPersistentClientStates)
    (hchange : ∀ subscriber filter qos type, change ≠ .subscribe subscriber filter qos type) :
    v'.SubscribersKept := by
  refine h.of_subset htable fun filter subscriber hstores => ?_
  rcases stores_executes hexecutes hstores with hold | ⟨_, _, heq⟩
  · exact hold
  · exact absurd heq (hchange _ _ _ _)

/-- A request to subscribe keeps the subscribers exactly where it finds its own kept. -/
theorem subscribersKept_subscribe_iff {qos : QoS} {type : SubscriptionType} (h : v.SubscribersKept)
    (hexecutes : v.Executes (.subscribe subscriber filter qos type) v')
    (htable : v'.mPersistentClientStates = v.mPersistentClientStates) :
    v'.SubscribersKept ↔ v.SubscribesKept (.subscribe subscriber filter qos type) := by
  unfold SubscribersKept Kept
  rw [htable]
  constructor
  · intro hkept
    cases subscriber with
    | other id => trivial
    | session id => exact hkept filter id (stores_subscribe hexecutes)
  · intro hsubscribes filter' session hstores
    rcases stores_executes hexecutes hstores with hold | ⟨_, _, heq⟩
    · exact h filter' session hold
    · cases heq
      exact hsubscribes

theorem subscribersKept_executes_iff (h : v.SubscribersKept) (hexecutes : v.Executes change v') :
    v'.SubscribersKept ↔ v.SubscribesKept change := by
  cases hexecutes with
  | subscribe => exact subscribersKept_subscribe_iff h .subscribe rfl
  | loginClient hin =>
      refine iff_of_true (fun filter session hstores => ?_) trivial
      rw [mSubscriptions_logsIn hin] at hstores
      exact (h filter session hstores).logsIn hin
  | logoutClient hout => exact iff_of_true (h.logsOut hout) trivial
  | retain => exact iff_of_true h trivial
  | unsubscribe =>
      exact iff_of_true (h.executes .unsubscribe rfl fun _ _ _ _ heq => by cases heq) trivial
  | unsubscribeFromAll =>
      exact iff_of_true (h.executes .unsubscribeFromAll rfl fun _ _ _ _ heq => by cases heq) trivial
  | deleteScript =>
      exact iff_of_true (h.executes .deleteScript rfl fun _ _ _ _ heq => by cases heq) trivial

instance (v : View SubscriptionList) : Decidable v.SubscribersKept :=
  SubscriptionList.decidableForallSession v.mSubscriptions fun _ session => v.Kept session

end View

namespace ApplicationState

section

variable {τ : Type} [Libnioev] [SubscriptionTree τ] {s t : ApplicationState τ}

/-- Every session that is a subscriber is an entry of `mPersistentClientStates`. -/
def SubscribersKept (s : ApplicationState τ) : Prop := s.view.SubscribersKept

/-- A `ChangeRequestSubscribe` for a session is executed while the session is an entry
of `mPersistentClientStates`. -/
def SubscribesKept (s : ApplicationState τ) : Action → Prop
  | .execute _ => ∀ request ∈ s.mQueue.head?, s.view.SubscribesKept request.change
  | _ => True

omit [Libnioev] in
theorem subscribersKept_transition_iff [LawfulSubscriptionTree τ] {action : Action}
    (h : s.SubscribersKept) (hstep : s.Transition action t) :
    t.SubscribersKept ↔ s.SubscribesKept action := by
  cases hstep with
  | @quiet action t v haction hquiet hreaches =>
      obtain ⟨hsubscriptions, htable, -⟩ := hquiet.frame
      refine iff_of_true ?_ ?_
      · unfold SubscribersKept
        rw [hreaches.view_eq]
        refine View.SubscribersKept.of_subset h htable fun filter subscriber hstores => ?_
        rwa [hsubscriptions] at hstores
      · cases action with
        | execute randomChars => exact absurd rfl (haction randomChars)
        | _ => trivial
  | @logsOut action t client v haction hout hreaches =>
      refine iff_of_true ?_ ?_
      · unfold SubscribersKept
        rw [hreaches.view_eq]
        exact View.SubscribersKept.logsOut hout h
      · cases action with
        | execute randomChars => exact absurd rfl (haction randomChars)
        | _ => trivial
  | @executes randomChars t request queue v hqueue hexecutes hreaches =>
      have hdequeued : (s.view.setQueue queue).SubscribersKept := h
      unfold SubscribersKept SubscribesKept
      rw [hreaches.view_eq, View.subscribersKept_executes_iff hdequeued hexecutes, hqueue]
      simp only [List.head?_cons, Option.mem_some_iff, forall_eq']
      cases request.change with
      | subscribe subscriber topic qos type => cases subscriber with | _ => rfl
      | _ => rfl

omit [Libnioev] in
theorem subscribersKept_initial [LawfulSubscriptionTree τ]
    (retained : AList fun _ : ByteString => RetainedMessage) :
    (initial retained : ApplicationState τ).SubscribersKept :=
  fun _ _ hstores => absurd hstores (LawfulSubscriptionTree.stores_empty _ _)

/-- Over every run: all sessions that are subscribers are in the session table, exactly
when every subscription is executed while its session is in it. -/
theorem subscribersKept_iff_subscribesKept [LawfulSubscriptionTree τ]
    {retained : AList fun _ : ByteString => RetainedMessage}
    {run : List (Action × ApplicationState τ)}
    (hrun : Runs.IsRun (Runs.StepOf stepOk) (initial retained) run) :
    Runs.AllStates SubscribersKept run ↔ Runs.AllSteps SubscribesKept (initial retained) run :=
  hrun.allStates_iff_allSteps
    (fun _ _ _ hlinked _ _ hstep => linked_stepOk hlinked hstep)
    (fun _ _ _ hlinked h hstep =>
      subscribersKept_transition_iff h (transition_of_step hlinked (step_of_stepOk hstep)))
    (linked_initial retained) (subscribersKept_initial retained)

instance (s : ApplicationState SubscriptionList) : Decidable s.SubscribersKept :=
  inferInstanceAs (Decidable s.view.SubscribersKept)

instance (s : ApplicationState τ) (action : Action) : Decidable (s.SubscribesKept action) := by
  unfold SubscribesKept
  split <;> infer_instance

end

/-! ## A subscription that comes too late -/

/-- A client with a clean session asks for a subscription. -/
def loginAndSubscribe : List Action :=
  Action.requestLogin 0 [0x61] .yes (fun _ => rfl) ++ [.execute []] ++
    Action.requestSubscribe 0 [0x74] .qos1

/-- The request is executed before the client times out. -/
theorem subscribersKept_timeout :
    (Runs.runOf (@stepOk SubscriptionList .standard _) (initial ∅)
        (loginAndSubscribe ++ [.execute [], .timeout 0 120000000000, .cleanup])).length = 11 ∧
      Runs.AllStates SubscribersKept (Runs.runOf (@stepOk SubscriptionList .standard _) (initial ∅)
        (loginAndSubscribe ++ [.execute [], .timeout 0 120000000000, .cleanup])) :=
  ⟨by decide +kernel, (@subscribersKept_iff_subscribesKept SubscriptionList .standard _ _ ∅ _
    (Runs.isRun_runOf (@stepOk SubscriptionList .standard _) _ _)).mpr (by decide +kernel)⟩

/-- The request is executed after the client has timed out. -/
theorem not_subscribersKept_timeout :
    ∃ run, Runs.IsRun (Runs.StepOf (@stepOk SubscriptionList .standard _)) (initial ∅) run ∧
      ¬ Runs.AllStates SubscribersKept run := by
  refine ⟨_, Runs.isRun_runOf (@stepOk SubscriptionList .standard _) _
    (loginAndSubscribe ++ [.timeout 0 120000000000, .execute [], .cleanup]), ?_⟩
  decide +kernel

end ApplicationState

end NioevMqtt
