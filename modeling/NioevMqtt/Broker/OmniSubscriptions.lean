-- SUMMARY: Omni subscriptions: over every run, a subscriber with one is handed every message published since exactly once, exactly as long as some stored filter of it matches them.
import NioevMqtt.Broker.Outgoing

/-!
# Omni subscriptions

Nothing reads the type of a subscription request: what a subscriber is handed depends on
the filters it is stored with. `Statistics` asks for the empty one.
-/

namespace NioevMqtt

namespace ApplicationState

variable {τ : Type} {s t : ApplicationState τ} {action : Action}

/-! ## What a step publishes -/

/-- The request a step executes. -/
def executedChange (s : ApplicationState τ) : Action → Option ChangeRequest
  | .execute _ => s.mQueue.head?.map Request.change
  | .executeInternal _ => s.mQueueInternal.head?.map Request.change
  | _ => none

section

variable [SubscriptionTree τ]

/-- How often a subscriber is handed a message that is published. -/
def timesHanded (s : ApplicationState τ) (subscriber : Subscriber) (packet : MQTTPacket) : Nat :=
  (((s.fanOut packet).map (publishedDelivery packet)).map Delivery.subscriber).count subscriber

theorem timesHanded_le_one (s : ApplicationState τ) (subscriber : Subscriber) (packet : MQTTPacket) :
    s.timesHanded subscriber packet ≤ 1 := by
  have hnodup : (((s.fanOut packet).map (publishedDelivery packet)).map Delivery.subscriber).Nodup := by
    rw [List.map_map]
    exact nodup_recipients
  exact List.nodup_iff_count_le_one.mp hnodup subscriber

variable [SubscriptionEntries τ] {subscriber : Subscriber} {packet : MQTTPacket}

/-- Some filter the subscriber is stored with matches the topic. -/
def Matched (s : ApplicationState τ) (subscriber : Subscriber) (topic : ByteString) : Prop :=
  ∃ filter, SubscriptionTree.Stores s.mSubscriptions filter subscriber ∧
    SubscriptionEntries.matchesTopic τ filter topic

variable [LawfulMatching τ]

theorem matched_iff_entries {topic : ByteString} :
    s.Matched subscriber topic ↔ ∃ e ∈ SubscriptionEntries.entries s.mSubscriptions,
      e.2.subscriber = subscriber ∧ SubscriptionEntries.matchesTopic τ e.1 topic = true := by
  constructor
  · rintro ⟨filter, hstores, hmatches⟩
    obtain ⟨e, hstored, hkey⟩ := List.mem_map.mp ((LawfulMatching.stores_iff _ _ _).mp hstores)
    obtain ⟨rfl, rfl⟩ := Prod.mk.inj hkey
    exact ⟨e, hstored, rfl, hmatches⟩
  · rintro ⟨e, hstored, rfl, hmatches⟩
    exact ⟨e.1, (LawfulMatching.stores_iff _ _ _).mpr (List.mem_map.mpr ⟨e, hstored, rfl⟩), hmatches⟩

instance (s : ApplicationState τ) (subscriber : Subscriber) (topic : ByteString) :
    Decidable (s.Matched subscriber topic) :=
  decidable_of_iff _ matched_iff_entries.symm

/-- A message is handed once to whom it is matched for. -/
theorem timesHanded_eq_one_iff :
    s.timesHanded subscriber packet = 1 ↔ s.Matched subscriber packet.topic := by
  have hmem : subscriber ∈ (s.fanOut packet).map Prod.fst ↔ s.Matched subscriber packet.topic := by
    rw [mem_map_fanOut, matched_iff_entries]
    constructor
    · rintro ⟨sub, hsub, rfl⟩
      obtain ⟨e, he, rfl⟩ := List.mem_map.mp hsub
      obtain ⟨hstored, hmatches⟩ := List.mem_filter.mp he
      exact ⟨e, hstored, rfl, hmatches⟩
    · rintro ⟨e, hstored, rfl, hmatches⟩
      exact ⟨e.2, List.mem_map_of_mem (List.mem_filter.mpr ⟨hstored, hmatches⟩), rfl⟩
  rw [← hmem, ← List.count_pos_iff]
  have hcount : s.timesHanded subscriber packet = ((s.fanOut packet).map Prod.fst).count subscriber := by
    unfold timesHanded
    rw [List.map_map]
    rfl
  have hle := s.timesHanded_le_one subscriber packet
  rw [← hcount]
  omega

end

end ApplicationState

/-! ## Receipts -/

open ApplicationState (Action transition_of_step step_of_stepOk linked_stepOk linked_initial)

/-- The broker, and what one subscriber is handed. -/
structure OmniReceipts (τ : Type) where
  state : ApplicationState τ
  /-- A request of the subscriber with type `OMNI` has been executed. -/
  subscribed : Bool := false
  /-- For each message published since then, how often it has been handed to it. -/
  receipts : List Nat := []

namespace OmniReceipts

section

variable {τ : Type} [Libnioev] [SubscriptionTree τ] {subscriber : Subscriber}
  {h h' : OmniReceipts τ} {action : Action}

/-- The request is one of the subscriber, with type `OMNI`. -/
def isOmni (subscriber : Subscriber) : ChangeRequest → Bool
  | .subscribe subscriber' _ _ .omni => subscriber' = subscriber
  | _ => false

def step (subscriber : Subscriber) (h : OmniReceipts τ) (action : Action) :
    Option (OmniReceipts τ) :=
  (h.state.stepOk action).map fun t =>
    { state := t
      subscribed := h.subscribed || (h.state.executedChange action).any (isOmni subscriber)
      receipts :=
        if h.subscribed then
          h.receipts ++ (h.state.publications action).map (h.state.timesHanded subscriber)
        else h.receipts }

/-- The broker before its first connection. -/
def initial (retained : AList fun _ : ByteString => RetainedMessage) : OmniReceipts τ where
  state := .initial retained

/-- What `mTotalPacketCountCounter` counts of the messages. -/
def totalPacketCount (h : OmniReceipts τ) : Nat := h.receipts.sum

/-- Every message was handed to the subscriber once, and so the count grows by one for each. -/
structure ReceivesEach (h : OmniReceipts τ) : Prop where
  once : ∀ n ∈ h.receipts, n = 1
  counted : h.totalPacketCount = h.receipts.length

/-- Once the request has been executed, the messages published match a filter of the
subscriber. -/
def PublishesMatched [SubscriptionEntries τ] (subscriber : Subscriber) (h : OmniReceipts τ)
    (action : Action) : Prop :=
  h.subscribed = true →
    ∀ packet ∈ h.state.publications action, h.state.Matched subscriber packet.topic

omit [Libnioev] [SubscriptionTree τ] in
/-- Messages that are handed over once are counted once. -/
theorem receivesEach_iff : h.ReceivesEach ↔ ∀ n ∈ h.receipts, n = 1 := by
  refine ⟨fun hreceives => hreceives.once, fun honce => ⟨honce, ?_⟩⟩
  have hreplicate := List.eq_replicate_of_mem honce
  unfold totalPacketCount
  rw [hreplicate, List.sum_replicate_nat, List.length_replicate, Nat.mul_one]

instance (h : OmniReceipts τ) : Decidable h.ReceivesEach := decidable_of_iff _ receivesEach_iff.symm

instance [SubscriptionEntries τ] [LawfulMatching τ] (subscriber : Subscriber) (h : OmniReceipts τ)
    (action : Action) : Decidable (h.PublishesMatched subscriber action) :=
  inferInstanceAs (Decidable (_ → _))

theorem receivesEach_step_iff [SubscriptionEntries τ] [LawfulMatching τ] (hs : h.ReceivesEach)
    (hstep : h.step subscriber action = some h') :
    h'.ReceivesEach ↔ h.PublishesMatched subscriber action := by
  obtain ⟨t, -, rfl⟩ := Option.map_eq_some_iff.mp hstep
  rw [receivesEach_iff] at hs ⊢
  unfold PublishesMatched
  by_cases hsubscribed : h.subscribed = true
  · simp only [hsubscribed, if_true, List.mem_append, or_imp, forall_and, List.forall_mem_map,
      ApplicationState.timesHanded_eq_one_iff, true_imp_iff]
    exact and_iff_right hs
  · simp only [hsubscribed, Bool.false_eq_true, if_false, false_imp_iff, iff_true]
    exact hs

/-! ## Statistics -/

/-- The subscriber is stored with the empty filter at most, and has been handed nothing. -/
structure HandedNothing (subscriber : Subscriber) (h : OmniReceipts τ) : Prop where
  linked : h.state.Linked
  empty : ∀ filter, SubscriptionTree.Stores h.state.mSubscriptions filter subscriber → filter = []
  nothing : ∀ n ∈ h.receipts, n = 0

/-- The subscriber subscribes to the empty filter only, and the topics of messages are not
empty. -/
structure AsksForEmpty (subscriber : Subscriber) (h : OmniReceipts τ) (action : Action) : Prop where
  empty : ∀ filter qos type,
    h.state.executedChange action = some (.subscribe subscriber filter qos type) → filter = []
  topic_ne : ∀ packet ∈ h.state.publications action, packet.topic ≠ []

variable [LawfulSubscriptionTree τ]

theorem HandedNothing.step [SubscriptionEntries τ] [LawfulMatching τ]
    (hempty : ∀ topic, topic ≠ [] → SubscriptionEntries.matchesTopic τ [] topic = false)
    (hs : h.HandedNothing subscriber) (hasks : h.AsksForEmpty subscriber action)
    (hstep : h.step subscriber action = some h') : h'.HandedNothing subscriber := by
  obtain ⟨t, hstate, rfl⟩ := Option.map_eq_some_iff.mp hstep
  have htransition := transition_of_step hs.linked (step_of_stepOk hstate)
  refine ⟨linked_stepOk hs.linked hstate, ?_, ?_⟩
  · intro filter hstores
    have hview : SubscriptionTree.Stores t.view.mSubscriptions filter subscriber := hstores
    cases htransition with
    | quiet haction hquiet hreaches =>
        rw [hreaches.view_eq, hquiet.frame.1] at hview
        exact hs.empty filter hview
    | logsOut haction hout hreaches =>
        rw [hreaches.view_eq] at hview
        exact hs.empty filter (View.stores_logsOut hout hview)
    | @executes randomChars t request queue v hqueue hexecutes hreaches =>
        rw [hreaches.view_eq] at hview
        rcases View.stores_executes hexecutes hview with hold | ⟨qos, type, hchange⟩
        · exact hs.empty filter hold
        · refine hasks.empty filter qos type ?_
          simp only [ApplicationState.executedChange, hqueue, List.head?_cons, Option.map_some,
            hchange]
  · -- No filter of the subscriber matches a message.
    have hnone : ∀ packet ∈ h.state.publications action,
        h.state.timesHanded subscriber packet = 0 := by
      intro packet hpacket
      have hunmatched : ¬ h.state.Matched subscriber packet.topic := by
        rintro ⟨filter, hstores, hmatches⟩
        rw [hs.empty filter hstores, hempty _ (hasks.topic_ne packet hpacket)] at hmatches
        cases hmatches
      rw [← ApplicationState.timesHanded_eq_one_iff] at hunmatched
      have hle := h.state.timesHanded_le_one subscriber packet
      omega
    simp only
    split
    · refine List.forall_mem_append.mpr ⟨hs.nothing, ?_⟩
      rw [List.forall_mem_map]
      exact hnone
    · exact hs.nothing

/-- A subscriber that only asks for the empty filter, as `Statistics` does, counts nothing. -/
theorem handedNothing_of_asksForEmpty [SubscriptionEntries τ] [LawfulMatching τ]
    (hempty : ∀ topic, topic ≠ [] → SubscriptionEntries.matchesTopic τ [] topic = false)
    {retained : AList fun _ : ByteString => RetainedMessage} {run : List (Action × OmniReceipts τ)}
    (hrun : Runs.IsRun (Runs.StepOf (OmniReceipts.step subscriber)) (initial retained) run)
    (hasks : Runs.AllSteps (AsksForEmpty subscriber) (initial retained) run) :
    Runs.AllStates (HandedNothing subscriber) run := by
  refine hrun.invariant_of_allSteps (fun h action h' hs hasks hstep => hs.step hempty hasks hstep)
    ⟨linked_initial retained, ?_, ?_⟩ hasks
  · exact fun filter hstores => absurd hstores (LawfulSubscriptionTree.stores_empty _ _)
  · exact fun n hn => by cases hn

omit [LawfulSubscriptionTree τ] in
/-- Over every run: a subscriber is handed every message published since its request with
type `OMNI` was executed once, exactly as long as each of them matches a filter it is stored
with. The messages are those that the steps hand out; and a subscriber that only asks for the
empty filter, as `Statistics` does, is handed none. -/
theorem receivesEach_iff_publishesMatched [SubscriptionEntries τ] [LawfulMatching τ]
    (subscriber : Subscriber) {retained : AList fun _ : ByteString => RetainedMessage}
    {run : List (Action × OmniReceipts τ)}
    (hrun : Runs.IsRun (Runs.StepOf (step subscriber)) (initial retained) run) :
    (Runs.AllStates ReceivesEach run ↔
      Runs.AllSteps (PublishesMatched subscriber) (initial retained) run) ∧
    Runs.AllSteps (fun h action => h.state.HandsOut action) (initial retained) run ∧
    (∀ _ : LawfulSubscriptionTree τ,
      (∀ topic, topic ≠ [] → SubscriptionEntries.matchesTopic τ [] topic = false) →
        Runs.AllSteps (AsksForEmpty subscriber) (initial retained) run →
          Runs.AllStates (HandedNothing subscriber) run) := by
  refine ⟨?_, ?_, fun _ hempty hasks => handedNothing_of_asksForEmpty hempty hrun hasks⟩
  · exact hrun.allStates_iff_allSteps (I := fun _ => True) (fun _ _ _ _ _ _ _ => trivial)
      (fun _ _ _ _ hs hstep => receivesEach_step_iff hs hstep) trivial
      (receivesEach_iff.mpr fun _ hmem => by cases hmem)
  · refine hrun.allSteps_of_invariant (I := fun h => h.state.Tabled) ?_
      (fun h action htabled => ApplicationState.handsOut_of_tabled htabled action)
      (ApplicationState.tabled_initial retained)
    intro h action h' htabled hstep
    obtain ⟨t, hok, rfl⟩ := Option.map_eq_some_iff.mp hstep
    exact htabled.step (step_of_stepOk hok)

end

/-- `Statistics::init` with a filter, and then a message on `t`. -/
def countOne (filter : ByteString) : List Action :=
  [.start 0 (.request (.subscribe (.other 0) filter .qos2 .omni)), .proceed (.other 0) false,
    .execute [], .start 1 (.publish ⟨[0x74], [0x68, 0x69], .qos0, .no, []⟩),
    .proceed (.other 1) false]

/-- With `#` in place of the empty filter it is counted. -/
theorem receivesEach_countOne :
    (Runs.runOf (@step SubscriptionList .standard _ (.other 0)) (initial ∅)
        (countOne [0x23])).length = 5 ∧
      Runs.AllStates ReceivesEach (Runs.runOf (@step SubscriptionList .standard _ (.other 0))
        (initial ∅) (countOne [0x23])) :=
  ⟨by decide +kernel,
    (@receivesEach_iff_publishesMatched SubscriptionList .standard _ _ _ (.other 0) ∅ _
      (Runs.isRun_runOf (@step SubscriptionList .standard _ (.other 0)) _ _)).1.mpr
        (by decide +kernel)⟩

/-- With the empty filter it is not. -/
theorem not_receivesEach_countOne :
    ¬ Runs.AllStates ReceivesEach (Runs.runOf (@step SubscriptionList .standard _ (.other 0))
      (initial ∅) (countOne [])) := by
  decide +kernel

end OmniReceipts

end NioevMqtt
