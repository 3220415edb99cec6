-- SUMMARY: What subscribers are handed, message by message: the fan-out of a published message and the retained messages on a subscription, and when they are what they should be.
import NioevMqtt.Broker.Publishing
import NioevMqtt.Library.Copies
import Mathlib.Data.List.Perm.Basic
import Mathlib.Data.Finset.Max
import Mathlib.Order.Defs.LinearOrder

/-!
# Deliveries

Publishing and subscribing hand out messages one after another. Which ones is a
list that does not depend on the sessions: the first match of every subscriber,
and for a subscription every match of its subscriber, whatever the filter.
-/

namespace NioevMqtt

open Outcome

/-! ## The order of the qualities of service -/

/-- The number a quality of service is written as. -/
def QoS.number : QoS → Nat
  | .qos0 => 0
  | .qos1 => 1
  | .qos2 => 2

instance : LinearOrder QoS := LinearOrder.lift' QoS.number <| by
  intro a b h
  cases a <;> cases b <;> first | rfl | cases h

theorem minQoS_eq_min (a b : QoS) : minQoS a b = min a b := by
  cases a <;> cases b <;> rfl

/-- The arguments of `sendPublish`. -/
structure Delivery where
  subscriber : Subscriber
  topic : ByteString
  payload : List UInt8
  qos : QoS
  retained : Retained
  properties : PropertyList
deriving DecidableEq

namespace ApplicationState

variable {τ : Type} [Libnioev] {s : ApplicationState τ}

def deliver (s : ApplicationState τ) (d : Delivery) : Except Fault (ApplicationState τ) :=
  s.sendPublish d.subscriber d.topic d.payload d.qos d.retained d.properties

/-! ## The fan-out -/

/-- What is delivered of a published message. -/
def publishedDelivery (packet : MQTTPacket) (handOff : HandOff) : Delivery :=
  ⟨handOff.1, packet.topic, packet.payload, handOff.2, .no, packet.properties⟩

theorem publishToMatches_eq (packet : MQTTPacket) (subs : List Subscriber)
    (subscriptions : List Subscription) (s : ApplicationState τ) :
    publishToMatches packet.topic packet.payload packet.qos packet.properties s subs subscriptions =
      ((recipients packet.qos subs subscriptions).map (publishedDelivery packet)).foldlM deliver s := by
  induction subscriptions generalizing s subs with
  | nil => rfl
  | cons sub subscriptions ih =>
      unfold publishToMatches recipients
      split
      · exact ih subs s
      · rw [List.map_cons, List.foldlM_cons]
        exact bind_congr_ok fun t _ => ih (sub.subscriber :: subs) t

section

variable {publishQoS : QoS} {subs : List Subscriber} {subscriptions : List Subscription}

omit [Libnioev] in
/-- A subscriber is handed the message for the first of its subscriptions. -/
theorem mem_recipients {subscriber : Subscriber} {qos : QoS} :
    (subscriber, qos) ∈ recipients publishQoS subs subscriptions ↔
      subscriber ∉ subs ∧ ∃ first, subscriptions.find? (·.subscriber = subscriber) = some first ∧
        qos = minQoS first.qos publishQoS := by
  induction subscriptions generalizing subs with
  | nil => simp [recipients]
  | cons sub subscriptions ih =>
      unfold recipients
      by_cases hsub : sub.subscriber = subscriber
      · -- The first of its subscriptions.
        rw [List.find?_cons_of_pos (by exact decide_eq_true hsub)]
        split
        · next hseen =>
            rw [hsub] at hseen
            rw [ih]
            exact iff_of_false (fun h => h.1 hseen) (fun h => h.1 hseen)
        · next hnew =>
            rw [List.mem_cons, ih, hsub, Prod.mk.injEq]
            rw [hsub] at hnew
            constructor
            · rintro (⟨-, rfl⟩ | ⟨hmem, -⟩)
              · exact ⟨hnew, sub, rfl, rfl⟩
              · exact absurd List.mem_cons_self hmem
            · rintro ⟨-, first, hfirst, rfl⟩
              cases hfirst
              exact .inl ⟨rfl, rfl⟩
      · -- Another subscriber's, which only adds that one to `subs`.
        rw [List.find?_cons_of_neg (by rw [decide_eq_true_iff]; exact hsub)]
        split
        · exact ih
        · rw [List.mem_cons, ih, Prod.mk.injEq, List.mem_cons]
          constructor
          · rintro (⟨rfl, -⟩ | ⟨hmem, hfirst⟩)
            · exact absurd rfl hsub
            · exact ⟨fun h => hmem (.inr h), hfirst⟩
          · rintro ⟨hmem, hfirst⟩
            exact .inr ⟨fun h => h.elim (fun heq => hsub heq.symm) hmem, hfirst⟩

omit [Libnioev] in
theorem nodup_recipients :
    ((recipients publishQoS subs subscriptions).map Prod.fst).Nodup := by
  induction subscriptions generalizing subs with
  | nil => exact List.nodup_nil
  | cons sub subscriptions ih =>
      unfold recipients
      split
      · exact ih
      · rw [List.map_cons, List.nodup_cons]
        refine ⟨fun hmem => ?_, ih⟩
        obtain ⟨⟨subscriber, qos⟩, hmem, rfl⟩ := List.mem_map.mp hmem
        exact (mem_recipients.mp hmem).1 List.mem_cons_self

end

variable [SubscriptionTree τ] [SubscriptionEntries τ]

/-- The stored subscriptions that match a topic. -/
def matching (s : ApplicationState τ) (topic : ByteString) : List Subscription :=
  ((SubscriptionEntries.entries s.mSubscriptions).filter fun e =>
    SubscriptionEntries.matchesTopic τ e.1 topic).map (·.2)

/-- Every subscriber with a matching subscription is handed the message once, at the
best quality of service of these, as far as the message has it. -/
structure FansOut (s : ApplicationState τ) (packet : MQTTPacket) : Prop where
  once : ((s.fanOut packet).map Prod.fst).Nodup
  matched : ∀ subscriber, subscriber ∈ (s.fanOut packet).map Prod.fst ↔
    ∃ sub ∈ s.matching packet.topic, sub.subscriber = subscriber
  best : ∀ handOff ∈ s.fanOut packet, ∃ sub ∈ s.matching packet.topic,
    sub.subscriber = handOff.1 ∧ handOff.2 = min packet.qos sub.qos ∧
      ∀ sub' ∈ s.matching packet.topic, sub'.subscriber = handOff.1 → sub'.qos ≤ sub.qos

/-- The subscription by which a subscriber is handed the message. -/
def visitedFirst (s : ApplicationState τ) (topic : ByteString) (subscriber : Subscriber) :
    Option Subscription :=
  (SubscriptionTree.everyMatch s.mSubscriptions topic).find? (·.subscriber = subscriber)

/-- Of the matching subscriptions of a subscriber, the one the tree comes by first is
as good as any other for this message, and better than QoS 0 where the subscriber is a
session without a connection. -/
structure VisitsBestFirst (s : ApplicationState τ) (packet : MQTTPacket) : Prop where
  best : ∀ subscriber, ∀ first ∈ s.visitedFirst packet.topic subscriber,
    ∀ sub ∈ s.matching packet.topic, sub.subscriber = subscriber →
      min packet.qos sub.qos ≤ first.qos
  reachable : ∀ session, ∀ first ∈ s.visitedFirst packet.topic (.session session),
    (s.sessions session).mCurrentClient = none → min packet.qos first.qos ≠ .qos0

variable [LawfulMatching τ]

omit [Libnioev] in
theorem mem_everyMatch {topic : ByteString} {sub : Subscription} :
    sub ∈ SubscriptionTree.everyMatch s.mSubscriptions topic ↔ sub ∈ s.matching topic :=
  (LawfulMatching.everyMatch_perm s.mSubscriptions topic).mem_iff

omit [Libnioev] [SubscriptionEntries τ] [LawfulMatching τ] in
/-- Who is handed the message, and for which of its subscriptions. -/
theorem mem_fanOut {packet : MQTTPacket} {subscriber : Subscriber} {qos : QoS} :
    (subscriber, qos) ∈ s.fanOut packet ↔
      ∃ first ∈ s.visitedFirst packet.topic subscriber, qos = minQoS first.qos packet.qos :=
  mem_recipients.trans (and_iff_right List.not_mem_nil)

omit [Libnioev] in
theorem mem_matching_of_visitedFirst {topic : ByteString} {subscriber : Subscriber}
    {first : Subscription} (h : first ∈ s.visitedFirst topic subscriber) :
    first ∈ s.matching topic ∧ first.subscriber = subscriber := by
  have hfound := List.find?_some h
  exact ⟨mem_everyMatch.mp (List.mem_of_find?_eq_some h), of_decide_eq_true hfound⟩

omit [Libnioev] in
/-- Somebody is found exactly if there is a subscription to find. -/
theorem mem_map_fanOut {packet : MQTTPacket} {subscriber : Subscriber} :
    subscriber ∈ (s.fanOut packet).map Prod.fst ↔
      ∃ sub ∈ s.matching packet.topic, sub.subscriber = subscriber := by
  constructor
  · intro hmem
    obtain ⟨⟨subscriber', qos⟩, hmem', rfl⟩ := List.mem_map.mp hmem
    obtain ⟨first, hfirst, -⟩ := mem_fanOut.mp hmem'
    exact ⟨first, mem_matching_of_visitedFirst hfirst⟩
  · rintro ⟨sub, hsub, rfl⟩
    cases hfirst : s.visitedFirst packet.topic sub.subscriber with
    | none =>
        have hnone := List.find?_eq_none.mp hfirst sub (mem_everyMatch.mpr hsub)
        exact absurd (decide_eq_true rfl) hnone
    | some first =>
        exact List.mem_map.mpr ⟨_, mem_fanOut.mpr ⟨first, hfirst, rfl⟩, rfl⟩

omit [Libnioev] [SubscriptionTree τ] [LawfulMatching τ] in
/-- There is a best among the matching subscriptions of a subscriber that has one. -/
theorem exists_best {topic : ByteString} {first : Subscription} (h : first ∈ s.matching topic) :
    ∃ best ∈ s.matching topic, best.subscriber = first.subscriber ∧
      ∀ sub ∈ s.matching topic, sub.subscriber = first.subscriber → sub.qos ≤ best.qos := by
  have hfirst : first ∈ ((s.matching topic).filter (·.subscriber = first.subscriber)).toFinset := by
    simp [h]
  obtain ⟨best, hbest, hmax⟩ := Finset.exists_max_image _ Subscription.qos ⟨first, hfirst⟩
  rw [List.mem_toFinset, List.mem_filter, decide_eq_true_iff] at hbest
  refine ⟨best, hbest.1, hbest.2, fun sub hsub heq => hmax sub ?_⟩
  rw [List.mem_toFinset, List.mem_filter, decide_eq_true_iff]
  exact ⟨hsub, heq⟩

omit [Libnioev] in
/-- A message is handed on as it should be where the tree visits the best first. -/
theorem fansOut_iff_best (packet : MQTTPacket) :
    s.FansOut packet ↔
      ∀ subscriber, ∀ first ∈ s.visitedFirst packet.topic subscriber,
        ∀ sub ∈ s.matching packet.topic, sub.subscriber = subscriber →
          min packet.qos sub.qos ≤ first.qos := by
  constructor
  · intro h subscriber first hfirst sub hsub heq
    have hmem := mem_fanOut.mpr ⟨first, hfirst, rfl⟩
    obtain ⟨best, -, -, hqos, hmax⟩ := h.best _ hmem
    calc min packet.qos sub.qos
        ≤ min packet.qos best.qos := min_le_min_left _ (hmax sub hsub heq)
      _ = min first.qos packet.qos := by rw [← hqos, minQoS_eq_min]
      _ ≤ first.qos := min_le_left _ _
  · intro h
    refine ⟨nodup_recipients, fun subscriber => mem_map_fanOut, ?_⟩
    rintro ⟨subscriber, qos⟩ hmem
    obtain ⟨first, hfirst, rfl⟩ := mem_fanOut.mp hmem
    obtain ⟨hmatching, rfl⟩ := mem_matching_of_visitedFirst hfirst
    obtain ⟨best, hbest, heq, hmax⟩ := exists_best hmatching
    refine ⟨best, hbest, heq, ?_, hmax⟩
    rw [minQoS_eq_min, min_comm]
    apply le_antisymm
    · exact min_le_min_left _ (hmax first hmatching rfl)
    · exact le_min (min_le_left _ _) (h _ first hfirst best hbest heq)

omit [SubscriptionEntries τ] [LawfulMatching τ] in
/-- It is handed on at all where no session without a connection gets it at QoS 0. -/
theorem succeeds_publishNoLockNoRetain_iff (packet : MQTTPacket) :
    Succeeds (s.publishNoLockNoRetain packet) ↔
      ∀ session, ∀ first ∈ s.visitedFirst packet.topic (.session session),
        (s.sessions session).mCurrentClient = none → min packet.qos first.qos ≠ .qos0 := by
  rw [succeeds_publishNoLockNoRetain]
  constructor
  · intro h session first hfirst hnone hqos
    refine h _ (mem_fanOut.mpr ⟨first, hfirst, rfl⟩) session ?_ hnone
    rw [minQoS_eq_min, min_comm, hqos]
  · rintro h handOff hmem session rfl hnone
    obtain ⟨first, hfirst, hqos⟩ := mem_fanOut.mp hmem
    refine h session first hfirst hnone ?_
    rw [min_comm, ← minQoS_eq_min, ← hqos]

/-- Every subscriber is handed the message as it should be exactly if the tree comes by
the best subscription of each first. -/
theorem publishNoLockNoRetain_iff (packet : MQTTPacket) :
    s.publishNoLockNoRetain packet =
        ((s.fanOut packet).map (publishedDelivery packet)).foldlM deliver s ∧
      (Succeeds (s.publishNoLockNoRetain packet) ∧ s.FansOut packet ↔
        s.VisitsBestFirst packet) := by
  refine ⟨publishToMatches_eq packet [] _ s, ?_⟩
  rw [fansOut_iff_best, succeeds_publishNoLockNoRetain_iff]
  exact ⟨fun ⟨hreachable, hbest⟩ => ⟨hbest, hreachable⟩, fun h => ⟨h.reachable, h.best⟩⟩

/-- A session with the filters `t/#` and `t/a`. -/
def overlapping (qos qos' : QoS) : ApplicationState SubscriptionList where
  mSubscriptions := SubscriptionTree.addSubscription
    (SubscriptionTree.addSubscription SubscriptionTree.empty [0x74, 0x2F, 0x23] ⟨.session 0, qos⟩)
    [0x74, 0x2F, 0x61] ⟨.session 0, qos'⟩
  sessions := fun _ => { mCurrentClient := some 0 }

/-- A message on `t/a`. -/
def overlapped (qos : QoS) : MQTTPacket := ⟨[0x74, 0x2F, 0x61], [0x68, 0x69], qos, .no, []⟩

omit [Libnioev] in
theorem publishNoLockNoRetain_overlapped :
    Succeeds (@publishNoLockNoRetain SubscriptionList .standard _ (overlapping .qos1 .qos0)
        (overlapped .qos2)) ∧
      (overlapping .qos1 .qos0).FansOut (overlapped .qos2) := by
  have hbest : ∀ sub ∈ (overlapping .qos1 .qos0).matching (overlapped .qos2).topic,
      ∀ first ∈ (overlapping .qos1 .qos0).visitedFirst (overlapped .qos2).topic sub.subscriber,
        min QoS.qos2 sub.qos ≤ first.qos := by
    decide +kernel
  apply (@publishNoLockNoRetain_iff SubscriptionList .standard _ _ _ _ _).2.mpr
  constructor
  · rintro subscriber first hfirst sub hsub rfl
    exact hbest sub hsub first hfirst
  · intro session first _ hnone
    exact absurd hnone (Option.some_ne_none 0)

omit [Libnioev] in
/-- The filter `t/#` comes first, at QoS 0. -/
theorem not_fansOut_overlapped :
    ¬ (overlapping .qos0 .qos1).FansOut (overlapped .qos1) := by
  intro h
  exact absurd h.best (by decide +kernel)

/-! ## The retained messages on a subscription -/

/-- What is delivered of a retained message. -/
def retainedDelivery (sub : Subscription) (message : Sigma fun _ : ByteString => RetainedMessage) :
    Delivery :=
  ⟨sub.subscriber, message.1, message.2.payload, minQoS message.2.qos sub.qos, .yes,
    message.2.properties⟩

section

variable {sub : Subscription}

/-- A copy of every message for each match of the subscriber. -/
def retainedDeliveries (tree : τ) (sub : Subscription)
    (messages : List (Sigma fun _ : ByteString => RetainedMessage)) : List Delivery :=
  messages.flatMap fun message =>
    ((SubscriptionTree.everyMatch tree message.1).filter (sub.same ·)).map
      fun _ => retainedDelivery sub message

omit [SubscriptionTree τ] [SubscriptionEntries τ] [LawfulMatching τ] in
theorem sendRetained_eq (message : Sigma fun _ : ByteString => RetainedMessage)
    (subscriptions : List Subscription) (s : ApplicationState τ) :
    sendRetained sub message.1 message.2 s subscriptions =
      ((subscriptions.filter (sub.same ·)).map fun _ => retainedDelivery sub message).foldlM
        deliver s := by
  induction subscriptions generalizing s with
  | nil => rfl
  | cons matchedSub subscriptions ih =>
      unfold sendRetained
      split
      · next hsame =>
          rw [List.filter_cons, if_pos (decide_eq_true hsame), List.map_cons, List.foldlM_cons]
          exact bind_congr_ok fun t _ => ih t
      · next hother =>
          rw [List.filter_cons, if_neg (by rwa [decide_eq_true_iff])]
          exact ih s

omit [SubscriptionEntries τ] [LawfulMatching τ] in
theorem sendAllRetained_eq (messages : List (Sigma fun _ : ByteString => RetainedMessage))
    (s : ApplicationState τ) :
    sendAllRetained sub s messages =
      (retainedDeliveries s.mSubscriptions sub messages).foldlM deliver s := by
  induction messages generalizing s with
  | nil => rfl
  | cons message messages ih =>
      unfold sendAllRetained retainedDeliveries
      rw [List.flatMap_cons, List.foldlM_append, ← sendRetained_eq]
      refine bind_congr_ok fun t hsent => ?_
      have htree : t.mSubscriptions = s.mSubscriptions :=
        congrArg View.mSubscriptions (sendRetained_publishes hsent).view_eq
      rw [ih, htree]
      rfl

omit [Libnioev] [SubscriptionEntries τ] [LawfulMatching τ] in
theorem retainedHandOffs_eq (tree : τ)
    (messages : List (Sigma fun _ : ByteString => RetainedMessage)) :
    retainedHandOffs tree sub messages =
      (retainedDeliveries tree sub messages).map fun d => (d.subscriber, d.qos) := by
  unfold retainedHandOffs retainedDeliveries
  rw [List.map_flatMap]
  refine List.flatMap_congr fun message _ => ?_
  rw [List.map_map]
  rfl

end

/-- The retained messages an executed subscription delivers. -/
def subscribeDeliveries (s : ApplicationState τ) (topic : ByteString) (sub : Subscription) :
    List Delivery :=
  retainedDeliveries (SubscriptionTree.addSubscription s.mSubscriptions topic sub) sub
    s.mRetainedMessages.entries

/-- The retained messages a new filter is for. -/
def retainedFor (s : ApplicationState τ) (topic : ByteString) :
    List (Sigma fun _ : ByteString => RetainedMessage) :=
  s.mRetainedMessages.entries.filter fun message =>
    SubscriptionEntries.matchesTopic τ topic message.1

/-- No other filter of the subscriber matches a retained message, and none of the new
filter is for QoS 0 where the subscriber is a session without a connection. -/
structure SubscribesApart (s : ApplicationState τ) (topic : ByteString) (sub : Subscription) :
    Prop where
  apart : ∀ filter, filter ≠ topic →
    SubscriptionTree.Stores s.mSubscriptions filter sub.subscriber →
      ∀ message ∈ s.mRetainedMessages.entries,
        ¬ SubscriptionEntries.matchesTopic τ filter message.1
  reachable : ∀ session, sub.subscriber = .session session →
    (s.sessions session).mCurrentClient = none →
      ∀ message ∈ s.retainedFor topic, min message.2.qos sub.qos ≠ .qos0

section

variable [LawfulSubscriptionTree τ] {topic : ByteString} {sub : Subscription}

/-- The filters under which a subscriber is stored and that match a topic. -/
def filtersMatching (tree : τ) (subscriber : Subscriber) (topic : ByteString) : List ByteString :=
  ((SubscriptionEntries.entries tree).filter fun e =>
    e.2.subscriber = subscriber ∧ SubscriptionEntries.matchesTopic τ e.1 topic).map Prod.fst

omit [Libnioev] [LawfulSubscriptionTree τ] in
theorem mem_filtersMatching {tree : τ} {subscriber : Subscriber} {filter : ByteString} :
    filter ∈ filtersMatching tree subscriber topic ↔
      SubscriptionTree.Stores tree filter subscriber ∧
        SubscriptionEntries.matchesTopic τ filter topic := by
  rw [LawfulMatching.stores_iff, filtersMatching, List.mem_map, List.mem_map]
  constructor
  · rintro ⟨e, hmem, rfl⟩
    obtain ⟨hstored, hboth⟩ := List.mem_filter.mp hmem
    obtain ⟨rfl, hmatches⟩ := of_decide_eq_true hboth
    exact ⟨⟨e, hstored, rfl⟩, hmatches⟩
  · rintro ⟨⟨e, hstored, hkey⟩, hmatches⟩
    obtain ⟨rfl, rfl⟩ := Prod.mk.inj hkey
    exact ⟨e, List.mem_filter.mpr ⟨hstored, decide_eq_true ⟨rfl, hmatches⟩⟩, rfl⟩

omit [Libnioev] [LawfulSubscriptionTree τ] in
theorem nodup_filtersMatching (tree : τ) (subscriber : Subscriber) :
    (filtersMatching tree subscriber topic).Nodup := by
  refine List.Nodup.of_map (fun filter => (filter, subscriber)) ?_
  have hkeys := (LawfulMatching.nodup_entries tree).sublist
    ((List.filter_sublist (p := fun e => decide (e.2.subscriber = subscriber ∧
      SubscriptionEntries.matchesTopic τ e.1 topic))).map subscriptionKey)
  convert hkeys using 1
  rw [filtersMatching, List.map_map]
  refine List.map_congr_left fun e hmem => ?_
  obtain ⟨rfl, -⟩ := of_decide_eq_true (List.mem_filter.mp hmem).2
  rfl

omit [Libnioev] [LawfulSubscriptionTree τ] in
/-- The callbacks for a subscriber are one for each of these filters. -/
theorem length_everyMatch_same (tree : τ) (topic : ByteString) :
    ((SubscriptionTree.everyMatch tree topic).filter (sub.same ·)).length =
      (filtersMatching tree sub.subscriber topic).length := by
  rw [((LawfulMatching.everyMatch_perm tree topic).filter _).length_eq, List.filter_map,
    List.length_map, List.filter_filter, filtersMatching, List.length_map]
  congr 1
  refine List.filter_congr fun e _ => ?_
  rw [Bool.decide_and, Bool.decide_eq_true]
  exact congrArg (· && _) (decide_eq_decide.mpr eq_comm)

omit [Libnioev] in
/-- A retained message is delivered as often as it should be exactly if no other filter
matches it. -/
theorem length_filtersMatching_iff (tree : τ) (filter topic : ByteString) :
    (filtersMatching (SubscriptionTree.addSubscription tree filter sub) sub.subscriber
        topic).length = (if SubscriptionEntries.matchesTopic τ filter topic then 1 else 0) ↔
      ∀ filter', filter' ≠ filter → SubscriptionTree.Stores tree filter' sub.subscriber →
        ¬ SubscriptionEntries.matchesTopic τ filter' topic := by
  have hmem : ∀ filter', filter' ∈ filtersMatching
      (SubscriptionTree.addSubscription tree filter sub) sub.subscriber topic ↔
        (filter' = filter ∨ SubscriptionTree.Stores tree filter' sub.subscriber) ∧
          SubscriptionEntries.matchesTopic τ filter' topic := by
    intro filter'
    rw [mem_filtersMatching, LawfulSubscriptionTree.stores_addSubscription, and_iff_left rfl]
  have hself : SubscriptionEntries.matchesTopic τ filter topic ↔ filter ∈ filtersMatching
      (SubscriptionTree.addSubscription tree filter sub) sub.subscriber topic :=
    ((hmem filter).trans (and_iff_right (.inl rfl))).symm
  rw [if_congr hself rfl rfl, Copies.length_eq_ite_iff (nodup_filtersMatching _ _)]
  constructor
  · intro h filter' hne hstores hmatches
    exact hne (h filter' ((hmem filter').mpr ⟨.inr hstores, hmatches⟩))
  · intro h filter' hmem'
    obtain ⟨hstores, hmatches⟩ := (hmem filter').mp hmem'
    by_contra hne
    exact h filter' hne (hstores.resolve_left hne) hmatches

omit [Libnioev] in
/-- The messages delivered are those the filter is for, each once, where the subscriber
has no other filter that matches one of them. -/
theorem subscribeDeliveries_perm_iff :
    (s.subscribeDeliveries topic sub).Perm ((s.retainedFor topic).map (retainedDelivery sub)) ↔
      ∀ filter, filter ≠ topic → SubscriptionTree.Stores s.mSubscriptions filter sub.subscriber →
        ∀ message ∈ s.mRetainedMessages.entries,
          ¬ SubscriptionEntries.matchesTopic τ filter message.1 := by
  have hcopies : ∀ message ∈ s.mRetainedMessages.entries,
      SubscriptionEntries.matchesTopic τ topic message.1 = true →
        (SubscriptionTree.everyMatch (SubscriptionTree.addSubscription s.mSubscriptions topic sub)
          message.1).filter (sub.same ·) ≠ [] := by
    intro message _ hmatches
    rw [← List.length_pos_iff, length_everyMatch_same]
    refine List.length_pos_of_mem (mem_filtersMatching.mpr ⟨?_, hmatches⟩)
    exact (LawfulSubscriptionTree.stores_addSubscription _ _ _ _ _).mpr (.inl ⟨rfl, rfl⟩)
  refine (Copies.copies_perm_iff hcopies).trans ?_
  simp only [length_everyMatch_same, length_filtersMatching_iff]
  exact ⟨fun h filter hne hstores message hmem => h message hmem filter hne hstores,
    fun h message hmem filter hne hstores => h filter hne hstores message hmem⟩

omit [LawfulMatching τ] [LawfulSubscriptionTree τ] in
/-- Where the messages that match are sent, each once, sending them succeeds if none is at
QoS 0 for a session without a connection. -/
theorem succeeds_subscribe_of_perm {thread : Thread} {generatedId : ByteString}
    {type : SubscriptionType}
    (hperm : (s.subscribeDeliveries topic sub).Perm
      ((s.retainedFor topic).map (retainedDelivery sub))) :
    Succeeds (s.visit thread generatedId (.subscribe sub.subscriber topic sub.qos type)) ↔
      ∀ session, sub.subscriber = .session session → (s.sessions session).mCurrentClient = none →
        ∀ message ∈ s.retainedFor topic, min message.2.qos sub.qos ≠ .qos0 := by
  refine succeeds_subscribeClientInternal.trans ?_
  unfold subscribeHandOffs
  rw [retainedHandOffs_eq]
  constructor
  · intro h session hsession hnone message hmem hqos
    refine h (sub.subscriber, .qos0) (List.mem_map.mpr ?_) session (by rw [hsession]) hnone
    refine ⟨retainedDelivery sub message, hperm.mem_iff.mpr (List.mem_map_of_mem hmem), ?_⟩
    rw [← hqos, ← minQoS_eq_min]
    rfl
  · intro h handOff hmem session hhandOff hnone
    obtain ⟨d, hd, rfl⟩ := List.mem_map.mp hmem
    obtain ⟨message, hmessage, rfl⟩ := List.mem_map.mp (hperm.mem_iff.mp hd)
    obtain ⟨hsession, hqos⟩ := Prod.mk.inj hhandOff
    exact h session hsession hnone message hmessage ((minQoS_eq_min _ _).symm.trans hqos)

/-- A subscription that is executed delivers the retained messages as it should exactly
if the subscriber has no other filter for one of them. -/
theorem visit_subscribe_iff (thread : Thread) (generatedId : ByteString) (type : SubscriptionType) :
    s.visit thread generatedId (.subscribe sub.subscriber topic sub.qos type) =
        (s.subscribeDeliveries topic sub).foldlM deliver { s with
          mSubscriptions := SubscriptionTree.addSubscription s.mSubscriptions topic sub } ∧
      (Succeeds (s.visit thread generatedId (.subscribe sub.subscriber topic sub.qos type)) ∧
          (s.subscribeDeliveries topic sub).Perm
            ((s.retainedFor topic).map (retainedDelivery sub)) ↔
        s.SubscribesApart topic sub) := by
  refine ⟨sendAllRetained_eq _ _, ?_⟩
  constructor
  · rintro ⟨hs, hperm⟩
    exact ⟨subscribeDeliveries_perm_iff.mp hperm, (succeeds_subscribe_of_perm hperm).mp hs⟩
  · intro h
    have hperm := subscribeDeliveries_perm_iff.mpr h.apart
    exact ⟨(succeeds_subscribe_of_perm hperm).mpr h.reachable, hperm⟩

end

/-- A session with one filter, and messages retained on `t/a` and `t/b`. -/
def retaining (filter : ByteString) : ApplicationState SubscriptionList where
  mSubscriptions :=
    SubscriptionTree.addSubscription SubscriptionTree.empty filter ⟨.session 0, .qos0⟩
  mRetainedMessages :=
    (AList.insert [0x74, 0x2F, 0x61] ⟨[0x68, 0x69], .qos1, []⟩ ∅).insert [0x74, 0x2F, 0x62]
      ⟨[0x68, 0x6F], .qos1, []⟩
  sessions := fun _ => { mCurrentClient := some 0 }

omit [Libnioev] in
/-- Next to `u`, the filter `t/a` is sent its message. -/
theorem visit_subscribe_retaining :
    Succeeds (@visit SubscriptionList .standard _ (retaining [0x75]) .worker []
        (.subscribe (.session 0) [0x74, 0x2F, 0x61] .qos2 .normal)) ∧
      ((retaining [0x75]).subscribeDeliveries [0x74, 0x2F, 0x61] ⟨.session 0, .qos2⟩).Perm
        (((retaining [0x75]).retainedFor [0x74, 0x2F, 0x61]).map
          (retainedDelivery ⟨.session 0, .qos2⟩)) := by
  refine (@visit_subscribe_iff SubscriptionList .standard (retaining [0x75]) _ _ _ _
    [0x74, 0x2F, 0x61] ⟨.session 0, .qos2⟩ .worker [] .normal).2.mpr ⟨?_, ?_⟩
  · intro filter _ hstores
    have hfilter : filter = [0x75] := (Prod.mk.inj (List.mem_singleton.mp hstores)).1
    rw [hfilter]
    decide +kernel
  · intro session _ hnone
    exact absurd hnone (Option.some_ne_none 0)

omit [Libnioev] in
/-- Next to `t/#`, it is sent its message twice, and that of `t/b`. -/
theorem not_perm_retaining :
    ¬ ((retaining [0x74, 0x2F, 0x23]).subscribeDeliveries [0x74, 0x2F, 0x61]
        ⟨.session 0, .qos2⟩).Perm
      (((retaining [0x74, 0x2F, 0x23]).retainedFor [0x74, 0x2F, 0x61]).map
        (retainedDelivery ⟨.session 0, .qos2⟩)) := by
  intro h
  exact absurd h.length_eq (by decide +kernel)

end ApplicationState

end NioevMqtt
