-- SUMMARY: Subscribers, subscriptions and the tree that stores them, taken as a parameter with the laws the broker relies on.
import NioevMqtt.Session.PersistentClientState

/-!
# Subscriptions

`SubscriptionTree` is a class of libnioev. What it stores are pairs of a filter
and a subscriber; `LawfulSubscriptionTree` says that these are the pairs added and
not removed.
-/

namespace NioevMqtt

/-- A `Subscriber*`: a session, or one of the scripts, websockets and statistics. -/
inductive Subscriber where
  | session (id : SessionId)
  | other (id : Nat)
deriving DecidableEq, Repr

def Subscriber.session? : Subscriber → Option SessionId
  | .session id => some id
  | .other _ => none

theorem Subscriber.eq_of_session? {subscriber : Subscriber} {id : SessionId}
    (h : id ∈ subscriber.session?) : subscriber = .session id := by
  cases subscriber with
  | session => exact congrArg Subscriber.session (Option.some.inj h)
  | other => cases h

structure Subscription where
  subscriber : Subscriber
  qos : QoS := .qos0
deriving DecidableEq, Repr

/-- `Subscription::operator==`, which leaves the quality of service aside. -/
def Subscription.same (a b : Subscription) : Prop := a.subscriber = b.subscriber

instance (a b : Subscription) : Decidable (a.same b) :=
  inferInstanceAs (Decidable (a.subscriber = b.subscriber))

/-- The functions of `SubscriptionTree<Subscription>` the broker calls. -/
class SubscriptionTree (τ : Type) where
  empty : τ
  addSubscription : τ → ByteString → Subscription → τ
  removeSubscription : τ → ByteString → Subscription → τ
  removeAllSubscriptions : τ → Subscription → τ
  /-- The subscriptions `forEveryMatch` calls back with for a topic, in order. -/
  everyMatch : τ → ByteString → List Subscription
  /-- The subscriber is stored under the filter. -/
  Stores : τ → ByteString → Subscriber → Prop

/-- The tree stores exactly the pairs added and not removed. -/
class LawfulSubscriptionTree (τ : Type) [SubscriptionTree τ] : Prop where
  stores_empty : ∀ filter subscriber,
    ¬ SubscriptionTree.Stores (SubscriptionTree.empty : τ) filter subscriber
  stores_addSubscription : ∀ (tree : τ) filter sub filter' subscriber,
    SubscriptionTree.Stores (SubscriptionTree.addSubscription tree filter sub) filter' subscriber ↔
      (filter' = filter ∧ subscriber = sub.subscriber) ∨
        SubscriptionTree.Stores tree filter' subscriber
  stores_removeSubscription : ∀ (tree : τ) filter sub filter' subscriber,
    SubscriptionTree.Stores (SubscriptionTree.removeSubscription tree filter sub) filter'
        subscriber ↔
      ¬ (filter' = filter ∧ subscriber = sub.subscriber) ∧
        SubscriptionTree.Stores tree filter' subscriber
  stores_removeAllSubscriptions : ∀ (tree : τ) sub filter' subscriber,
    SubscriptionTree.Stores (SubscriptionTree.removeAllSubscriptions tree sub) filter'
        subscriber ↔
      subscriber ≠ sub.subscriber ∧ SubscriptionTree.Stores tree filter' subscriber

/-! ## A list of subscriptions

The tree as the MQTT standard describes its purpose, without its speed. -/

/-- The parts of a topic or filter between its slashes. -/
def topicLevels (topic : ByteString) : List ByteString := topic.splitOn 0x2F

/-- A filter matches a topic level by level; `+` stands for one level, `#` at the
end for all the rest. -/
def levelsMatch : List ByteString → List ByteString → Bool
  | [[0x23]], _ => true
  | [], [] => true
  | filter :: filters, topic :: topics =>
    (filter = [0x2B] || filter = topic) && levelsMatch filters topics
  | _, _ => false

/-- No wildcard at the start of a filter matches a topic that starts with `$`. -/
def filterMatches (filter topic : ByteString) : Bool :=
  !(topic.head? = some 0x24 && (filter.head? = some 0x23 || filter.head? = some 0x2B)) &&
    levelsMatch (topicLevels filter) (topicLevels topic)

/-- A subscription by what `operator==` and the filter say of it. -/
def subscriptionKey (e : ByteString × Subscription) : ByteString × Subscriber :=
  (e.1, e.2.subscriber)

/-- Subscriptions with their filters, each filter of a subscriber once. -/
structure SubscriptionList where
  entries : List (ByteString × Subscription) := []
  nodup : (entries.map subscriptionKey).Nodup := by exact List.nodup_nil

namespace SubscriptionList

/-- The entries that are kept. -/
def filter (tree : SubscriptionList) (keep : ByteString × Subscription → Bool) :
    SubscriptionList where
  entries := tree.entries.filter keep
  nodup := tree.nodup.sublist (List.filter_sublist.map subscriptionKey)

/-- The entry comes in place of one with its filter and subscriber. -/
def insert (tree : SubscriptionList) (e : ByteString × Subscription) : SubscriptionList where
  entries := tree.entries.filter (subscriptionKey · ≠ subscriptionKey e) ++ [e]
  nodup := by
    rw [List.map_append, List.map_singleton, ← List.concat_eq_append]
    refine (tree.nodup.sublist (List.filter_sublist.map subscriptionKey)).concat fun hmem => ?_
    obtain ⟨e', hmem, heq⟩ := List.mem_map.mp hmem
    exact of_decide_eq_true (List.mem_filter.mp hmem).2 heq

@[reducible] instance : SubscriptionTree SubscriptionList where
  empty := {}
  addSubscription := fun tree filter sub => tree.insert (filter, sub)
  removeSubscription := fun tree filter sub =>
    tree.filter (subscriptionKey · ≠ (filter, sub.subscriber))
  removeAllSubscriptions := fun tree sub => tree.filter (·.2.subscriber ≠ sub.subscriber)
  everyMatch := fun tree topic =>
    (tree.entries.filter fun e => filterMatches e.1 topic).map (·.2)
  Stores := fun tree filter subscriber => (filter, subscriber) ∈ tree.entries.map subscriptionKey

instance (tree : SubscriptionList) (filter : ByteString) (subscriber : Subscriber) :
    Decidable (SubscriptionTree.Stores tree filter subscriber) :=
  inferInstanceAs (Decidable ((filter, subscriber) ∈ _))

/-- What is to hold of the sessions that are stored is asked of every entry. -/
instance decidableForallSession (tree : SubscriptionList) (p : ByteString → SessionId → Prop)
    [∀ filter session, Decidable (p filter session)] :
    Decidable (∀ filter session,
      SubscriptionTree.Stores tree filter (.session session) → p filter session) :=
  decidable_of_iff (∀ e ∈ tree.entries, ∀ session ∈ e.2.subscriber.session?, p e.1 session) <| by
    constructor
    · intro h filter session hstores
      obtain ⟨e, hmem, heq⟩ := List.mem_map.mp hstores
      obtain ⟨rfl, hsession⟩ := Prod.mk.inj heq
      exact h e hmem session (by rw [hsession]; rfl)
    · intro h e hmem session hsession
      refine h e.1 session (List.mem_map.mpr ⟨e, hmem, ?_⟩)
      rw [subscriptionKey, Subscriber.eq_of_session? hsession]

/-- Keeping some of the entries keeps those pairs. -/
theorem mem_keys_filter {entries : List (ByteString × Subscription)}
    {keep : ByteString × Subscription → Bool} {p : ByteString × Subscriber → Prop}
    (hkeep : ∀ e, keep e = true ↔ p (subscriptionKey e)) (key : ByteString × Subscriber) :
    key ∈ (entries.filter keep).map subscriptionKey ↔ p key ∧ key ∈ entries.map subscriptionKey := by
  rw [List.mem_map, List.mem_map]
  constructor
  · rintro ⟨e, hmem, rfl⟩
    obtain ⟨hmem, hkept⟩ := List.mem_filter.mp hmem
    exact ⟨(hkeep e).mp hkept, e, hmem, rfl⟩
  · rintro ⟨hp, e, hmem, rfl⟩
    exact ⟨e, List.mem_filter.mpr ⟨hmem, (hkeep e).mpr hp⟩, rfl⟩

instance : LawfulSubscriptionTree SubscriptionList where
  stores_empty := fun filter subscriber => List.not_mem_nil
  stores_addSubscription := by
    intro tree filter sub filter' subscriber
    show (filter', subscriber) ∈ (_ ++ [(filter, sub)]).map subscriptionKey ↔ _
    rw [List.map_append, List.mem_append, List.map_singleton, List.mem_singleton,
      mem_keys_filter (p := fun key => key ≠ subscriptionKey (filter, sub))
        fun e => decide_eq_true_iff]
    show (filter', subscriber) ≠ (filter, sub.subscriber) ∧ _ ∨ (filter', subscriber) = (filter, sub.subscriber) ↔ _
    rw [← Prod.mk.injEq]
    exact ⟨fun h => h.symm.imp_right And.right,
      fun h => (em _).symm.imp_left fun hne => ⟨hne, h.resolve_left hne⟩⟩
  stores_removeSubscription := by
    intro tree filter sub filter' subscriber
    rw [← Prod.mk.injEq]
    exact mem_keys_filter (p := fun key => key ≠ (filter, sub.subscriber))
      (fun e => decide_eq_true_iff) _
  stores_removeAllSubscriptions := fun tree sub filter' subscriber =>
    mem_keys_filter (p := fun key => key.2 ≠ sub.subscriber) (fun e => decide_eq_true_iff) _

end SubscriptionList

/-! ## What is matched -/

/-- The subscriptions a tree stores, one by one, and which filters match which topics. -/
class SubscriptionEntries (τ : Type) where
  entries : τ → List (ByteString × Subscription)
  matchesTopic : ByteString → ByteString → Bool

/-- `forEveryMatch` calls back once for every stored filter and subscription that
matches the topic, in no particular order. -/
class LawfulMatching (τ : Type) [SubscriptionTree τ] [SubscriptionEntries τ] : Prop where
  stores_iff : ∀ (tree : τ) filter subscriber,
    SubscriptionTree.Stores tree filter subscriber ↔
      (filter, subscriber) ∈ (SubscriptionEntries.entries tree).map subscriptionKey
  nodup_entries : ∀ tree : τ, ((SubscriptionEntries.entries tree).map subscriptionKey).Nodup
  everyMatch_perm : ∀ (tree : τ) topic,
    (SubscriptionTree.everyMatch tree topic).Perm
      (((SubscriptionEntries.entries tree).filter fun e =>
        SubscriptionEntries.matchesTopic τ e.1 topic).map (·.2))

@[reducible] instance : SubscriptionEntries SubscriptionList where
  entries := SubscriptionList.entries
  matchesTopic := filterMatches

instance : LawfulMatching SubscriptionList where
  stores_iff := fun _ _ _ => Iff.rfl
  nodup_entries := SubscriptionList.nodup
  everyMatch_perm := fun _ _ => List.Perm.refl _

end NioevMqtt
