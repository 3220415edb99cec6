-- SUMMARY: What a session owes its client: the messages it has not acknowledged and the identifiers it has not released, how the session's tables hold them, and what is sent again of them.
import NioevMqtt.Broker.ApplicationState

/-!
# Outboxes

An outbox is the purpose of a session's two tables: the messages the client has yet
to acknowledge, in the order in which they were published, and the identifiers of
those it has received and not yet let go. The tables know no order; the global
counter of the stored packets gives it back.
-/

namespace NioevMqtt

/-- What a session owes its client. -/
structure Outbox where
  owed : List (UInt16 × HighQoSRetainStorage) := []
  /-- A `PUBREC` has been received, and no `PUBCOMP`. -/
  released : Finset UInt16 := ∅

/-- The tables of a session. -/
structure Outgoing where
  packets : SendingPackets
  pubrecReceived : Finset UInt16

def PersistentClientState.outgoing (state : PersistentClientState) : Outgoing :=
  ⟨state.mHighQoSSendingPackets, state.mQos2pubrecReceived⟩

namespace Outbox

/-! ## Operations -/

/-- The identifier is in use. -/
def InUse (box : Outbox) (id : UInt16) : Prop :=
  (∃ m ∈ box.owed, m.1 = id) ∨ id ∈ box.released

instance (box : Outbox) (id : UInt16) : Decidable (box.InUse id) :=
  inferInstanceAs (Decidable ((∃ m ∈ box.owed, _) ∨ _))

/-- A message of that quality of service is owed under the identifier. -/
def Owes (box : Outbox) (id : UInt16) (qos : QoS) : Prop :=
  ∃ m ∈ box.owed, m.1 = id ∧ m.2.mQoS = qos

instance (box : Outbox) (id : UInt16) (qos : QoS) : Decidable (box.Owes id qos) :=
  inferInstanceAs (Decidable (∃ m ∈ box.owed, _))

def publish (box : Outbox) (m : UInt16 × HighQoSRetainStorage) : Outbox :=
  { box with owed := box.owed ++ [m] }

/-- The message of that quality of service is acknowledged. -/
def acknowledge (box : Outbox) (id : UInt16) (qos : QoS) : Outbox :=
  { box with owed := box.owed.filter fun m => ¬ (m.1 = id ∧ m.2.mQoS = qos) }

def pubAck (box : Outbox) (id : UInt16) : Outbox := box.acknowledge id .qos1

def pubRec (box : Outbox) (id : UInt16) : Outbox :=
  { box.acknowledge id .qos2 with released := insert id box.released }

def pubComp (box : Outbox) (id : UInt16) : Outbox :=
  { box with released := box.released.erase id }

/-! ## The tables of a session -/

/-- The tables hold the outbox, after so many packets have been stored. -/
structure Holds (o : Outgoing) (count : Nat) (box : Outbox) : Prop where
  lookup_iff : ∀ id storage, o.packets.lookup id = some storage ↔ (id, storage) ∈ box.owed
  released_eq : o.pubrecReceived = box.released
  ordered : box.owed.Pairwise fun m m' => m.2.mGlobalOrderCount < m'.2.mGlobalOrderCount
  counted : ∀ m ∈ box.owed, m.2.mGlobalOrderCount < count
  highQoS : ∀ m ∈ box.owed, m.2.mQoS ≠ .qos0

variable {o : Outgoing} {count count' : Nat} {box : Outbox} {id : UInt16} {qos : QoS}

theorem holds_empty (count : Nat) : Holds ⟨∅, ∅⟩ count {} where
  lookup_iff := fun _ _ => iff_of_false (fun h => by cases h) List.not_mem_nil
  released_eq := rfl
  ordered := .nil
  counted := fun _ hm => by cases hm
  highQoS := fun _ hm => by cases hm

theorem Holds.mono (h : Holds o count box) (hle : count ≤ count') : Holds o count' box where
  lookup_iff := h.lookup_iff
  released_eq := h.released_eq
  ordered := h.ordered
  counted := fun m hm => Nat.lt_of_lt_of_le (h.counted m hm) hle
  highQoS := h.highQoS

theorem Holds.publish (h : Holds o count box) (hfree : ¬ box.InUse id)
    {storage : HighQoSRetainStorage} (horder : storage.mGlobalOrderCount = count)
    (hqos : storage.mQoS ≠ .qos0) :
    Holds { o with packets := o.packets.emplace id storage } (count + 1)
      (box.publish (id, storage)) where
  lookup_iff := by
    have hnew : id ∉ o.packets := by
      intro hmem
      obtain ⟨old, hold⟩ := Option.isSome_iff_exists.mp (AList.lookup_isSome.mpr hmem)
      exact hfree (.inl ⟨_, (h.lookup_iff id old).mp hold, rfl⟩)
    intro id' storage'
    show (o.packets.emplace id storage).lookup id' = some storage' ↔ _ ∈ box.owed ++ [_]
    rw [List.mem_append, List.mem_singleton, Prod.mk.injEq]
    by_cases hid : id' = id
    · subst hid
      rw [SendingPackets.lookup_emplace hnew, Option.some.injEq, eq_comm]
      refine ⟨fun heq => .inr ⟨rfl, heq⟩, fun hmem => hmem.elim (fun hold => ?_) And.right⟩
      exact absurd ⟨_, hold, rfl⟩ (fun hused => hfree (.inl hused))
    · rw [SendingPackets.lookup_emplace_of_ne hid, h.lookup_iff]
      exact (or_iff_left fun heq => hid heq.1).symm
  released_eq := h.released_eq
  ordered := by
    refine List.pairwise_append.mpr ⟨h.ordered, List.pairwise_singleton _ _, fun m hm m' hm' => ?_⟩
    rw [List.mem_singleton.mp hm', horder]
    exact h.counted m hm
  counted := by
    intro m hm
    rcases List.mem_append.mp hm with hold | hnew
    · exact Nat.lt_succ_of_lt (h.counted m hold)
    · rw [List.mem_singleton.mp hnew, horder]
      exact Nat.lt_succ_self count
  highQoS := by
    intro m hm
    rcases List.mem_append.mp hm with hold | hnew
    · exact h.highQoS m hold
    · rw [List.mem_singleton.mp hnew]
      exact hqos

/-- Whatever is stored under an identifier is erased; it is what has been acknowledged
if no message of the other quality of service is owed under it. -/
theorem Holds.acknowledge (h : Holds o count box) {other : QoS} (hother : ¬ box.Owes id other)
    (hqos : ∀ q : QoS, q ≠ .qos0 → q ≠ qos → q = other) :
    Holds { o with packets := o.packets.erase id } count (box.acknowledge id qos) := by
  have hmem : ∀ m, m ∈ (box.acknowledge id qos).owed ↔ m ∈ box.owed ∧ m.1 ≠ id := by
    intro m
    rw [Outbox.acknowledge, List.mem_filter, decide_eq_true_iff]
    refine and_congr_right fun hm => not_congr ⟨And.left, fun hid => ⟨hid, ?_⟩⟩
    by_contra hne
    exact hother ⟨m, hm, hid, hqos m.2.mQoS (h.highQoS m hm) hne⟩
  refine ⟨fun id' storage => ?_, h.released_eq, h.ordered.filter _,
    fun m hm => h.counted m ((hmem m).mp hm).1, fun m hm => h.highQoS m ((hmem m).mp hm).1⟩
  rw [hmem]
  by_cases hid : id' = id
  · subst hid
    rw [AList.lookup_erase]
    exact iff_of_false (fun heq => by cases heq) fun hne => hne.2 rfl
  · rw [AList.lookup_erase_ne hid, h.lookup_iff]
    exact (and_iff_left hid).symm

theorem Holds.release (h : Holds o count box) (f : Finset UInt16 → Finset UInt16) :
    Holds { o with pubrecReceived := f o.pubrecReceived } count
      { box with released := f box.released } where
  lookup_iff := h.lookup_iff
  released_eq := congrArg f h.released_eq
  ordered := h.ordered
  counted := h.counted
  highQoS := h.highQoS

/-! ## What is sent again -/

theorem perm_owed (h : Holds o count box) :
    (o.packets.entries.map fun e => (e.1, e.2)).Perm box.owed := by
  have hinjective : Function.Injective fun e : Sigma fun _ : UInt16 => HighQoSRetainStorage =>
      (e.1, e.2) := by
    rintro ⟨id, storage⟩ ⟨id', storage'⟩ heq
    cases heq
    rfl
  refine (List.perm_ext_iff_of_nodup (o.packets.nodupKeys.nodup.map hinjective) ?_).mpr ?_
  · refine h.ordered.imp fun {m m'} hlt heq => ?_
    rw [heq] at hlt
    exact Nat.lt_irrefl _ hlt
  · rintro ⟨id, storage⟩
    rw [← h.lookup_iff, List.mem_map]
    constructor
    · rintro ⟨e, he, heq⟩
      cases heq
      exact AList.mem_lookup_iff.mpr he
    · intro hlookup
      exact ⟨⟨id, storage⟩, AList.mem_lookup_iff.mp hlookup, rfl⟩

/-- The counter gives the stored packets their order back. -/
theorem orderedPackets_eq {state : PersistentClientState} (h : Holds state.outgoing count box) :
    ApplicationState.orderedPackets state = box.owed.map (·.2) := by
  have hperm : (state.mHighQoSSendingPackets.entries.map (·.2)).Perm (box.owed.map (·.2)) := by
    have hmap := (perm_owed h).map (·.2)
    rwa [List.map_map] at hmap
  have howed : (box.owed.map (·.2)).Pairwise fun a b => a.mGlobalOrderCount < b.mGlobalOrderCount :=
    List.pairwise_map.mpr h.ordered
  have hsorted : (ApplicationState.orderedPackets state).Pairwise
      fun a b => a.mGlobalOrderCount ≤ b.mGlobalOrderCount := by
    refine (List.pairwise_mergeSort (fun a b c hab hbc => ?_) (fun a b => ?_) _).imp of_decide_eq_true
    · exact decide_eq_true (Nat.le_trans (of_decide_eq_true hab) (of_decide_eq_true hbc))
    · simp only [Bool.or_eq_true, decide_eq_true_eq]
      exact Nat.le_total _ _
  have hsame := (List.mergeSort_perm (state.mHighQoSSendingPackets.entries.map (·.2))
    fun a b => a.mGlobalOrderCount ≤ b.mGlobalOrderCount).trans hperm
  -- Two packets of the same order are one.
  have hdistinct : ((box.owed.map (·.2)).map (·.mGlobalOrderCount)).Nodup :=
    List.pairwise_map.mpr (howed.imp Nat.ne_of_lt)
  refine List.Perm.eq_of_pairwise (fun a b ha hb hab hba => ?_) hsorted (howed.imp Nat.le_of_lt) hsame
  exact List.inj_on_of_nodup_map hdistinct (hsame.mem_iff.mp ha) hb (Nat.le_antisymm hab hba)

theorem length_pubrelIdentifiers_lt {state : PersistentClientState}
    (hzero : 0 ∉ state.mQos2pubrecReceived) (hne : state.mQos2pubrecReceived ≠ ∅) :
    (ApplicationState.pubrelIdentifiers state).length < state.mQos2pubrecReceived.card := by
  obtain ⟨n, hcard⟩ := Nat.exists_eq_succ_of_ne_zero (Finset.card_ne_zero.mpr
    (Finset.nonempty_iff_ne_empty.mpr hne))
  unfold ApplicationState.pubrelIdentifiers
  rw [hcard, List.range_succ_eq_map, List.map_cons, List.filter_cons_of_neg]
  · refine Nat.lt_succ_of_le ((List.length_filter_le _ _).trans ?_)
    rw [List.length_map, List.length_map, List.length_range]
  · rw [decide_eq_true_iff]
    exact hzero

/-- The loop over the bits finds all that are set only if none is: it counts to their
number, and 0 is no identifier. -/
theorem pubrelIdentifiers_eq_iff {state : PersistentClientState} {α : Type}
    (f : UInt16 → α) (hzero : 0 ∉ state.mQos2pubrecReceived) :
    (((ApplicationState.pubrelIdentifiers state).map f : List α) : Multiset α) =
        state.mQos2pubrecReceived.val.map f ↔
      state.mQos2pubrecReceived = ∅ := by
  constructor
  · intro heq
    by_contra hne
    have hcard := congrArg Multiset.card heq
    rw [Multiset.coe_card, List.length_map, Multiset.card_map, Finset.card_val] at hcard
    exact absurd hcard (Nat.ne_of_lt (length_pubrelIdentifiers_lt hzero hne))
  · intro hempty
    unfold ApplicationState.pubrelIdentifiers
    rw [hempty, Finset.card_empty, Finset.empty_val]
    rfl

end Outbox

end NioevMqtt
