-- SUMMARY: Attribution of packets: the histograms count each packet in the minute and second of its timestamp, and as the lists of the topics do, in every run whose refreshes analyse packets in their minute and in the order of their seconds.
import NioevMqtt.Broker.Statistics

/-!
# Attribution of packets

The lists of the topics count a packet in the minute it is analysed in, the histograms in the
minute and second of its timestamp, and all of them in the last bucket they have. They agree
where no packet is analysed late or comes after one of a later second.
-/

namespace NioevMqtt.Statistics

open Loops Series Runs
open TimeBucket PacketBucket

/-! ## The property -/

/-- The number of packets analysed with a timestamp in the interval that begins at a time. -/
def analysedAt (interval : Int) (analysed : List (PacketData × Int)) (time : Int) : Nat :=
  (analysed.filter fun c => chronoFloor interval c.1.timestamp = time).length

/-- The sum of the counts that the topics have for a minute. -/
def topicCount (topics : TopicInfos) (minute : Int) : Nat :=
  (topics.entries.map fun entry => (bucketAt entry.2 minute).elim 0 TopicInfo.packetCount).sum

/-- The lists of the topics still have the buckets of a minute in which packets were counted. -/
def KeptInTopics (h : History) (minute : Int) : Prop :=
  ∀ c ∈ h.analysed, chronoFloor minutes c.2 = minute →
    ∃ list ∈ h.stats.mAnalysisResult.topics.lookup c.1.topic, minute ∈ timestamps list

instance (h : History) (minute : Int) : Decidable (KeptInTopics h minute) :=
  inferInstanceAs (Decidable (∀ c ∈ h.analysed, _ → ∃ list ∈ _, _))

/-- The buckets count the packets of their minute or second, and for the minutes that are kept
in the lists of the topics these count as many. -/
structure Attributed (h : History) : Prop where
  perMinute : ∀ b ∈ h.stats.mAnalysisResult.packetsPerMinute, KeptInTopics h b.timestamp →
    b.packetCount = analysedAt minutes h.analysed b.timestamp ∧
      b.packetCount = topicCount h.stats.mAnalysisResult.topics b.timestamp
  perSecond : ∀ b ∈ h.stats.mAnalysisResult.packetsPerSecond,
    b.packetCount = analysedAt seconds h.analysed b.timestamp

/-! ## The condition -/

/-- Each packet is analysed in the minute of its timestamp. -/
def InMinute (packets : List PacketData) (readings : Readings) : Prop :=
  ∀ c ∈ packets.zip readings.packets, chronoFloor minutes c.1.timestamp = chronoFloor minutes c.2

/-- No packet is of a second before the last bucket, nor before the second of a packet that was
queued earlier. -/
def InSecondOrder (packetsPerSecond : List TimeInfo) (packets : List PacketData) : Prop :=
  ((packetsPerSecond.getLast?.map TimeInfo.timestamp).toList ++
    packets.map fun packet => chronoFloor seconds packet.timestamp).Pairwise (· ≤ ·)

instance (packets : List PacketData) (readings : Readings) :
    Decidable (InMinute packets readings) :=
  inferInstanceAs (Decidable (∀ c ∈ packets.zip readings.packets, _))

instance (packetsPerSecond : List TimeInfo) (packets : List PacketData) :
    Decidable (InSecondOrder packetsPerSecond packets) :=
  inferInstanceAs (Decidable (List.Pairwise _ _))

def Prompt (h : History) : Event → Prop
  | .publish _ => True
  | .refresh readings => InMinute h.stats.drained readings ∧
    InSecondOrder h.stats.mAnalysisResult.packetsPerSecond h.stats.drained

/-! ## Counting -/

/-- The packets with the time of a histogram they belong to. -/
def placedAt (interval : Int) (packets : List PacketData) : List (PacketData × Int) :=
  packets.map fun packet => (packet, chronoFloor interval packet.timestamp)

theorem length_packetsAt_placedAt (interval : Int) (analysed : List (PacketData × Int))
    (time : Int) : (packetsAt (placedAt interval (analysed.map Prod.fst)) time).length =
      analysedAt interval analysed time := by
  rw [packetsAt, placedAt, analysedAt, List.length_map, List.map_map, List.filter_map,
    List.length_map]
  rfl

theorem length_packetsAt_topicPackets (topic : ByteString) (analysed : List (PacketData × Int))
    (minute : Int) : (packetsAt (topicPackets topic analysed) minute).length =
      (analysed.filter fun c => c.1.topic = topic ∧ chronoFloor minutes c.2 = minute).length := by
  rw [packetsAt, topicPackets, List.length_map, List.filter_map, List.length_map,
    List.filter_filter]
  congr 2
  funext c
  simp [Bool.and_comm]

/-- Among keys without duplicates one is found once. -/
theorem sum_indicator {κ : Type*} [DecidableEq κ] {keys : List κ} (hnodup : keys.Nodup)
    {key : κ} (hmem : key ∈ keys) : (keys.map fun k => if key = k then 1 else 0).sum = 1 := by
  induction keys with
  | nil => cases hmem
  | cons k keys ih =>
      obtain ⟨hnot, hrest⟩ := List.nodup_cons.mp hnodup
      rw [List.map_cons, List.sum_cons]
      rcases List.mem_cons.mp hmem with rfl | htail
      · have hzero : (keys.map fun k => if key = k then 1 else 0).sum = 0 := by
          refine List.sum_eq_zero fun n hn => ?_
          obtain ⟨k, hk, rfl⟩ := List.mem_map.mp hn
          have hne : key ≠ k := fun heq => hnot (heq ▸ hk)
          rw [if_neg hne]
        rw [if_pos rfl, hzero]
      · have hne : key ≠ k := fun heq => hnot (heq ▸ htail)
        rw [if_neg hne, ih hrest htail]

/-- A list falls into the parts that belong to the keys. -/
theorem sum_length_filter {α κ : Type*} [DecidableEq κ] {keys : List κ} (hnodup : keys.Nodup)
    (key : α → κ) (p : α → Bool) {l : List α} (hkeys : ∀ a ∈ l, p a = true → key a ∈ keys) :
    (keys.map fun k => (l.filter fun a => decide (key a = k) && p a).length).sum =
      (l.filter p).length := by
  induction l with
  | nil => simp
  | cons a l ih =>
      have hrest := ih fun b hb => hkeys b (List.mem_cons_of_mem a hb)
      cases hp : p a with
      | false => simpa [List.filter_cons, hp] using hrest
      | true =>
          have hone := sum_indicator hnodup (hkeys a List.mem_cons_self hp)
          have hsplit (k : κ) :
              ((a :: l).filter fun a => decide (key a = k) && p a).length =
                (if key a = k then 1 else 0) +
                  (l.filter fun a => decide (key a = k) && p a).length := by
            by_cases hkey : key a = k
            · simp [hkey, hp, Nat.add_comm]
            · simp [hkey]
          rw [List.map_congr_left fun k _ => hsplit k, List.sum_map_add, hone, hrest,
            List.filter_cons_of_pos hp, List.length_cons, Nat.add_comm]

/-- The counts of the topics for a minute that is kept are the packets analysed in it. -/
theorem TopicsCounted.topicCount_eq {topics : TopicInfos} {analysed : List (PacketData × Int)}
    {clock minute : Int} (h : TopicsCounted topics analysed clock)
    (hkept : ∀ c ∈ analysed, chronoFloor minutes c.2 = minute →
      ∃ list ∈ topics.lookup c.1.topic, minute ∈ timestamps list) :
    topicCount topics minute =
      (analysed.filter fun c => chronoFloor minutes c.2 = minute).length := by
  have hentry : ∀ entry ∈ topics.entries,
      (bucketAt entry.2 minute).elim 0 TopicInfo.packetCount =
        (analysed.filter fun c => decide (c.1.topic = entry.1) &&
          decide (chronoFloor minutes c.2 = minute)).length := by
    rintro ⟨topic, list⟩ hentry
    have hlookup : topics.lookup topic = some list := AList.mem_lookup_iff.mpr hentry
    have hlength := length_packetsAt_topicPackets topic analysed minute
    simp only [Bool.decide_and] at hlength
    rw [← hlength]
    cases hbucket : bucketAt list minute with
    | none =>
        rw [packetsAt_eq_nil]
        · rfl
        · rintro placed hplaced rfl
          obtain ⟨c, hfilter, rfl⟩ := List.mem_map.mp hplaced
          obtain ⟨hc, htopic⟩ := List.mem_filter.mp hfilter
          obtain ⟨list', hlist', hmem⟩ := hkept c hc rfl
          have htopic : c.1.topic = topic := by simpa using htopic
          rw [htopic, hlookup] at hlist'
          obtain rfl := Option.some.inj hlist'
          obtain ⟨b, hb, htime⟩ := List.mem_map.mp hmem
          have hnot := List.find?_eq_none.mp hbucket b hb
          simp [htime] at hnot
    | some b =>
        have htime : timestamp b = minute := by simpa using List.find?_some hbucket
        have hcounted := (h.placed topic list hlookup).counts.bucket b
          (List.mem_of_find?_eq_some hbucket)
        have hsum := sum_countAll (f := TopicInfo.packetCount) (w := fun _ => 1) (fun _ _ => rfl)
          (packetsAt (topicPackets topic analysed) (timestamp b)) (ofTimestamp (timestamp b))
        rw [htime] at hsum hcounted
        rw [Option.elim_some, hcounted]
        refine hsum.trans ?_
        simp
        rfl
  have hkeys : ∀ c ∈ analysed, decide (chronoFloor minutes c.2 = minute) = true →
      c.1.topic ∈ topics.keys := by
    intro c hc hminute
    obtain ⟨list, hlist, -⟩ := hkept c hc (by simpa using hminute)
    exact AList.lookup_isSome.mp (by rw [hlist]; rfl)
  rw [← sum_length_filter topics.keys_nodup (fun c : PacketData × Int => c.1.topic) _ hkeys,
    topicCount, AList.keys, List.keys, List.map_map]
  exact congrArg List.sum (List.map_congr_left hentry)

/-! ## Histograms -/

section

variable {interval limit : Int} {list : List TimeInfo}

/-- A histogram in which all packets so far are counted at their time. -/
structure Placing (interval : Int) (list : List TimeInfo) (packets : List PacketData)
    (limit : Int) : Prop where
  placed : Placed interval list (placedAt interval packets) limit
  empty : list = [] → packets = []

variable {packets : List PacketData}

theorem Placing.space (h : Placing interval list packets limit) (hd : 0 < interval)
    {MaxSize : Nat} (hsize : 0 < MaxSize) {time : Int} (htime : interval ∣ time) :
    Placing interval (spaced interval MaxSize list time) packets (max limit time) where
  placed := h.placed.space_max hd hsize htime fun hnil => by simp [placedAt, h.empty hnil]
  empty := fun hnil => absurd hnil (spaced_ne_nil hd hsize _ _)

/-- Packets whose times are in order, and not before the last bucket. -/
theorem Placing.addPackets (h : Placing interval list packets limit) (hd : 0 < interval)
    {MaxSize : Nat} (hsize : 0 < MaxSize) {more : List PacketData}
    (hordered : (limit :: more.map fun packet => chronoFloor interval packet.timestamp).Pairwise
      (· ≤ ·)) :
    Placing interval (more.foldl (addPacket interval MaxSize) list) (packets ++ more)
      ((more.map fun packet => chronoFloor interval packet.timestamp).getLast?.getD limit) := by
  induction more generalizing list packets limit with
  | nil => simpa using h
  | cons packet more ih =>
      obtain ⟨hle, htail⟩ := List.pairwise_cons.mp hordered
      have hadd : Placing interval (addPacket interval MaxSize list packet) (packets ++ [packet])
          (chronoFloor interval packet.timestamp) := by
        constructor
        case placed =>
            have hplaced := h.placed.add hd hsize (dvd_chronoFloor interval packet.timestamp)
              (hle _ List.mem_cons_self) (fun hnil => by simp [placedAt, h.empty hnil]) packet
            simpa [placedAt, addPacket] using hplaced
        case empty =>
            intro hnil
            have htimes := timestamps_updateBack packet
              (spaced interval MaxSize list (chronoFloor interval packet.timestamp))
            rw [addPacket] at hnil
            rw [hnil] at htimes
            exact absurd (List.map_eq_nil_iff.mp htimes.symm) (spaced_ne_nil hd hsize _ _)
      have hrest := ih hadd htail
      rw [List.append_assoc, List.singleton_append] at hrest
      rw [List.map_cons, List.getLast?_cons]
      exact hrest

/-- What the buckets of such a histogram have counted. -/
theorem Placing.packetCount_eq {analysed : List (PacketData × Int)}
    (h : Placing interval list (analysed.map Prod.fst) limit) {b : TimeInfo} (hb : b ∈ list) :
    b.packetCount = analysedAt interval analysed b.timestamp := by
  rw [← length_packetsAt_placedAt]
  conv_lhs => rw [h.placed.counts.bucket b hb, packetCount_countAll]
  exact Nat.zero_add _

end

/-! ## Runs -/

/-- All packets so far were analysed promptly. -/
structure Timely (h : History) : Prop where
  topics : TopicsCounted h.stats.mAnalysisResult.topics h.analysed h.clock
  inMinute : ∀ c ∈ h.analysed, chronoFloor minutes c.1.timestamp = chronoFloor minutes c.2
  perMinute : Placing minutes h.stats.mAnalysisResult.packetsPerMinute (h.analysed.map Prod.fst)
    (chronoFloor minutes h.clock)
  perSecond : ∃ limit, Placing seconds h.stats.mAnalysisResult.packetsPerSecond
    (h.analysed.map Prod.fst) limit

theorem Timely.attributed {h : History} (htimely : Timely h) : Attributed h where
  perMinute := by
    intro b hb hkept
    have hcount := htimely.perMinute.packetCount_eq hb
    refine ⟨hcount, hcount.trans ?_⟩
    rw [htimely.topics.topicCount_eq hkept, analysedAt]
    congr 1
    exact List.filter_congr fun c hc => by rw [htimely.inMinute c hc]
  perSecond := by
    obtain ⟨limit, hplacing⟩ := htimely.perSecond
    exact fun b hb => hplacing.packetCount_eq hb

theorem timely_initial (clock : Int) : Timely { clock } where
  topics := topicsCounted_empty clock
  inMinute := by simp
  perMinute := ⟨placed_nil _ _ _, fun _ => rfl⟩
  perSecond := ⟨0, placed_nil _ _ _, fun _ => rfl⟩

/-- Where the seconds begin, of packets that are in order. -/
theorem Placing.start_of_inSecondOrder {list : List TimeInfo} {before packets : List PacketData}
    {limit : Int} (h : Placing seconds list before limit) (horder : InSecondOrder list packets) :
    ∃ start, Placing seconds list before start ∧
      (start :: packets.map fun packet => chronoFloor seconds packet.timestamp).Pairwise
        (· ≤ ·) := by
  rw [InSecondOrder] at horder
  cases hlast : list.getLast? with
  | none =>
      obtain rfl := List.getLast?_eq_none_iff.mp hlast
      refine ⟨((packets.map fun packet => chronoFloor seconds packet.timestamp).head?).getD 0,
        ⟨placed_nil _ _ _, h.empty⟩, ?_⟩
      cases packets with
      | nil => exact List.pairwise_singleton _ _
      | cons packet packets =>
          have horder' : ((packet :: packets).map fun packet =>
              chronoFloor seconds packet.timestamp).Pairwise (· ≤ ·) := horder
          refine List.pairwise_cons.mpr ⟨fun time htime => ?_, horder'⟩
          rcases List.mem_cons.mp htime with rfl | htail
          · exact le_rfl
          · exact (List.pairwise_cons.mp horder').1 time htail
  | some last =>
      rw [hlast] at horder
      refine ⟨timestamp last, ⟨⟨h.placed.counts, h.placed.dvd, ?_⟩, h.empty⟩, horder⟩
      exact fun b hb => le_getLast seconds_pos h.placed.counts.evenly hlast hb

/-- The minutes of the packets of a refresh that analyses them in their minute. -/
theorem InOrder.minutes_ordered {clock : Int} {packets : List PacketData} {readings : Readings}
    (h : InOrder clock packets readings) (hminute : InMinute packets readings) :
    (chronoFloor minutes clock :: (packets.map fun packet =>
      chronoFloor minutes packet.timestamp) ++ [chronoFloor minutes readings.second]).Pairwise
        (· ≤ ·) := by
  have hsame : (packets.map fun packet => chronoFloor minutes packet.timestamp) =
      readings.packets.map (chronoFloor minutes) := by
    have hfst : (packets.zip readings.packets).map Prod.fst = packets :=
      List.map_fst_zip (by rw [h.length_eq])
    have hsnd : (packets.zip readings.packets).map Prod.snd = readings.packets :=
      List.map_snd_zip (by rw [h.length_eq])
    conv_lhs => rw [← hfst]
    conv_rhs => rw [← hsnd]
    rw [List.map_map, List.map_map]
    exact List.map_congr_left hminute
  have hfloors := h.packets_second.map (chronoFloor minutes) fun _ _ => chronoFloor_mono minutes_pos
  rw [hsame]
  simpa using hfloors

/-- The last of some numbers in order is one of them. -/
theorem getLast?_getD_mem (limit : Int) (times : List Int) :
    times.getLast?.getD limit ∈ limit :: times := by
  cases hlast : times.getLast? with
  | none => exact List.mem_cons_self
  | some last => exact List.mem_cons_of_mem _ (List.mem_of_getLast? hlast)

theorem Timely.step {capacity : Nat} {h t : History} {event : Event} (htimely : Timely h)
    (hprompt : Prompt h event) (hstep : Step capacity h event t) : Timely t := by
  have htopics := hstep.topicsCounted htimely.topics
  rcases step_cases hstep with ⟨packet, -, hresult, hanalysed, hclock⟩ | ⟨readings, rfl, horder, rfl⟩
  · constructor
    case topics => exact htopics
    case inMinute => rw [hanalysed]; exact htimely.inMinute
    case perMinute => rw [hresult, hanalysed, hclock]; exact htimely.perMinute
    case perSecond => rw [hresult, hanalysed]; exact htimely.perSecond
  · obtain ⟨hminute, hsecond⟩ := hprompt
    have hfst : (h.stats.drained.zip readings.packets).map Prod.fst = h.stats.drained :=
      List.map_fst_zip (by rw [horder.length_eq])
    constructor
    case topics => exact htopics
    case inMinute =>
        rw [List.forall_mem_append]
        exact ⟨htimely.inMinute, hminute⟩
    case perMinute =>
        have hordered := horder.minutes_ordered hminute
        obtain ⟨hfront, -, hlast⟩ := List.pairwise_append.mp hordered
        have hadd := htimely.perMinute.addPackets minutes_pos (by decide : 0 < 60 * 24) hfront
        have hspace := hadd.space minutes_pos (by decide : 0 < 60 * 24)
          (Int.dvd_sub (dvd_chronoFloor minutes readings.minute) (Int.dvd_refl minutes))
        have hle := hlast _ (getLast?_getD_mem _ _) _ (List.mem_singleton.mpr rfl)
        have hminutes := chronoFloor_mono minutes_pos horder.minute_le
        rw [packetsPerMinute_refreshed, List.map_append, hfst]
        refine ⟨hspace.placed.mono (max_le hle ?_), hspace.empty⟩
        simp only [minutes] at *
        omega
    case perSecond =>
        obtain ⟨limit, hplacing⟩ := htimely.perSecond
        obtain ⟨start, hstart, hordered⟩ := hplacing.start_of_inSecondOrder hsecond
        have hadd := hstart.addPackets seconds_pos (by decide : 0 < 60 * 2) hordered
        rw [packetsPerSecond_refreshed, List.map_append, hfst]
        exact ⟨_, hadd.space seconds_pos (by decide)
          (Int.dvd_sub (dvd_chronoFloor seconds readings.second) (Int.dvd_refl seconds))⟩

/-- In every run whose refreshes analyse all packets in their minute and in the order of their
seconds, the buckets count exactly the packets of their time. No publish and no refresh loops
for ever. -/
theorem attributed_of_prompt (capacity : Nat) (clock : Int) {run : List (Event × History)}
    (hrun : IsRun (Step capacity) { clock } run) (hprompt : AllSteps Prompt { clock } run) :
    AllStates Attributed run ∧
      ∀ s : Statistics,
        (0 < capacity → ∀ packet,
          ∃ stats, Ends (fun fuel => s.publish capacity fuel packet) stats) ∧
        ∀ readings, ∃ stats, Ends (fun fuel => s.refreshInternal fuel readings) stats := by
  have htimely := hrun.invariant_of_allSteps
    (fun h event t htimely hprompt hstep => Timely.step htimely hprompt hstep)
    (timely_initial clock) hprompt
  refine ⟨fun x hx => (htimely x hx).attributed, fun s => ⟨?_, fun readings => ?_⟩⟩
  · exact fun hcapacity packet => ends_publish hcapacity s packet
  · exact ⟨_, ends_refreshInternal s readings⟩

/-- Packets of two topics, in a few seconds of one minute and in the first of the next. -/
def promptly : List Doing :=
  [.queue ⟨[0], 5, 60500000000, .qos0⟩, .queue ⟨[1], 3, 60700000000, .qos1⟩,
    .queue ⟨[0], 7, 61200000000, .qos0⟩, .refreshAt 62000000000,
    .queue ⟨[1], 5, 62400000000, .qos2⟩, .queue ⟨[0], 5, 64100000000, .qos0⟩,
    .refreshAt 64500000000, .queue ⟨[0], 2, 120000000000, .qos0⟩, .refreshAt 120500000000]

theorem attributed_promptly : AllStates Attributed
    (History.run { clock := 60000000000 } promptly) :=
  (@attributed_of_prompt 4 60000000000 (History.run { clock := 60000000000 } promptly)
    (isRun_run (by decide))
    ⟨trivial, trivial, trivial, ⟨by decide +kernel, by decide +kernel⟩, trivial, trivial,
      ⟨by decide +kernel, by decide +kernel⟩, trivial, ⟨by decide +kernel, by decide +kernel⟩,
      trivial⟩).1

/-- Two threads publish around the turn of a minute, and the later packet is queued first. Both
count in the last bucket. -/
theorem not_attributed : ¬ ∀ (capacity : Nat) (clock : Int) (run : List (Event × History)),
    IsRun (Step capacity) { clock } run → AllStates Attributed run := by
  intro hall
  have hstates := hall 4 0
    (History.run { clock := 0 } [.queue ⟨[0], 5, 60000000000, .qos0⟩,
      .queue ⟨[0], 5, 59000000000, .qos0⟩, .refreshAt 60000000000])
    (isRun_run (by decide))
  have hlast := hstates _ (List.mem_cons_of_mem _ (List.mem_cons_of_mem _ List.mem_cons_self))
  have hcount := (hlast.perMinute ⟨60000000000, 2, 10⟩ (by decide +kernel) (by decide +kernel)).1
  revert hcount
  decide +kernel

end NioevMqtt.Statistics
