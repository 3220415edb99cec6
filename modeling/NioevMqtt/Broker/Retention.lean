-- SUMMARY: Retention of topics: over every run the topics of the last hour keep their buckets exactly as long as no refresh finds one of them with a first bucket that is more than 65 minutes old.
import NioevMqtt.Broker.Statistics

/-!
# Retention of topics

A refresh erases a topic when its first bucket is more than 65 minutes old. The buckets of a
topic are only trimmed when it gets packets, so the first one says little about the last.
-/

namespace NioevMqtt.Statistics

open Loops Series Runs
open TimeBucket PacketBucket

/-! ## The property -/

/-- A topic with a packet analysed in the last 60 minutes is there, its buckets have counted the
packets of their minutes, and none of the last 60 minutes is missing. -/
def Retained (h : History) : Prop :=
  ∀ c ∈ h.analysed, h.clock - 60 * minutes < c.2 →
    ∃ list ∈ h.stats.mAnalysisResult.topics.lookup c.1.topic,
      (∀ b ∈ list, b = countAll (packetsAt (topicPackets c.1.topic h.analysed) b.timestamp)
        (ofTimestamp b.timestamp)) ∧
      ∀ c' ∈ topicPackets c.1.topic h.analysed, h.clock - 60 * minutes < c'.2 →
        c'.2 ∈ timestamps list

/-! ## The condition -/

/-- Where the first bucket of a topic begins after packets are analysed at some times: the list
keeps the last sixty minutes from the last of them. -/
def oldest (first : Option Int) (times : List Int) : Option Int :=
  times.foldl (fun first now =>
    let minute := chronoFloor minutes now
    some (max (first.getD minute) (minute - 59 * minutes))) first

def firstBucket (topics : TopicInfos) (topic : ByteString) : Option Int :=
  (topics.lookup topic).bind fun list => (timestamps list).head?

/-- The times at which packets of a topic are analysed. -/
def timesOf (topic : ByteString) (packets : List (PacketData × Int)) : List Int :=
  (packets.filter fun c => c.1.topic = topic).map Prod.snd

/-- The first bucket of a topic is more than 65 minutes old when the refresh comes to it. -/
def Expires (h : History) (readings : Readings) (topic : ByteString) : Prop :=
  ∃ first ∈ oldest (firstBucket h.stats.mAnalysisResult.topics topic)
      (timesOf topic (h.stats.drained.zip readings.packets)),
    first + 65 * minutes < readings.topics topic

/-- No topic that had a packet analysed in the last 60 minutes expires. -/
def Spares (h : History) : Event → Prop
  | .publish _ => True
  | .refresh readings => ∀ c ∈ h.analysed ++ h.stats.drained.zip readings.packets,
    readings.second - 60 * minutes < c.2 → ¬ Expires h readings c.1.topic

/-! ## Trimming -/

section

variable {list : List TopicInfo} {counted : List (PacketData × Int)} {limit time : Int}

/-- A list of evenly spaced times is known by its last time and its length. -/
theorem head?_eq {times : List Int} (heven : Evenly minutes times) {last : Int}
    (hlast : times.getLast? = some last) :
    times.head? = some (last - (times.length - 1) * minutes) := by
  cases times with
  | nil => cases hlast
  | cons first times =>
      rw [heven.getLast?_cons] at hlast
      have heq := Option.some.inj hlast
      rw [List.head?_cons, List.length_cons, Nat.cast_succ, Int.add_sub_cancel, ← heq,
        Int.add_sub_cancel]

/-- Where a list begins that is extended to a time and trimmed. -/
theorem head?_spaced (h : Placed minutes list counted limit) (htime : minutes ∣ time)
    (hle : limit ≤ time) :
    (timestamps (spaced minutes 60 list time)).head? =
      some (max ((timestamps list).head?.getD time) (time - 59 * minutes)) := by
  obtain ⟨last, hlast, hlast_time⟩ := getLast?_grown_of_le minutes_pos htime h.dvd
    fun b hb => (h.le_limit b hb).trans hle
  have heven := evenly_grown h.counts.evenly time
  have hgrown : (timestamps (grown minutes list time)).getLast? = some time := by
    rw [timestamps, List.getLast?_map, hlast, Option.map_some, hlast_time]
  have hspaced : (timestamps (spaced minutes 60 list time)).getLast? = some time := by
    rw [timestamps, List.getLast?_map, getLast?_spaced (by decide), hlast, Option.map_some,
      hlast_time]
  have hfirst : (timestamps (grown minutes list time)).head? =
      some ((timestamps list).head?.getD time) := by
    cases list with
    | nil => simp [grown, timestamps]
    | cons first list =>
        obtain ⟨times, htimes⟩ := exists_grown_eq minutes (first :: list) time
        rw [htimes]
        rfl
  have hlength : (timestamps (spaced minutes 60 list time)).length =
      min 60 (timestamps (grown minutes list time)).length := by
    rw [timestamps, List.length_map, spaced, length_rtake, timestamps, List.length_map]
  have hgap := (head?_eq heven hgrown).symm.trans hfirst
  have hgap := Option.some.inj hgap
  rw [head?_eq (evenly_spaced h.counts.evenly 60 time) hspaced, hlength]
  congr 1
  simp only [minutes] at *
  omega

/-- A time of the last sixty minutes that the list has stays in the list. -/
theorem mem_timestamps_spaced (h : Placed minutes list counted limit) (htime : minutes ∣ time)
    (hle : limit ≤ time) {minute : Int} (hmem : minute ∈ timestamps list)
    (hrecent : time - 60 * minutes < minute) :
    minute ∈ timestamps (spaced minutes 60 list time) := by
  have hhead := head?_spaced h htime hle
  have hfirst : (timestamps list).head?.getD time ≤ minute := by
    have hpairwise := h.counts.evenly.pairwise_lt minutes_pos
    cases list with
    | nil => cases hmem
    | cons first list =>
        rcases List.mem_cons.mp hmem with heq | htail
        · exact heq.ge
        · exact ((List.pairwise_cons.mp hpairwise).1 minute htail).le
  have hlast : time - 59 * minutes ≤ minute := by
    obtain ⟨b, hb, rfl⟩ := List.mem_map.mp hmem
    obtain ⟨k, hk⟩ := Int.dvd_sub htime (h.dvd b hb)
    simp only [minutes] at *
    omega
  -- What is trimmed is before the first bucket that stays.
  obtain ⟨front, hfront⟩ := spaced_suffix minutes 60 list time
  have hsplit : timestamps (grown minutes list time) =
      timestamps front ++ timestamps (spaced minutes 60 list time) := by
    rw [← hfront]
    exact List.map_append
  have hgrown : minute ∈ timestamps (grown minutes list time) :=
    (timestamps_grown minutes list time).subset hmem
  rw [hsplit] at hgrown
  rcases List.mem_append.mp hgrown with htrimmed | hkept
  · have hpairwise := (evenly_grown h.counts.evenly time).pairwise_lt minutes_pos
    rw [hsplit, List.pairwise_append] at hpairwise
    have hlt := hpairwise.2.2 minute htrimmed _ (List.mem_of_head? hhead)
    omega
  · exact hkept

end

/-! ## Topics -/

section

variable {topics : TopicInfos} {analysed : List (PacketData × Int)} {clock later : Int}

/-- The topics have the buckets of the last sixty minutes, and a topic that is not there was not
analysed in them. -/
structure Covers (topics : TopicInfos) (analysed : List (PacketData × Int)) (clock : Int) :
    Prop where
  present : ∀ topic list, topics.lookup topic = some list →
    ∀ c ∈ topicPackets topic analysed, clock - 60 * minutes < c.2 → c.2 ∈ timestamps list
  absent : ∀ topic, topics.lookup topic = none →
    ∀ c ∈ topicPackets topic analysed, c.2 ≤ clock - 60 * minutes

theorem Retained.covers {h : History} (hretained : Retained h) :
    Covers h.stats.mAnalysisResult.topics h.analysed h.clock := by
  have hrecent {topic : ByteString} {c : PacketData × Int}
      (hc : c ∈ topicPackets topic h.analysed) (hlt : h.clock - 60 * minutes < c.2) :
      ∃ list, h.stats.mAnalysisResult.topics.lookup topic = some list ∧ c.2 ∈ timestamps list := by
    obtain ⟨c, hfilter, rfl⟩ := List.mem_map.mp hc
    obtain ⟨hmem, htopic⟩ := List.mem_filter.mp hfilter
    have htopic : c.1.topic = topic := by simpa using htopic
    subst htopic
    have hfloor := chronoFloor_le minutes_pos c.2
    obtain ⟨list, hlist, -, hminutes⟩ := hretained c hmem (lt_of_lt_of_le hlt hfloor)
    exact ⟨list, hlist, hminutes _ hc hlt⟩
  constructor
  case present =>
      intro topic list hlist c hc hlt
      obtain ⟨list', hlist', hmem⟩ := hrecent hc hlt
      obtain rfl := Option.some.inj (hlist.symm.trans hlist')
      exact hmem
  case absent =>
      intro topic hnone c hc
      by_contra hlt
      obtain ⟨list, hlist, -⟩ := hrecent hc (not_le.mp hlt)
      rw [hnone] at hlist
      cases hlist

theorem Covers.mono (h : Covers topics analysed clock) (hle : clock ≤ later) :
    Covers topics analysed later where
  present := fun topic list hlist c hc hlt => h.present topic list hlist c hc (by omega)
  absent := fun topic hnone c hc => (h.absent topic hnone c hc).trans (by omega)

theorem Covers.addReading (h : Covers topics analysed clock)
    (hcounted : TopicsCounted topics analysed clock) (c : PacketData × Int) (hle : clock ≤ c.2) :
    Covers (addReading topics c) (analysed ++ [c]) c.2 := by
  have hfloor := chronoFloor_mono minutes_pos hle
  have hself := lookup_addReading_self topics c
  have hmono := h.mono hle
  constructor
  case present =>
      intro topic list hlist c' hc' hrecent
      by_cases htopic : topic = c.1.topic
      · subst htopic
        obtain rfl := Option.some.inj (hself.symm.trans hlist)
        obtain ⟨hplaced, hnew⟩ := hcounted.placed_getD c.1.topic
        rw [timestamps_updateBack]
        rw [topicPackets_concat_self] at hc'
        rcases List.mem_append.mp hc' with hold | hthis
        · have hbefore := chronoFloor_le minutes_pos c.2
          refine mem_timestamps_spaced hplaced (dvd_chronoFloor _ _) hfloor ?_ (by omega)
          cases hlookup : topics.lookup c.1.topic with
          | none =>
              have hearlier := hmono.absent _ hlookup c' hold
              omega
          | some list => exact hmono.present _ list hlookup c' hold hrecent
        · obtain ⟨-, last, hlast, htime⟩ := hplaced.space minutes_pos (by decide : 0 < 60)
            (dvd_chronoFloor _ _) hfloor fun hnil c' hc' => (hnew hnil c' hc').trans_le hfloor
          have hmem := List.mem_map_of_mem (f := timestamp) (List.mem_of_getLast? hlast)
          rw [htime] at hmem
          rw [List.mem_singleton.mp hthis]
          exact hmem
      · rw [lookup_addReading_ne topics htopic] at hlist
        rw [topicPackets_concat_ne htopic] at hc'
        exact hmono.present topic list hlist c' hc' hrecent
  case absent =>
      intro topic hnone
      have htopic : topic ≠ c.1.topic := by
        rintro rfl
        rw [hself] at hnone
        cases hnone
      rw [lookup_addReading_ne topics htopic] at hnone
      rw [topicPackets_concat_ne htopic]
      exact hmono.absent topic hnone

theorem Covers.addReadings (h : Covers topics analysed clock)
    (hcounted : TopicsCounted topics analysed clock) {packets : List (PacketData × Int)}
    (hordered : (clock :: packets.map Prod.snd ++ [later]).Pairwise (· ≤ ·)) :
    Covers (packets.foldl Statistics.addReading topics) (analysed ++ packets) later := by
  induction packets generalizing topics analysed clock with
  | nil =>
      rw [List.append_nil]
      exact h.mono (by simpa using hordered)
  | cons c packets ih =>
      obtain ⟨hle, htail⟩ := List.pairwise_cons.mp hordered
      have hle := hle c.2 List.mem_cons_self
      have hrest := ih (h.addReading hcounted c hle) (hcounted.addReading c hle) htail
      rwa [List.append_assoc] at hrest

/-- Where the list of a topic begins after one more packet. -/
theorem firstBucket_addReading (hcounted : TopicsCounted topics analysed clock)
    (c : PacketData × Int) (hle : clock ≤ c.2) (topic : ByteString) :
    firstBucket (addReading topics c) topic =
      oldest (firstBucket topics topic) (timesOf topic [c]) := by
  by_cases htopic : topic = c.1.topic
  · subst htopic
    obtain ⟨hplaced, -⟩ := hcounted.placed_getD c.1.topic
    have hhead := head?_spaced hplaced (dvd_chronoFloor minutes c.2)
      (chronoFloor_mono minutes_pos hle)
    have hfirst : firstBucket topics c.1.topic =
        (timestamps ((topics.lookup c.1.topic).getD [])).head? := by
      rw [firstBucket]
      cases topics.lookup c.1.topic with
      | none => rfl
      | some list => rfl
    rw [hfirst, firstBucket, lookup_addReading_self, Option.bind_some, timestamps_updateBack, hhead]
    simp [timesOf, oldest]
  · rw [firstBucket, lookup_addReading_ne topics htopic]
    simp [timesOf, Ne.symm htopic, oldest, firstBucket]

theorem firstBucket_addReadings (hcounted : TopicsCounted topics analysed clock)
    {packets : List (PacketData × Int)}
    (hordered : (clock :: packets.map Prod.snd ++ [later]).Pairwise (· ≤ ·))
    (topic : ByteString) :
    firstBucket (packets.foldl addReading topics) topic =
      oldest (firstBucket topics topic) (timesOf topic packets) := by
  induction packets generalizing topics analysed clock with
  | nil => rfl
  | cons c packets ih =>
      obtain ⟨hle, htail⟩ := List.pairwise_cons.mp hordered
      have hle := hle c.2 List.mem_cons_self
      rw [List.foldl_cons, ih (hcounted.addReading c hle) htail,
        firstBucket_addReading hcounted c hle, oldest, oldest, oldest, ← List.foldl_append, timesOf,
        timesOf, ← List.map_append, ← List.filter_append]
      rfl

end

/-! ## Runs -/

/-- The topics of the packets of a refresh are there once they are analysed. -/
theorem lookup_addReadings_isSome (topics : TopicInfos) {packets : List (PacketData × Int)}
    {topic : ByteString}
    (h : (topics.lookup topic).isSome ∨ ∃ c ∈ packets, c.1.topic = topic) :
    ((packets.foldl addReading topics).lookup topic).isSome := by
  induction packets generalizing topics with
  | nil => simpa using h
  | cons c packets ih =>
      refine ih _ ?_
      by_cases htopic : topic = c.1.topic
      · subst htopic
        exact .inl (by rw [lookup_addReading_self]; rfl)
      · rw [lookup_addReading_ne topics htopic]
        refine h.imp_right ?_
        rintro ⟨c', hc', rfl⟩
        rcases List.mem_cons.mp hc' with rfl | htail
        · exact absurd rfl htopic
        · exact ⟨c', htail, rfl⟩

section

variable {h : History} {readings : Readings}

/-- The history after a refresh. -/
def History.refresh (h : History) (readings : Readings) : History where
  stats := h.stats.refreshed readings
  analysed := h.analysed ++ h.stats.drained.zip readings.packets
  clock := readings.second

theorem expired_iff (now : Int) (list : List TopicInfo) :
    expired now list = true ↔ ∃ first ∈ (timestamps list).head?, first + 65 * minutes < now := by
  cases list with
  | nil => simp [expired, timestamps]
  | cons first list =>
      have htime : (timestamps (first :: list)).head? = some first.timestamp := rfl
      simp [expired, htime]

/-- A refresh erases the topics that expire, and no others. -/
theorem lookup_refresh (hcounted : TopicsCounted h.stats.mAnalysisResult.topics h.analysed h.clock)
    (horder : InOrder h.clock h.stats.drained readings) {topic : ByteString} :
    (h.refresh readings).stats.mAnalysisResult.topics.lookup topic = none ↔
      ((h.stats.drained.zip readings.packets).foldl addReading
        h.stats.mAnalysisResult.topics).lookup topic = none ∨ Expires h readings topic := by
  have hfirst := firstBucket_addReadings hcounted horder.zip_ordered topic
  have htopics : (h.refresh readings).stats.mAnalysisResult.topics = eraseExpired readings.topics
      ((h.stats.drained.zip readings.packets).foldl addReading h.stats.mAnalysisResult.topics) :=
    rfl
  rw [htopics, lookup_eraseExpired, Expires, ← hfirst, firstBucket]
  cases ((h.stats.drained.zip readings.packets).foldl addReading
      h.stats.mAnalysisResult.topics).lookup topic with
  | none => simp
  | some list =>
      rw [Option.bind_some, ← expired_iff]
      simp

/-- A refresh retains the topics of the last hour exactly if none of them expires. -/
theorem retained_refresh_iff
    (hcounted : TopicsCounted h.stats.mAnalysisResult.topics h.analysed h.clock)
    (hretained : Retained h) (horder : InOrder h.clock h.stats.drained readings) :
    Retained (h.refresh readings) ↔ Spares h (.refresh readings) := by
  constructor
  · intro hafter c hc hrecent hexpires
    obtain ⟨list, hlist, -⟩ := hafter c hc hrecent
    rw [(lookup_refresh hcounted horder).mpr (.inr hexpires)] at hlist
    cases hlist
  · intro hspares c hc hrecent
    have hafter : readings.second - 60 * minutes < c.2 := hrecent
    have hclock : h.clock ≤ readings.second :=
      (List.pairwise_cons.mp horder.packets_second).1 _ (by simp)
    have hsome : (((h.stats.drained.zip readings.packets).foldl addReading
        h.stats.mAnalysisResult.topics).lookup c.1.topic).isSome := by
      refine lookup_addReadings_isSome _ ?_
      rcases List.mem_append.mp hc with hold | hnew
      · obtain ⟨list, hlist, -⟩ := hretained c hold (by omega)
        rw [Option.mem_def.mp hlist]
        exact .inl rfl
      · exact .inr ⟨c, hnew, rfl⟩
    cases hlookup : (h.refresh readings).stats.mAnalysisResult.topics.lookup c.1.topic with
    | none =>
        rcases (lookup_refresh hcounted horder).mp hlookup with hnone | hexpires
        · rw [hnone] at hsome
          cases hsome
        · exact absurd hexpires (hspares c hc hrecent)
    | some list =>
        have hplaced := (horder.topicsCounted hcounted).placed c.1.topic list hlookup
        have hbefore := hlookup
        rw [History.refresh, refreshed, lookup_eraseExpired] at hbefore
        have hcovers := hretained.covers.addReadings hcounted horder.zip_ordered
        exact ⟨list, rfl, hplaced.counts.bucket,
          hcovers.present _ list (Option.filter_eq_some_iff.mp hbefore).1⟩

end

theorem retained_step_iff {capacity : Nat} {h t : History} {event : Event}
    (hcounted : TopicsCounted h.stats.mAnalysisResult.topics h.analysed h.clock)
    (hretained : Retained h) (hstep : Step capacity h event t) :
    Retained t ↔ Spares h event := by
  rcases step_cases hstep with ⟨packet, rfl, hresult, hanalysed, hclock⟩ | ⟨readings, rfl, horder, rfl⟩
  · refine iff_of_true ?_ trivial
    rw [Retained, hresult, hanalysed, hclock]
    exact hretained
  · exact retained_refresh_iff hcounted hretained horder

/-- In every run the topics of the last hour are retained exactly as long as none of them expires. -/
theorem retained_iff_spares (capacity : Nat) (clock : Int) {run : List (Event × History)}
    (hrun : IsRun (Step capacity) { clock } run) :
    AllStates Retained run ↔ AllSteps Spares { clock } run :=
  hrun.allStates_iff_allSteps
    (fun _ _ _ hcounted _ _ hstep => hstep.topicsCounted hcounted)
    (fun _ _ _ hcounted hretained hstep => retained_step_iff hcounted hretained hstep)
    (topicsCounted_empty clock) (fun _ hc => absurd hc List.not_mem_nil)

/-- A topic is published to twice within an hour, and erased after an hour and a half without
packets. -/
theorem retained_iff_spares_erased :
    AllStates Retained (History.run { clock := 0 } [.queue ⟨[0], 5, 0, .qos0⟩, .refreshAt 0,
      .queue ⟨[0], 5, 0, .qos0⟩, .refreshAt (30 * 60000000000), .refreshAt (120 * 60000000000)]) ↔
    AllSteps Spares { clock := 0 } (History.run { clock := 0 } [.queue ⟨[0], 5, 0, .qos0⟩,
      .refreshAt 0, .queue ⟨[0], 5, 0, .qos0⟩, .refreshAt (30 * 60000000000),
      .refreshAt (120 * 60000000000)]) :=
  retained_iff_spares 4 0 (isRun_run (by decide))

/-! ## A topic that is erased too early -/

/-- A refresh at least every second. -/
def EverySecond (h : History) : Event → Prop
  | .publish _ => True
  | .refresh readings => readings.second ≤ h.clock + seconds

/-- Some refreshes without packets, one every second. -/
def idle : Int → Nat → List Doing
  | _, 0 => []
  | clock, n + 1 => .refreshAt (clock + seconds) :: idle (clock + seconds) n

/-- No packets wait, and a topic has a list. -/
structure Waits (h : History) (topic : ByteString) (list : List TopicInfo)
    (analysed : List (PacketData × Int)) (clock : Int) : Prop where
  drained : h.stats.drained = []
  lookup : h.stats.mAnalysisResult.topics.lookup topic = some list
  analysed : h.analysed = analysed
  clock : h.clock = clock

section

variable {h : History} {topic : ByteString} {list : List TopicInfo}
  {analysed : List (PacketData × Int)} {clock : Int}

theorem expired_mono {now later : Int} (hle : now ≤ later) (h : expired now list = true) :
    expired later list = true := by
  rw [expired_iff] at h ⊢
  obtain ⟨first, hfirst, hlt⟩ := h
  exact ⟨first, hfirst, hlt.trans_le hle⟩

theorem Waits.lookup_refreshAt (hwaits : Waits h topic list analysed clock) (now : Int) :
    (h.after (.refreshAt now)).2.stats.mAnalysisResult.topics.lookup topic =
      (some list).filter fun list => !expired now list := by
  simp only [History.after, refreshed, hwaits.drained, List.zip_nil_left, List.foldl_nil]
  rw [lookup_eraseExpired, hwaits.lookup]
  rfl

theorem Waits.analysed_refreshAt (hwaits : Waits h topic list analysed clock) (now : Int) :
    (h.after (.refreshAt now)).2.analysed = analysed := by
  simp [History.after, hwaits.drained, hwaits.analysed]

theorem Waits.refreshAt (hwaits : Waits h topic list analysed clock) {now : Int}
    (hexpired : expired now list = false) :
    Waits (h.after (.refreshAt now)).2 topic list analysed now where
  drained := rfl
  lookup := by
    rw [hwaits.lookup_refreshAt]
    simp [hexpired]
  analysed := hwaits.analysed_refreshAt now
  clock := rfl

/-- A further packet of the topic, and a refresh. -/
theorem Waits.queue (hwaits : Waits h topic list analysed clock) (packet : PacketData) (now : Int)
    (htopic : packet.topic = topic) {next : List TopicInfo}
    (hnext : next = updateBack (count packet) (spaced minutes 60 list (chronoFloor minutes now)))
    (hexpired : expired now next = false) :
    Waits (h.result [.queue packet, .refreshAt now]) topic next (analysed ++ [(packet, now)])
      now := by
  have hdrained : (h.after (.queue packet)).2.stats.drained = [packet] := by
    change h.stats.mAnalysisData ++ (h.stats.mCollectedData ++ [packet]) = [packet]
    rw [← List.append_assoc]
    exact congrArg (· ++ [packet]) hwaits.drained
  constructor
  case drained => rfl
  case lookup =>
      change (eraseExpired (fun _ => now) (((h.after (.queue packet)).2.stats.drained.zip
        (List.replicate (h.after (.queue packet)).2.stats.drained.length now)).foldl addReading
          h.stats.mAnalysisResult.topics)).lookup topic = some next
      rw [hdrained, lookup_eraseExpired]
      change ((addReading h.stats.mAnalysisResult.topics (packet, now)).lookup topic).filter _ = _
      subst htopic
      have hself : (addReading h.stats.mAnalysisResult.topics (packet, now)).lookup packet.topic =
          some (updateBack (count packet) (spaced minutes 60
            ((h.stats.mAnalysisResult.topics.lookup packet.topic).getD [])
              (chronoFloor minutes now))) := lookup_addReading_self _ _
      rw [hself, hwaits.lookup, Option.getD_some, ← hnext]
      simp [hexpired]
  case analysed =>
      change h.analysed ++ (h.after (.queue packet)).2.stats.drained.zip
        (List.replicate (h.after (.queue packet)).2.stats.drained.length now) = _
      rw [hdrained, hwaits.analysed]
      rfl
  case clock => rfl

/-- Until it expires a topic stays as it is. -/
theorem Waits.idle (hwaits : Waits h topic list analysed clock) (n : Nat)
    (hexpired : expired (clock + n * seconds) list = false) :
    Waits (h.result (idle clock n)) topic list analysed (clock + n * seconds) := by
  induction n generalizing h clock with
  | zero => simpa [Statistics.idle, History.result] using hwaits
  | succ n ih =>
      have hsum : clock + (n + 1 : Nat) * seconds = clock + seconds + n * seconds := by
        rw [Nat.cast_succ, Int.add_mul, Int.one_mul]
        omega
      rw [hsum] at hexpired ⊢
      have hnow : expired (clock + seconds) list = false := by
        rw [← Bool.not_eq_true] at hexpired ⊢
        have hnonneg := Int.mul_nonneg (Int.natCast_nonneg n) seconds_pos.le
        exact fun htrue => hexpired (expired_mono (by omega) htrue)
      exact ih (hwaits.refreshAt hnow) hexpired

/-- The history is possible with room for some packets, and has a refresh at least every second. -/
def Regular (h : History) (doings : List Doing) : Prop :=
  h.AllPossible 4 doings ∧ AllSteps EverySecond h (h.run doings)

theorem Regular.append {doings rest : List Doing} (hfirst : Regular h doings)
    (hrest : Regular (h.result doings) rest) : Regular h (doings ++ rest) := by
  refine ⟨History.allPossible_append.mpr ⟨hfirst.1, hrest.1⟩, ?_⟩
  rw [History.run_append, allSteps_append, History.last_run]
  exact ⟨hfirst.2, hrest.2⟩

theorem Waits.regular_queue (hwaits : Waits h topic list analysed clock) (packet : PacketData)
    (now : Int) (hle : clock ≤ now) (hsecond : now ≤ clock + seconds) :
    Regular h [.queue packet, .refreshAt now] := by
  have hempty : h.stats.mCollectedData = [] := (List.append_eq_nil_iff.mp hwaits.drained).2
  have hclock := hwaits.clock
  subst hclock
  have hroom : h.stats.mCollectedData.length < 4 := by
    rw [hempty]
    decide
  exact ⟨⟨hroom, hle, trivial⟩, trivial, hsecond, trivial⟩

theorem regular_idle (h : History) (n : Nat) : Regular h (idle h.clock n) := by
  induction n generalizing h with
  | zero => exact ⟨trivial, trivial⟩
  | succ n ih =>
      obtain ⟨hpossible, hsteps⟩ := ih (h.after (.refreshAt (h.clock + seconds))).2
      have hle : h.clock ≤ h.clock + seconds := by
        simp only [seconds]
        omega
      exact ⟨⟨hle, hpossible⟩, le_rfl, hsteps⟩

end

/-- A topic gets a packet and half an hour later another. -/
def halfHour : List Doing :=
  [.queue ⟨[0], 5, 0, .qos0⟩, .refreshAt 0] ++ idle 0 1800 ++
    [.queue ⟨[0], 5, 0, .qos0⟩, .refreshAt (1801 * seconds)] ++ idle (1801 * seconds) 2099

theorem regular_halfHour : Regular { clock := 0 } halfHour ∧ ∃ list,
    Waits (History.result { clock := 0 } halfHour) [0] list
      [(⟨[0], 5, 0, .qos0⟩, 0), (⟨[0], 5, 0, .qos0⟩, 1801 * seconds)] (3900 * seconds) ∧
    expired (3901 * seconds) list = true := by
  have hfirst : Waits (History.result { clock := 0 } [.queue ⟨[0], 5, 0, .qos0⟩, .refreshAt 0]) [0]
      [⟨5, 1, [1, 0, 0], 0⟩] [(⟨[0], 5, 0, .qos0⟩, 0)] 0 :=
    ⟨by decide +kernel, by decide +kernel, by decide +kernel, rfl⟩
  have hidle := hfirst.idle 1800 (by decide +kernel)
  rw [← History.result_append] at hidle
  have hsecond := hidle.queue ⟨[0], 5, 0, .qos0⟩ (1801 * seconds) rfl rfl (by decide +kernel)
  rw [← History.result_append] at hsecond
  have hlast := hsecond.idle 2099 (by decide +kernel)
  rw [← History.result_append] at hlast
  have hstart : Regular { clock := 0 } [.queue ⟨[0], 5, 0, .qos0⟩, .refreshAt 0] :=
    ⟨by decide, trivial, (by decide : (0 : Int) ≤ 0 + seconds), trivial⟩
  have hwait := hstart.append (hfirst.clock ▸ regular_idle _ 1800)
  have hagain := hwait.append (hidle.regular_queue ⟨[0], 5, 0, .qos0⟩ (1801 * seconds)
    (by decide +kernel) (by decide +kernel))
  have hall := hagain.append (hsecond.clock ▸ regular_idle _ 2099)
  have hsum : 1801 * seconds + (2099 : Nat) * seconds = 3900 * seconds := by decide +kernel
  rw [hsum] at hlast
  exact ⟨hall, _, hlast, by decide +kernel⟩

/-- It is erased while the second packet is not an hour old. -/
theorem not_retained : ¬ ∀ (capacity : Nat) (clock : Int) (run : List (Event × History)),
    IsRun (Step capacity) { clock } run → AllSteps EverySecond { clock } run →
      AllStates Retained run := by
  intro hall
  obtain ⟨hregular, list, hwaits, hexpired⟩ := regular_halfHour
  have hclock : (History.result { clock := 0 } halfHour).clock = 3900 * seconds := hwaits.clock
  have hrefresh : Regular (History.result { clock := 0 } halfHour) [.refreshAt (3901 * seconds)] := by
    refine ⟨⟨?_, trivial⟩, ?_, trivial⟩
    · change _ ≤ 3901 * seconds
      rw [hclock]
      decide +kernel
    · change 3901 * seconds ≤ _ + seconds
      rw [hclock]
      decide +kernel
  have hrun := hregular.append hrefresh
  have hstates := hall 4 0 _ (isRun_run hrun.1) hrun.2
  rw [History.run_append] at hstates
  have hlast := hstates _ (List.mem_append_right _ List.mem_cons_self)
  have hrecent := hlast (⟨[0], 5, 0, .qos0⟩, 1801 * seconds)
  rw [hwaits.analysed_refreshAt, hwaits.lookup_refreshAt, Option.filter_some, hexpired] at hrecent
  obtain ⟨list, hlist, -⟩ := hrecent (by decide +kernel) (by decide +kernel)
  cases hlist

end NioevMqtt.Statistics
