-- SUMMARY: The statistics of the broker: packets are queued as they are published and analysed by refreshes, which count them for each topic by the clock and in the histograms by their own timestamps.
import NioevMqtt.Broker.Histograms
import NioevMqtt.Library.Runs
import NioevMqtt.Library.Outcome
import Mathlib.Data.List.AList

/-!
# Statistics

Publishing threads note each packet in a queue. A refresh, under the lock of the
statistics, drains the queue, counts the packets in the lists of their topics and in the
histograms, and erases the topics that have expired. What it asks of the rest of the broker
and what it publishes is left out.
-/

namespace NioevMqtt

open Loops Series

structure TopicInfo where
  cummulativePacketSize : Nat := 0
  packetCount : Nat := 0
  qosPacketCounts : List Nat := [0, 0, 0]
  timestamp : Int
deriving DecidableEq

instance : PacketBucket TopicInfo where
  default := { timestamp := 0 }
  timestamp := TopicInfo.timestamp
  setTimestamp := fun timestamp bucket => { bucket with timestamp }
  timestamp_setTimestamp := fun _ _ => rfl
  count := fun packet bucket => { bucket with
    cummulativePacketSize := bucket.cummulativePacketSize + packet.payloadLength
    packetCount := bucket.packetCount + 1
    qosPacketCounts := bucket.qosPacketCounts.modify packet.qos.toUInt8.toNat (· + 1) }
  timestamp_count := fun _ _ => rfl

/-- `std::unordered_map<std::string, std::vector<TopicInfo>>`. -/
abbrev TopicInfos := AList fun _ : ByteString => List TopicInfo

/-- `AnalysisResults`, as far as they come from the packets. -/
structure Statistics.AnalysisResults where
  topics : TopicInfos := ∅
  totalPacketCount : Nat := 0
  packetsPerMinute : List TimeInfo := []
  packetsPerSecond : List TimeInfo := []

structure Statistics where
  /-- The queue the publishing threads push to. -/
  mCollectedData : List PacketData := []
  mTotalPacketCountCounter : Nat := 0
  mAnalysisData : List PacketData := []
  mAnalysisResult : Statistics.AnalysisResults := {}

/-- What `std::chrono::system_clock::now()` returns in a refresh. -/
structure Readings where
  /-- For each packet that is analysed. -/
  packets : List Int
  /-- For each topic, as the loop that erases topics comes to it. -/
  topics : ByteString → Int
  minute : Int
  second : Int

namespace Statistics

open TimeBucket PacketBucket

/-- `std::chrono::seconds(1)` in the ticks of the clock, which are nanoseconds. -/
def seconds : Int := 1000000000

/-- `std::chrono::minutes(1)`. -/
def minutes : Int := 60000000000

/-! ## Functions -/

/-- `push`: as long as the queue is full, ten packets are dropped. -/
def push (capacity fuel : Nat) (queue : List PacketData) (packet : PacketData) :
    Except VectorFault (List PacketData) := do
  let queue ← whileLoop .outOfFuel (fun queue => .ok (decide (capacity ≤ queue.length)))
    (fun queue => .ok (queue.drop 10)) fuel queue
  return queue ++ [packet]

/-- `publish`, where `packet` holds the topic, size and quality of service of what is
published and the time at which that was read. -/
def publish (capacity fuel : Nat) (s : Statistics) (packet : PacketData) :
    Except VectorFault Statistics := do
  let queue ← push capacity fuel s.mCollectedData packet
  return { s with
    mCollectedData := queue
    mTotalPacketCountCounter := s.mTotalPacketCountCounter + 1 }

/-- The loop over the packets, for one of them and the time at which it comes to it. -/
def analysePacket (fuel : Nat) (topics : TopicInfos) (packet : PacketData × Int) :
    Except VectorFault TopicInfos := do
  let list := (topics.lookup packet.1.topic).getD []
  let list ← ensureEnoughSpace minutes 60 fuel list (chronoFloor minutes packet.2)
  let list ← modifyBack (fun b => { b with
    cummulativePacketSize := b.cummulativePacketSize + packet.1.payloadLength }) list
  let list ← modifyBack (fun b => { b with packetCount := b.packetCount + 1 }) list
  let list ← modifyBack (fun b => { b with
    qosPacketCounts := b.qosPacketCounts.modify packet.1.qos.toUInt8.toNat (· + 1) }) list
  return topics.insert packet.1.topic list

/-- The test of the loop that erases topics. -/
def expired (now : Int) : List TopicInfo → Bool
  | [] => false
  | bucket :: _ => bucket.timestamp + 65 * minutes < now

/-- The loop that erases topics. -/
def eraseExpired (now : ByteString → Int) (topics : TopicInfos) : TopicInfos where
  entries := topics.entries.filter fun entry => !expired (now entry.1) entry.2
  nodupKeys := topics.nodupKeys.sublist List.filter_sublist

def refreshInternal (fuel : Nat) (s : Statistics) (readings : Readings) :
    Except VectorFault Statistics := do
  let mAnalysisData := s.mAnalysisData ++ s.mCollectedData
  let topics ← (mAnalysisData.zip readings.packets).foldlM (analysePacket fuel)
    s.mAnalysisResult.topics
  let packetsPerMinute ← createHistogram minutes (60 * 24) fuel mAnalysisData
    s.mAnalysisResult.packetsPerMinute
  let packetsPerMinute ← ensureEnoughSpace minutes (60 * 24) fuel packetsPerMinute
    (chronoFloor minutes readings.minute - minutes)
  let packetsPerSecond ← createHistogram seconds (60 * 2) fuel mAnalysisData
    s.mAnalysisResult.packetsPerSecond
  let packetsPerSecond ← ensureEnoughSpace seconds (60 * 2) fuel packetsPerSecond
    (chronoFloor seconds readings.second - seconds)
  return {
    mCollectedData := []
    mTotalPacketCountCounter := s.mTotalPacketCountCounter
    mAnalysisData := []
    mAnalysisResult := {
      topics := eraseExpired readings.topics topics
      totalPacketCount := s.mTotalPacketCountCounter
      packetsPerMinute
      packetsPerSecond } }

/-! ## What they compute -/

theorem seconds_pos : 0 < seconds := by decide

theorem minutes_pos : 0 < minutes := by decide

/-- The topics with one more packet. -/
def addReading (topics : TopicInfos) (packet : PacketData × Int) : TopicInfos :=
  topics.insert packet.1.topic (updateBack (count packet.1)
    (spaced minutes 60 ((topics.lookup packet.1.topic).getD []) (chronoFloor minutes packet.2)))

/-- The packets a refresh analyses. -/
def drained (s : Statistics) : List PacketData := s.mAnalysisData ++ s.mCollectedData

/-- The statistics after a refresh. -/
def refreshed (s : Statistics) (readings : Readings) : Statistics where
  mTotalPacketCountCounter := s.mTotalPacketCountCounter
  mAnalysisResult := {
    topics := eraseExpired readings.topics
      ((s.drained.zip readings.packets).foldl addReading s.mAnalysisResult.topics)
    totalPacketCount := s.mTotalPacketCountCounter
    packetsPerMinute := spaced minutes (60 * 24)
      (s.drained.foldl (addPacket minutes (60 * 24)) s.mAnalysisResult.packetsPerMinute)
      (chronoFloor minutes readings.minute - minutes)
    packetsPerSecond := spaced seconds (60 * 2)
      (s.drained.foldl (addPacket seconds (60 * 2)) s.mAnalysisResult.packetsPerSecond)
      (chronoFloor seconds readings.second - seconds) }

theorem packetsPerMinute_refreshed (s : Statistics) (readings : Readings) :
    (s.refreshed readings).mAnalysisResult.packetsPerMinute = spaced minutes (60 * 24)
      (s.drained.foldl (addPacket minutes (60 * 24)) s.mAnalysisResult.packetsPerMinute)
      (chronoFloor minutes readings.minute - minutes) := by
  unfold refreshed
  dsimp only

theorem packetsPerSecond_refreshed (s : Statistics) (readings : Readings) :
    (s.refreshed readings).mAnalysisResult.packetsPerSecond = spaced seconds (60 * 2)
      (s.drained.foldl (addPacket seconds (60 * 2)) s.mAnalysisResult.packetsPerSecond)
      (chronoFloor seconds readings.second - seconds) := by
  unfold refreshed
  dsimp only

theorem ends_analysePacket (topics : TopicInfos) (packet : PacketData × Int) :
    Ends (fun fuel => analysePacket fuel topics packet) (addReading topics packet) := by
  refine (ends_ensureEnoughSpace minutes_pos (by decide)
    ((topics.lookup packet.1.topic).getD []) (chronoFloor minutes packet.2)).bind
    (Ends.of_eq_ok ?_)
  obtain ⟨last, hlast⟩ := Option.ne_none_iff_exists'.mp fun hnone =>
    spaced_ne_nil minutes_pos (by decide : 0 < 60) ((topics.lookup packet.1.topic).getD [])
      (chronoFloor minutes packet.2) (List.getLast?_eq_none_iff.mp hnone)
  obtain ⟨front, hfront⟩ := List.getLast?_eq_some_iff.mp hlast
  rw [addReading, hfront, updateBack_concat]
  simp only [modifyBack_concat, bind, Except.bind]
  rfl

theorem ends_refreshInternal (s : Statistics) (readings : Readings) :
    Ends (fun fuel => refreshInternal fuel s readings) (refreshed s readings) := by
  have htopics : Ends (fun fuel => (s.drained.zip readings.packets).foldlM (analysePacket fuel)
      s.mAnalysisResult.topics) _ :=
    Ends.foldlM (I := fun _ => True) trivial
      fun topics packet _ _ => ⟨ends_analysePacket topics packet, trivial⟩
  unfold refreshInternal
  refine htopics.bind ?_
  refine (ends_createHistogram minutes_pos (by decide) _ _).bind ?_
  refine (ends_ensureEnoughSpace minutes_pos (by decide) _ _).bind ?_
  refine (ends_createHistogram seconds_pos (by decide) _ _).bind ?_
  refine (ends_ensureEnoughSpace seconds_pos (by decide) _ _).bind ?_
  exact ends_ok _

theorem ends_push {capacity : Nat} (hcapacity : 0 < capacity) (queue : List PacketData)
    (packet : PacketData) : ∃ kept, Ends (fun fuel => push capacity fuel queue packet) kept := by
  have hloop : ∃ kept, Ends (fun fuel => whileLoop VectorFault.outOfFuel
      (fun queue : List PacketData => .ok (decide (capacity ≤ queue.length)))
      (fun queue => .ok (queue.drop 10)) fuel queue) kept ∧ True ∧
      decide (capacity ≤ kept.length) = false := by
    refine ends_whileLoop (fun _ => True) (fun queue => decide (capacity ≤ queue.length))
      List.length (fun _ _ => rfl) ?_ trivial
    intro queue _ htest
    have hle : capacity ≤ queue.length := by simpa using htest
    refine ⟨_, ends_ok _, trivial, ?_⟩
    rw [List.length_drop]
    omega
  obtain ⟨kept, hends, -⟩ := hloop
  exact ⟨_, hends.bind (ends_ok _)⟩

/-- A packet is queued in the end, whatever has to be dropped for it. -/
theorem ends_publish {capacity : Nat} (hcapacity : 0 < capacity) (s : Statistics)
    (packet : PacketData) : ∃ stats, Ends (fun fuel => s.publish capacity fuel packet) stats := by
  obtain ⟨kept, hends⟩ := ends_push hcapacity s.mCollectedData packet
  exact ⟨_, hends.bind (ends_ok _)⟩

/-! ## Histories -/

/-- The statistics with the packets that have been analysed, each with the time at which it
was, and the clock at the end of the last refresh. -/
structure History where
  stats : Statistics := {}
  analysed : List (PacketData × Int) := []
  clock : Int

/-- What happens to the statistics: a packet is published, or a refresh takes place. -/
inductive Event where
  | publish (packet : PacketData)
  | refresh (readings : Readings)

/-- The readings of a refresh that begins after `clock`: one for each packet, and none of them
before an earlier one. The topics are gone through in some order. -/
structure InOrder (clock : Int) (packets : List PacketData) (readings : Readings) : Prop where
  length_eq : readings.packets.length = packets.length
  ordered : ∀ topic, (clock :: readings.packets ++
    [readings.topics topic, readings.minute, readings.second]).Pairwise (· ≤ ·)

/-- The timestamps of packets can be in any order. Those of the clock are not: it is not set back. -/
inductive Step (capacity : Nat) : History → Event → History → Prop where
  | publish {h : History} {packet : PacketData} {stats : Statistics}
      (hends : Ends (fun fuel => h.stats.publish capacity fuel packet) stats) :
      Step capacity h (.publish packet) { h with stats }
  | refresh {h : History} {readings : Readings} {stats : Statistics}
      (horder : InOrder h.clock h.stats.drained readings)
      (hends : Ends (fun fuel => h.stats.refreshInternal fuel readings) stats) :
      Step capacity h (.refresh readings) {
        stats
        analysed := h.analysed ++ h.stats.drained.zip readings.packets
        clock := readings.second }

/-- Publishing touches nothing of what has been analysed, and a refresh is what it computes. -/
theorem step_cases {capacity : Nat} {h t : History} {event : Event}
    (hstep : Step capacity h event t) :
    (∃ packet, event = .publish packet ∧
      t.stats.mAnalysisResult = h.stats.mAnalysisResult ∧ t.analysed = h.analysed ∧
      t.clock = h.clock) ∨
    (∃ readings, event = .refresh readings ∧ InOrder h.clock h.stats.drained readings ∧
      t = {
        stats := h.stats.refreshed readings
        analysed := h.analysed ++ h.stats.drained.zip readings.packets
        clock := readings.second }) := by
  cases hstep with
  | @publish packet stats hends =>
      refine .inl ⟨packet, rfl, ?_, rfl, rfl⟩
      obtain ⟨enough, hends⟩ := hends
      obtain ⟨queue, -, hpure⟩ := Outcome.bind_eq_ok (hends enough le_rfl)
      cases hpure
      rfl
  | @refresh readings stats horder hends =>
      obtain rfl := hends.unique (ends_refreshInternal h.stats readings)
      exact .inr ⟨readings, rfl, horder, rfl⟩

/-- What a refresh reads while the clock does not move. -/
def constantReadings (packets : List PacketData) (now : Int) : Readings where
  packets := List.replicate packets.length now
  topics := fun _ => now
  minute := now
  second := now

theorem inOrder_constantReadings {clock now : Int} (packets : List PacketData)
    (hle : clock ≤ now) : InOrder clock packets (constantReadings packets now) where
  length_eq := List.length_replicate
  ordered := by
    intro topic
    have hall : ∀ time ∈ List.replicate packets.length now ++ [now, now, now], time = now := by
      intro time htime
      rcases List.mem_append.mp htime with hpacket | hend
      · exact List.eq_of_mem_replicate hpacket
      · simpa using hend
    refine List.pairwise_cons.mpr ⟨fun time htime => (hall time htime).symm ▸ hle, ?_⟩
    exact List.pairwise_of_forall_mem_list fun t ht u hu => by rw [hall t ht, hall u hu]

/-- A packet is queued while there is room, or a refresh takes no time. -/
inductive Doing where
  | queue (packet : PacketData)
  | refreshAt (now : Int)

namespace History

def after (h : History) : Doing → Event × History
  | .queue packet => (.publish packet, { h with stats := { h.stats with
      mCollectedData := h.stats.mCollectedData ++ [packet]
      mTotalPacketCountCounter := h.stats.mTotalPacketCountCounter + 1 } })
  | .refreshAt now => (.refresh (constantReadings h.stats.drained now), {
      stats := h.stats.refreshed (constantReadings h.stats.drained now)
      analysed := h.analysed ++ h.stats.drained.zip (List.replicate h.stats.drained.length now)
      clock := now })

def Possible (capacity : Nat) (h : History) : Doing → Prop
  | .queue _ => h.stats.mCollectedData.length < capacity
  | .refreshAt now => h.clock ≤ now

def run : History → List Doing → List (Event × History)
  | _, [] => []
  | h, doing :: rest => h.after doing :: (h.after doing).2.run rest

def AllPossible (capacity : Nat) : History → List Doing → Prop
  | _, [] => True
  | h, doing :: rest => h.Possible capacity doing ∧ (h.after doing).2.AllPossible capacity rest

instance (capacity : Nat) (h : History) : (doing : Doing) → Decidable (h.Possible capacity doing)
  | .queue _ => inferInstanceAs (Decidable (_ < _))
  | .refreshAt _ => inferInstanceAs (Decidable (_ ≤ _))

instance decidableAllPossible (capacity : Nat) :
    (h : History) → (doings : List Doing) → Decidable (h.AllPossible capacity doings)
  | _, [] => isTrue trivial
  | h, doing :: rest =>
    have := decidableAllPossible capacity (h.after doing).2 rest
    inferInstanceAs (Decidable (h.Possible capacity doing ∧ _))

/-- The history in the end. -/
def result (h : History) (doings : List Doing) : History :=
  doings.foldl (fun h doing => (h.after doing).2) h

theorem result_append (h : History) (doings rest : List Doing) :
    h.result (doings ++ rest) = (h.result doings).result rest := List.foldl_append

theorem run_append (h : History) (doings rest : List Doing) :
    h.run (doings ++ rest) = h.run doings ++ (h.result doings).run rest := by
  induction doings generalizing h with
  | nil => rfl
  | cons doing doings ih => exact congrArg (h.after doing :: ·) (ih _)

theorem last_run (h : History) (doings : List Doing) :
    Runs.last h (h.run doings) = h.result doings := by
  induction doings generalizing h with
  | nil => rfl
  | cons doing doings ih => exact ih _

theorem allPossible_append {capacity : Nat} {h : History} {doings rest : List Doing} :
    h.AllPossible capacity (doings ++ rest) ↔
      h.AllPossible capacity doings ∧ (h.result doings).AllPossible capacity rest := by
  induction doings generalizing h with
  | nil => simp [AllPossible, result]
  | cons doing doings ih =>
      rw [List.cons_append, AllPossible, AllPossible, ih, and_assoc]
      rfl

end History

theorem step_after {capacity : Nat} {h : History} {doing : Doing}
    (hpossible : h.Possible capacity doing) :
    Step capacity h (h.after doing).1 (h.after doing).2 := by
  cases doing with
  | queue packet =>
      refine .publish ⟨1, fun fuel hfuel => ?_⟩
      obtain ⟨fuel, rfl⟩ := Nat.exists_eq_add_of_le' hfuel
      have htest : decide (capacity ≤ h.stats.mCollectedData.length) = false := by
        simpa [History.Possible] using hpossible
      simp only [Statistics.publish, push, whileLoop, htest]
      rfl
  | refreshAt now => exact .refresh (inOrder_constantReadings _ hpossible) (ends_refreshInternal _ _)

theorem isRun_run {capacity : Nat} {h : History} {doings : List Doing}
    (hpossible : h.AllPossible capacity doings) : Runs.IsRun (Step capacity) h (h.run doings) := by
  induction doings generalizing h with
  | nil => exact trivial
  | cons doing rest ih => exact ⟨step_after hpossible.1, ih hpossible.2⟩

/-! ## Rounding -/

section

variable {interval time : Int}

theorem dvd_chronoFloor (interval time : Int) : interval ∣ chronoFloor interval time :=
  Int.dvd_mul_left _ _

theorem chronoFloor_le (hd : 0 < interval) (time : Int) : chronoFloor interval time ≤ time :=
  Int.ediv_mul_le _ hd.ne'

theorem lt_chronoFloor_add (hd : 0 < interval) (time : Int) :
    time < chronoFloor interval time + interval := by
  have hlt := Int.lt_ediv_add_one_mul_self time hd
  rwa [Int.add_mul, Int.one_mul] at hlt

theorem le_chronoFloor_iff (hd : 0 < interval) {start : Int} (hdvd : interval ∣ start) :
    start ≤ chronoFloor interval time ↔ start ≤ time := by
  obtain ⟨k, rfl⟩ := hdvd
  rw [chronoFloor, Int.mul_comm interval k, Int.mul_le_mul_right hd, Int.le_ediv_iff_mul_le hd]

theorem chronoFloor_mono (hd : 0 < interval) {later : Int} (hle : time ≤ later) :
    chronoFloor interval time ≤ chronoFloor interval later :=
  (le_chronoFloor_iff hd (dvd_chronoFloor _ _)).mpr ((chronoFloor_le hd time).trans hle)

end

/-! ## Lists where packets are counted at their time -/

section

variable {T : Type} [PacketBucket T] {interval limit : Int} {list : List T}
  {counted : List (PacketData × Int)}

/-- The buckets begin at whole intervals, none of them after a limit, and count packets. -/
structure Placed (interval : Int) (list : List T) (counted : List (PacketData × Int))
    (limit : Int) : Prop where
  counts : Counts interval [] list counted
  dvd : ∀ b ∈ list, interval ∣ timestamp b
  le_limit : ∀ b ∈ list, timestamp b ≤ limit

theorem Placed.mono (h : Placed interval list counted limit) {later : Int} (hle : limit ≤ later) :
    Placed interval list counted later :=
  ⟨h.counts, h.dvd, fun b hb => (h.le_limit b hb).trans hle⟩

/-- A list that has not come to a time yet is extended to exactly this time. -/
theorem getLast?_grown_of_le (hd : 0 < interval) {time : Int} (htime : interval ∣ time)
    (hdvd : ∀ b ∈ list, interval ∣ timestamp b) (hle : ∀ b ∈ list, timestamp b ≤ time) :
    ∃ b, (grown interval list time).getLast? = some b ∧ timestamp b = time := by
  cases hlast : list.getLast? with
  | none =>
      rw [grown, hlast]
      exact ⟨_, rfl, timestamp_ofTimestamp time⟩
  | some bucket =>
      obtain ⟨b, hb, hb_time⟩ := getLast?_extended interval hlast
        (missing interval (timestamp bucket) time)
      have hmem := List.mem_of_getLast? hlast
      rw [last_add_missing hd (hle bucket hmem) (Int.dvd_sub htime (hdvd bucket hmem))] at hb_time
      rw [grown, hlast]
      exact ⟨b, hb, hb_time⟩

theorem dvd_of_mem_grown (heven : Evenly interval (timestamps list)) {time : Int}
    (htime : interval ∣ time) (hdvd : ∀ b ∈ list, interval ∣ timestamp b) :
    ∀ b ∈ grown interval list time, interval ∣ timestamp b := by
  intro b hb
  cases list with
  | nil =>
      rw [List.mem_singleton.mp hb, timestamp_ofTimestamp]
      exact htime
  | cons first list =>
      have hfirst : timestamp first ∈ timestamps (grown interval (first :: list) time) :=
        (timestamps_grown interval (first :: list) time).subset List.mem_cons_self
      have hsub := (evenly_grown heven time).dvd_sub (List.mem_map_of_mem hb) hfirst
      exact (dvd_iff_dvd_of_dvd_sub hsub).mpr (hdvd first List.mem_cons_self)

theorem Placed.space (h : Placed interval list counted limit) (hd : 0 < interval)
    {MaxSize : Nat} (hsize : 0 < MaxSize) {time : Int} (htime : interval ∣ time)
    (hle : limit ≤ time) (hnew : list = [] → ∀ c ∈ counted, c.2 < time) :
    Placed interval (spaced interval MaxSize list time) counted time ∧
      ∃ last, (spaced interval MaxSize list time).getLast? = some last ∧ timestamp last = time := by
  obtain ⟨last, hlast, hlast_time⟩ := getLast?_grown_of_le hd htime h.dvd
    fun b hb => (h.le_limit b hb).trans hle
  have hsub := (spaced_suffix interval MaxSize list time).subset
  refine ⟨⟨?_, ?_, ?_⟩, last, (getLast?_spaced hsize list time).trans hlast, hlast_time⟩
  · exact h.counts.space hd hsize fun hnil => ⟨hnew hnil, by simp⟩
  · exact fun b hb => dvd_of_mem_grown h.counts.evenly htime h.dvd b (hsub hb)
  · intro b hb
    rw [← hlast_time]
    exact le_getLast hd (evenly_grown h.counts.evenly time) hlast (hsub hb)

theorem Placed.updateBack (h : Placed interval list counted limit) (hd : 0 < interval) {last : T}
    (hlast : list.getLast? = some last) (packet : PacketData) :
    Placed interval (updateBack (count packet) list) (counted ++ [(packet, timestamp last)])
      limit := by
  have hcounts := h.counts.updateBack hd hlast packet
  have htimes : ∀ b ∈ Statistics.updateBack (count packet) list,
      ∃ b' ∈ list, timestamp b' = timestamp b := by
    intro b hb
    have hmem : timestamp b ∈ timestamps (Statistics.updateBack (count packet) list) :=
      List.mem_map_of_mem hb
    rw [timestamps_updateBack] at hmem
    exact List.mem_map.mp hmem
  refine ⟨hcounts, fun b hb => ?_, fun b hb => ?_⟩
  · obtain ⟨b', hb', htime⟩ := htimes b hb
    exact htime ▸ h.dvd b' hb'
  · obtain ⟨b', hb', htime⟩ := htimes b hb
    exact htime ▸ h.le_limit b' hb'

/-- A packet is counted at a time that the list has not gone beyond. -/
theorem Placed.add (h : Placed interval list counted limit) (hd : 0 < interval)
    {MaxSize : Nat} (hsize : 0 < MaxSize) {time : Int} (htime : interval ∣ time)
    (hle : limit ≤ time) (hnew : list = [] → ∀ c ∈ counted, c.2 < time) (packet : PacketData) :
    Placed interval (Statistics.updateBack (count packet) (spaced interval MaxSize list time))
      (counted ++ [(packet, time)]) time := by
  obtain ⟨hspace, last, hlast, hlast_time⟩ := h.space hd hsize htime hle hnew
  have hadd := hspace.updateBack hd hlast packet
  rwa [hlast_time] at hadd

/-- A list that has come as far as the time is only cut. -/
theorem grown_of_le (hd : 0 < interval) {last : T} (hlast : list.getLast? = some last) {time : Int}
    (hle : time ≤ timestamp last) : grown interval list time = list := by
  rw [grown_of_ne_nil hlast, (missing_eq_zero_iff hd).mpr hle, following_zero, List.map_nil,
    List.append_nil]

/-- Space for a time, which the list may have gone beyond. -/
theorem Placed.space_max (h : Placed interval list counted limit) (hd : 0 < interval)
    {MaxSize : Nat} (hsize : 0 < MaxSize) {time : Int} (htime : interval ∣ time)
    (hnew : list = [] → ∀ c ∈ counted, c.2 < time) :
    Placed interval (spaced interval MaxSize list time) counted (max limit time) := by
  by_cases hbeyond : ∃ last ∈ list.getLast?, time ≤ timestamp last
  · obtain ⟨last, hlast, hle⟩ := hbeyond
    have hsub := (spaced_suffix interval MaxSize list time).subset
    rw [grown_of_le hd hlast hle] at hsub
    exact {
      counts := h.counts.space hd hsize fun hnil => ⟨hnew hnil, by simp⟩
      dvd := fun b hb => h.dvd b (hsub hb)
      le_limit := fun b hb => (h.le_limit b (hsub hb)).trans (le_max_left _ _) }
  · have hle : ∀ b ∈ list, timestamp b ≤ time := by
      intro b hb
      cases hlast : list.getLast? with
      | none =>
          rw [List.getLast?_eq_none_iff.mp hlast] at hb
          cases hb
      | some last =>
          have hlt : ¬ time ≤ timestamp last := fun hle => hbeyond ⟨last, hlast, hle⟩
          exact (le_getLast hd h.counts.evenly hlast hb).trans (not_le.mp hlt).le
    have hplaced : Placed interval list counted time := ⟨h.counts, h.dvd, hle⟩
    exact (hplaced.space hd hsize htime le_rfl hnew).1.mono (le_max_right _ _)

theorem placed_nil (interval limit : Int) (counted : List (PacketData × Int)) :
    Placed interval ([] : List T) counted limit :=
  ⟨⟨List.isChain_nil, by simp, by simp, by simp⟩, by simp, by simp⟩

end

/-! ## The lists of the topics -/

/-- The packets of a topic, each with the minute it was analysed in. -/
def topicPackets (topic : ByteString) (analysed : List (PacketData × Int)) :
    List (PacketData × Int) :=
  (analysed.filter fun c => c.1.topic = topic).map fun c => (c.1, chronoFloor minutes c.2)

/-- Each topic has at most sixty buckets with its packets. What was analysed of a topic that is
not there lies in earlier minutes. -/
structure TopicsCounted (topics : TopicInfos) (analysed : List (PacketData × Int)) (clock : Int) :
    Prop where
  ne_nil : ∀ topic list, topics.lookup topic = some list → list ≠ []
  length_le : ∀ topic list, topics.lookup topic = some list → list.length ≤ 60
  placed : ∀ topic list, topics.lookup topic = some list →
    Placed minutes list (topicPackets topic analysed) (chronoFloor minutes clock)
  absent : ∀ topic, topics.lookup topic = none →
    ∀ c ∈ topicPackets topic analysed, c.2 < chronoFloor minutes clock

section

variable {topics : TopicInfos} {analysed : List (PacketData × Int)} {clock later : Int}

theorem topicPackets_concat_self (analysed : List (PacketData × Int)) (c : PacketData × Int) :
    topicPackets c.1.topic (analysed ++ [c]) =
      topicPackets c.1.topic analysed ++ [(c.1, chronoFloor minutes c.2)] := by
  simp [topicPackets]

theorem topicPackets_concat_ne {topic : ByteString} {c : PacketData × Int}
    (hne : topic ≠ c.1.topic) (analysed : List (PacketData × Int)) :
    topicPackets topic (analysed ++ [c]) = topicPackets topic analysed := by
  simp [topicPackets, Ne.symm hne]

theorem lookup_addReading_self (topics : TopicInfos) (c : PacketData × Int) :
    (addReading topics c).lookup c.1.topic = some (updateBack (count c.1)
      (spaced minutes 60 ((topics.lookup c.1.topic).getD []) (chronoFloor minutes c.2))) :=
  AList.lookup_insert _

theorem lookup_addReading_ne (topics : TopicInfos) {topic : ByteString} {c : PacketData × Int}
    (hne : topic ≠ c.1.topic) : (addReading topics c).lookup topic = topics.lookup topic :=
  AList.lookup_insert_ne hne

theorem topicsCounted_empty (clock : Int) : TopicsCounted ∅ [] clock where
  ne_nil := by simp
  length_le := by simp
  placed := by simp
  absent := by simp [topicPackets]

theorem TopicsCounted.mono (h : TopicsCounted topics analysed clock) (hle : clock ≤ later) :
    TopicsCounted topics analysed later where
  ne_nil := h.ne_nil
  length_le := h.length_le
  placed := fun topic list hlist =>
    (h.placed topic list hlist).mono (chronoFloor_mono minutes_pos hle)
  absent := fun topic hnone c hc =>
    (h.absent topic hnone c hc).trans_le (chronoFloor_mono minutes_pos hle)

/-- The list of a topic as a packet finds it. -/
theorem TopicsCounted.placed_getD (h : TopicsCounted topics analysed clock) (topic : ByteString) :
    Placed minutes ((topics.lookup topic).getD []) (topicPackets topic analysed)
        (chronoFloor minutes clock) ∧
      ((topics.lookup topic).getD [] = [] →
        ∀ c ∈ topicPackets topic analysed, c.2 < chronoFloor minutes clock) := by
  cases hlookup : topics.lookup topic with
  | none => exact ⟨placed_nil _ _ _, fun _ => h.absent topic hlookup⟩
  | some list =>
      exact ⟨h.placed topic list hlookup, fun hnil => absurd hnil (h.ne_nil topic list hlookup)⟩

/-- One more packet is analysed. -/
theorem TopicsCounted.addReading (h : TopicsCounted topics analysed clock)
    (c : PacketData × Int) (hle : clock ≤ c.2) :
    TopicsCounted (addReading topics c) (analysed ++ [c]) c.2 := by
  have hfloor := chronoFloor_mono minutes_pos hle
  have hself := lookup_addReading_self topics c
  have hlength := congrArg List.length (timestamps_updateBack c.1
    (spaced minutes 60 ((topics.lookup c.1.topic).getD []) (chronoFloor minutes c.2)))
  rw [timestamps, timestamps, List.length_map, List.length_map] at hlength
  constructor
  case ne_nil =>
      intro topic list hlist
      by_cases htopic : topic = c.1.topic
      · subst htopic
        obtain rfl := Option.some.inj (hself.symm.trans hlist)
        intro hnil
        rw [hnil, List.length_nil] at hlength
        exact spaced_ne_nil minutes_pos (by decide) _ _ (List.length_eq_zero_iff.mp hlength.symm)
      · exact h.ne_nil topic list (lookup_addReading_ne topics htopic ▸ hlist)
  case length_le =>
      intro topic list hlist
      by_cases htopic : topic = c.1.topic
      · subst htopic
        obtain rfl := Option.some.inj (hself.symm.trans hlist)
        exact hlength ▸ length_spaced_le _ _ _ _
      · exact h.length_le topic list (lookup_addReading_ne topics htopic ▸ hlist)
  case placed =>
      intro topic list hlist
      by_cases htopic : topic = c.1.topic
      · subst htopic
        obtain rfl := Option.some.inj (hself.symm.trans hlist)
        obtain ⟨hplaced, hnew⟩ := h.placed_getD c.1.topic
        rw [topicPackets_concat_self]
        exact hplaced.add minutes_pos (by decide) (dvd_chronoFloor _ _) hfloor
          (fun hnil c' hc' => (hnew hnil c' hc').trans_le hfloor) c.1
      · rw [lookup_addReading_ne topics htopic] at hlist
        rw [topicPackets_concat_ne htopic]
        exact (h.placed topic list hlist).mono hfloor
  case absent =>
      intro topic hnone
      have htopic : topic ≠ c.1.topic := by
        rintro rfl
        rw [hself] at hnone
        cases hnone
      rw [lookup_addReading_ne topics htopic] at hnone
      rw [topicPackets_concat_ne htopic]
      exact fun c' hc' => (h.absent topic hnone c' hc').trans_le hfloor

theorem TopicsCounted.addReadings (h : TopicsCounted topics analysed clock)
    {packets : List (PacketData × Int)}
    (hordered : (clock :: packets.map Prod.snd ++ [later]).Pairwise (· ≤ ·)) :
    TopicsCounted (packets.foldl Statistics.addReading topics) (analysed ++ packets) later := by
  induction packets generalizing topics analysed clock with
  | nil =>
      rw [List.append_nil]
      exact h.mono (by simpa using hordered)
  | cons c packets ih =>
      obtain ⟨hle, htail⟩ := List.pairwise_cons.mp hordered
      have hrest := ih (h.addReading c (hle c.2 List.mem_cons_self)) htail
      rwa [List.append_assoc] at hrest

theorem lookup_eraseExpired (now : ByteString → Int) (topics : TopicInfos) (topic : ByteString) :
    (eraseExpired now topics).lookup topic =
      (topics.lookup topic).filter fun list => !expired (now topic) list := by
  ext list
  rw [Option.filter_eq_some_iff, ← Option.mem_def, ← Option.mem_def, AList.mem_lookup_iff,
    AList.mem_lookup_iff]
  exact List.mem_filter

/-- The last bucket of a topic that has expired is more than five minutes old. -/
theorem getLast_of_expired {list : List TopicInfo} (heven : Evenly minutes (timestamps list))
    (hlength : list.length ≤ 60) {now : Int} (hexpired : expired now list = true) :
    ∃ last, list.getLast? = some last ∧ timestamp last + 5 * minutes < now := by
  cases list with
  | nil => cases hexpired
  | cons first list =>
      have hlast := Evenly.getLast?_cons heven
      rw [← List.map_cons, List.getLast?_map, Option.map_eq_some_iff] at hlast
      obtain ⟨last, hlast, htime⟩ := hlast
      have hfirst : first.timestamp + 65 * minutes < now := by simpa [expired] using hexpired
      change _ = first.timestamp + _ at htime
      rw [List.length_map] at htime
      rw [List.length_cons] at hlength
      refine ⟨last, hlast, ?_⟩
      rw [htime]
      simp only [minutes] at *
      omega

theorem TopicsCounted.eraseExpired (h : TopicsCounted topics analysed clock)
    {now : ByteString → Int} (hnow : ∀ topic, now topic ≤ clock) :
    TopicsCounted (eraseExpired now topics) analysed clock := by
  have hkept {topic : ByteString} {list : List TopicInfo}
      (hlist : (Statistics.eraseExpired now topics).lookup topic = some list) :
      topics.lookup topic = some list := by
    rw [lookup_eraseExpired] at hlist
    exact (Option.filter_eq_some_iff.mp hlist).1
  constructor
  case ne_nil => exact fun topic list hlist => h.ne_nil topic list (hkept hlist)
  case length_le => exact fun topic list hlist => h.length_le topic list (hkept hlist)
  case placed => exact fun topic list hlist => h.placed topic list (hkept hlist)
  case absent =>
      intro topic hnone c hc
      cases hlookup : topics.lookup topic with
      | none => exact h.absent topic hlookup c hc
      | some list =>
          rw [lookup_eraseExpired, hlookup] at hnone
          have hexpired : expired (now topic) list = true := by simpa using hnone
          have hplaced := h.placed topic list hlookup
          obtain ⟨last, hlast, hlt⟩ := getLast_of_expired hplaced.counts.evenly
            (h.length_le topic list hlookup) hexpired
          have hle := hplaced.counts.counted_le last hlast c hc
          have hfloor := lt_chronoFloor_add minutes_pos clock
          have hclock := hnow topic
          simp only [minutes] at *
          omega

/-- The readings for the packets, and the last one. -/
theorem InOrder.packets_second {packets : List PacketData} {readings : Readings}
    (h : InOrder clock packets readings) :
    (clock :: readings.packets ++ [readings.second]).Pairwise (· ≤ ·) :=
  (h.ordered []).sublist ((List.Sublist.refl _).append (by simp))

theorem InOrder.topics_le {packets : List PacketData} {readings : Readings}
    (h : InOrder clock packets readings) (topic : ByteString) :
    readings.topics topic ≤ readings.second := by
  have htail := (List.pairwise_append.mp (h.ordered topic)).2.1
  exact (List.pairwise_cons.mp htail).1 _ (by simp)

theorem InOrder.minute_le {packets : List PacketData} {readings : Readings}
    (h : InOrder clock packets readings) : readings.minute ≤ readings.second := by
  have htail := (List.pairwise_append.mp (h.ordered [])).2.1
  exact (List.pairwise_cons.mp (List.pairwise_cons.mp htail).2).1 _ (by simp)

theorem InOrder.zip_ordered {packets : List PacketData} {readings : Readings}
    (h : InOrder clock packets readings) :
    (clock :: (packets.zip readings.packets).map Prod.snd ++ [readings.second]).Pairwise
      (· ≤ ·) := by
  rw [List.map_snd_zip (by rw [h.length_eq])]
  exact h.packets_second

/-- What a refresh does to the topics. -/
theorem InOrder.topicsCounted {packets : List PacketData} {readings : Readings}
    (h : InOrder clock packets readings) (htopics : TopicsCounted topics analysed clock) :
    TopicsCounted (Statistics.eraseExpired readings.topics
        ((packets.zip readings.packets).foldl Statistics.addReading topics))
      (analysed ++ packets.zip readings.packets) readings.second :=
  (htopics.addReadings h.zip_ordered).eraseExpired h.topics_le

end

/-- Whatever the timestamps of the packets, the lists of the topics count them by the clock. -/
theorem Step.topicsCounted {capacity : Nat} {h t : History} {event : Event}
    (hstep : Step capacity h event t)
    (hcounted : TopicsCounted h.stats.mAnalysisResult.topics h.analysed h.clock) :
    TopicsCounted t.stats.mAnalysisResult.topics t.analysed t.clock := by
  rcases step_cases hstep with ⟨packet, -, hresult, hanalysed, hclock⟩ | ⟨readings, -, horder, rfl⟩
  · rwa [hresult, hanalysed, hclock]
  · exact horder.topicsCounted hcounted

end Statistics

end NioevMqtt
