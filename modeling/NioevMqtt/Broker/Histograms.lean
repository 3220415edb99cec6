-- SUMMARY: The lists of buckets of the statistics: growing and trimming one is over after finitely many steps and leaves its last buckets, one for each interval, and every packet counts in exactly one of them.
import NioevMqtt.Libnioev
import NioevMqtt.Library.Loops
import NioevMqtt.Library.Series
import Mathlib.Data.List.Nodup
import Mathlib.Algebra.BigOperators.Group.List.Basic

/-!
# Histograms

The statistics keep lists of buckets, one for each minute or second. Such a list is grown
interval by interval until it reaches the time of a packet, and is trimmed at its front.
Times are counted in the ticks of `std::chrono::system_clock`.
-/

namespace NioevMqtt

open Loops Series

structure PacketData where
  topic : ByteString
  payloadLength : Nat
  timestamp : Int
  qos : QoS
deriving DecidableEq

structure TimeInfo where
  timestamp : Int
  packetCount : Nat := 0
  cummulativePacketSize : Nat := 0
deriving DecidableEq

/-- A type of buckets: it has a default value, and its timestamp can be set. -/
class TimeBucket (T : Type) extends Inhabited T where
  timestamp : T → Int
  setTimestamp : Int → T → T
  timestamp_setTimestamp (time : Int) (bucket : T) : timestamp (setTimestamp time bucket) = time

attribute [simp] TimeBucket.timestamp_setTimestamp

/-- A type of buckets that packets are counted in. -/
class PacketBucket (T : Type) extends TimeBucket T where
  count : PacketData → T → T
  timestamp_count (packet : PacketData) (bucket : T) :
    timestamp (count packet bucket) = timestamp bucket

attribute [simp] PacketBucket.timestamp_count

instance : PacketBucket TimeInfo where
  default := { timestamp := 0 }
  timestamp := TimeInfo.timestamp
  setTimestamp := fun timestamp bucket => { bucket with timestamp }
  timestamp_setTimestamp := fun _ _ => rfl
  count := fun packet bucket => { bucket with
    packetCount := bucket.packetCount + 1
    cummulativePacketSize := bucket.cummulativePacketSize + packet.payloadLength }
  timestamp_count := fun _ _ => rfl

/-- What ends an operation on a `std::vector`: an access out of range, or a loop without fuel. -/
inductive VectorFault where
  | outOfRange
  | outOfFuel
deriving DecidableEq

/-- `std::chrono::floor` to a whole number of intervals. -/
def chronoFloor (interval time : Int) : Int := time / interval * interval

namespace Statistics

open TimeBucket

section

variable {T : Type}

/-! ## Vectors -/

/-- `list.back()`. -/
def back (list : List T) : Except VectorFault T :=
  match list.getLast? with
  | none => .error .outOfRange
  | some bucket => .ok bucket

/-- An assignment to `list.back()`. -/
def modifyBack (f : T → T) (list : List T) : Except VectorFault (List T) :=
  match list.getLast? with
  | none => .error .outOfRange
  | some bucket => .ok (list.dropLast ++ [f bucket])

/-- `list.at(list.size() - n)`. On a shorter list the unsigned difference is no index either. -/
def atFromEnd (list : List T) (n : Nat) : Except VectorFault T :=
  if list.length < n then .error .outOfRange
  else match list[list.length - n]? with
    | none => .error .outOfRange
    | some bucket => .ok bucket

/-- `list.erase(list.begin())`. -/
def eraseBegin : List T → Except VectorFault (List T)
  | [] => .error .outOfRange
  | _ :: list => .ok list

/-! ## The functions of the class -/

/-- `while(list.size() > MaxSize) list.erase(list.begin());` -/
def eraseExcess (MaxSize fuel : Nat) (list : List T) : Except VectorFault (List T) :=
  whileLoop .outOfFuel (fun list => .ok (decide (MaxSize < list.length))) eraseBegin fuel list

variable [TimeBucket T]

/-- One more bucket, one interval after the last. -/
def appendNext (interval : Int) (list : List T) : Except VectorFault (List T) := do
  let list := list ++ [default]
  let previous ← atFromEnd list 2
  modifyBack (setTimestamp (timestamp previous + interval)) list

def ensureEnoughSpace (interval : Int) (MaxSize fuel : Nat) (list : List T)
    (roundedTimestamp : Int) : Except VectorFault (List T) := do
  let list ←
    if list.isEmpty then
      modifyBack (setTimestamp roundedTimestamp) (list ++ [default])
    else
      whileLoop .outOfFuel
        (fun list => do return decide (timestamp (← back list) < roundedTimestamp))
        (fun list => do eraseExcess MaxSize fuel (← appendNext interval list)) fuel list
  eraseExcess MaxSize fuel list

def createHistogram (interval : Int) (MaxSize fuel : Nat) (mAnalysisData : List PacketData)
    (list : List TimeInfo) : Except VectorFault (List TimeInfo) :=
  mAnalysisData.foldlM (fun list it => do
    let list ← ensureEnoughSpace interval MaxSize fuel list (chronoFloor interval it.timestamp)
    let list ← modifyBack (fun b => { b with packetCount := b.packetCount + 1 }) list
    modifyBack (fun b =>
      { b with cummulativePacketSize := b.cummulativePacketSize + it.payloadLength }) list) list

/-! ## What they compute -/

/-- An empty bucket. -/
def ofTimestamp (time : Int) : T := setTimestamp time default

@[simp] theorem timestamp_ofTimestamp (time : Int) : timestamp (ofTimestamp time : T) = time :=
  timestamp_setTimestamp _ _

/-- The list with empty buckets for so many intervals after its last. -/
def extended (interval : Int) (list : List T) (last : Int) (k : Nat) : List T :=
  list ++ (following interval last k).map ofTimestamp

/-- The list grown as far as the timestamp. -/
def grown (interval : Int) (list : List T) (roundedTimestamp : Int) : List T :=
  match list.getLast? with
  | none => [ofTimestamp roundedTimestamp]
  | some bucket =>
    extended interval list (timestamp bucket)
      (missing interval (timestamp bucket) roundedTimestamp)

/-- And with its first buckets dropped. -/
def spaced (interval : Int) (MaxSize : Nat) (list : List T) (roundedTimestamp : Int) : List T :=
  (grown interval list roundedTimestamp).rtake MaxSize

/-- The list with its last bucket changed. -/
def updateBack (f : T → T) (list : List T) : List T :=
  match list.getLast? with
  | none => []
  | some bucket => list.dropLast ++ [f bucket]

omit [TimeBucket T] in
theorem modifyBack_concat (f : T → T) (list : List T) (bucket : T) :
    modifyBack f (list ++ [bucket]) = .ok (list ++ [f bucket]) := by
  simp [modifyBack]

omit [TimeBucket T] in
theorem updateBack_concat (f : T → T) (front : List T) (last : T) :
    updateBack f (front ++ [last]) = front ++ [f last] := by
  simp [updateBack]

omit [TimeBucket T] in
theorem back_eq_ok {list : List T} {bucket : T} (h : list.getLast? = some bucket) :
    back list = .ok bucket := by
  rw [back, h]

theorem appendNext_eq {interval : Int} {list : List T} {bucket : T}
    (h : list.getLast? = some bucket) :
    appendNext interval list = .ok (list ++ [ofTimestamp (timestamp bucket + interval)]) := by
  obtain ⟨front, rfl⟩ := List.getLast?_eq_some_iff.mp h
  have hat : atFromEnd (front ++ [bucket] ++ [default]) 2 = .ok bucket := by
    rw [atFromEnd, if_neg (by simp)]
    simp
  simp only [appendNext, hat]
  exact modifyBack_concat _ _ _

omit [TimeBucket T] in
theorem ends_eraseExcess (MaxSize : Nat) (list : List T) :
    Ends (fun fuel => eraseExcess MaxSize fuel list) (list.rtake MaxSize) := by
  have hloop : ∃ l, Ends (fun fuel => eraseExcess MaxSize fuel list) l ∧
      l.rtake MaxSize = list.rtake MaxSize ∧ decide (MaxSize < l.length) = false := by
    refine ends_whileLoop (fun l => l.rtake MaxSize = list.rtake MaxSize)
      (fun l => decide (MaxSize < l.length)) List.length (fun _ _ => rfl) ?_ rfl
    intro l hl htest
    cases l with
    | nil => simp at htest
    | cons bucket l =>
        have hlt : MaxSize < l.length + 1 := by simpa using htest
        refine ⟨l, ends_ok l, ?_, by simp⟩
        rw [← hl, List.rtake, List.rtake, List.length_cons, Nat.succ_sub (by omega),
          List.drop_succ_cons]
  obtain ⟨l, hends, hl, htest⟩ := hloop
  have hle : l.length ≤ MaxSize := by simpa using htest
  rw [← hl, rtake_eq_self hle]
  exact hends

/-- One interval more in the loop, and what is dropped for it. -/
theorem ends_grow {interval : Int} {MaxSize : Nat} {list : List T} {bucket : T}
    (h : list.getLast? = some bucket) :
    Ends (fun fuel => do eraseExcess MaxSize fuel (← appendNext interval list))
      ((list ++ [ofTimestamp (timestamp bucket + interval)]).rtake MaxSize) :=
  (Ends.of_eq_ok (appendNext_eq h)).bind (ends_eraseExcess MaxSize _)

section

variable {interval : Int} {MaxSize : Nat} {list : List T} {bucket : T} {last : Int}

theorem extended_zero : extended interval list last 0 = list := by simp [extended]

theorem extended_succ (k : Nat) : extended interval list last (k + 1) =
    extended interval list last k ++ [ofTimestamp (last + (k + 1) * interval)] := by
  simp [extended, following_succ]

theorem getLast?_extended (interval : Int) (h : list.getLast? = some bucket) (k : Nat) :
    ∃ b, (extended interval list (timestamp bucket) k).getLast? = some b ∧
      timestamp b = timestamp bucket + k * interval := by
  cases k with
  | zero => exact ⟨bucket, by rw [extended_zero, h], by simp⟩
  | succ k => exact ⟨_, by rw [extended_succ, List.getLast?_concat], by simp⟩

/-- The loop of `ensureEnoughSpace`: of what is dropped on the way nothing would be kept. -/
theorem ends_growing (hd : 0 < interval) (hsize : 0 < MaxSize)
    (h : list.getLast? = some bucket) (roundedTimestamp : Int) :
    ∃ l, Ends (fun fuel => whileLoop .outOfFuel
        (fun list => do return decide (timestamp (← back list) < roundedTimestamp))
        (fun list => do eraseExcess MaxSize fuel (← appendNext interval list)) fuel list) l ∧
      l.rtake MaxSize = spaced interval MaxSize list roundedTimestamp := by
  let need := missing interval (timestamp bucket) roundedTimestamp
  let I (l : List T) := ∃ k ≤ need,
    l.rtake MaxSize = (extended interval list (timestamp bucket) k).rtake MaxSize
  have hback {l : List T} {k : Nat}
      (hl : l.rtake MaxSize = (extended interval list (timestamp bucket) k).rtake MaxSize) :
      ∃ b, l.getLast? = some b ∧ timestamp b = timestamp bucket + k * interval := by
    rw [← getLast?_rtake hsize, hl, getLast?_rtake hsize]
    exact getLast?_extended interval h k
  have hloop : ∃ l, Ends (fun fuel => whileLoop .outOfFuel
      (fun list => do return decide (timestamp (← back list) < roundedTimestamp))
      (fun list => do eraseExcess MaxSize fuel (← appendNext interval list)) fuel list) l ∧
      I l ∧ (l.getLast?.any fun b => decide (timestamp b < roundedTimestamp)) = false := by
    refine ends_whileLoop I (fun l => l.getLast?.any fun b => decide (timestamp b < roundedTimestamp))
      (fun l => l.getLast?.elim 0 fun b => (roundedTimestamp - timestamp b).toNat) ?_ ?_
      ⟨0, Nat.zero_le _, by rw [extended_zero]⟩
    · rintro l ⟨k, -, hl⟩
      obtain ⟨b, hb, -⟩ := hback hl
      rw [back_eq_ok hb, hb]
      rfl
    · rintro l ⟨k, hk, hl⟩ htest
      obtain ⟨b, hb, htime⟩ := hback hl
      have hlt : timestamp b < roundedTimestamp := by simpa [hb] using htest
      have hmore : k < need := by
        rw [← Nat.not_le, missing_le_iff hd]
        omega
      refine ⟨_, ends_grow hb, ⟨k + 1, hmore, ?_⟩, ?_⟩
      · have htrim := rtake_rtake_append (l ++ [ofTimestamp (timestamp b + interval)]) [] MaxSize
        rw [List.append_nil, List.append_nil] at htrim
        rw [htrim, ← rtake_rtake_append, hl, rtake_rtake_append, extended_succ, htime,
          Int.add_mul, Int.one_mul, Int.add_assoc]
      · rw [getLast?_rtake hsize, List.getLast?_concat, hb]
        simp only [Option.elim_some, timestamp_ofTimestamp]
        omega
  obtain ⟨l, hends, ⟨k, hk, hl⟩, htest⟩ := hloop
  obtain ⟨b, hb, htime⟩ := hback hl
  have hge : ¬ timestamp b < roundedTimestamp := by simpa [hb] using htest
  have henough : need ≤ k := by
    rw [missing_le_iff hd]
    omega
  refine ⟨l, hends, ?_⟩
  rw [hl, Nat.le_antisymm hk henough, spaced, grown, h]

/-- It is over after finitely many steps, without an access out of range. -/
theorem ends_ensureEnoughSpace (hd : 0 < interval) (hsize : 0 < MaxSize) (list : List T)
    (roundedTimestamp : Int) :
    Ends (fun fuel => ensureEnoughSpace interval MaxSize fuel list roundedTimestamp)
      (spaced interval MaxSize list roundedTimestamp) := by
  cases hlast : list.getLast? with
  | none =>
      obtain rfl := List.getLast?_eq_none_iff.mp hlast
      exact (Ends.of_eq_ok (modifyBack_concat _ [] default)).bind (ends_eraseExcess MaxSize _)
  | some bucket =>
      obtain ⟨l, hends, hl⟩ := ends_growing hd hsize hlast roundedTimestamp
      have hne : list.isEmpty = false := by
        cases list with
        | nil => cases hlast
        | cons _ _ => rfl
      rw [← hl]
      simp only [ensureEnoughSpace, hne]
      exact hends.bind (g := fun fuel list => eraseExcess MaxSize fuel list)
        (ends_eraseExcess MaxSize l)

/-! ## The buckets of a list -/

/-- The times of the buckets. -/
def timestamps (list : List T) : List Int := list.map timestamp

theorem grown_of_ne_nil (h : list.getLast? = some bucket) (roundedTimestamp : Int) :
    grown interval list roundedTimestamp = list ++ (following interval (timestamp bucket)
      (missing interval (timestamp bucket) roundedTimestamp)).map ofTimestamp := by
  simp only [grown, h, extended]

/-- A list only grows by empty buckets at its end. -/
theorem exists_grown_eq (interval : Int) (list : List T) (roundedTimestamp : Int) :
    ∃ times : List Int,
      grown interval list roundedTimestamp = list ++ times.map ofTimestamp := by
  cases hlast : list.getLast? with
  | none =>
      obtain rfl := List.getLast?_eq_none_iff.mp hlast
      exact ⟨[roundedTimestamp], rfl⟩
  | some bucket => exact ⟨_, grown_of_ne_nil hlast _⟩

theorem timestamps_grown (interval : Int) (list : List T) (roundedTimestamp : Int) :
    timestamps list <+: timestamps (grown interval list roundedTimestamp) := by
  obtain ⟨times, htimes⟩ := exists_grown_eq interval list roundedTimestamp
  rw [htimes]
  exact ⟨timestamps (times.map ofTimestamp), (List.map_append).symm⟩

/-- What was dropped before makes no difference to how a list grows. -/
theorem grown_append (front : List T) (h : list ≠ []) (roundedTimestamp : Int) :
    grown interval (front ++ list) roundedTimestamp =
      front ++ grown interval list roundedTimestamp := by
  obtain ⟨bucket, hlast⟩ := Option.ne_none_iff_exists'.mp fun hnone =>
    h (List.getLast?_eq_none_iff.mp hnone)
  have hwhole : (front ++ list).getLast? = some bucket := by
    rw [List.getLast?_append, hlast, Option.some_or]
  rw [grown_of_ne_nil hwhole, grown_of_ne_nil hlast, List.append_assoc]

theorem evenly_grown (h : Evenly interval (timestamps list)) (roundedTimestamp : Int) :
    Evenly interval (timestamps (grown interval list roundedTimestamp)) := by
  cases hlast : list.getLast? with
  | none =>
      rw [grown, hlast]
      exact List.isChain_singleton _
  | some bucket =>
      rw [grown_of_ne_nil hlast, timestamps, List.map_append, List.map_map]
      have htimes : timestamp ∘ (ofTimestamp : Int → T) = id := by
        funext time
        exact timestamp_ofTimestamp time
      rw [htimes, List.map_id]
      exact Evenly.append_following h (by rw [timestamps, List.getLast?_map, hlast]; rfl) _

theorem spaced_suffix (interval : Int) (MaxSize : Nat) (list : List T) (roundedTimestamp : Int) :
    spaced interval MaxSize list roundedTimestamp <:+ grown interval list roundedTimestamp :=
  rtake_suffix _ _

theorem evenly_spaced (h : Evenly interval (timestamps list)) (MaxSize : Nat)
    (roundedTimestamp : Int) :
    Evenly interval (timestamps (spaced interval MaxSize list roundedTimestamp)) := by
  obtain ⟨front, hfront⟩ := spaced_suffix interval MaxSize list roundedTimestamp
  have hgrown := evenly_grown h roundedTimestamp
  rw [← hfront] at hgrown
  exact hgrown.suffix ⟨timestamps front, (List.map_append).symm⟩

/-- It has a last bucket, which is not before the timestamp nor before the last one it had. -/
theorem getLast?_grown (hd : 0 < interval) (list : List T) (roundedTimestamp : Int) :
    ∃ b, (grown interval list roundedTimestamp).getLast? = some b ∧
      roundedTimestamp ≤ timestamp b ∧
      ∀ last ∈ list.getLast?, timestamp last ≤ timestamp b := by
  cases hlast : list.getLast? with
  | none =>
      rw [grown, hlast]
      exact ⟨_, rfl, by simp, by simp⟩
  | some bucket =>
      obtain ⟨b, hb, htime⟩ := getLast?_extended interval hlast
        (missing interval (timestamp bucket) roundedTimestamp)
      rw [grown, hlast]
      have hreach : roundedTimestamp ≤ timestamp bucket +
          missing interval (timestamp bucket) roundedTimestamp * interval :=
        (missing_le_iff hd _).mp le_rfl
      refine ⟨b, hb, by omega, ?_⟩
      intro last heq
      obtain rfl := Option.some.inj heq
      have hnonneg := Int.mul_nonneg
        (Int.natCast_nonneg (missing interval (timestamp bucket) roundedTimestamp)) hd.le
      omega

theorem getLast?_spaced (hsize : 0 < MaxSize) (list : List T) (roundedTimestamp : Int) :
    (spaced interval MaxSize list roundedTimestamp).getLast? =
      (grown interval list roundedTimestamp).getLast? := getLast?_rtake hsize

theorem length_spaced_le (interval : Int) (MaxSize : Nat) (list : List T) (roundedTimestamp : Int) :
    (spaced interval MaxSize list roundedTimestamp).length ≤ MaxSize := by
  rw [spaced, length_rtake]
  exact Nat.min_le_left _ _

theorem mem_grown (hd : 0 < interval) (list : List T) (roundedTimestamp : Int) {b : T}
    (h : b ∈ grown interval list roundedTimestamp) :
    b ∈ list ∨ b = ofTimestamp (timestamp b) ∧
      (∀ last ∈ list.getLast?, timestamp last < timestamp b) ∧
      (list = [] → timestamp b = roundedTimestamp) := by
  cases hlast : list.getLast? with
  | none =>
      rw [grown, hlast, List.mem_singleton] at h
      subst h
      exact .inr ⟨by simp, by simp, by simp⟩
  | some bucket =>
      rw [grown_of_ne_nil hlast, List.mem_append, List.mem_map] at h
      rcases h with hold | ⟨time, htime, rfl⟩
      · exact .inl hold
      · refine .inr ⟨by simp, ?_, ?_⟩
        · intro last heq
          obtain rfl := Option.some.inj heq
          rw [timestamp_ofTimestamp]
          exact lt_of_mem_following hd htime
        · rintro rfl
          cases hlast

end

end

/-! ## Counting packets -/

open PacketBucket

variable {T : Type} [PacketBucket T]

/-- The packets that are counted at a time. -/
def packetsAt (counted : List (PacketData × Int)) (time : Int) : List PacketData :=
  (counted.filter fun c => c.2 = time).map Prod.fst

/-- The bucket of a time. -/
def bucketAt (list : List T) (time : Int) : Option T := list.find? fun b => timestamp b = time

/-- A bucket with packets counted in it. -/
def countAll (packets : List PacketData) (bucket : T) : T :=
  packets.foldl (fun bucket packet => count packet bucket) bucket

/-- The buckets of the list are those of an earlier one, or empty ones, with exactly the
packets counted in each that are counted at its time. -/
structure Counts (interval : Int) (old list : List T) (counted : List (PacketData × Int)) :
    Prop where
  evenly : Evenly interval (timestamps list)
  counted_le : ∀ last ∈ list.getLast?, ∀ c ∈ counted, c.2 ≤ timestamp last
  old_le : ∀ last ∈ list.getLast?, ∀ b ∈ old, timestamp b ≤ timestamp last
  bucket : ∀ b ∈ list, b = countAll (packetsAt counted (timestamp b))
    ((bucketAt old (timestamp b)).getD (ofTimestamp (timestamp b)))

section

variable {interval : Int} {MaxSize : Nat} {old list : List T} {counted : List (PacketData × Int)}

/-- What each packet adds to a bucket, all of them add together. -/
theorem sum_countAll {f : T → Nat} {w : PacketData → Nat}
    (hcount : ∀ packet bucket, f (count packet bucket) = f bucket + w packet)
    (packets : List PacketData) (bucket : T) :
    f (countAll packets bucket) = f bucket + (packets.map w).sum := by
  induction packets generalizing bucket with
  | nil => rfl
  | cons packet packets ih =>
      refine (ih _).trans ?_
      rw [hcount, List.map_cons, List.sum_cons, Nat.add_assoc]

theorem packetsAt_append (counted more : List (PacketData × Int)) (time : Int) :
    packetsAt (counted ++ more) time = packetsAt counted time ++ packetsAt more time := by
  simp [packetsAt]

theorem packetsAt_eq_nil {time : Int} (h : ∀ c ∈ counted, c.2 ≠ time) :
    packetsAt counted time = [] := by
  rw [packetsAt, List.map_eq_nil_iff, List.filter_eq_nil_iff]
  intro c hc
  simpa using h c hc

theorem bucketAt_eq_none {time : Int} (h : ∀ b ∈ list, timestamp b ≠ time) :
    bucketAt list time = none := by
  rw [bucketAt, List.find?_eq_none]
  intro b hb
  simpa using h b hb

/-- The last bucket of an evenly spaced list is not before any other. -/
theorem le_getLast (hd : 0 < interval) (h : Evenly interval (timestamps list)) {last : T}
    (hlast : list.getLast? = some last) {b : T} (hb : b ∈ list) : timestamp b ≤ timestamp last := by
  obtain ⟨front, rfl⟩ := List.getLast?_eq_some_iff.mp hlast
  have hpairwise := h.pairwise_lt hd
  rw [timestamps, List.map_append, List.pairwise_append] at hpairwise
  rcases List.mem_append.mp hb with hfront | hback
  · exact (hpairwise.2.2 _ (List.mem_map_of_mem hfront) _ (List.mem_singleton.mpr rfl)).le
  · rw [List.mem_singleton.mp hback]

theorem bucketAt_timestamp (hd : 0 < interval) (h : Evenly interval (timestamps list)) {b : T}
    (hb : b ∈ list) : bucketAt list (timestamp b) = some b := by
  cases hfind : bucketAt list (timestamp b) with
  | none =>
      have hnot := List.find?_eq_none.mp hfind b hb
      simp at hnot
  | some b' =>
      have htime : timestamp b' = timestamp b := by simpa using List.find?_some hfind
      rw [List.inj_on_of_nodup_map (h.nodup hd) (List.mem_of_find?_eq_some hfind) hb htime]

theorem Counts.grow (h : Counts interval old list counted) (hd : 0 < interval)
    {roundedTimestamp : Int} (hnew : list = [] →
      (∀ c ∈ counted, c.2 < roundedTimestamp) ∧ ∀ b ∈ old, timestamp b < roundedTimestamp) :
    Counts interval old (grown interval list roundedTimestamp) counted := by
  obtain ⟨last, hlast, hreach, hold⟩ := getLast?_grown hd list roundedTimestamp
  have hbefore : list = [] ∨ ∃ b, list.getLast? = some b := by
    rw [← List.getLast?_eq_none_iff, or_iff_not_imp_left]
    exact Option.ne_none_iff_exists'.mp
  constructor
  case evenly => exact evenly_grown h.evenly _
  case counted_le =>
      rintro b hb c hc
      rw [hlast] at hb
      obtain rfl := Option.some.inj hb
      rcases hbefore with hnil | ⟨b, hb⟩
      · exact ((hnew hnil).1 c hc).le.trans hreach
      · exact (h.counted_le b hb c hc).trans (hold b hb)
  case old_le =>
      rintro b hb o ho
      rw [hlast] at hb
      obtain rfl := Option.some.inj hb
      rcases hbefore with hnil | ⟨b, hb⟩
      · exact ((hnew hnil).2 o ho).le.trans hreach
      · exact (h.old_le b hb o ho).trans (hold b hb)
  case bucket =>
      intro b hb
      rcases mem_grown hd list roundedTimestamp hb with hmem | ⟨hempty, hlater, hfirst⟩
      · exact h.bucket b hmem
      · -- Nothing has been counted at the time of a new bucket.
        have hcounted : ∀ c ∈ counted, c.2 ≠ timestamp b := by
          intro c hc
          rcases hbefore with hnil | ⟨last, hlast⟩
          · rw [hfirst hnil]
            exact ((hnew hnil).1 c hc).ne
          · exact ((h.counted_le last hlast c hc).trans_lt (hlater last hlast)).ne
        have hnotold : ∀ o ∈ old, timestamp o ≠ timestamp b := by
          intro o ho
          rcases hbefore with hnil | ⟨last, hlast⟩
          · rw [hfirst hnil]
            exact ((hnew hnil).2 o ho).ne
          · exact ((h.old_le last hlast o ho).trans_lt (hlater last hlast)).ne
        rw [packetsAt_eq_nil hcounted, bucketAt_eq_none hnotold]
        exact hempty

theorem Counts.suffix (h : Counts interval old list counted) {tail : List T}
    (hsuffix : tail <:+ list) (hne : tail ≠ []) : Counts interval old tail counted := by
  obtain ⟨front, rfl⟩ := hsuffix
  have hlast : (front ++ tail).getLast? = tail.getLast? := List.getLast?_append_of_ne_nil front hne
  exact {
    evenly := h.evenly.suffix ⟨timestamps front, (List.map_append).symm⟩
    counted_le := hlast ▸ h.counted_le
    old_le := hlast ▸ h.old_le
    bucket := fun b hb => h.bucket b (List.mem_append_right front hb) }

theorem spaced_ne_nil (hd : 0 < interval) (hsize : 0 < MaxSize) (list : List T)
    (roundedTimestamp : Int) : spaced interval MaxSize list roundedTimestamp ≠ [] := by
  obtain ⟨b, hb, -⟩ := getLast?_grown hd list roundedTimestamp
  rw [← getLast?_spaced hsize] at hb
  rintro hnil
  rw [hnil] at hb
  cases hb

theorem Counts.space (h : Counts interval old list counted) (hd : 0 < interval)
    (hsize : 0 < MaxSize) {roundedTimestamp : Int} (hnew : list = [] →
      (∀ c ∈ counted, c.2 < roundedTimestamp) ∧ ∀ b ∈ old, timestamp b < roundedTimestamp) :
    Counts interval old (spaced interval MaxSize list roundedTimestamp) counted :=
  (h.grow hd hnew).suffix (spaced_suffix _ _ _ _) (spaced_ne_nil hd hsize _ _)

theorem timestamps_updateBack (packet : PacketData) (list : List T) :
    timestamps (updateBack (count packet) list) = timestamps list := by
  cases hlast : list.getLast? with
  | none =>
      obtain rfl := List.getLast?_eq_none_iff.mp hlast
      rfl
  | some last =>
      obtain ⟨front, rfl⟩ := List.getLast?_eq_some_iff.mp hlast
      rw [updateBack_concat]
      simp [timestamps]

/-- One more packet is counted in the last bucket. -/
theorem Counts.updateBack (h : Counts interval old list counted) (hd : 0 < interval) {last : T}
    (hlast : list.getLast? = some last) (packet : PacketData) :
    Counts interval old (updateBack (count packet) list)
      (counted ++ [(packet, timestamp last)]) := by
  obtain ⟨front, rfl⟩ := List.getLast?_eq_some_iff.mp hlast
  rw [updateBack_concat]
  constructor
  case evenly =>
      rw [← updateBack_concat, timestamps_updateBack]
      exact h.evenly
  case counted_le =>
      intro b hb c hc
      rw [List.getLast?_concat] at hb
      obtain rfl := Option.some.inj hb
      rw [timestamp_count]
      rcases List.mem_append.mp hc with hold | hnew
      · exact h.counted_le last hlast c hold
      · rw [List.mem_singleton.mp hnew]
  case old_le =>
      intro b hb
      rw [List.getLast?_concat] at hb
      obtain rfl := Option.some.inj hb
      rw [timestamp_count]
      exact h.old_le last hlast
  case bucket =>
      intro b hb
      rw [packetsAt_append]
      rcases List.mem_append.mp hb with hfront | hback
      · have hpairwise := h.evenly.pairwise_lt hd
        rw [timestamps, List.map_append, List.pairwise_append] at hpairwise
        have hlt : timestamp b < timestamp last :=
          hpairwise.2.2 _ (List.mem_map_of_mem hfront) _ (List.mem_singleton.mpr rfl)
        have hnot : packetsAt [(packet, timestamp last)] (timestamp b) = [] :=
          packetsAt_eq_nil fun c hc => by
            rw [List.mem_singleton.mp hc]
            exact hlt.ne'
        rw [hnot, List.append_nil]
        exact h.bucket b (List.mem_append_left _ hfront)
      · obtain rfl := List.mem_singleton.mp hback
        have hall := h.bucket last (List.mem_append_right _ (List.mem_singleton.mpr rfl))
        have hthis : packetsAt [(packet, timestamp last)] (timestamp last) = [packet] := by
          simp [packetsAt]
        rw [timestamp_count, hthis, countAll, List.foldl_append, List.foldl_cons, List.foldl_nil]
        exact congrArg (count packet) hall

/-- The list itself, before anything is counted. -/
theorem Counts.refl (hd : 0 < interval) (h : Evenly interval (timestamps list)) :
    Counts interval list list [] where
  evenly := h
  counted_le := fun _ _ => by simp
  old_le := fun _ hlast _ hb => le_getLast hd h hlast hb
  bucket := by
    intro b hb
    rw [bucketAt_timestamp hd h hb]
    rfl

end

/-! ## Batches -/

section

variable {interval : Int} {MaxSize : Nat}

/-- A packet counted in a list. -/
def addPacket (interval : Int) (MaxSize : Nat) (list : List TimeInfo) (packet : PacketData) :
    List TimeInfo :=
  updateBack (count packet) (spaced interval MaxSize list (chronoFloor interval packet.timestamp))

theorem ends_createHistogram (hd : 0 < interval) (hsize : 0 < MaxSize)
    (mAnalysisData : List PacketData) (list : List TimeInfo) :
    Ends (fun fuel => createHistogram interval MaxSize fuel mAnalysisData list)
      (mAnalysisData.foldl (addPacket interval MaxSize) list) := by
  refine Ends.foldlM (I := fun _ => True) trivial fun list packet _ _ => ⟨?_, trivial⟩
  refine (ends_ensureEnoughSpace hd hsize list _).bind
    (g := fun _ list => do
      let list ← modifyBack (fun b => { b with packetCount := b.packetCount + 1 }) list
      modifyBack (fun b => { b with
        cummulativePacketSize := b.cummulativePacketSize + packet.payloadLength }) list)
    (Ends.of_eq_ok ?_)
  obtain ⟨last, hlast⟩ := Option.ne_none_iff_exists'.mp fun hnone =>
    spaced_ne_nil hd hsize list (chronoFloor interval packet.timestamp)
      (List.getLast?_eq_none_iff.mp hnone)
  obtain ⟨front, hfront⟩ := List.getLast?_eq_some_iff.mp hlast
  rw [addPacket, hfront, updateBack_concat, modifyBack_concat]
  exact modifyBack_concat _ _ _

theorem packetCount_countAll (packets : List PacketData) (b : TimeInfo) :
    (countAll packets b).packetCount = b.packetCount + packets.length := by
  have hsum := sum_countAll (f := TimeInfo.packetCount) (w := fun _ => 1) (fun _ _ => rfl) packets b
  simpa using hsum

theorem cummulativePacketSize_countAll (packets : List PacketData) (b : TimeInfo) :
    (countAll packets b).cummulativePacketSize =
      b.cummulativePacketSize + (packets.map PacketData.payloadLength).sum :=
  sum_countAll (f := TimeInfo.cummulativePacketSize) (w := PacketData.payloadLength)
    (fun _ _ => rfl) packets b

def total (f : TimeInfo → Nat) (list : List TimeInfo) : Nat := (list.map f).sum

theorem total_append (f : TimeInfo → Nat) (list tail : List TimeInfo) :
    total f (list ++ tail) = total f list + total f tail := by
  simp [total]

/-- Growing a list adds nothing to what its buckets have counted. -/
theorem total_grown {f : TimeInfo → Nat} (hzero : ∀ time, f (ofTimestamp time) = 0)
    (interval : Int) (list : List TimeInfo) (roundedTimestamp : Int) :
    total f (grown interval list roundedTimestamp) = total f list := by
  obtain ⟨times, htimes⟩ := exists_grown_eq interval list roundedTimestamp
  have hempty : total f (times.map ofTimestamp) = 0 := by
    rw [total, List.map_map]
    refine List.sum_eq_zero fun n hn => ?_
    obtain ⟨time, -, rfl⟩ := List.mem_map.mp hn
    exact hzero time
  rw [htimes, total_append, hempty, Nat.add_zero]

theorem total_updateBack {f : TimeInfo → Nat} {n : Nat} {packet : PacketData}
    (hcount : ∀ b, f (count packet b) = f b + n) {list : List TimeInfo} (hne : list ≠ []) :
    total f (updateBack (count packet) list) = total f list + n := by
  obtain ⟨front, last, rfl⟩ := (List.eq_nil_or_concat' list).resolve_left hne
  rw [updateBack_concat, total_append, total_append, Nat.add_assoc]
  simp [total, hcount]

/-- From the old list to the new one: with what was dropped at the front, it is the old one
grown at the end, and each packet is counted in the bucket of one time. -/
structure Accounts (interval : Int) (old : List TimeInfo) (packets : List PacketData)
    (dropped new : List TimeInfo) (counted : List (PacketData × Int)) : Prop where
  counts : Counts interval old (dropped ++ new) counted
  packets_eq : counted.map Prod.fst = packets
  times : timestamps old <+: timestamps (dropped ++ new)
  places : ∀ c ∈ counted, c.2 ∈ timestamps (dropped ++ new)
  packetCount_eq : total TimeInfo.packetCount (dropped ++ new) =
    total TimeInfo.packetCount old + packets.length
  size_eq : total TimeInfo.cummulativePacketSize (dropped ++ new) =
    total TimeInfo.cummulativePacketSize old + (packets.map PacketData.payloadLength).sum
  dropped_eq : new = [] → dropped = []

variable {old new dropped : List TimeInfo} {packets : List PacketData}
  {counted : List (PacketData × Int)}

theorem Accounts.space (h : Accounts interval old packets dropped new counted)
    (hd : 0 < interval) (hsize : 0 < MaxSize) (roundedTimestamp : Int) :
    ∃ more, Accounts interval old packets (dropped ++ more)
      (spaced interval MaxSize new roundedTimestamp) counted := by
  obtain ⟨more, hmore⟩ := spaced_suffix interval MaxSize new roundedTimestamp
  have hwhole : dropped ++ more ++ spaced interval MaxSize new roundedTimestamp =
      grown interval (dropped ++ new) roundedTimestamp := by
    rw [List.append_assoc, hmore]
    by_cases hnil : new = []
    · rw [hnil, h.dropped_eq hnil]
      rfl
    · exact (grown_append dropped hnil _).symm
  have hextends := timestamps_grown interval (dropped ++ new) roundedTimestamp
  refine ⟨more, ?_⟩
  constructor
  case counts =>
      rw [hwhole]
      refine h.counts.grow hd fun hnil => ?_
      -- A list without buckets has counted no packets, and was empty before.
      have hold : old = [] := by
        have htimes := h.times
        rw [hnil] at htimes
        exact List.map_eq_nil_iff.mp (List.prefix_nil.mp htimes)
      have hplaces := h.places
      rw [hnil] at hplaces
      exact ⟨fun c hc => absurd (hplaces c hc) List.not_mem_nil, by simp [hold]⟩
  case packets_eq => exact h.packets_eq
  case times =>
      rw [hwhole]
      exact h.times.trans hextends
  case places =>
      rw [hwhole]
      exact fun c hc => hextends.subset (h.places c hc)
  case packetCount_eq =>
      rw [hwhole, total_grown fun _ => rfl]
      exact h.packetCount_eq
  case size_eq =>
      rw [hwhole, total_grown fun _ => rfl]
      exact h.size_eq
  case dropped_eq => exact fun hnil => absurd hnil (spaced_ne_nil hd hsize _ _)

theorem Accounts.updateBack (h : Accounts interval old packets dropped new counted)
    (hd : 0 < interval) {last : TimeInfo} (hlast : new.getLast? = some last)
    (packet : PacketData) :
    Accounts interval old (packets ++ [packet]) dropped (updateBack (count packet) new)
      (counted ++ [(packet, last.timestamp)]) := by
  obtain ⟨front, rfl⟩ := List.getLast?_eq_some_iff.mp hlast
  have hwhole : dropped ++ Statistics.updateBack (count packet) (front ++ [last]) =
      Statistics.updateBack (count packet) (dropped ++ (front ++ [last])) := by
    rw [updateBack_concat, ← List.append_assoc, ← List.append_assoc, updateBack_concat]
  have hne : dropped ++ (front ++ [last]) ≠ [] := by simp
  have hback : (dropped ++ (front ++ [last])).getLast? = some last := by
    rw [← List.append_assoc, List.getLast?_concat]
  constructor
  case counts =>
      rw [hwhole]
      exact h.counts.updateBack hd hback packet
  case packets_eq => rw [List.map_append, h.packets_eq, List.map_singleton]
  case times =>
      rw [hwhole, timestamps_updateBack]
      exact h.times
  case places =>
      rw [hwhole, timestamps_updateBack, List.forall_mem_append, List.forall_mem_singleton]
      exact ⟨h.places, List.mem_map_of_mem (List.mem_of_getLast? hback)⟩
  case packetCount_eq =>
      rw [hwhole, total_updateBack (fun _ => rfl) hne, h.packetCount_eq, List.length_append]
      rfl
  case size_eq =>
      rw [hwhole, total_updateBack (fun _ => rfl) hne, h.size_eq, List.map_append,
        List.sum_append, List.map_singleton, List.sum_singleton, Nat.add_assoc]
  case dropped_eq => exact fun hnil => absurd hnil (by rw [updateBack_concat]; simp)

theorem Accounts.refl (hd : 0 < interval) (h : Evenly interval (timestamps old)) :
    Accounts interval old [] [] old [] where
  counts := Counts.refl hd h
  packets_eq := rfl
  times := List.prefix_rfl
  places := by simp
  packetCount_eq := rfl
  size_eq := rfl
  dropped_eq := fun _ => rfl

theorem Accounts.addPackets (h : Accounts interval old packets dropped new counted)
    (hd : 0 < interval) (hsize : 0 < MaxSize) (more : List PacketData) :
    ∃ dropped counted, Accounts interval old (packets ++ more) dropped
      (more.foldl (addPacket interval MaxSize) new) counted := by
  induction more generalizing packets dropped new counted with
  | nil => exact ⟨dropped, counted, by simpa using h⟩
  | cons packet more ih =>
      obtain ⟨_, hspace⟩ := h.space hd hsize (chronoFloor interval packet.timestamp)
      obtain ⟨last, hlast⟩ := Option.ne_none_iff_exists'.mp fun hnone =>
        spaced_ne_nil hd hsize new (chronoFloor interval packet.timestamp)
          (List.getLast?_eq_none_iff.mp hnone)
      have hrest := ih (hspace.updateBack hd hlast packet)
      rwa [List.append_assoc, List.singleton_append] at hrest

end

/-! ## Sequences of calls -/

/-- A call of one of the two functions for a list. -/
inductive HistogramCall where
  | createHistogram (mAnalysisData : List PacketData)
  | ensureEnoughSpace (roundedTimestamp : Int)

namespace HistogramCall

def run (interval : Int) (MaxSize fuel : Nat) (list : List TimeInfo) :
    HistogramCall → Except VectorFault (List TimeInfo)
  | createHistogram mAnalysisData => Statistics.createHistogram interval MaxSize fuel mAnalysisData list
  | ensureEnoughSpace roundedTimestamp =>
    Statistics.ensureEnoughSpace interval MaxSize fuel list roundedTimestamp

/-- The rounded timestamps that space is asked for. -/
def asked (interval : Int) : HistogramCall → List Int
  | createHistogram mAnalysisData =>
    mAnalysisData.map fun packet => chronoFloor interval packet.timestamp
  | ensureEnoughSpace roundedTimestamp => [roundedTimestamp]

/-- The packets of the batch. -/
def packets : HistogramCall → List PacketData
  | createHistogram mAnalysisData => mAnalysisData
  | ensureEnoughSpace _ => []

end HistogramCall

/-- The list after some calls. -/
def histogramAfter (interval : Int) (MaxSize fuel : Nat) (calls : List HistogramCall) :
    Except VectorFault (List TimeInfo) :=
  calls.foldlM (fun list call => call.run interval MaxSize fuel list) []

/-- A list that space was asked in for some timestamps: one bucket for each interval, as many as
allowed, and the last of them not before any of the timestamps. -/
structure IsHistogram (interval : Int) (MaxSize : Nat) (asked : List Int) (list : List TimeInfo) :
    Prop where
  evenly : Evenly interval (list.map TimeInfo.timestamp)
  length_le : list.length ≤ MaxSize
  ne_nil : asked ≠ [] → list ≠ []
  reached : ∀ roundedTimestamp ∈ asked, ∃ last ∈ list.getLast?, roundedTimestamp ≤ last.timestamp

/-- How a call changes a list. Together with those dropped at the front, its buckets are the old
ones and new ones after them, one for each interval; every packet is counted at one time,
which is that of one bucket, and the buckets have counted these packets and no others. -/
structure CountsOnce (interval : Int) (old : List TimeInfo) (packets : List PacketData)
    (dropped new : List TimeInfo) (counted : List (PacketData × Int)) : Prop where
  packets_eq : counted.map Prod.fst = packets
  evenly : Evenly interval ((dropped ++ new).map TimeInfo.timestamp)
  old_times : old.map TimeInfo.timestamp <+: (dropped ++ new).map TimeInfo.timestamp
  one_bucket : ∀ c ∈ counted, ∃! b, b ∈ dropped ++ new ∧ b.timestamp = c.2
  packetCount : ∀ b ∈ dropped ++ new, b.packetCount =
    (bucketAt old b.timestamp).elim 0 TimeInfo.packetCount + (packetsAt counted b.timestamp).length
  size : ∀ b ∈ dropped ++ new, b.cummulativePacketSize =
    (bucketAt old b.timestamp).elim 0 TimeInfo.cummulativePacketSize +
      ((packetsAt counted b.timestamp).map PacketData.payloadLength).sum
  total_packetCount : total TimeInfo.packetCount (dropped ++ new) =
    total TimeInfo.packetCount old + packets.length
  total_size : total TimeInfo.cummulativePacketSize (dropped ++ new) =
    total TimeInfo.cummulativePacketSize old + (packets.map PacketData.payloadLength).sum

section

variable {interval : Int} {MaxSize : Nat} {old new dropped list : List TimeInfo}
  {packets : List PacketData} {counted : List (PacketData × Int)} {asked : List Int}

theorem Accounts.countsOnce (h : Accounts interval old packets dropped new counted)
    (hd : 0 < interval) : CountsOnce interval old packets dropped new counted where
  packets_eq := h.packets_eq
  evenly := h.counts.evenly
  old_times := h.times
  one_bucket := by
    intro c hc
    obtain ⟨b, hb, htime⟩ := List.mem_map.mp (h.places c hc)
    refine ⟨b, ⟨hb, htime⟩, ?_⟩
    rintro b' ⟨hb', htime'⟩
    exact List.inj_on_of_nodup_map (h.counts.evenly.nodup hd) hb' hb (htime'.trans htime.symm)
  packetCount := by
    intro b hb
    conv_lhs => rw [h.counts.bucket b hb, packetCount_countAll]
    congr 1
    cases bucketAt old (timestamp b) with
    | none => rfl
    | some o => rfl
  size := by
    intro b hb
    conv_lhs => rw [h.counts.bucket b hb, cummulativePacketSize_countAll]
    congr 1
    cases bucketAt old (timestamp b) with
    | none => rfl
    | some o => rfl
  total_packetCount := h.packetCount_eq
  total_size := h.size_eq

theorem IsHistogram.space (h : IsHistogram interval MaxSize asked list) (hd : 0 < interval)
    (hsize : 0 < MaxSize) (roundedTimestamp : Int) :
    IsHistogram interval MaxSize (asked ++ [roundedTimestamp])
      (spaced interval MaxSize list roundedTimestamp) := by
  obtain ⟨last, hlast, hreach, hold⟩ := getLast?_grown hd list roundedTimestamp
  constructor
  case evenly => exact evenly_spaced h.evenly MaxSize roundedTimestamp
  case length_le => exact length_spaced_le _ _ _ _
  case ne_nil => exact fun _ => spaced_ne_nil hd hsize _ _
  case reached =>
      rw [List.forall_mem_append, List.forall_mem_singleton, getLast?_spaced hsize, hlast]
      refine ⟨fun time htime => ?_, last, rfl, hreach⟩
      obtain ⟨before, hbefore, hle⟩ := h.reached time htime
      exact ⟨last, rfl, hle.trans (hold before hbefore)⟩

theorem IsHistogram.updateBack (h : IsHistogram interval MaxSize asked list)
    (packet : PacketData) : IsHistogram interval MaxSize asked (updateBack (count packet) list) := by
  have htimes := timestamps_updateBack packet list
  constructor
  case evenly =>
      change Evenly interval (timestamps _)
      rw [htimes]
      exact h.evenly
  case length_le =>
      have hlength := congrArg List.length htimes
      rw [timestamps, timestamps, List.length_map, List.length_map] at hlength
      exact hlength ▸ h.length_le
  case ne_nil =>
      rintro hne hnil
      rw [hnil] at htimes
      exact h.ne_nil hne (List.map_eq_nil_iff.mp htimes.symm)
  case reached =>
      intro time htime
      obtain ⟨last, hlast, hle⟩ := h.reached time htime
      obtain ⟨front, rfl⟩ := List.getLast?_eq_some_iff.mp hlast
      rw [updateBack_concat, List.getLast?_concat]
      exact ⟨_, rfl, hle⟩

theorem IsHistogram.addPackets (h : IsHistogram interval MaxSize asked list) (hd : 0 < interval)
    (hsize : 0 < MaxSize) (packets : List PacketData) :
    IsHistogram interval MaxSize
      (asked ++ packets.map fun packet => chronoFloor interval packet.timestamp)
      (packets.foldl (addPacket interval MaxSize) list) := by
  induction packets generalizing asked list with
  | nil => simpa using h
  | cons packet packets ih =>
      have hrest := ih ((h.space hd hsize (chronoFloor interval packet.timestamp)).updateBack packet)
      rwa [List.append_assoc] at hrest

/-- One call: it is over without an access out of range, keeps the shape of the list and
counts its packets once. -/
theorem HistogramCall.run_spec (h : IsHistogram interval MaxSize asked list)
    (hd : 0 < interval) (hsize : 0 < MaxSize) (call : HistogramCall) :
    ∃ next, Ends (fun fuel => call.run interval MaxSize fuel list) next ∧
      IsHistogram interval MaxSize (asked ++ call.asked interval) next ∧
      ∃ dropped counted, CountsOnce interval list call.packets dropped next counted := by
  have hrefl := Accounts.refl hd h.evenly
  cases call with
  | createHistogram mAnalysisData =>
      obtain ⟨dropped, counted, haccounts⟩ := hrefl.addPackets hd hsize mAnalysisData
      exact ⟨_, ends_createHistogram hd hsize mAnalysisData list,
        h.addPackets hd hsize mAnalysisData, dropped, counted, haccounts.countsOnce hd⟩
  | ensureEnoughSpace roundedTimestamp =>
      obtain ⟨dropped, haccounts⟩ := hrefl.space hd hsize roundedTimestamp
      exact ⟨_, ends_ensureEnoughSpace hd hsize list roundedTimestamp,
        h.space hd hsize roundedTimestamp, dropped, [], haccounts.countsOnce hd⟩

theorem exists_histogramAfter (hd : 0 < interval) (hsize : 0 < MaxSize)
    (calls : List HistogramCall) :
    ∃ list, Ends (fun fuel => histogramAfter interval MaxSize fuel calls) list ∧
      IsHistogram interval MaxSize (calls.flatMap (HistogramCall.asked interval)) list := by
  induction calls using List.reverseRecOn with
  | nil => exact ⟨[], ends_ok [], List.isChain_nil, Nat.zero_le _, by simp, by simp⟩
  | append_singleton calls call ih =>
      obtain ⟨list, hends, hlist⟩ := ih
      obtain ⟨next, hrun, hnext, -⟩ := HistogramCall.run_spec hlist hd hsize call
      refine ⟨next, ?_, ?_⟩
      · have hchain := hends.bind (g := fun fuel list => call.run interval MaxSize fuel list) hrun
        simpa [histogramAfter, List.foldlM_append] using hchain
      · simpa [List.flatMap_append] using hnext

/-- Whatever the calls before, a further one is over without an access out of range, the list
has one bucket for each interval up to the last timestamp asked for, and each packet of the
batch counts in exactly one bucket. -/
theorem histogram_calls (hd : 0 < interval) (hsize : 1 ≤ MaxSize) (calls : List HistogramCall)
    (call : HistogramCall) :
    ∃ list, Ends (fun fuel => histogramAfter interval MaxSize fuel calls) list ∧
    ∃ next, Ends (fun fuel => call.run interval MaxSize fuel list) next ∧
      IsHistogram interval MaxSize ((calls ++ [call]).flatMap (HistogramCall.asked interval)) next ∧
      ∃ dropped counted, CountsOnce interval list call.packets dropped next counted := by
  obtain ⟨list, hends, hlist⟩ := exists_histogramAfter hd hsize calls
  obtain ⟨next, hrun, hnext, hcounts⟩ := HistogramCall.run_spec hlist hd hsize call
  refine ⟨list, hends, next, hrun, ?_, hcounts⟩
  simpa [List.flatMap_append] using hnext

end

/-- Two buckets of a minute are kept: a packet of the past counts in the last of them, and
one after a long gap drops both. -/
theorem histogram_calls_gap :
    ∃ list, Ends (fun fuel => histogramAfter 60 2 fuel
        [.ensureEnoughSpace 120, .createHistogram [⟨[], 5, 70, .qos0⟩]]) list ∧
    ∃ next, Ends (fun fuel => HistogramCall.run 60 2 fuel list
        (.createHistogram [⟨[], 7, 1000, .qos0⟩])) next ∧
      IsHistogram 60 2 [120, 60, 960] next ∧
      ∃ dropped counted, CountsOnce 60 list [⟨[], 7, 1000, .qos0⟩] dropped next counted :=
  histogram_calls (by decide) (by decide)
    [.ensureEnoughSpace 120, .createHistogram [⟨[], 5, 70, .qos0⟩]]
    (.createHistogram [⟨[], 7, 1000, .qos0⟩])

end Statistics

end NioevMqtt
